/-!
# Errors of the operating system

The error numbers that system calls answer with. A number has two wordings: the one of a failed
debugging request, which starts with the symbolic name, and the one of failed file and pipe
operations, which ends in the number.
-/

namespace DebugAdapter.Linux

/-- An error number of the operating system. -/
inductive OsError where
  | notPermitted | noEntry | noProcess | interrupted | inputOutput | badFile | noChild | tryAgain
  | accessDenied | badAddress | busy | noDevice | notDirectory | isDirectory | invalid | brokenPipe
  | nameTooLong
  deriving Repr, DecidableEq

namespace OsError

/-- The number itself. -/
def code : OsError → Nat
  | notPermitted => 1
  | noEntry => 2
  | noProcess => 3
  | interrupted => 4
  | inputOutput => 5
  | badFile => 9
  | noChild => 10
  | tryAgain => 11
  | accessDenied => 13
  | badAddress => 14
  | busy => 16
  | noDevice => 19
  | notDirectory => 20
  | isDirectory => 21
  | invalid => 22
  | brokenPipe => 32
  | nameTooLong => 36

/-- The symbolic name. -/
def name : OsError → String
  | notPermitted => "EPERM"
  | noEntry => "ENOENT"
  | noProcess => "ESRCH"
  | interrupted => "EINTR"
  | inputOutput => "EIO"
  | badFile => "EBADF"
  | noChild => "ECHILD"
  | tryAgain => "EAGAIN"
  | accessDenied => "EACCES"
  | badAddress => "EFAULT"
  | busy => "EBUSY"
  | noDevice => "ENODEV"
  | notDirectory => "ENOTDIR"
  | isDirectory => "EISDIR"
  | invalid => "EINVAL"
  | brokenPipe => "EPIPE"
  | nameTooLong => "ENAMETOOLONG"

/-- Every error number, in increasing order. -/
def all : List OsError :=
  [notPermitted, noEntry, noProcess, interrupted, inputOutput, badFile, noChild, tryAgain,
    accessDenied, badAddress, busy, noDevice, notDirectory, isDirectory, invalid, brokenPipe,
    nameTooLong]

theorem mem_all (e : OsError) : e ∈ all := by
  cases e <;> decide

/-- The error number with a symbolic name. -/
def ofName? (s : String) : Option OsError :=
  all.find? (·.name == s)

/-- The description in the wording of debugging requests. -/
def description : OsError → String
  | notPermitted => "Operation not permitted"
  | noEntry => "No such file or directory"
  | noProcess => "No such process"
  | interrupted => "Interrupted system call"
  | inputOutput => "I/O error"
  | badFile => "Bad file number"
  | noChild => "No child processes"
  | tryAgain => "Try again"
  | accessDenied => "Permission denied"
  | badAddress => "Bad address"
  | busy => "Device or resource busy"
  | noDevice => "No such device"
  | notDirectory => "Not a directory"
  | isDirectory => "Is a directory"
  | invalid => "Invalid argument"
  | brokenPipe => "Broken pipe"
  | nameTooLong => "File name too long"

/-- The wording of a failed debugging request: name and description. -/
def requestText (e : OsError) : String :=
  e.name ++ ": " ++ e.description

/-- The description in the wording of file and pipe operations. -/
def fileDescription : OsError → String
  | inputOutput => "Input/output error"
  | badFile => "Bad file descriptor"
  | tryAgain => "Resource temporarily unavailable"
  | e => e.description

/-- The wording of a failed file or pipe operation: description and number. -/
def fileText (e : OsError) : String :=
  e.fileDescription ++ " (os error " ++ toString e.code ++ ")"

/-- The class of a failed file or pipe operation. -/
def fileKind : OsError → String
  | notPermitted | accessDenied => "PermissionDenied"
  | noEntry => "NotFound"
  | interrupted => "Interrupted"
  | tryAgain => "WouldBlock"
  | busy => "ResourceBusy"
  | notDirectory => "NotADirectory"
  | isDirectory => "IsADirectory"
  | invalid => "InvalidInput"
  | brokenPipe => "BrokenPipe"
  | nameTooLong => "InvalidFilename"
  | _ => "Uncategorized"

end OsError

/-- Why data cannot be handed to the system or taken from it, although no call failed. -/
inductive DataFault where
  /-- A file of the system does not have its form. -/
  | malformed
  /-- A file of the system is no text. -/
  | notText
  /-- A text for the system holds the character that ends texts there. -/
  | holdsEndMark
  deriving Repr, DecidableEq

namespace DataFault

/-- The wording of a fault. -/
def text : DataFault → String
  | malformed => "invalid input parameter"
  | notText => "stream did not contain valid UTF-8"
  | holdsEndMark => "nul byte found in provided data"

/-- The class of a fault. -/
def kind : DataFault → String
  | malformed | holdsEndMark => "InvalidInput"
  | notText => "InvalidData"

end DataFault

end DebugAdapter.Linux
