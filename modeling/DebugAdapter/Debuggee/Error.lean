import DebugAdapter.Linux.OsError
import DebugAdapter.Text.Numeral
import DebugAdapter.Text.Quoted

/-!
# Errors of a debug engine

Why an operation on a debuggee failed. `message` is the wording; `listing` the form that an error
takes inside a list of errors.
-/

namespace DebugAdapter.Debuggee

open Linux (DataFault OsError)

/-- Why an operation on a debuggee failed. -/
inductive DebugError where
  | io (e : OsError)
  | data (e : DataFault)
  | unsupported (feature : String)
  | tracerGone
  | failure (text : String)
  | executableNotFound (path : String)
  | alreadyRun
  | notStarted
  | processRunning
  | processExit (code : Int)
  | processNotFound (pid : Nat)
  | threadNotFound (tid : Nat)
  | frameNotFound (frame : Nat)
  | registerNotFound (name : String)
  | breakpointNotFound (id : Nat)
  | returnAddressNotFound
  | noMainModule
  | memoryAccess (addr : UInt64)
  | waitpid (e : OsError)
  | ptrace (e : OsError)
  | syscall (call : String) (e : OsError)
  | attach (e : OsError)
  | stepNotCompleted (restarts : Nat)
  | multiple (errors : List DebugError)
  | objectParsing (text : String)
  | disassemblerInit (text : String)
  | disassembly (text : String)
  deriving Repr, Inhabited

namespace DebugError

/-- The name of the kind of an error. -/
def kindName : DebugError → String
  | io _ | data _ => "IO"
  | unsupported _ => "Unsupported"
  | tracerGone => "TracerGone"
  | failure _ => "Failure"
  | executableNotFound _ => "ExecutableNotFound"
  | alreadyRun => "AlreadyRun"
  | notStarted => "ProcessNotStarted"
  | processRunning => "ProcessRunning"
  | processExit _ => "ProcessExit"
  | processNotFound _ => "ProcessNotFound"
  | threadNotFound _ => "ThreadNotFound"
  | frameNotFound _ => "FrameNotFound"
  | registerNotFound _ => "RegisterNameNotFound"
  | breakpointNotFound _ => "BreakpointNotFound"
  | returnAddressNotFound => "ReturnAddressNotFound"
  | noMainModule => "NoMainModule"
  | memoryAccess _ => "MemoryAccess"
  | waitpid _ => "Waitpid"
  | ptrace _ => "Ptrace"
  | syscall .. => "Syscall"
  | attach _ => "Attach"
  | stepNotCompleted _ => "StepNotCompleted"
  | multiple _ => "MultipleErrors"
  | objectParsing _ => "ObjParsing"
  | disassemblerInit _ => "DisAsmInit"
  | disassembly _ => "DisAsm"

/-- The name of the kind with an argument in parentheses. -/
def withArgument (kind argument : String) : String :=
  kind ++ "(" ++ argument ++ ")"

mutual

/-- The form of an error inside a list of errors. -/
def listing : DebugError → String
  | io e =>
    withArgument "IO" ("Os \x7b code: " ++ Text.decimal e.code ++ ", kind: " ++ e.fileKind ++
      ", message: " ++ Text.quoted e.fileDescription ++ " \x7d")
  | data .malformed => withArgument "IO" (withArgument "Kind" DataFault.malformed.kind)
  | data e =>
    withArgument "IO" ("Error \x7b kind: " ++ e.kind ++ ", message: " ++ Text.quoted e.text ++
      " \x7d")
  | unsupported s => withArgument "Unsupported" (Text.quoted s)
  | tracerGone => "TracerGone"
  | failure s => withArgument "Failure" (Text.quoted s)
  | executableNotFound s => withArgument "ExecutableNotFound" (Text.quoted s)
  | alreadyRun => "AlreadyRun"
  | notStarted => "ProcessNotStarted"
  | processRunning => "ProcessRunning"
  | processExit code => withArgument "ProcessExit" (Text.decimalInt code)
  | processNotFound pid => withArgument "ProcessNotFound" (Text.decimal pid)
  | threadNotFound tid => withArgument "ThreadNotFound" (Text.decimal tid)
  | frameNotFound n => withArgument "FrameNotFound" (Text.decimal n)
  | registerNotFound s => withArgument "RegisterNameNotFound" (Text.quoted s)
  | breakpointNotFound id => withArgument "BreakpointNotFound" (Text.decimal id)
  | returnAddressNotFound => "ReturnAddressNotFound"
  | noMainModule => "NoMainModule"
  | memoryAccess addr => withArgument "MemoryAccess" (Text.decimal addr.toNat)
  | waitpid e => withArgument "Waitpid" e.name
  | ptrace e => withArgument "Ptrace" e.name
  | syscall call e => withArgument "Syscall" (Text.quoted call ++ ", " ++ e.name)
  | attach e => withArgument "Attach" e.name
  | stepNotCompleted n => withArgument "StepNotCompleted" (Text.decimal n)
  | multiple [] => withArgument "MultipleErrors" "[]"
  | multiple (e :: r) => withArgument "MultipleErrors" ("[" ++ listing e ++ listingTail r ++ "]")
  | objectParsing s => withArgument "ObjParsing" (withArgument "Error" (Text.quoted s))
  | disassemblerInit s => withArgument "DisAsmInit" s
  | disassembly s => withArgument "DisAsm" s

/-- The errors of a list after the first one. -/
def listingTail : List DebugError → String
  | [] => ""
  | e :: r => ", " ++ listing e ++ listingTail r

end

/-- The wording of an error. -/
def message : DebugError → String
  | io e => e.fileText
  | data e => e.text
  | unsupported s => s ++ " is not supported by this engine"
  | tracerGone => "tracer thread is gone"
  | failure s => s
  | executableNotFound s => "executable not found: " ++ s
  | alreadyRun => "process already running"
  | notStarted => "process is not started"
  | processRunning => "process is running"
  | processExit code => "process exit with code " ++ Text.decimalInt code
  | processNotFound pid => "process pid " ++ Text.decimal pid ++ " not found"
  | threadNotFound tid => "thread " ++ Text.decimal tid ++ " not found"
  | frameNotFound n => "frame number " ++ Text.decimal n ++ " not found"
  | registerNotFound s => "unknown register " ++ s
  | breakpointNotFound id => "breakpoint " ++ Text.decimal id ++ " not found"
  | returnAddressNotFound => "return address not found"
  | noMainModule => "main module not loaded"
  | memoryAccess addr => "unable to access memory at " ++ Text.hexNumber addr.toNat
  | waitpid e => "waitpid syscall error: " ++ e.requestText
  | ptrace e => "ptrace syscall error: " ++ e.requestText
  | syscall call e => call ++ " syscall error: " ++ e.requestText
  | attach e => "attach a running process: " ++ e.requestText
  | stepNotCompleted n => "single step is not completed after " ++ Text.decimal n ++ " restarts"
  | multiple [] => "multiple syscall errors []"
  | multiple (e :: r) => "multiple syscall errors [" ++ listing e ++ listingTail r ++ "]"
  | objectParsing s => "object file parsing error: " ++ s
  | disassemblerInit s => "install disassembler: " ++ s
  | disassembly s => "instructions disassembly error: " ++ s

/-- The target cannot be used after such an error. -/
def isFatal : DebugError → Bool
  | tracerGone | waitpid _ => true
  | _ => false

end DebugError

end DebugAdapter.Debuggee
