import DebugAdapter.Program.Arguments
import DebugAdapter.Session.Configuration

/-!
# The program and its host

What the program does from its arguments to its exit code, over any host: a record of the few
operations that it needs from outside. The order of the steps is fixed: arguments, configuration,
log file, descriptors; the first that fails ends the program before anything is served.
-/

namespace DebugAdapter.Program

open Linux (OsError)
open Session (Settings Configuration.ofBytes?)
open Wire (Framing)

/-- What the program needs from outside. -/
structure Host (m : Type → Type) (Input Output : Type) where
  /-- The value of an environment variable. -/
  environment : String → m (Option String)
  /-- The contents of a file. -/
  readFile : String → m (Except OsError Bytes)
  /-- Opens a file to add to it; a file that is missing is made. -/
  openLog : String → m (Except OsError Unit)
  standardInput : Input
  standardOutput : Output
  /-- An inherited descriptor, if there is one with the number. -/
  openInput : Int → m (Option Input)
  openOutput : Int → m (Option Output)
  /-- Writes a text for the user. -/
  print : String → m Unit
  /-- Writes a complaint. -/
  complain : String → m Unit
  /-- Serves a session, with the wire trace in a file if one is named. -/
  serve : Settings → Framing → Input → Output → (trace : Option String) → m Unit

/-- Why the program ends before it serves a session. -/
inductive StartError where
  | usage (e : UsageError)
  | unreadableConfiguration (path : String) (e : OsError)
  | invalidConfiguration (path : String)
  | unopenedLog (path : String) (e : OsError)
  | invalidDescriptor (n : Int)
  | oneDescriptor
  deriving Repr, DecidableEq

namespace StartError

/-- The exit code of an error. -/
def exitCode : StartError → Nat
  | usage _ => 2
  | _ => 1

/-- The wording of an error. -/
def message : StartError → String
  | usage e => e.message
  | unreadableConfiguration path e => "read config file " ++ path ++ ": " ++ e.fileText
  | invalidConfiguration path => "parse " ++ path
  | unopenedLog path e => "open log file " ++ path ++ ": " ++ e.fileText
  | invalidDescriptor n => "invalid descriptor " ++ Text.decimalInt n
  | oneDescriptor => "both INPUT_FD and OUTPUT_FD must be given, or none of them"

end StartError

/-- The environment variable that names the configuration file. -/
def configVariable : String := "BS_BRIDGE_CONFIG"

/-- The standard configuration file below the home directory. -/
def standardConfig (home : String) : String :=
  let separator := if home.endsWith "/" then "" else "/"
  home ++ separator ++ ".config/bs-bridge/config.toml"

/-- The settings in a configuration file. A file that need not be there may be missing. -/
def settingsIn (path : String) (required : Bool) (contents : Except OsError Bytes) :
    Except StartError Settings :=
  match contents with
  | .ok bs =>
    match Configuration.ofBytes? bs with
    | some s => .ok s
    | none => .error (.invalidConfiguration path)
  | .error e =>
    if e = .noEntry ∧ !required then .ok .standard else .error (.unreadableConfiguration path e)

section

variable {m : Type → Type} [Monad m] {Input Output : Type}

/-- Loads the settings: from the named file, or from the standard one. A home directory without a name
counts as none. -/
def loadSettings (host : Host m Input Output) (config : Option String) :
    ExceptT StartError m Settings := do
  match config with
  | some path => ExceptT.mk (return settingsIn path true (← host.readFile path))
  | none =>
    match ← host.environment "HOME" with
    | none | some "" => return .standard
    | some home =>
      let path := standardConfig home
      ExceptT.mk (return settingsIn path false (← host.readFile path))

/-- Opens the log file, if there is one. -/
def openLog (host : Host m Input Output) (file : Option String) : ExceptT StartError m Unit := do
  match file with
  | none => return ()
  | some path =>
    match ← host.openLog path with
    | .ok () => return ()
    | .error e => throw (.unopenedLog path e)

/-- The two ends of the connection that the arguments ask for, and its framing. -/
def connect (host : Host m Input Output) (a : Arguments) :
    ExceptT StartError m (Framing × Input × Output) := do
  match a.connection? with
  | none => throw .oneDescriptor
  | some .standard => return (.line, host.standardInput, host.standardOutput)
  | some (.descriptors i o) =>
    match ← host.openInput i with
    | none => throw (.invalidDescriptor i)
    | some input =>
      match ← host.openOutput o with
      | none => throw (.invalidDescriptor o)
      | some output => return (.binary, input, output)

/-- Serves a session with the given arguments. Tracing needs a log file. -/
def serve (host : Host m Input Output) (a : Arguments) : ExceptT StartError m Unit := do
  let settings := a.settle (← loadSettings host a.config)
  openLog host settings.log.file
  let trace := if settings.log.traceWire then settings.log.file else none
  let (framing, input, output) ← connect host a
  host.serve settings framing input output trace

/-- Does what the arguments ask for. -/
def perform (host : Host m Input Output) (arguments : List String) :
    ExceptT StartError m Unit := do
  match Invocation.read (← host.environment configVariable) arguments with
  | .error e => throw (.usage e)
  | .ok .showVersion => host.print versionText
  | .ok .showHelp => host.print helpText
  | .ok (.serve a) => serve host a

/-- Runs the program and gives its exit code. -/
def run (host : Host m Input Output) (arguments : List String) : m Nat := do
  match ← (perform host arguments).run with
  | .ok () => return 0
  | .error e =>
    host.complain e.message
    return e.exitCode

end

end DebugAdapter.Program
