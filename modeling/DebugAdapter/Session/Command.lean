import DebugAdapter.Session.Arguments
import DebugAdapter.Session.Breakpoints
import DebugAdapter.Session.Inspection
import DebugAdapter.Session.Lifecycle

/-!
# Commands

The commands of the wire protocol with their arguments, how they are read from a request document,
and which action each one is. Reading never touches a session.
-/

namespace DebugAdapter.Session

open Debuggee (DebugEngine StepKind)
open Wire (Response)

/-- A command with its arguments. -/
inductive Command where
  | ping
  | prepare (executable : Executable)
  | launch
  | attach (pid : Nat) (executable : Option String) (is64 : Bool)
  | connectRemote (is64 : Bool) (url plugin : String) (file : Option String)
  | detach
  | deleteProcess
  | hasProcess
  | processState
  | resume
  | kill
  | interrupt
  | forceStopAndReport
  | step (kind : StepKind)
  | stepUntilUserCode
  | threads
  | selectThread (tid : Nat)
  | callStack
  | selectFrame (index : Nat)
  | registers
  | setRegister (name : String) (value : UInt64)
  | readMemory (addr : UInt64) (length : Nat)
  | writeByte (addr : UInt64) (value : UInt8)
  | sendToApplication (data : Bytes)
  | setBreakpoint (addr : UInt64)
  | removeBreakpoint (id : Nat)
  | removeAllBreakpoints
  | disassembly (addr : UInt64) (count : Nat)
  | mainExecutableDisassembly (count : Nat)
  | findStringReferences (addr : UInt64)
  | moduleCount
  | moduleAtIndex (index : Int)
  | moduleForFile (file : String)
  | executeCommand (line : String)
  | completeCommand (line : String) (position : Nat)
  deriving Repr, DecidableEq

/-- A path argument; blank texts count as missing. -/
def nonBlank (path : Option String) : Option String :=
  path.filter fun p => !(p.toList.all Text.isBlank)

/-- How many instructions are shown without a count. -/
def defaultInstructionCount : Nat := 32

/-- Whether addresses have 64 bits, which they have unless said otherwise. -/
def is64Field : Field Bool := .withDefault "is64Bits" .flag true

/-- A required address. -/
def addressField : Field UInt64 := .required "address" .address

/-- How many instructions to show. -/
def countField : Field Nat := .withDefault "count" .size defaultInstructionCount

/-- Reads the arguments of a command: first every member that is there, then the values. -/
def withArguments {α : Type} (doc : Json.Members) (checks : List Check)
    (build : Except ArgumentError α) : Except ArgumentError α := do
  checkMembers checks doc
  build

/-- The executable that a request stages. -/
def readExecutable (doc : Json.Members) : Except ArgumentError Executable :=
  let path : Field String := .required "path" .path
  let cwd : Field (Option String) := .optional "cwd" .text
  let args : Field (Option (List String)) := .optional "args" .programArguments
  withArguments doc [path.check, is64Field.check, cwd.check, args.check] do
    let path ← path.get doc
    let is64 ← is64Field.get doc
    let cwd ← cwd.get doc
    let args ← args.get doc
    return ⟨path, is64, nonBlank cwd, args.getD []⟩

/-- The arguments of `attachToProcess`. -/
def readAttach (doc : Json.Members) : Except ArgumentError Command :=
  let pid : Field Nat := .required "pid" .natural32
  let executable : Field (Option String) := .optional "executable" .text
  withArguments doc [pid.check, executable.check, is64Field.check] do
    let pid ← pid.get doc
    let executable ← executable.get doc
    let is64 ← is64Field.get doc
    return .attach pid (nonBlank executable) is64

/-- The arguments of `connectRemote`. The platform is accepted and not used. -/
def readConnect (doc : Json.Members) : Except ArgumentError Command :=
  let url : Field String := .required "url" .text
  let plugin : Field String := .withDefault "plugin" .text ""
  let platform : Field (Option String) := .optional "platform" .text
  let file : Field (Option String) := .optional "file" .text
  withArguments doc
      [is64Field.check, url.check, plugin.check, platform.check, file.check] do
    let is64 ← is64Field.get doc
    let url ← url.get doc
    let plugin ← plugin.get doc
    let file ← file.get doc
    return .connectRemote is64 url plugin (nonBlank file)

/-- The argument of a command that has only one. -/
def readOne {α : Type} (doc : Json.Members) (f : Field α) (build : α → Command) :
    Except ArgumentError Command :=
  withArguments doc [f.check] (build <$> f.get doc)

/-- The arguments of a command that has two. -/
def readTwo {α β : Type} (doc : Json.Members) (f : Field α) (g : Field β)
    (build : α → β → Command) : Except ArgumentError Command :=
  withArguments doc [f.check, g.check] do
    let a ← f.get doc
    let b ← g.get doc
    return build a b

/-- The outcome of reading a command: the command, or why its arguments are refused. -/
abbrev CommandRead := Except ArgumentError Command

/-- The commands of the protocol by name, each with the reader of its arguments. -/
def commandTable : List (String × (Json.Members → CommandRead)) :=
  [("ping", fun _ => .ok .ping),
    ("prepareExecutable", fun doc => .prepare <$> readExecutable doc),
    ("createProcess", fun _ => .ok .launch),
    ("launch", fun _ => .ok .launch),
    ("attachToProcess", readAttach),
    ("connectRemote", readConnect),
    ("detach", fun _ => .ok .detach),
    ("deleteProcess", fun _ => .ok .deleteProcess),
    ("hasProcess", fun _ => .ok .hasProcess),
    ("getProcessState", fun _ => .ok .processState),
    ("continueExecution", fun _ => .ok .resume),
    ("stopExecution", fun _ => .ok .kill),
    ("breakExecution", fun _ => .ok .interrupt),
    ("forceStopAndReport", fun _ => .ok .forceStopAndReport),
    ("stepInstruction", fun _ => .ok (.step .instruction)),
    ("stepOver", fun _ => .ok (.step .over)),
    ("stepOut", fun _ => .ok (.step .out)),
    ("stepUntilUserCode", fun _ => .ok .stepUntilUserCode),
    ("getThreadIDList", fun _ => .ok .threads),
    ("selectThreadID", fun doc => readOne doc (.required "tid" .natural64) .selectThread),
    ("getCallstack", fun _ => .ok .callStack),
    ("selectFrame", fun doc => readOne doc (.required "index" .size) .selectFrame),
    ("getRegisters", fun _ => .ok .registers),
    ("setRegister", fun doc =>
      readTwo doc (.required "register" .text) (.required "value" .address) .setRegister),
    ("readMemory", fun doc =>
      readTwo doc addressField (.required "length" .size) .readMemory),
    ("sendToApplication", fun doc => readOne doc (.required "data" .data) .sendToApplication),
    ("setBreakpointAtVirtualAddress", fun doc => readOne doc addressField .setBreakpoint),
    ("removeBreakpoint", fun doc =>
      readOne doc (.required "bkpt_id" .natural32) .removeBreakpoint),
    ("removeAllBreakpoints", fun _ => .ok .removeAllBreakpoints),
    ("disassembly", fun doc => readTwo doc addressField countField .disassembly),
    ("getMainExecutableDisassembly", fun doc =>
      readOne doc countField .mainExecutableDisassembly),
    ("findStringReferences", fun doc =>
      readOne doc (.required "stringAddress" .address) .findStringReferences),
    ("moduleCount", fun _ => .ok .moduleCount),
    ("moduleAtIndex", fun doc => readOne doc (.required "index" .signed64) .moduleAtIndex),
    ("moduleForFile", fun doc => readOne doc (.required "file" .text) .moduleForFile),
    ("executeCommand", fun doc => readOne doc (.required "cli" .text) .executeCommand),
    ("completeCommand", fun doc =>
      readTwo doc (.required "cli" .text) (.optional "pos" .size) fun line position =>
        .completeCommand line (position.getD line.utf8ByteSize))]

/-- The arguments of `writeByte`, whose value is a number of 64 bits that must be a byte. -/
def readWriteByte (name : String) (doc : Json.Members) : Except SessionError Command :=
  let value : Field Nat := .required "value" .natural64
  let read : Except ArgumentError (UInt64 × Nat) :=
    withArguments doc [addressField.check, value.check] do
      let addr ← addressField.get doc
      let value ← value.get doc
      return (addr, value)
  match read with
  | .error e => .error (.badRequest (name ++ ": " ++ e.message))
  | .ok (addr, value) =>
    if value < 256 then .ok (.writeByte addr (UInt8.ofNat value))
    else .error (.badRequest (name ++ ": value " ++ Text.decimal value ++ " is not a byte"))

/-- Reads the command with a name from a request document. -/
def Command.read (name : String) (doc : Json.Members) : Except SessionError Command :=
  if name = "writeByte" then readWriteByte name doc
  else match commandTable.lookup name with
    | none => .error (.unknownCommand name)
    | some read =>
      match read doc with
      | .ok c => .ok c
      | .error e => .error (.badRequest (name ++ ": " ++ e.message))

/-- The action of a command. -/
def execute {ε : Type} [DebugEngine ε] : Command → Action ε Response
  | .ping => return .ok
  | .prepare executable => prepare executable
  | .launch => launch
  | .attach pid executable is64 => attach pid executable is64
  | .connectRemote is64 url plugin file => connectRemote is64 url plugin file
  | .detach => detach
  | .deleteProcess => deleteProcess
  | .hasProcess => hasProcess
  | .processState => processState
  | .resume => resume
  | .kill => kill
  | .interrupt => interrupt
  | .forceStopAndReport => forceStopAndReport
  | .step kind => step kind
  | .stepUntilUserCode => stepUntilUserCode
  | .threads => threads
  | .selectThread tid => selectThread tid
  | .callStack => callStack
  | .selectFrame index => selectFrame index
  | .registers => registers
  | .setRegister name value => setRegister name value
  | .readMemory addr length => readMemory addr length
  | .writeByte addr value => writeByte addr value
  | .sendToApplication data => sendToApplication data
  | .setBreakpoint addr => setBreakpoint addr
  | .removeBreakpoint id => removeBreakpoint id
  | .removeAllBreakpoints => removeAllBreakpoints
  | .disassembly addr count => disassembly addr count
  | .mainExecutableDisassembly count => mainExecutableDisassembly count
  | .findStringReferences addr => findStringReferences addr
  | .moduleCount => moduleCount
  | .moduleAtIndex index => moduleAtIndex index
  | .moduleForFile file => moduleForFile file
  | .executeCommand line => executeCommand line
  | .completeCommand line position => completeCommand line position

end DebugAdapter.Session
