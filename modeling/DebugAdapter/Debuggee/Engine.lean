import DebugAdapter.Bytes
import DebugAdapter.Debuggee.Error
import DebugAdapter.Debuggee.Module
import DebugAdapter.Debuggee.State

/-!
# Debug engines

What the program needs from a debug engine, as data: a `Call` asks the engine or one of its targets
to do something, and `Call.Answer` is the type of what it gives back; a `Query` reads what a target
publishes about its process. An engine is anything that answers calls and queries while its own
state changes, so a statement over every `DebugEngine` holds whatever the answers are.

A call may be answered by an error, or break down; a query always has an answer. What an engine
gives back for a raw command is an `Inquiry`: a program that may put further requests and queries to
a target, and ends in an output.
-/

namespace DebugAdapter.Debuggee

/-- A target of an engine: its number in order of creation. -/
abbrev Handle := Nat

/-- How to launch a program. -/
structure LaunchInfo where
  args : List String
  cwd : Option String
  disableAslr : Bool
  stopAtEntry : Bool
  deriving Repr, DecidableEq

/-- A thread and why it stopped. -/
structure ThreadInfo where
  tid : Nat
  reason : StopReason
  deriving Repr, DecidableEq

/-- A breakpoint of an engine: its id there and its address. -/
structure BreakpointInfo where
  id : Nat
  address : UInt64
  deriving Repr, DecidableEq

/-- A register and its value. -/
structure Register where
  name : String
  value : UInt64
  deriving Repr, DecidableEq

/-- A frame of a call stack. -/
structure StackFrame where
  pc : UInt64
  function : Option String
  /-- The file name of the module with the program counter. -/
  module : Option String
  uuid : Option String
  deriving Repr, DecidableEq

/-- A machine instruction in text form. -/
structure Instruction where
  address : UInt64
  bytes : Bytes
  mnemonic : String
  operands : String
  deriving Repr, DecidableEq

/-- What an engine reports about a process on its own. -/
inductive Event where
  | stateChanged (s : ProcessState)
  | stdout
  | stderr
  | modulesLoaded (modules : List Module)
  | modulesUnloaded (modules : List Module)
  deriving Repr, DecidableEq

/-- Optional features of an engine. -/
structure Capabilities where
  remoteConnect : Bool
  rawCommands : Bool
  referenceScan : Bool
  deriving Repr, DecidableEq

/-- The result of a raw command. -/
structure CommandOutput where
  output : String
  error : String
  succeeded : Bool
  deriving Repr, DecidableEq

namespace CommandOutput

/-- The output of a raw command that succeeded. -/
def success (output : String) : CommandOutput := ⟨output, "", true⟩

/-- The error of a raw command that failed. -/
def failure (error : String) : CommandOutput := ⟨"", error, false⟩

end CommandOutput

/-- What a raw command refers to: a target, its selected thread and frame. -/
structure Focus where
  target : Option Handle
  thread : Option Nat
  frame : Nat
  deriving Repr, DecidableEq

/-- A request to a target. -/
inductive Request where
  | launch (info : LaunchInfo)
  | attach (pid : Nat)
  | connectRemote (url plugin : String)
  | resume
  | interrupt
  | kill
  | detach
  | destroy
  | step (tid : Nat) (kind : StepKind)
  | threads
  | setBreakpoint (addr : UInt64)
  | removeBreakpoint (id : Nat)
  | removeAllBreakpoints
  | readMemory (addr : UInt64) (length : Nat)
  | writeMemory (addr : UInt64) (data : Bytes)
  | registers (tid frame : Nat)
  | setRegister (tid frame : Nat) (name : String) (value : UInt64)
  | callStack (tid : Nat)
  | disassemble (addr : UInt64) (count : Nat)
  | modules
  | mainModule
  | entryPoint
  | findReferences (addr : UInt64)
  | writeStdin (data : Bytes)
  | readStdout (limit : Nat)
  | readStderr (limit : Nat)
  deriving Repr, DecidableEq

/-- What a target gives back for a request. -/
abbrev Request.Answer : Request → Type
  | threads => List ThreadInfo
  | setBreakpoint _ => BreakpointInfo
  | readMemory .. => Bytes
  | writeMemory .. => Nat
  | registers .. => List Register
  | callStack _ => List StackFrame
  | disassemble .. => List Instruction
  | modules => List Module
  | mainModule => Option Module
  | entryPoint => UInt64
  | findReferences _ => List Instruction
  | writeStdin _ => Nat
  | readStdout _ => Bytes
  | readStderr _ => Bytes
  | _ => Unit

/-- The name of a request in scripts and logs. -/
def Request.name : Request → String
  | launch _ => "launch"
  | attach _ => "attach"
  | connectRemote .. => "connect_remote"
  | resume => "resume"
  | interrupt => "interrupt"
  | kill => "kill"
  | detach => "detach"
  | destroy => "destroy"
  | step .. => "step"
  | threads => "threads"
  | setBreakpoint _ => "set_breakpoint"
  | removeBreakpoint _ => "remove_breakpoint"
  | removeAllBreakpoints => "remove_all_breakpoints"
  | readMemory .. => "read_memory"
  | writeMemory .. => "write_memory"
  | registers .. => "registers"
  | setRegister .. => "set_register"
  | callStack _ => "call_stack"
  | disassemble .. => "disassemble"
  | modules => "modules"
  | mainModule => "main_module"
  | entryPoint => "entry_point"
  | findReferences _ => "find_references"
  | writeStdin _ => "write_stdin"
  | readStdout _ => "read_stdout"
  | readStderr _ => "read_stderr"

/-- Whether a request reads process output, which has no effect on debugging. -/
def Request.readsOutput : Request → Bool
  | readStdout _ | readStderr _ => true
  | _ => false

/-- What an engine can be asked to do. -/
inductive Call where
  /-- Make a target for a program, which may be known only later. -/
  | createTarget (executable : Option String) (arch : Arch)
  /-- Interpret a raw command. -/
  | rawCommand (focus : Focus) (line : String)
  /-- Complete a raw command up to a byte position. -/
  | complete (line : String) (position : Nat)
  /-- A request to a target. -/
  | request (target : Handle) (r : Request)
  deriving Repr, DecidableEq

/-- What a target publishes about its process. -/
inductive Query where
  /-- Hand out the event queue; a target does so once. -/
  | subscribe
  /-- Take the events that are due now. -/
  | events
  | processId
  | state
  | stopInfo
  | exitStatus
  deriving Repr, DecidableEq

/-- The answer to a query. -/
abbrev Query.Answer : Query → Type
  | subscribe => Bool
  | events => List Event
  | processId => Option Nat
  | state => ProcessState
  | stopInfo => Option StopInfo
  | exitStatus => Option Int

/-- A program that asks a target and ends in a result. -/
inductive Inquiry (α : Type) where
  | done (a : α)
  | request (target : Handle) (r : Request) (next : Except DebugError r.Answer → Inquiry α)
  | query (target : Handle) (q : Query) (next : q.Answer → Inquiry α)

namespace Inquiry

/-- Goes on with the result of an inquiry. -/
def bind {α β : Type} : Inquiry α → (α → Inquiry β) → Inquiry β
  | done a, f => f a
  | request t r next, f => request t r fun answer => (next answer).bind f
  | query t q next, f => query t q fun answer => (next answer).bind f

instance : Monad Inquiry where
  pure := done
  bind := bind

end Inquiry

/-- What an engine gives back for a call. -/
abbrev Call.Answer : Call → Type
  | createTarget .. => Handle
  | rawCommand .. => Inquiry CommandOutput
  | complete .. => List String
  | request _ r => r.Answer

/-- Why a call has no result. -/
inductive Fault where
  /-- The engine reports an error. -/
  | error (e : DebugError)
  /-- The engine broke down, perhaps with a message. -/
  | crash (text : Option String)
  deriving Repr, Inhabited

/-- A debug engine with state `ε`. -/
class DebugEngine (ε : Type) where
  /-- The optional features, fixed when a session starts. -/
  capabilities : ε → Capabilities
  /-- Answers a call. -/
  perform : (c : Call) → ε → Except Fault c.Answer × ε
  /-- Answers a query to a target. -/
  observe : (target : Handle) → (q : Query) → ε → q.Answer × ε
  /-- Why the system would start no notifier now, if it refuses to. -/
  notifierError : ε → Option Linux.OsError := fun _ => none

/-- Runs an inquiry. An error of a request goes to the inquiry; a breakdown of the engine ends it
with what the breakdown says. -/
def Inquiry.run {ε α : Type} [DebugEngine ε] : Inquiry α → ε → Except (Option String) α × ε
  | .done a, e => (.ok a, e)
  | .request t r next, e =>
    match DebugEngine.perform (.request t r) e with
    | (.ok answer, e) => (next (.ok answer)).run e
    | (.error (.error err), e) => (next (.error err)).run e
    | (.error (.crash text), e) => (.error text, e)
  | .query t q next, e =>
    let (answer, e) := DebugEngine.observe t q e
    (next answer).run e

/-- An engine that keeps the calls it was asked, in order. -/
structure Recorded (ε : Type) where
  engine : ε
  /-- The calls so far, last first. -/
  calls : List Call

instance {ε : Type} [DebugEngine ε] : DebugEngine (Recorded ε) where
  capabilities s := DebugEngine.capabilities s.engine
  perform c s :=
    let (a, engine) := DebugEngine.perform c s.engine
    (a, ⟨engine, c :: s.calls⟩)
  observe t q s :=
    let (a, engine) := DebugEngine.observe t q s.engine
    (a, { s with engine })
  notifierError s := DebugEngine.notifierError s.engine

end DebugAdapter.Debuggee
