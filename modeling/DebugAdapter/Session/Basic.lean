import DebugAdapter.Session.Error
import DebugAdapter.Session.Notifier
import DebugAdapter.Session.Settings
import DebugAdapter.Wire.Response

/-!
# Sessions

A session is a state machine over at most one target:

    uninitialized --prepare--> prepared --launch/attach/connect--> active
          ^                                                          |
          +------------------- detach / deleteProcess ---------------+

What the process does (running, stopped, exited) is never remembered here; the target is asked each
time. Breakpoints set before there is a process are pending and installed when the session becomes
active.

A command is an `Action`: it works on the session and gives a reply, or fails. A failure keeps the
changes made up to it, so a command that must not change a session when it fails changes it last.
-/

namespace DebugAdapter

open Debuggee (Call Capabilities DebugEngine DebugError Fault Handle Query Request)
open Session (SessionError Settings)
open Wire (Notification Outbox)

/-- A program staged for a launch. -/
structure Session.Executable where
  path : String
  is64 : Bool
  cwd : Option String
  args : List String
  deriving Repr, DecidableEq

/-- A breakpoint that a session knows; without an engine id it is pending. -/
structure Session.BreakpointEntry where
  id : Nat
  address : UInt64
  engineId : Option Nat
  deriving Repr, DecidableEq

/-- The breakpoints of a session in order of their ids. Ids are never given out twice. -/
structure Session.Breakpoints where
  lastId : Nat
  entries : List Session.BreakpointEntry
  deriving Repr, DecidableEq

/-- The target of an active session and what the user looks at. -/
structure Session.ActiveTarget where
  target : Handle
  /-- The notifier still writes; it stops for good when a message cannot be written. -/
  notifying : Bool
  selectedThread : Option Nat
  selectedFrame : Nat
  deriving Repr, DecidableEq

/-- The states of a session with what belongs to them. -/
inductive Session.Lifecycle where
  | uninitialized
  | prepared (executable : Session.Executable)
  | active (a : Session.ActiveTarget)
  deriving Repr, DecidableEq

/-- The name of the state of a session. -/
def Session.Lifecycle.name : Session.Lifecycle → String
  | uninitialized => "Uninitialized"
  | prepared _ => "Prepared"
  | active _ => "Active"

/-- A debug session over an engine with state `ε`. -/
structure Session (ε : Type) where
  engine : ε
  /-- The features of the engine when the session started. -/
  capabilities : Capabilities
  settings : Settings
  outbox : Outbox
  lifecycle : Session.Lifecycle
  lastPrepared : Option Session.Executable
  breakpoints : Session.Breakpoints

namespace Session

namespace Breakpoints

/-- No breakpoints, and no id given out. -/
def empty : Breakpoints := ⟨0, []⟩

/-- Adds a breakpoint under the next id. -/
def add (b : Breakpoints) (address : UInt64) (engineId : Option Nat) : Nat × Breakpoints :=
  (b.lastId + 1, ⟨b.lastId + 1, b.entries ++ [⟨b.lastId + 1, address, engineId⟩]⟩)

/-- The breakpoint with an id. -/
def get? (b : Breakpoints) (id : Nat) : Option BreakpointEntry :=
  b.entries.find? (·.id == id)

/-- Forgets the breakpoint with an id. -/
def erase (b : Breakpoints) (id : Nat) : Breakpoints :=
  { b with entries := b.entries.filter (·.id != id) }

/-- Forgets all breakpoints; their ids stay used. -/
def clear (b : Breakpoints) : Breakpoints :=
  { b with entries := [] }

/-- Notes the engine id of an installed breakpoint. -/
def install (b : Breakpoints) (id engineId : Nat) : Breakpoints :=
  { b with entries := b.entries.map fun e =>
      if e.id = id then { e with engineId := some engineId } else e }

/-- The breakpoints that are not installed. -/
def pending (b : Breakpoints) : List BreakpointEntry :=
  b.entries.filter (·.engineId.isNone)

end Breakpoints

/-- The selection of an active target is forgotten; the next stop decides it. -/
def ActiveTarget.resetFocus (a : ActiveTarget) : ActiveTarget :=
  { a with selectedThread := none, selectedFrame := 0 }

/-- Why a command has no reply of its own. -/
inductive Failure where
  /-- The command is refused. -/
  | refused (e : SessionError)
  /-- The engine broke down in the middle of the command. -/
  | crashed (text : Option String)
  deriving Repr, Inhabited

/-- Work on a session that gives a result or fails; a failure keeps the session as it is then. -/
abbrev Action (ε α : Type) := ExceptT Failure (StateM (Session ε)) α

variable {ε : Type}

/-- A session without a process. -/
def start [DebugEngine ε] (engine : ε) (settings : Settings) (outbox : Outbox) : Session ε where
  engine := engine
  capabilities := DebugEngine.capabilities engine
  settings := settings
  outbox := outbox
  lifecycle := .uninitialized
  lastPrepared := none
  breakpoints := .empty

/-- Refuses the command. -/
def refuse {α : Type} (e : SessionError) : Action ε α :=
  throw (.refused e)

/-- The active target; without one there is no process. -/
def activeTarget : Action ε ActiveTarget := do
  match (← get).lifecycle with
  | .active a => return a
  | _ => refuse .noProcess

/-- The handle of the active target. -/
def target : Action ε Handle := do
  return (← activeTarget).target

/-- Changes the active target, if there is one. -/
def modifyActive (f : ActiveTarget → ActiveTarget) : Action ε Unit :=
  modify fun s =>
    match s.lifecycle with
    | .active a => { s with lifecycle := .active (f a) }
    | _ => s

/-- Forgets which thread and frame are selected. -/
def resetFocus : Action ε Unit :=
  modifyActive ActiveTarget.resetFocus

/-- Writes a notification of the session itself; a failure has no effect on the command. -/
def notify (n : Notification) : Action ε Unit :=
  modify fun s => { s with outbox := (s.outbox.send n.render).2 }

variable [DebugEngine ε]

/-- Asks the engine; an error is given back, a breakdown ends the command. -/
def perform (c : Call) : Action ε (Except DebugError c.Answer) := do
  let s ← get
  match DebugEngine.perform c s.engine with
  | (.ok a, engine) =>
    set { s with engine }
    return .ok a
  | (.error (.error e), engine) =>
    set { s with engine }
    return .error e
  | (.error (.crash text), engine) =>
    set { s with engine }
    throw (.crashed text)

/-- Asks a target; an error is given back. -/
def tryRequest (t : Handle) (r : Request) : Action ε (Except DebugError r.Answer) :=
  perform (.request t r)

/-- Reads what a target publishes. -/
def observe (t : Handle) (q : Query) : Action ε q.Answer := do
  let s ← get
  let (a, engine) := DebugEngine.observe t q s.engine
  set { s with engine }
  return a

/-- Hands the events that are due to the notifier of the active target. -/
def deliverEvents (s : Session ε) : Session ε :=
  match s.lifecycle with
  | .active a =>
    let (events, engine) := DebugEngine.observe a.target .events s.engine
    if a.notifying then
      let (alive, c) := Channel.translateAll a.target s.settings.notifier.outputChunk events
        ⟨engine, s.outbox⟩
      { s with
        engine := c.engine
        outbox := c.outbox
        lifecycle := .active { a with notifying := alive } }
    else { s with engine }
  | _ => s

/-- Asks a target for something that changes how its process runs; the events that this caused are
delivered at once. -/
def control (t : Handle) (r : Request) : Action ε (Except DebugError r.Answer) := do
  let s ← get
  match DebugEngine.perform (.request t r) s.engine with
  | (.ok a, engine) =>
    set (deliverEvents { s with engine })
    return .ok a
  | (.error (.error e), engine) =>
    set (deliverEvents { s with engine })
    return .error e
  | (.error (.crash text), engine) =>
    set { s with engine }
    throw (.crashed text)

/-- Turns an engine error into a refusal that names the operation. -/
def orRefuse {α : Type} (operation : String) (r : Except DebugError α) : Action ε α :=
  match r with
  | .ok a => return a
  | .error e => refuse (.engine operation e)

/-- Asks a target; an error refuses the command and names the operation. -/
def request (t : Handle) (r : Request) (operation : String) : Action ε r.Answer := do
  orRefuse operation (← tryRequest t r)

end Session

end DebugAdapter
