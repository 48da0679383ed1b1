import DebugAdapter.Debuggee.Engine
import DebugAdapter.Wire.Notification
import DebugAdapter.Wire.Outbox

/-!
# The notifier

Translates the events of a target into notifications, in the order of the events. A change of state
gives one `state` document, followed by a `stopped` or `detached` document where that is the new
state; a module event gives one document; an output event gives the output that can be read, cut
into chunks. The details (why the process stopped, its exit status, its output) are those of the
target at the time of the translation.

A notifier whose message cannot be written stops for good.
-/

namespace DebugAdapter.Session

open Debuggee (DebugEngine Event Handle Module ProcessState Request StopInfo)
open Wire (ModuleImage Notification Outbox)

/-- The most chunks of output that one event gives. -/
def maxChunksPerEvent : Nat := 64

/-- The images of modules in a notification: those that were moved from their file address or lie
on it. -/
def movedImages (modules : List Module) : List ModuleImage :=
  modules.filterMap fun m => m.slide.map fun slide =>
    { directory := m.directory
      file := m.fileName
      loadAddress := m.loadAddress
      fileAddress := m.fileAddress
      slide }

/-- The notification of a stop with the given details. -/
def stoppedNotification (stop : Option StopInfo) : Notification :=
  match stop with
  | some s => .stopped s.reason.name s.thread s.pc
  | none => .stopped "Stopped" 0 0

/-- An engine and the outbox, the two things that a notifier works with. -/
structure Channel (ε : Type) where
  engine : ε
  outbox : Outbox

namespace Channel

variable {ε : Type} [DebugEngine ε]

/-- Writes a notification; `false` if it could not be written. -/
def emit (n : Notification) (c : Channel ε) : Bool × Channel ε :=
  match c.outbox.send n.render with
  | (.ok _, outbox) => (true, { c with outbox })
  | (.error _, outbox) => (false, { c with outbox })

/-- Reads output in chunks and writes a notification for each, at most `fuel` of them, until there
is nothing to read. -/
def emitOutput (target : Handle) (read : Request) (data? : read.Answer → Bytes)
    (wrap : Bytes → Notification) : (fuel : Nat) → Channel ε → Bool × Channel ε
  | 0, c => (true, c)
  | fuel + 1, c =>
    match DebugEngine.perform (.request target read) c.engine with
    | (.error (.error _), engine) => (true, { c with engine })
    | (.error (.crash _), engine) => (false, { c with engine })
    | (.ok answer, engine) =>
      let data := data? answer
      if data.isEmpty then (true, { c with engine })
      else match emit (wrap data) { c with engine } with
        | (true, c) => emitOutput target read data? wrap fuel c
        | (false, c) => (false, c)

/-- Translates a change of state. -/
def emitState (target : Handle) (s : ProcessState) (c : Channel ε) : Bool × Channel ε :=
  let (exitStatus, c) : Option Int × Channel ε :=
    if s = .exited then
      let (status, engine) := DebugEngine.observe target .exitStatus c.engine
      (status, { c with engine })
    else (none, c)
  match emit (.state s exitStatus) c with
  | (false, c) => (false, c)
  | (true, c) =>
    match s with
    | .stopped =>
      let (stop, engine) := DebugEngine.observe target .stopInfo c.engine
      emit (stoppedNotification stop) { c with engine }
    | .detached => emit .detached c
    | _ => (true, c)

/-- Translates an event; `false` if a message could not be written. -/
def translate (target : Handle) (chunk : Nat) (e : Event) (c : Channel ε) : Bool × Channel ε :=
  match e with
  | .stateChanged s => emitState target s c
  | .stdout => emitOutput target (.readStdout (max chunk 1)) id .stdout maxChunksPerEvent c
  | .stderr => emitOutput target (.readStderr (max chunk 1)) id .stderr maxChunksPerEvent c
  | .modulesLoaded ms => emit (.moduleLoaded (movedImages ms)) c
  | .modulesUnloaded ms => emit (.moduleUnloaded (movedImages ms)) c

/-- Translates events in order, up to the first message that cannot be written. -/
def translateAll (target : Handle) (chunk : Nat) : List Event → Channel ε → Bool × Channel ε
  | [], c => (true, c)
  | e :: r, c =>
    match translate target chunk e c with
    | (true, c) => translateAll target chunk r c
    | (false, c) => (false, c)

end Channel

end DebugAdapter.Session
