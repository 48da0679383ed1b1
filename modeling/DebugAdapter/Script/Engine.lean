import DebugAdapter.Engine.Scripted
import DebugAdapter.Engine.Simulated
import DebugAdapter.Script.Debuggee

/-!
# Engines in scripts

How a scripted engine is written: a list of targets, and for each what it publishes at first and what
happens at each kind of request. A simulated engine is written by the knobs that are set.
-/

namespace DebugAdapter.Script

open Debuggee
open Engine (Scripted.Entry Scripted.Script Scripted.Update Scripted.Value Simulated.Knobs)

/-- The features of an engine; those that are not given keep their standard. -/
def capabilities (j : Json) (standard : Capabilities) : Capabilities :=
  ⟨j.flag "remote_connect" standard.remoteConnect, j.flag "raw_commands" standard.rawCommands,
    j.flag "reference_scan" standard.referenceScan⟩

/-! ### Simulated engines -/

/-- Turns a knob, by its name. -/
def turnKnob (name : String) (v : Bool) (k : Simulated.Knobs) : Simulated.Knobs :=
  match name with
  | "fail_create" => { k with failCreate := v }
  | "fail_launch" => { k with failLaunch := v }
  | "hang_steps" => { k with hangSteps := v }
  | "ignore_interrupt" => { k with ignoreInterrupt := v }
  | "panic_on_call_stack" => { k with crashOnCallStack := v }
  | "fail_resume" => { k with failResume := v }
  | "start_in_library" => { k with startInLibrary := v }
  | _ => k

/-- Knobs: a list of those that are set, or an object with a truth value for each. -/
def knobs (j : Json) : Simulated.Knobs :=
  let set := j.items.foldl (fun k name => turnKnob name.asText true k) .off
  j.members.foldl (fun k (name, _) => turnKnob name (j.flag name true) k) set

/-- A simulated engine. -/
def simulatedEngine (j : Json) : Engine.Simulated.Engine where
  knobs := knobs (j.member "knobs")
  capabilities := capabilities (j.member "caps") Engine.Simulated.Engine.standardCapabilities
  inspects := j.text "console" == "ptrace"
  targets := []

/-! ### Scripted engines -/

/-- A change of what a target publishes. -/
def update (j : Json) : Scripted.Update where
  states := (j.get? "state").map fun s => match s with
    | .arr states => states.map processState
    | s => [processState s]
  stop := (j.get? "stop").map stopInfo?
  exit := (j.get? "exit").map fun _ => j.int? "exit"
  pid := (j.get? "pid").map fun _ => j.nat? "pid"
  stdout := j.bytes "stdout"
  stderr := j.bytes "stderr"

/-- A frame of a call stack. -/
def stackFrame (j : Json) : StackFrame :=
  ⟨j.word "pc", j.text? "function", j.text? "module", j.text? "uuid"⟩

/-- The value that a method answers with. -/
def value? (method : String) (j : Json) : Option Scripted.Value :=
  j.given?.bind fun j =>
    match method with
    | "threads" =>
      let threads := j.items.map (pair Json.asNat stopReason)
      some (.threads (threads.map fun (tid, reason) => ⟨tid, reason⟩))
    | "set_breakpoint" =>
      let (id, address) := pair Json.asNat Json.asWord j
      some (.breakpoint ⟨id, address⟩)
    | "read_memory" => some (.bytes j.asBytes)
    | "write_memory" | "write_stdin" => some (.count j.asNat)
    | "registers" =>
      let registers := j.items.map (pair Json.asText Json.asWord)
      some (.registers (registers.map fun (name, v) => ⟨name, v⟩))
    | "call_stack" => some (.frames (j.items.map stackFrame))
    | "disassemble" | "find_references" => some (.instructions (j.items.map instruction))
    | "modules" => some (.modules (j.items.map module))
    | "main_module" => some (.module (some (module j)))
    | "entry_point" => some (.address j.asWord)
    | _ => none

/-- What happens at a request. A breakdown may have no text, or a fixed one. -/
def entry (method : String) (j : Json) : Scripted.Entry where
  update := update (j.member "set")
  events := (j.list "events").map event
  ending :=
    match j.text? "panic", j.get? "err" with
    | some "", _ => .crash none
    | some "static", _ => .crash (some "static text")
    | some text, _ => .crash (some text)
    | none, some e => .error (debugError e)
    | none, none => .value (value? method (j.member "ok"))

/-- The entries of a method: a list, or a single one. -/
def entries (method : String) : Json → List Scripted.Entry
  | .arr es => es.map (entry method)
  | e => [entry method e]

/-- The script of a target. -/
def target (j : Json) : Scripted.Script where
  failure := (j.get? "err").map debugError
  hasEvents := !j.flag "no_events" false
  update := update (j.member "set")
  events := (j.list "events").map event
  methods := (j.member "methods").members.map fun (method, es) => (method, entries method es)

/-- A scripted engine. -/
def scriptedEngine (j : Json) : Engine.Scripted.Engine where
  capabilities := capabilities (j.member "caps") ⟨false, false, false⟩
  scripts := (j.list "targets").map target
  targets := []

end DebugAdapter.Script
