import DebugAdapter.Debuggee.Engine
import DebugAdapter.Json.Lenient

/-!
# Debuggees in scripts

How the parts of a debuggee are written in a script: its states and stops, modules, machine code,
events, and the errors of an engine. States, reasons and errors go by their names.
-/

namespace DebugAdapter.Script

open Debuggee
open Linux (OsError)

/-- Every state of a process. -/
def processStates : List ProcessState :=
  [.invalid, .unloaded, .connected, .attaching, .launching, .stopped, .running, .stepping, .crashed,
    .detached, .exited, .suspended]

theorem mem_processStates (s : ProcessState) : s ∈ processStates := by
  cases s <;> decide

/-- The state with a name, which is written without its mark. -/
def processState (j : Json) : ProcessState :=
  (processStates.find? (·.name == "eState" ++ j.asText)).getD .invalid

/-- Every reason for a stop. -/
def stopReasons : List StopReason :=
  [.invalid, .none, .trace, .breakpoint, .watchpoint, .signal, .exception, .exec, .planComplete,
    .threadExiting, .unknown]

theorem mem_stopReasons (r : StopReason) : r ∈ stopReasons := by
  cases r <;> decide

/-- The reason with a name, which is written without its blanks. -/
def stopReason (j : Json) : StopReason :=
  (stopReasons.find? fun r => r.name.toList.filter (· ≠ ' ') == j.asText.toList).getD .unknown

/-- The details of a stop. -/
def stopInfo? (j : Json) : Option StopInfo :=
  j.given?.map fun j => ⟨j.nat "thread", j.word "pc", stopReason (j.member "reason")⟩

/-- The error number with a name. -/
def osError (j : Json) : OsError := (OsError.ofName? j.asText).getD .inputOutput

/-- The errors that a description can mean; its kind tells which. -/
def errorsLike (arg : Json) (errno : OsError) (parts : List DebugError) : List DebugError :=
  let e := osError arg
  [.io e, .unsupported arg.asText, .tracerGone, .failure arg.asText,
    .executableNotFound arg.asText, .alreadyRun, .notStarted, .processRunning,
    .processExit arg.asInt, .processNotFound arg.asNat, .threadNotFound arg.asNat,
    .frameNotFound arg.asNat, .registerNotFound arg.asText, .breakpointNotFound arg.asNat,
    .returnAddressNotFound, .noMainModule, .memoryAccess arg.asWord, .waitpid e, .ptrace e,
    .syscall arg.asText errno, .attach e, .stepNotCompleted arg.asNat, .multiple parts]

/-- The error of an engine; `depth` bounds how deep lists of errors are nested. -/
def debugErrorWithin : (depth : Nat) → Json → DebugError
  | 0, _ => .failure ""
  | depth + 1, j =>
    let arg := j.member "arg"
    let like := errorsLike arg (osError (j.member "errno"))
      (arg.items.map (debugErrorWithin depth))
    (like.find? (·.kindName == j.text "kind")).getD (.failure arg.asText)

/-- The error of an engine. -/
def debugError (j : Json) : DebugError := debugErrorWithin Json.maxNesting j

/-- A section of a module. -/
def moduleSection (j : Json) : Section :=
  ⟨j.text "name", j.word "file", j.word? "load", j.word "size", j.word "file_size"⟩

/-- A module. -/
def module (j : Json) : Module :=
  ⟨j.text "path", j.text? "uuid", j.word "load", j.word "file", j.word "size",
    (j.list "sections").map moduleSection⟩

/-- A value that is written as a pair. -/
def pair {α β : Type} (first : Json → α) (second : Json → β) (j : Json) : α × β :=
  (first (j.items.getD 0 .null), second (j.items.getD 1 .null))

/-- An instruction: its address, the digits of its bytes, its mnemonic and its operands. -/
def instruction (j : Json) : Instruction :=
  let part := fun n => j.items.getD n .null
  ⟨(part 0).asWord, (Bytes.ofHex? (part 1).asText).getD [], (part 2).asText, (part 3).asText⟩

/-- An event. -/
def event (j : Json) : Event :=
  match j.text "event" with
  | "state" => .stateChanged (processState (j.member "state"))
  | "stdout" => .stdout
  | "stderr" => .stderr
  | "loaded" => .modulesLoaded ((j.list "modules").map module)
  | _ => .modulesUnloaded ((j.list "modules").map module)

end DebugAdapter.Script
