import DebugAdapter.Bytes
import DebugAdapter.Debuggee.Module
import DebugAdapter.Debuggee.State
import DebugAdapter.Json.Render

/-!
# Notifications

Messages that the program sends on its own: changes of state, stops, process output and modules.
Each is a document with a `type` and, except for `detached`, a `payload`; none has a `status`.
-/

namespace DebugAdapter.Wire

open Debuggee (ProcessState StopInfo)

/-- A program image in a notification. -/
structure ModuleImage where
  directory : Option String
  file : Option String
  loadAddress : UInt64
  fileAddress : UInt64
  slide : UInt64
  deriving Repr, DecidableEq

/-- A message that the program sends on its own. -/
inductive Notification where
  | state (s : ProcessState) (exitStatus : Option Int)
  | stopped (reason : String) (thread : Nat) (pc : UInt64)
  | detached
  | stdout (data : Bytes)
  | stderr (data : Bytes)
  | moduleLoaded (images : List ModuleImage)
  | moduleUnloaded (images : List ModuleImage)
  deriving Repr, DecidableEq

/-- The document of a program image. -/
def ModuleImage.document (m : ModuleImage) : Json :=
  .obj [("directory", Json.ofString? m.directory), ("file", Json.ofString? m.file),
    ("loadAddress", Json.ofWord m.loadAddress), ("fileAddress", Json.ofWord m.fileAddress),
    ("slide", Json.ofWord m.slide)]

namespace Notification

/-- The kind of a notification. -/
def kind : Notification → String
  | state .. => "state"
  | stopped .. => "stopped"
  | detached => "detached"
  | stdout _ => "stdout"
  | stderr _ => "stderr"
  | moduleLoaded _ => "moduleLoaded"
  | moduleUnloaded _ => "moduleUnloaded"

/-- The payload of a notification, if it has one. -/
def payload : Notification → Option Json
  | state s exitStatus =>
    some (.obj ([("inferior_state", Json.ofNat s.code), ("state_desc", Json.str s.name)] ++
      (match exitStatus with
        | some code => [("exit_status", Json.ofInt code)]
        | none => [])))
  | stopped reason thread pc =>
    some (.obj [("reason", .str reason), ("threadId", Json.ofNat thread), ("pc", Json.ofWord pc)])
  | detached => none
  | stdout data | stderr data => some (.obj [("output", .str data.hex)])
  | moduleLoaded images | moduleUnloaded images =>
    some (.obj [("modules", .arr (images.map ModuleImage.document))])

/-- The document of a notification. -/
def document (n : Notification) : Json :=
  .obj (("type", .str n.kind) ::
    (match n.payload with
      | some p => [("payload", p)]
      | none => []))

/-- The text of a notification. -/
def render (n : Notification) : String :=
  n.document.render

end Notification

end DebugAdapter.Wire
