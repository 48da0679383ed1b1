import DebugAdapter.Session.Settings
import DebugAdapter.Text.Utf8
import DebugAdapter.Toml.Parse

/-!
# Reading settings

Settings come from a configuration document with one table a group. A group or a setting that is
missing keeps its standard value, except that the two polling policies `interrupt` and `attach` need
both settings. Names that are not known are refused. A group may also be a list of its settings in
order.
-/

namespace DebugAdapter.Session.Configuration

open Toml (Entries Item)

/-- The settings of a group as given: by name, or in order. -/
inductive Group where
  | named (entries : Entries)
  | ordered (items : List Item)

/-- The group that an item is, if it can be one. -/
def Group.ofItem? : Item → Option Group
  | .table _ es => some (.named es)
  | .inlineTable es => some (.named es)
  | .list items => some (.ordered items)
  | .tables reversed => some (.ordered (reversed.reverse.map (Item.table .header)))
  | _ => none

/-- Whether all given names are known. -/
def Group.knows (names : List String) : Group → Bool
  | .named es => es.all fun e => names.contains e.1
  | .ordered _ => true

/-- The item of a setting, if it is given. -/
def Group.item? (g : Group) (names : List String) (name : String) : Option Item :=
  match g with
  | .named es => es.lookup name
  | .ordered items => items[names.idxOf name]?

/-- A setting of a group: its item if given, else the standard value; `none` if it is refused. -/
def Group.setting? {α : Type} (g : Group) (names : List String) (read : Item → Option α)
    (standard : Option α) (name : String) : Option α :=
  match g.item? names name with
  | some i => read i
  | none => standard

/-- A truth value. -/
def flag? : Item → Option Bool
  | .flag b => some b
  | _ => none

/-- A natural number below a limit. -/
def natural? (limit : Nat) : Item → Option Nat
  | .integer i => if 0 ≤ i ∧ i < limit then some i.toNat else none
  | _ => none

/-- A text that need not be given. -/
def text? : Item → Option (Option String)
  | .text s => some (some s)
  | _ => none

/-- How a group of settings is read. -/
structure Reader (α : Type) where
  names : List String
  read : Group → Option α

/-- Reads a group of a document; a missing group is standard. -/
def Reader.get? {α : Type} (r : Reader α) (standard : α) (name : String) (es : Entries) :
    Option α :=
  match es.lookup name with
  | none => some standard
  | some item => do
    let g ← Group.ofItem? item
    if g.knows r.names then r.read g else none

/-- The group `launch`. -/
def launch : Reader LaunchSettings :=
  let names := ["disable_aslr", "stop_at_entry"]
  let s := Settings.standard.launch
  { names
    read := fun g => do
      let disableAslr ← g.setting? names flag? (some s.disableAslr) "disable_aslr"
      let stopAtEntry ← g.setting? names flag? (some s.stopAtEntry) "stop_at_entry"
      return ⟨disableAslr, stopAtEntry⟩ }

/-- The group `step`. -/
def step : Reader StepSettings :=
  let names := ["poll_interval_ms", "max_polls", "user_code_max_hops"]
  let s := Settings.standard.step
  { names
    read := fun g => do
      let interval ← g.setting? names (natural? wordLimit) (some s.policy.intervalMs)
        "poll_interval_ms"
      let polls ← g.setting? names (natural? halfLimit) (some s.policy.maxPolls) "max_polls"
      let hops ← g.setting? names (natural? halfLimit) (some s.maxHops) "user_code_max_hops"
      return ⟨⟨interval, polls⟩, hops⟩ }

/-- A polling policy, which must be given whole. -/
def policy : Reader RetryPolicy :=
  let names := ["poll_interval_ms", "max_polls"]
  { names
    read := fun g => do
      let interval ← g.setting? names (natural? wordLimit) none "poll_interval_ms"
      let polls ← g.setting? names (natural? halfLimit) none "max_polls"
      return ⟨interval, polls⟩ }

/-- The group `notifier`. -/
def notifier : Reader NotifierSettings :=
  let names := ["poll_interval_ms", "output_chunk"]
  let s := Settings.standard.notifier
  { names
    read := fun g => do
      let interval ← g.setting? names (natural? wordLimit) (some s.intervalMs) "poll_interval_ms"
      let chunk ← g.setting? names (natural? wordLimit) (some s.outputChunk) "output_chunk"
      return ⟨interval, chunk⟩ }

/-- The group `transport`. -/
def transport : Reader TransportSettings :=
  let names := ["max_frame_len", "max_read_len"]
  let s := Settings.standard.transport
  { names
    read := fun g => do
      let frame ← g.setting? names (natural? wordLimit) (some s.maxFrame) "max_frame_len"
      let read ← g.setting? names (natural? wordLimit) (some s.maxRead) "max_read_len"
      return ⟨frame, read⟩ }

/-- The group `log`. -/
def log : Reader LogSettings :=
  let names := ["level", "file", "trace_wire"]
  let s := Settings.standard.log
  { names
    read := fun g => do
      let level ← g.setting? names text? (some s.level) "level"
      let file ← g.setting? names text? (some s.file) "file"
      let traceWire ← g.setting? names flag? (some s.traceWire) "trace_wire"
      return ⟨level, file, traceWire⟩ }

/-- The groups of a document. -/
def groupNames : List String :=
  ["launch", "step", "interrupt", "attach", "notifier", "transport", "log"]

/-- Reads settings from a configuration document; `none` if it is refused. -/
def parse? (text : String) : Option Settings := do
  let es ← Toml.parse? text
  if es.all fun e => groupNames.contains e.1 then
    let s := Settings.standard
    return {
      launch := ← launch.get? s.launch "launch" es
      step := ← step.get? s.step "step" es
      interrupt := ← policy.get? s.interrupt "interrupt" es
      attach := ← policy.get? s.attach "attach" es
      notifier := ← notifier.get? s.notifier "notifier" es
      transport := ← transport.get? s.transport "transport" es
      log := ← log.get? s.log "log" es }
  else none

/-- Reads settings from the bytes of a file. -/
def ofBytes? (bs : Bytes) : Option Settings :=
  (Text.Utf8.decode? bs).bind parse?

end DebugAdapter.Session.Configuration
