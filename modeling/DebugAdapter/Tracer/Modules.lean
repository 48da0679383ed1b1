import DebugAdapter.Cache
import DebugAdapter.Elf.Image
import DebugAdapter.Linux.MemoryMap

/-!
# Modules of a traced process

The registry keeps the modules that were last seen in the memory map of a process, and the images of
their files by path. `refresh` compares a new memory map with the last one. A file whose image
cannot be read makes a module without sections at its load address.

Main statement: `mem_without_iff` (what changed is what one list has and the other one has not).
-/

namespace DebugAdapter.Tracer

open Debuggee (DebugError Module Section checkedSub)
open Elf (Image)
open Linux (Mapping OsError)

/-- The modules of a process and the images of their files. -/
structure ModuleRegistry where
  images : Cache (List Text.Path.Component) Image
  /-- The modules that were last seen. -/
  modules : List Module

/-- A way to read files. -/
abbrev Files := (path : String) → Except OsError Bytes

/-- What changed between two looks at a process. -/
structure ModuleChanges where
  loaded : List Module
  unloaded : List Module
  deriving Repr, DecidableEq

namespace ModuleRegistry

/-- No modules and no images; at most 64 images are kept. -/
def empty : ModuleRegistry := ⟨.empty 64, []⟩

/-- Forgets the modules. -/
def clear (r : ModuleRegistry) : ModuleRegistry := { r with modules := [] }

/-- The image of the file with a path, if it can be read. -/
def image (files : Files) (path : String) : StateM ModuleRegistry (Option Image) := do
  let key := Text.Path.components path
  let r ← get
  match r.images.find? key with
  | some (image, images) =>
    set { r with images }
    return some image
  | none =>
    match Image.read (files path) with
    | .ok image =>
      set { r with images := r.images.insert key image }
      return some image
    | .error _ => return none

/-- The addresses that the mappings of a file span. -/
structure Span where
  path : String
  start : Nat
  stop : Nat
  deriving Repr, DecidableEq

/-- Adds a mapping to the spans of files, which are in the order of the paths. -/
def addMapping (m : Mapping) : List Span → List Span
  | [] => [⟨m.path, m.start, m.stop⟩]
  | s :: r =>
    if Text.Path.same m.path s.path then
      { s with start := min s.start m.start, stop := max s.stop m.stop } :: r
    else if Text.Path.before m.path s.path then ⟨m.path, m.start, m.stop⟩ :: s :: r
    else s :: addMapping m r

/-- The spans of the files in a memory map. -/
def spans (mappings : List Mapping) : List Span :=
  mappings.foldl (fun acc m => addMapping m acc) []

/-- A section of a module that was moved by a slide. -/
def place (slide : Option UInt64) (s : Section) : Section :=
  if s.fileAddress = 0 then s
  else { s with loadAddress := slide.map (s.fileAddress + ·) }

/-- The module that the mappings of a file and its image make. -/
def describe (image : Option Image) (span : Span) : Module :=
  let start := UInt64.ofNat span.start
  let size := UInt64.ofNat (span.stop - span.start)
  match image with
  | some image =>
    let slide := checkedSub start image.fileAddress
    ⟨span.path, image.buildId, start, image.fileAddress, size, image.sections.map (place slide)⟩
  | none => ⟨span.path, none, start, start, size, []⟩

/-- The main module comes first, the others in the order of their load addresses. -/
def precedes (main : Option String) (a b : Module) : Bool :=
  let isMain := fun (m : Module) => main.any (Text.Path.same m.path)
  if isMain a = isMain b then a.loadAddress ≤ b.loadAddress else isMain a

/-- The modules of a process with given mappings. -/
def survey (files : Files) (main : Option String) (mappings : List Mapping) :
    StateM ModuleRegistry (List Module) := do
  let modules ← (spans mappings).mapM fun span => do
    let image ← image files span.path
    return describe image span
  return modules.mergeSort (precedes main)

/-- The modules of one list that are not in another. -/
def without (these those : List Module) : List Module :=
  these.filter fun m => !those.any m.same

/-- Looks at the memory map of a process again. If it cannot be read, nothing changes. -/
def refresh (files : Files) (main : Option String) (map : Except OsError Bytes) :
    ExceptT DebugError (StateM ModuleRegistry) ModuleChanges := do
  let mappings ← ExceptT.mk (pure (Mapping.ofFile map))
  let modules ← survey files main mappings
  let before := (← get).modules
  modify fun r => { r with modules }
  return ⟨without modules before, without before modules⟩

/-- The module that an address belongs to. -/
def moduleAt (r : ModuleRegistry) (address : UInt64) : Option Module :=
  r.modules.find? (·.contains address)

/-- The function that an address belongs to: its name and its address in the process. -/
def symbolize (files : Files) (address : UInt64) :
    StateM ModuleRegistry (Option (String × UInt64)) := do
  match (← get).moduleAt address with
  | none => return none
  | some m =>
    match m.slide with
    | none => return none
    | some slide =>
      let image ← image files m.path
      return (image.bind (·.functionAt (address - slide))).map fun s => (s.name, s.address + slide)

/-- The images of files are kept beside the modules. -/
theorem modules_image (files : Files) (path : String) (r : ModuleRegistry) :
    ((image files path).run r).2.modules = r.modules := by
  simp only [image, StateT.run_bind, StateT.run_get, pure_bind]
  split
  · rfl
  · split
    · rfl
    · rfl

theorem modules_symbolize (files : Files) (address : UInt64) (r : ModuleRegistry) :
    ((symbolize files address).run r).2.modules = r.modules := by
  simp only [symbolize, StateT.run_bind, StateT.run_get, pure_bind]
  split
  · rfl
  · split
    · rfl
    · exact modules_image files _ r

end ModuleRegistry

theorem mem_without_iff (these those : List Module) (m : Module) :
    m ∈ ModuleRegistry.without these those ↔ m ∈ these ∧ ∀ n ∈ those, m.same n = false := by
  simp [ModuleRegistry.without]

end DebugAdapter.Tracer
