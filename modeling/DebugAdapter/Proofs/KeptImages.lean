import DebugAdapter.Proofs.ModuleReplay
import DebugAdapter.Proofs.RecentUse

/-!
# Kept images

The image that a path stands for is the one that is kept, and otherwise the one in its file. Looking it up
puts it in front of the images that are kept. So a path stands for the same image as long as fewer other
paths are looked up than images are kept, and for good if its file still holds this image.

Main statements: `found_lookUpAll` and `refresh_images`.
-/

namespace DebugAdapter.Tracer

open Debuggee
open Elf (Image)
open Linux
open Text.Path (components same same_iff)

namespace ModuleRegistry

variable {files : Files} {path : String} {r : ModuleRegistry}

/-- The image that a path stands for, if there is one. -/
def found (files : Files) (path : String) (r : ModuleRegistry) : Option Image :=
  ((image files path).run r).1

/-- The registry after the image of a path was looked up. -/
def lookUp (files : Files) (path : String) (r : ModuleRegistry) : ModuleRegistry :=
  ((image files path).run r).2

/-- The registry after the images of paths were looked up, one after the other. -/
def lookUpAll (files : Files) (paths : List String) (r : ModuleRegistry) : ModuleRegistry :=
  paths.foldl (fun r path => lookUp files path r) r

theorem lookUpAll_append (files : Files) (paths more : List String) (r : ModuleRegistry) :
    lookUpAll files (paths ++ more) r = lookUpAll files more (lookUpAll files paths r) :=
  List.foldl_append

/-- How the image of a path is looked up. -/
inductive Lookup (files : Files) (path : String) (r : ModuleRegistry) : Prop
  | kept {image : Image} {images : Cache (List Text.Path.Component) Image} :
      r.images.find? (components path) = some (image, images) → found files path r = some image →
      lookUp files path r = { r with images } → Lookup files path r
  | loaded {image : Image} : r.images.find? (components path) = none →
      Image.read (files path) = .ok image → found files path r = some image →
      lookUp files path r = { r with images := r.images.insert (components path) image } →
      Lookup files path r
  | unreadable {e : DebugError} : r.images.find? (components path) = none →
      Image.read (files path) = .error e → found files path r = none → lookUp files path r = r →
      Lookup files path r

theorem lookup (files : Files) (path : String) (r : ModuleRegistry) : Lookup files path r := by
  rcases hfind : r.images.find? (components path) with _ | ⟨kept, images⟩
  · rcases hread : Image.read (files path) with e | loaded
    · have hrun : (image files path).run r = (none, r) := by
        simp only [image, StateT.run_bind, StateT.run_get, pure_bind, hfind, hread]
        rfl
      exact .unreadable hfind hread (congrArg Prod.fst hrun) (congrArg Prod.snd hrun)
    · have hrun : (image files path).run r =
          (some loaded, { r with images := r.images.insert (components path) loaded }) := by
        simp only [image, StateT.run_bind, StateT.run_get, pure_bind, hfind, hread]
        rfl
      exact .loaded hfind hread (congrArg Prod.fst hrun) (congrArg Prod.snd hrun)
  · have hrun : (image files path).run r = (some kept, { r with images }) := by
      simp only [image, StateT.run_bind, StateT.run_get, pure_bind, hfind]
      rfl
    exact .kept hfind (congrArg Prod.fst hrun) (congrArg Prod.snd hrun)

theorem modules_lookUpAll (files : Files) (paths : List String) (r : ModuleRegistry) :
    (lookUpAll files paths r).modules = r.modules := by
  induction paths generalizing r with
  | nil => rfl
  | cons path paths ih => exact (ih (lookUp files path r)).trans (modules_image files path r)

theorem capacity_lookUp (files : Files) (path : String) (r : ModuleRegistry) :
    (lookUp files path r).images.capacity = r.images.capacity := by
  cases lookup files path r with
  | kept hfind _ hnext =>
    rw [hnext, (Cache.exists_of_find? hfind).2]
  | loaded _ _ _ hnext =>
    rw [hnext]
    rfl
  | unreadable _ _ _ hnext => rw [hnext]

theorem capacity_lookUpAll (files : Files) (paths : List String) (r : ModuleRegistry) :
    (lookUpAll files paths r).images.capacity = r.images.capacity := by
  induction paths generalizing r with
  | nil => rfl
  | cons path paths ih => exact (ih (lookUp files path r)).trans (capacity_lookUp files path r)

/-- The image that is kept for a path, if there is one, is what its file holds. -/
def UpToDate (files : Files) (path : String) (r : ModuleRegistry) : Prop :=
  ∀ image, (components path, image) ∈ r.images.entries → Image.read (files path) = .ok image

/-- An image that is kept is what its path stands for. -/
theorem found_of_stays {image : Image} {depth : Nat}
    (h : r.images.Stays (components path) image depth) : found files path r = some image := by
  obtain ⟨next, hnext⟩ := h.exists_find?
  cases lookup files path r with
  | kept hfind hfound _ =>
    cases hfind.symm.trans hnext
    exact hfound
  | loaded hfind => cases hfind.symm.trans hnext
  | unreadable hfind => cases hfind.symm.trans hnext

theorem UpToDate.found (h : UpToDate files path r) :
    found files path r = (Image.read (files path)).toOption := by
  cases lookup files path r with
  | kept hfind hfound _ =>
    rw [hfound, h _ (Cache.exists_of_find? hfind).1]
    rfl
  | loaded _ hread hfound _ =>
    rw [hfound, hread]
    rfl
  | unreadable _ hread hfound _ =>
    rw [hfound, hread]
    rfl

/-- Once a path was looked up, its image is in front, or there is none and it is the one in the file. -/
theorem stays_or_upToDate (files : Files) (path : String) (r : ModuleRegistry) :
    (∃ image, found files path r = some image ∧
      (lookUp files path r).images.Stays (components path) image 0) ∨
    UpToDate files path (lookUp files path r) ∧
      found files path r = (Image.read (files path)).toOption := by
  cases lookup files path r with
  | kept hfind hfound hnext =>
    rw [hnext]
    exact .inl ⟨_, hfound, Cache.stays_of_find? hfind⟩
  | @loaded image hfind hread hfound hnext =>
    rw [hnext]
    -- Without room nothing is kept, and the file decides each time.
    rcases Nat.eq_zero_or_pos r.images.capacity with hnone | hroom
    · refine .inr ⟨fun image' hmem => ?_, by rw [hfound, hread]; rfl⟩
      rw [Cache.insert, hnone, List.take_zero] at hmem
      cases hmem
    · exact .inl ⟨image, hfound, Cache.stays_insert _ _ _ hroom⟩
  | unreadable hfind hread hfound hnext =>
    rw [hnext]
    refine .inr ⟨fun image hmem => ?_, by rw [hfound, hread]; rfl⟩
    have hcontains := Cache.find?_eq_none_iff.mp hfind
    rw [Cache.contains, List.any_eq_false] at hcontains
    exact absurd (decide_eq_true rfl) (hcontains _ hmem)

/-- A path stands for the same image after it was looked up. -/
theorem found_lookUp (files : Files) (path : String) (r : ModuleRegistry) :
    found files path (lookUp files path r) = found files path r := by
  rcases stays_or_upToDate files path r with ⟨image, hfound, hstays⟩ | ⟨hupToDate, hfound⟩
  · rw [hfound, found_of_stays hstays]
  · rw [hfound, hupToDate.found]

/-! ### Looking up other paths -/

variable {paths : List String}

/-- A path that is the same as one of some paths is written as this one is. -/
def SpelledAs (path : String) (paths : List String) : Prop :=
  ∀ p ∈ paths, same p path = true → p = path

theorem UpToDate.lookUp (h : UpToDate files path r) {p : String} (hp : same p path = true → p = path) :
    UpToDate files path (lookUp files p r) := by
  intro image hmem
  cases lookup files p r with
  | kept hfind _ hnext =>
    obtain ⟨hkept, himages⟩ := Cache.exists_of_find? hfind
    rw [hnext, himages] at hmem
    rcases List.mem_cons.mp hmem with heq | hmem
    · exact h image (heq ▸ hkept)
    · exact h image (List.mem_filter.mp hmem).1
  | loaded _ hread _ hnext =>
    rw [hnext] at hmem
    rcases List.mem_cons.mp (List.mem_of_mem_take hmem) with heq | hmem
    · obtain ⟨hpath, rfl⟩ := Prod.mk.inj heq
      cases hp (same_iff.mpr hpath.symm)
      exact hread
    · exact h image (List.mem_filter.mp hmem).1
  | unreadable _ _ _ hnext =>
    rw [hnext] at hmem
    exact h image hmem

theorem UpToDate.lookUpAll (h : UpToDate files path r) (hpaths : SpelledAs path paths) :
    UpToDate files path (lookUpAll files paths r) := by
  induction paths generalizing r with
  | nil => exact h
  | cons p paths ih =>
    obtain ⟨hp, hpaths⟩ := List.forall_mem_cons.mp hpaths
    exact ih (h.lookUp hp) hpaths

/-- Each path that is looked up moves a kept image back by at most one place. -/
theorem stays_lookUp {image : Image} {depth : Nat}
    (h : r.images.Stays (components path) image depth) (hdepth : depth + 1 < r.images.capacity)
    (p : String) : (lookUp files p r).images.Stays (components path) image (depth + 1) := by
  by_cases hp : components p = components path
  -- The path itself comes back to the front.
  · obtain ⟨next, hnext⟩ := h.exists_find?
    cases lookup files p r with
    | kept hfind _ hlookUp =>
      rw [hp] at hfind
      cases hfind.symm.trans hnext
      rw [hlookUp]
      exact (Cache.stays_of_find? hnext).mono (Nat.zero_le _)
    | loaded hfind => cases (hp ▸ hfind).symm.trans hnext
    | unreadable hfind => cases (hp ▸ hfind).symm.trans hnext
  · cases lookup files p r with
    | kept hfind _ hnext =>
      rw [hnext]
      exact h.find? hp hfind
    | loaded _ _ _ hnext =>
      rw [hnext]
      exact h.insert hp _ hdepth
    | unreadable _ _ _ hnext =>
      rw [hnext]
      exact h.mono (Nat.le_succ depth)

theorem stays_lookUpAll {image : Image} {depth : Nat}
    (h : r.images.Stays (components path) image depth)
    (hdepth : depth + paths.length < r.images.capacity) :
    (lookUpAll files paths r).images.Stays (components path) image (depth + paths.length) := by
  induction paths generalizing r depth with
  | nil => exact h
  | cons p paths ih =>
    rw [List.length_cons] at hdepth
    have hfirst : (lookUp files p r).images.Stays (components path) image (depth + 1) :=
      stays_lookUp h (by omega) p
    have hnext := ih hfirst (by rw [capacity_lookUp]; omega)
    rw [List.length_cons, Nat.add_comm paths.length, ← Nat.add_assoc]
    exact hnext

/-- **A path that was looked up stands for the same image** after fewer other paths than images are kept
were looked up, or if the image that is kept is the one in the file. -/
theorem found_lookUpAll (hpaths : SpelledAs path paths)
    (h : paths.length < r.images.capacity ∨ UpToDate files path r) :
    found files path (lookUpAll files paths (lookUp files path r)) = found files path r := by
  rcases h with hfew | hupToDate
  · rcases stays_or_upToDate files path r with ⟨image, hfound, hstays⟩ | ⟨hupToDate, hfound⟩
    · rw [hfound]
      refine found_of_stays (stays_lookUpAll hstays ?_)
      rw [capacity_lookUp]
      omega
    · rw [hfound, (hupToDate.lookUpAll hpaths).found]
  · have hnext := (hupToDate.lookUp (p := path) fun _ => rfl).lookUpAll hpaths
    rw [hnext.found, hupToDate.found]

/-- A path that alone was looked up stands for the same image. -/
theorem found_lookUpAll_self (hpaths : ∀ p ∈ paths, p = path) (r : ModuleRegistry) :
    found files path (lookUpAll files paths r) = found files path r := by
  induction paths generalizing r with
  | nil => rfl
  | cons p paths ih =>
    obtain ⟨rfl, hpaths⟩ := List.forall_mem_cons.mp hpaths
    exact (ih hpaths (lookUp files p r)).trans (found_lookUp files p r)

/-! ### Functions and surveys -/

/-- The paths whose images are looked up for the function at an address. -/
def pathsAt (r : ModuleRegistry) (address : UInt64) : List String :=
  match r.moduleAt address with
  | some m => if m.slide.isSome then [m.path] else []
  | none => []

/-- The function at an address: its name and its address in the process. -/
def functionAt (files : Files) (address : UInt64) (r : ModuleRegistry) : Option (String × UInt64) :=
  ((symbolize files address).run r).1

theorem exists_of_mem_pathsAt {address : UInt64} (h : path ∈ r.pathsAt address) :
    ∃ m, r.moduleAt address = some m ∧ m ∈ r.modules ∧ m.path = path := by
  rw [pathsAt] at h
  split at h
  · rename_i m hm
    split at h
    · exact ⟨m, hm, List.mem_of_find?_eq_some hm, (List.mem_singleton.mp h).symm⟩
    · cases h
  · cases h

theorem length_pathsAt_le (r : ModuleRegistry) (address : UInt64) :
    (r.pathsAt address).length ≤ 1 := by
  rw [pathsAt]
  split
  · split
    · exact Nat.le_refl 1
    · exact Nat.zero_le 1
  · exact Nat.zero_le 1

theorem pathsAt_eq_singleton {address : UInt64} (h : path ∈ r.pathsAt address) :
    r.pathsAt address = [path] := by
  have hlength := r.length_pathsAt_le address
  rcases hpaths : r.pathsAt address with _ | ⟨p, _ | ⟨q, rest⟩⟩
  · rw [hpaths] at h
    cases h
  · rw [hpaths] at h
    rw [List.mem_singleton.mp h]
  · rw [hpaths] at hlength
    exact absurd hlength (by simp)

theorem symbolize_run (files : Files) (address : UInt64) (r : ModuleRegistry) :
    (symbolize files address).run r =
      ((r.moduleAt address).bind fun m => m.slide.bind fun slide =>
        ((found files m.path r).bind (·.functionAt (address - slide))).map fun s =>
          (s.name, s.address + slide),
      lookUpAll files (r.pathsAt address) r) := by
  simp only [symbolize, StateT.run_bind, StateT.run_get, pure_bind, pathsAt]
  rcases r.moduleAt address with _ | m
  · rfl
  · simp only [Option.bind_some]
    rcases m.slide with _ | slide
    · rfl
    · rfl

/-- The function at an address depends on the modules and on the image that it is looked up in. -/
theorem functionAt_congr {address : UInt64} {r' : ModuleRegistry} (hmodules : r'.modules = r.modules)
    (hfound : ∀ path ∈ r.pathsAt address, found files path r' = found files path r) :
    functionAt files address r' = functionAt files address r := by
  have hmodule : r'.moduleAt address = r.moduleAt address := by
    rw [moduleAt, moduleAt, hmodules]
  rw [functionAt, functionAt, symbolize_run, symbolize_run, hmodule]
  refine Option.bind_congr fun m hm => Option.bind_congr fun slide hslide => ?_
  have hpath : m.path ∈ r.pathsAt address := by
    rw [pathsAt, hm]
    show m.path ∈ if m.slide.isSome then [m.path] else []
    rw [hslide]
    exact List.mem_singleton.mpr rfl
  rw [hfound _ hpath]

theorem snd_describe (files : Files) (spans : List Span) (r : ModuleRegistry) :
    ((spans.mapM fun span => do
      let image ← image files span.path
      return describe image span : StateM ModuleRegistry (List Module)).run r).2 =
      lookUpAll files (spans.map (·.path)) r := by
  induction spans generalizing r with
  | nil => rfl
  | cons span rest ih =>
    rw [List.mapM_cons]
    exact ih (lookUp files span.path r)

/-- The spans of files have different paths. -/
theorem spelledAs_spans (mappings : List Mapping) {s : Span} (hs : s ∈ spans mappings) :
    SpelledAs s.path ((spans mappings).map (·.path)) := by
  have hsymm : Std.Symm fun a b : Span => same a.path b.path = false :=
    ⟨fun a b hab => (Text.Path.same_comm b.path a.path).trans hab⟩
  have hdistinct := (spans_spec mappings).sorted.imp Text.Path.same_eq_false_of_before
  -- Spans are in the order of their paths, so the same path comes from the same span.
  intro p hp hsame
  obtain ⟨t, ht, rfl⟩ := List.mem_map.mp hp
  by_contra hne
  have hts : t ≠ s := fun heq => hne (congrArg _ heq)
  exact Bool.eq_false_iff.mp (hdistinct.forall ht hs hts) hsame

/-- A look at the modules looks up their images, each under the path that its module has then. -/
theorem refresh_images (files : Files) (main : Option String) (map : Except OsError Bytes)
    (r : ModuleRegistry) :
    let next := ((refresh files main map).run.run r).2
    ∃ paths, next.images = (lookUpAll files paths r).images ∧
      ∀ m ∈ next.modules, SpelledAs m.path paths := by
  rcases hmap : Mapping.ofFile map with e | mappings
  · have hrun : (refresh files main map).run.run r = (.error e, r) := by
      rw [refresh, hmap]
      rfl
    rw [hrun]
    exact ⟨[], rfl, fun _ _ _ hp => absurd hp List.not_mem_nil⟩
  · have hrun : ((refresh files main map).run.run r).2 =
        { ((survey files main mappings).run r).2 with
          modules := ((survey files main mappings).run r).1 } := by
      rw [refresh, hmap]
      rfl
    rw [hrun]
    refine ⟨(spans mappings).map (·.path), ?_, fun m hm => ?_⟩
    · show ((survey files main mappings).run r).2.images = _
      exact congrArg ModuleRegistry.images (snd_describe files (spans mappings) r)
    · have hdescribed := (List.mergeSort_perm _ _).mem_iff.mp hm
      obtain ⟨s, hs, hpath, -⟩ := mem_of_extents (extents_describe files (spans mappings) r).1 hdescribed
      exact hpath ▸ spelledAs_spans mappings hs

end ModuleRegistry

end DebugAdapter.Tracer
