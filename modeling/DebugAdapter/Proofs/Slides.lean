import DebugAdapter.Proofs.CallStacks
import DebugAdapter.Session.Inspection
import DebugAdapter.Session.Lifecycle
import DebugAdapter.Tracer.Inspection

/-!
# Slides of modules

How far a module was moved from the addresses in its file is worked out in several places, from
different fields of the module. A module that is described from the image of a file was moved as a whole
(`MovedBy`), or lies below its file address and counts as not moved yet (`Unmoved`). In the first case
every place has the same slide.

Main statement: `slide_spec`.
-/

namespace DebugAdapter

open Debuggee
open Elf (Image ObjectFile)
open Linux
open Operation

/-! ### Moved modules -/

namespace Debuggee

theorem checkedSub_add (a b : UInt64) :
    checkedSub (a + b) a = if a.toNat + b.toNat < wordLimit then some b else none := by
  have hsub : a + b - a = b := by rw [UInt64.add_comm, UInt64.add_sub_cancel]
  have hle : a ≤ a + b ↔ a.toNat + b.toNat < wordLimit := by
    have ha := a.toNat_lt
    have hb := b.toNat_lt
    rw [UInt64.le_iff_toNat_le, UInt64.toNat_add, wordLimit]
    omega
  rw [checkedSub, hsub]
  exact if_congr hle rfl rfl

namespace Module

/-- A module was moved by a slide, with all its sections that have an address in the file. -/
structure MovedBy (m : Module) (slide : UInt64) : Prop where
  slide_eq : m.slide = some slide
  loadAddress : ∀ s ∈ m.sections,
    s.loadAddress = if s.fileAddress = 0 then none else some (s.fileAddress + slide)

/-- A module is not moved yet, and none of its sections is in the process. -/
structure Unmoved (m : Module) : Prop where
  slide_eq : m.slide = none
  loadAddress : ∀ s ∈ m.sections, s.loadAddress = none

theorem MovedBy.load_eq {m : Module} {slide load : UInt64} (h : m.MovedBy slide) {s : Section}
    (hs : s ∈ m.sections) (hload : s.loadAddress = some load) : load = s.fileAddress + slide := by
  rw [h.loadAddress s hs] at hload
  split_ifs at hload
  exact (Option.some.inj hload).symm

end Module

end Debuggee

namespace Elf.ObjectFile

/-- The sections of a file have no addresses in a process. -/
theorem loadAddress_namedSections (f : ObjectFile) : ∀ s ∈ f.namedSections, s.loadAddress = none := by
  intro s hs
  obtain ⟨header, -, hs⟩ := List.mem_filterMap.mp hs
  split at hs
  · cases hs
  · cases hs
    rfl
  · cases hs

end Elf.ObjectFile

namespace Tracer.ModuleRegistry

theorem loadAddress_place (slide : Option UInt64) {s : Section} (h : s.loadAddress = none) :
    (place slide s).fileAddress = s.fileAddress ∧ (place slide s).loadAddress =
      if s.fileAddress = 0 then none else slide.map (s.fileAddress + ·) := by
  rw [place]
  split_ifs
  · exact ⟨rfl, h⟩
  · exact ⟨rfl, rfl⟩

/-- The sections of a module that is described from a file. -/
theorem loadAddress_describe (f : ObjectFile) (span : Span) :
    ∀ s ∈ (describe (some f.toImage) span).sections, s.loadAddress =
      if s.fileAddress = 0 then none
      else (checkedSub (UInt64.ofNat span.start) f.toImage.fileAddress).map (s.fileAddress + ·) := by
  intro s hs
  obtain ⟨s', hs', rfl⟩ := List.mem_map.mp hs
  obtain ⟨hfile, hload⟩ := loadAddress_place (checkedSub (UInt64.ofNat span.start) f.toImage.fileAddress)
    (f.loadAddress_namedSections s' hs')
  rw [hfile, hload]

theorem movedBy_describe {f : ObjectFile} {span : Span}
    (h : f.toImage.fileAddress ≤ UInt64.ofNat span.start) :
    (describe (some f.toImage) span).MovedBy (UInt64.ofNat span.start - f.toImage.fileAddress) := by
  have hslide : checkedSub (UInt64.ofNat span.start) f.toImage.fileAddress =
      some (UInt64.ofNat span.start - f.toImage.fileAddress) := if_pos h
  refine ⟨hslide, fun s hs => ?_⟩
  rw [loadAddress_describe f span s hs, hslide]
  rfl

theorem unmoved_describe {f : ObjectFile} {span : Span}
    (h : UInt64.ofNat span.start < f.toImage.fileAddress) :
    (describe (some f.toImage) span).Unmoved := by
  have hslide : checkedSub (UInt64.ofNat span.start) f.toImage.fileAddress = none :=
    if_neg (UInt64.not_le.mpr h)
  refine ⟨hslide, fun s hs => ?_⟩
  rw [loadAddress_describe f span s hs, hslide]
  exact ite_self none

/-! ### Modules of a process -/

/-- A module as it is described from the image of a file, or from a file without one. -/
inductive Described : Module → Prop
  | image (f : ObjectFile) (span : Span) : Described (describe (some f.toImage) span)
  | plain (span : Span) : Described (describe none span)

theorem Described.moved_or_unmoved {m : Module} (h : Described m) :
    (∃ slide, m.MovedBy slide) ∨ m.Unmoved := by
  cases h with
  | image f span =>
    rcases UInt64.le_or_lt f.toImage.fileAddress (UInt64.ofNat span.start) with hle | hlt
    · exact Or.inl ⟨_, movedBy_describe hle⟩
    · exact Or.inr (unmoved_describe hlt)
  | plain span => exact Or.inl ⟨_, if_pos (UInt64.le_refl _), nofun⟩

/-- The images of a registry are those of files, and its modules are described from such images. -/
structure Genuine (r : ModuleRegistry) : Prop where
  images : ∀ e ∈ r.images.entries, ∃ f : ObjectFile, e.2 = f.toImage
  modules : ∀ m ∈ r.modules, Described m

theorem genuine_empty : Genuine empty := ⟨nofun, nofun⟩

theorem Genuine.clear {r : ModuleRegistry} (h : r.Genuine) : r.clear.Genuine := ⟨h.images, nofun⟩

theorem exists_of_read {file : Except OsError Bytes} {image : Image} (h : Image.read file = .ok image) :
    ∃ f : ObjectFile, image = f.toImage := by
  rw [Image.read] at h
  rcases hread : Elf.readObject file with e | f
  · rw [hread] at h
    cases h
  · rw [hread] at h
    cases h
    exact ⟨f, rfl⟩

/-- A look at an image finds that of a file, which the registry keeps. -/
theorem Genuine.lookUp {r : ModuleRegistry} (h : r.Genuine) (files : Files) (path : String) :
    (lookUp files path r).Genuine ∧
      ∀ image, found files path r = some image → ∃ f : ObjectFile, image = f.toImage := by
  cases lookup files path r with
  | kept hfind hfound hnext =>
    obtain ⟨hmem, rfl⟩ := Cache.exists_of_find? hfind
    obtain ⟨f, hf⟩ := h.images _ hmem
    refine ⟨hnext ▸ ⟨List.forall_mem_cons.mpr ⟨⟨f, hf⟩, fun e he => ?_⟩, h.modules⟩, ?_⟩
    · exact h.images e (List.mem_filter.mp he).1
    · intro image himage
      cases hfound.symm.trans himage
      exact ⟨f, hf⟩
  | loaded _ hread hfound hnext =>
    obtain ⟨f, rfl⟩ := exists_of_read hread
    refine ⟨hnext ▸ ⟨fun e he => ?_, h.modules⟩, ?_⟩
    · rcases List.mem_cons.mp (List.mem_of_mem_take he) with rfl | he
      · exact ⟨f, rfl⟩
      · exact h.images e (List.mem_filter.mp he).1
    · intro image himage
      cases hfound.symm.trans himage
      exact ⟨f, rfl⟩
  | unreadable _ _ hfound hnext =>
    rw [hnext, hfound]
    exact ⟨h, nofun⟩

/-- The modules of all spans are described in turn, each from the image that is found then. -/
theorem Genuine.describe (files : Files) (spans : List Span) : ∀ {r : ModuleRegistry}, r.Genuine →
    let described := (spans.mapM fun span => do
      let image ← image files span.path
      return describe image span : StateM ModuleRegistry (List Module)).run r
    described.2.Genuine ∧ ∀ m ∈ described.1, Described m := by
  induction spans with
  | nil => exact fun h => ⟨h, nofun⟩
  | cons span rest ih =>
    intro r h
    rw [List.mapM_cons]
    obtain ⟨hnext, hfound⟩ := h.lookUp files span.path
    obtain ⟨hgenuine, hrest⟩ := ih hnext
    refine ⟨hgenuine, List.forall_mem_cons.mpr ⟨?_, hrest⟩⟩
    show Described (ModuleRegistry.describe (found files span.path r) span)
    rcases himage : found files span.path r with _ | image
    · exact .plain span
    · obtain ⟨f, rfl⟩ := hfound image himage
      exact .image f span

/-- After a look at a memory map, all modules are described from images of files. -/
theorem Genuine.refresh {r : ModuleRegistry} (h : r.Genuine) (files : Files) (main : Option String)
    (map : Except OsError Bytes) : ((refresh files main map).run.run r).2.Genuine := by
  rcases hmap : Mapping.ofFile map with e | mappings
  · have hrun : (ModuleRegistry.refresh files main map).run.run r = (.error e, r) := by
      rw [ModuleRegistry.refresh, hmap]
      rfl
    rw [hrun]
    exact h
  · have hrun : ((ModuleRegistry.refresh files main map).run.run r).2 =
        { ((survey files main mappings).run r).2 with
          modules := ((survey files main mappings).run r).1 } := by
      rw [ModuleRegistry.refresh, hmap]
      rfl
    rw [hrun]
    obtain ⟨hgenuine, hdescribed⟩ := Genuine.describe files (spans mappings) h
    refine ⟨hgenuine.images, fun m hm => hdescribed m ?_⟩
    exact (List.mergeSort_perm _ _).mem_iff.mp hm

theorem Genuine.symbolize {r : ModuleRegistry} (h : r.Genuine) (files : Files) (address : UInt64) :
    ((symbolize files address).run r).2.Genuine := by
  rw [symbolize_run]
  generalize r.pathsAt address = paths
  induction paths generalizing r with
  | nil => exact h
  | cons path paths ih => exact ih (h.lookUp files path).1

/-- A registry on which a tracer worked, in any order and with any files. -/
inductive Worked : ModuleRegistry → Prop
  | empty : Worked empty
  | clear {r : ModuleRegistry} : Worked r → Worked r.clear
  | image {r : ModuleRegistry} (files : Files) (path : String) : Worked r → Worked (lookUp files path r)
  | refresh {r : ModuleRegistry} (files : Files) (main : Option String) (map : Except OsError Bytes) :
      Worked r → Worked ((refresh files main map).run.run r).2
  | symbolize {r : ModuleRegistry} (files : Files) (address : UInt64) :
      Worked r → Worked ((symbolize files address).run r).2

theorem Worked.genuine {r : ModuleRegistry} (h : Worked r) : r.Genuine := by
  induction h with
  | empty => exact genuine_empty
  | clear _ ih => exact ih.clear
  | image files path _ ih => exact (ih.lookUp files path).1
  | refresh files main map _ ih => exact ih.refresh files main map
  | symbolize files address _ ih => exact ih.symbolize files address

/-- Every module that a tracer knows was moved by a slide or is not moved yet. -/
theorem Worked.moved_or_unmoved {r : ModuleRegistry} (h : Worked r) {m : Module} (hm : m ∈ r.modules) :
    (∃ slide, m.MovedBy slide) ∨ m.Unmoved :=
  (h.genuine.modules m hm).moved_or_unmoved

end Tracer.ModuleRegistry

/-! ### Replies and notifications -/

namespace Json

theorem lookup_insert (name n : String) (v : Json) (ms : Members) :
    lookup name (insert n v ms) = if n = name then some v else lookup name ms := by
  induction ms with
  | nil => rfl
  | cons m r ih =>
    obtain ⟨k, w⟩ := m
    rw [insert]
    by_cases hlt : n < k
    · rw [if_pos hlt, lookup]
    · rw [if_neg hlt]
      by_cases hk : n = k
      · subst hk
        rw [if_pos rfl, lookup, lookup]
        split_ifs <;> rfl
      · rw [if_neg hk, lookup, lookup, ih]
        by_cases hn : n = name
        · rw [if_pos hn, if_pos hn, if_neg fun h : k = name => hk (hn.trans h.symm)]
        · rw [if_neg hn, if_neg hn]

end Json

namespace Session

open Wire (ModuleImage Response)

variable {ε : Type} [DebugEngine ε]

/-- A reply with where a section was loaded. -/
def located (r : Response) (s : Section) (slide : UInt64) : Response :=
  (((r.withMember "sectionName" (.str s.name)).withMember "fileAddr"
    (Json.ofWord s.fileAddress)).withMember "loadAddr" (Json.ofWord (s.fileAddress + slide))).withMember
    "aslrSlide" (Json.ofWord slide)

theorem mappedSection?_eq_some {m : Module} {s : Section} (h : mappedSection? m = some s) :
    s ∈ m.sections ∧ s.loadAddress.isSome = true := by
  rw [mappedSection?] at h
  split at h
  · rename_i s' hs
    cases h
    have htest := List.find?_some hs
    exact ⟨List.mem_of_find?_eq_some hs, (Bool.and_eq_true_iff.mp htest).2⟩
  · exact ⟨List.mem_of_find?_eq_some h, List.find?_some (p := fun s : Section => s.loadAddress.isSome) h⟩

/-- The slide of a reply is that of the module. Nothing is said of a section whose address in the process
would be no word. -/
theorem withSlide_of_movedBy {m : Module} {slide : UInt64} (h : m.MovedBy slide) (r : Response) :
    withSlide r m = match mappedSection? m with
      | none => r
      | some s => if s.fileAddress.toNat + slide.toNat < wordLimit then located r s slide else r := by
  rw [withSlide]
  rcases hs : mappedSection? m with _ | s
  · rfl
  · obtain ⟨hmem, hsome⟩ := mappedSection?_eq_some hs
    obtain ⟨load, hload⟩ := Option.isSome_iff_exists.mp hsome
    have heq := h.load_eq hmem hload
    subst heq
    simp only [hload, checkedSub_add]
    split_ifs <;> rfl

theorem withSlide_of_unmoved {m : Module} (h : m.Unmoved) (r : Response) : withSlide r m = r := by
  rw [withSlide]
  rcases hs : mappedSection? m with _ | s
  · rfl
  · obtain ⟨hmem, hsome⟩ := mappedSection?_eq_some hs
    rw [h.loadAddress s hmem] at hsome
    cases hsome

theorem movedImages_append_cons (before after : List Module) (m : Module) :
    movedImages (before ++ m :: after) = movedImages before ++ (movedImages [m] ++ movedImages after) := by
  rw [movedImages, List.filterMap_append, ← List.singleton_append, List.filterMap_append]
  rfl

theorem movedImages_of_movedBy {m : Module} {slide : UInt64} (h : m.MovedBy slide) :
    movedImages [m] = [⟨m.directory, m.fileName, m.loadAddress, m.fileAddress, slide⟩] := by
  simp [movedImages, h.slide_eq]

theorem movedImages_of_unmoved {m : Module} (h : m.Unmoved) : movedImages [m] = [] := by
  simp [movedImages, h.slide_eq]

theorem slide_moduleDocument (m : Module) :
    (moduleDocument m).get? "slide" = some (Json.ofWord? m.slide) := by
  simp [moduleDocument, Json.object, Json.get?, Json.lookup_insert]

/-- The engine has just answered which module is the main one. -/
def AnsweredMain (answer : Except DebugError (Option Module)) (s : Session ε) : Prop :=
  ∃ t s₁, (tryRequest t .mainModule).run.run s₁ = (.ok answer, s)

/-- The engine has just answered which modules there are. -/
def AnsweredModules (ms : List Module) (s : Session ε) : Prop :=
  ∃ t s₁, (request t .modules "modules").run.run s₁ = (.ok ms, s)

/-- The reply to `attachToProcess` that shows nothing of the main module. -/
def attached (pid : Nat) : Response := Response.ok.withMember "pid" (Json.ofNat pid)

omit [DebugEngine ε] in
/-- What holds of the replies of a sequence is shown of its last part. -/
theorem ends_bind_replies {α : Type} {x : Action ε α} {f : α → Action ε Response} {s : Session ε}
    {Q : Response → Session ε → Prop}
    (h : ∀ a s', x.run.run s = (.ok a, s') → Ends (f a) s' fun r u => ∀ reply, r = .ok reply → Q reply u) :
    Ends (x >>= f) s fun r u => ∀ reply, r = .ok reply → Q reply u := by
  refine Ends.bind (P := fun r s' => x.run.run s = (r, s')) rfl h fun e s' _ reply hreply => ?_
  cases hreply

/-- The reply to `attachToProcess` shows the slide of the main module, if there is one. -/
theorem ends_attach_reply (pid : Nat) (executable : Option String) (is64 : Bool) (s : Session ε) :
    Ends (attach pid executable is64) s fun r s' => ∀ reply, r = .ok reply →
      ∃ answer, AnsweredMain answer s' ∧
        reply = answer.toOption.join.elim (attached pid) (withSlide (attached pid)) := by
  rw [attach]
  refine ends_bind_replies fun _ _ _ => ?_
  refine ends_bind_replies fun t _ _ => ?_
  refine ends_bind_replies fun _ _ _ => ?_
  refine ends_bind_replies fun _ s₁ _ => ?_
  refine ends_bind_replies fun answer s' hanswer => ?_
  have hmain : AnsweredMain answer s' := ⟨t, s₁, hanswer⟩
  rcases answer with e | (_ | main)
  all_goals
    rintro _ ⟨⟩
    exact ⟨_, hmain, rfl⟩

theorem ends_moduleAtIndex_reply (index : Int) (s : Session ε) :
    Ends (moduleAtIndex index) s fun r s' => ∀ reply, r = .ok reply → ∃ ms m, AnsweredModules ms s' ∧
      0 ≤ index ∧ ms[index.toNat]? = some m ∧
      reply = Response.ok.withMember "module" (moduleDocument m) := by
  rw [moduleAtIndex]
  refine ends_bind_replies fun t s₁ _ => ?_
  refine ends_bind_replies fun ms s' hms => ?_
  by_cases hindex : 0 ≤ index
  · rw [if_pos hindex]
    dsimp only
    rcases hm : ms[index.toNat]? with _ | m
    · rintro _ ⟨⟩
    · rintro _ ⟨⟩
      exact ⟨ms, m, ⟨t, s₁, hms⟩, hindex, hm, rfl⟩
  · rw [if_neg hindex]
    rintro _ ⟨⟩

theorem ends_moduleForFile_reply (file : String) (s : Session ε) :
    Ends (moduleForFile file) s fun r s' => ∀ reply, r = .ok reply → ∃ ms m, AnsweredModules ms s' ∧
      ms.find? (·.matchesFile file) = some m ∧
      reply = Response.ok.withMember "module" (moduleDocument m) := by
  rw [moduleForFile]
  refine ends_bind_replies fun t s₁ _ => ?_
  refine ends_bind_replies fun ms s' hms => ?_
  split
  · rename_i m hm
    rintro _ ⟨⟩
    exact ⟨ms, m, ⟨t, s₁, hms⟩, hm, rfl⟩
  · rintro _ ⟨⟩

/-- Clients are shown that a module was moved by a slide. -/
structure ShowsSlide (m : Module) (slide : UInt64) : Prop where
  attach : ∀ {ε : Type} [DebugEngine ε] (pid : Nat) (executable : Option String) (is64 : Bool)
    (s : Session ε), Ends (attach pid executable is64) s fun r s' => ∀ reply, r = .ok reply →
      ∃ answer, AnsweredMain answer s' ∧ (answer = .ok (some m) → reply = match mappedSection? m with
        | none => attached pid
        | some s => if s.fileAddress.toNat + slide.toNat < wordLimit then located (attached pid) s slide
            else attached pid)
  notified : ∀ {ε : Type} [DebugEngine ε] (t : Handle) (chunk : Nat) (before after : List Module)
    (c : Channel ε), c.translate t chunk (.modulesLoaded (before ++ m :: after)) =
      c.emit (.moduleLoaded (movedImages before ++
        ⟨m.directory, m.fileName, m.loadAddress, m.fileAddress, slide⟩ :: movedImages after))
  atIndex : ∀ {ε : Type} [DebugEngine ε] (index : Int) (s : Session ε),
    Ends (moduleAtIndex index) s fun r s' => ∀ reply, r = .ok reply → ∃ ms, AnsweredModules ms s' ∧
      (ms[index.toNat]? = some m → reply = Response.ok.withMember "module" (moduleDocument m))
  forFile : ∀ {ε : Type} [DebugEngine ε] (file : String) (s : Session ε),
    Ends (moduleForFile file) s fun r s' => ∀ reply, r = .ok reply → ∃ ms, AnsweredModules ms s' ∧
      (ms.find? (·.matchesFile file) = some m →
        reply = Response.ok.withMember "module" (moduleDocument m))
  document : (moduleDocument m).get? "slide" = some (Json.ofWord slide)

/-- Clients are shown no slide of a module. -/
structure HidesSlide (m : Module) : Prop where
  attach : ∀ {ε : Type} [DebugEngine ε] (pid : Nat) (executable : Option String) (is64 : Bool)
    (s : Session ε), Ends (attach pid executable is64) s fun r s' => ∀ reply, r = .ok reply →
      ∃ answer, AnsweredMain answer s' ∧ (answer = .ok (some m) → reply = attached pid)
  notified : ∀ {ε : Type} [DebugEngine ε] (t : Handle) (chunk : Nat) (before after : List Module)
    (c : Channel ε), c.translate t chunk (.modulesLoaded (before ++ m :: after)) =
      c.emit (.moduleLoaded (movedImages before ++ movedImages after))
  document : (moduleDocument m).get? "slide" = some .null

variable {m : Module} {slide : UInt64}

theorem showsSlide_of_movedBy (h : m.MovedBy slide) : ShowsSlide m slide where
  attach pid executable is64 s := by
    refine (ends_attach_reply pid executable is64 s).mono fun r s' hr reply hreply => ?_
    obtain ⟨answer, hmain, rfl⟩ := hr reply hreply
    refine ⟨answer, hmain, ?_⟩
    rintro rfl
    exact withSlide_of_movedBy h _
  notified t chunk before after c := by
    show c.emit (.moduleLoaded (movedImages _)) = _
    rw [movedImages_append_cons, movedImages_of_movedBy h]
    rfl
  atIndex index s := by
    refine (ends_moduleAtIndex_reply index s).mono fun r s' hr reply hreply => ?_
    obtain ⟨ms, m', hlists, -, hm', rfl⟩ := hr reply hreply
    exact ⟨ms, hlists, fun hm => by rw [Option.some.inj (hm'.symm.trans hm)]⟩
  forFile file s := by
    refine (ends_moduleForFile_reply file s).mono fun r s' hr reply hreply => ?_
    obtain ⟨ms, m', hlists, hm', rfl⟩ := hr reply hreply
    exact ⟨ms, hlists, fun hm => by rw [Option.some.inj (hm'.symm.trans hm)]⟩
  document := by rw [slide_moduleDocument, h.slide_eq]; rfl

theorem hidesSlide_of_unmoved (h : m.Unmoved) : HidesSlide m where
  attach pid executable is64 s := by
    refine (ends_attach_reply pid executable is64 s).mono fun r s' hr reply hreply => ?_
    obtain ⟨answer, hmain, rfl⟩ := hr reply hreply
    refine ⟨answer, hmain, ?_⟩
    rintro rfl
    exact withSlide_of_unmoved h _
  notified t chunk before after c := by
    show c.emit (.moduleLoaded (movedImages _)) = _
    rw [movedImages_append_cons, movedImages_of_unmoved h]
    rfl
  document := by rw [slide_moduleDocument, h.slide_eq]; rfl

end Session

/-! ### Addresses of the tracer -/

namespace Tracer

open ModuleRegistry (found)

variable {m : Module} {slide : UInt64}

/-- The function at an address of a moved module is looked up at the address in its file, and starts at
the sum of its address there and the slide. -/
theorem symbolize_of_movedBy (h : m.MovedBy slide) {r : ModuleRegistry} {address : UInt64}
    (hm : r.moduleAt address = some m) (files : Files) :
    ((ModuleRegistry.symbolize files address).run r).1 =
      ((found files m.path r).bind (·.functionAt (address - slide))).map
        fun s => (s.name, s.address + slide) := by
  rw [ModuleRegistry.symbolize_run, hm]
  simp only [Option.bind_some, h.slide_eq]

variable {κ : Type} [Kernel κ] {s s₁ : System κ}

/-- The main module is described from the image of a file, and so it was moved by a slide or is not moved
yet. -/
theorem ends_requireMainModule_described (hs : s.tracer.modules.Genuine) :
    Ends Tracing.requireMainModule s fun r s' => s'.tracer.modules.Genuine ∧
      ∀ m, r = .ok m → (∃ slide, m.MovedBy slide) ∨ m.Unmoved := by
  rw [Tracing.requireMainModule]
  refine Ends.bind (P := fun r s' => s'.tracer.modules.Genuine ∧
    ∀ m, r = .ok (some m) → ModuleRegistry.Described m) ?_ ?_ fun e s' h => ⟨h.1, nofun⟩
  · rw [Tracing.mainModule]
    rcases hp : s.tracer.process with _ | p
    · rw [Tracing.ends_process_bind_none hp]
      exact ⟨hs, nofun⟩
    · rw [Tracing.ends_process_bind hp]
      have hsync : Ends Tracing.syncModules s fun _ s' => s'.tracer.modules.Genuine := by
        refine (Tracing.ends_syncModules_refresh s).mono fun _ s' h => ?_
        rcases h with hsame | ⟨main, map, hnext⟩
        · exact hsame ▸ hs
        · exact hnext ▸ hs.refresh _ main map
      refine hsync.bind (fun _ s' h => ?_) fun _ s' h => ⟨h, nofun⟩
      rw [Tracing.ends_tracer_bind]
      refine ⟨h, fun m hm => h.modules m ?_⟩
      obtain ⟨path, -, hfind⟩ := Option.bind_eq_some_iff.mp (Except.ok.inj hm)
      exact List.mem_of_find?_eq_some hfind
  · rintro (_ | m) s' ⟨hgenuine, hdescribed⟩
    · exact ⟨hgenuine, nofun⟩
    · refine ⟨hgenuine, ?_⟩
      rintro _ ⟨⟩
      exact (hdescribed m rfl).moved_or_unmoved

theorem entryPoint_of_movedBy (h : m.MovedBy slide)
    (hm : Tracing.requireMainModule.run.run s = (.ok m, s₁)) :
    (Tracing.entryPoint.run.run s).1 =
      match found (Kernel.file s₁.kernel) m.path s₁.tracer.modules with
      | some image => .ok (image.entry + slide)
      | none => .error .noMainModule := by
  show Ends Tracing.entryPoint s fun r _ => r = _
  rw [Tracing.entryPoint, ends_bind, Ends, hm]
  dsimp only
  rw [Tracing.ends_files_bind, Tracing.ends_onModules_bind, h.slide_eq]
  show Ends (match found (Kernel.file s₁.kernel) m.path s₁.tracer.modules with
    | some image => _
    | none => _) _ _
  split <;> rfl

theorem findReferences_of_movedBy (h : m.MovedBy slide)
    (hm : Tracing.requireMainModule.run.run s = (.ok m, s₁)) (address : UInt64) :
    ((Tracing.findReferences address).run.run s).1 =
      (Machine.findReferences s₁.tracer.references (.new m.path slide address) fun _ =>
        (Elf.codeSections (Kernel.file s₁.kernel m.path)).map fun sections =>
          sections.map fun x => (x.1 + slide, x.2)).1 := by
  show Ends (Tracing.findReferences address) s fun r _ => r = _
  rw [Tracing.findReferences, ends_bind, Ends, hm]
  dsimp only
  rw [Tracing.ends_files_bind, Tracing.ends_tracer_bind, h.slide_eq]
  rw [Tracing.ends_modifyTracer_bind]
  refine congrArg (fun sections => (Machine.findReferences s₁.tracer.references _ sections).1)
    (funext fun _ => ?_)
  cases Elf.codeSections (Kernel.file s₁.kernel m.path) <;> rfl

/-- The tracer moves what it reads of the file of a module by a slide: the entry of the program, the code
that is searched for references, and the starts of functions. -/
structure Relocates (m : Module) (slide : UInt64) : Prop where
  entry : ∀ {κ : Type} [Kernel κ] {s s₁ : System κ},
    Tracing.requireMainModule.run.run s = (.ok m, s₁) → (Tracing.entryPoint.run.run s).1 =
      match found (Kernel.file s₁.kernel) m.path s₁.tracer.modules with
      | some image => .ok (image.entry + slide)
      | none => .error .noMainModule
  references : ∀ {κ : Type} [Kernel κ] {s s₁ : System κ},
    Tracing.requireMainModule.run.run s = (.ok m, s₁) → ∀ address : UInt64,
      ((Tracing.findReferences address).run.run s).1 =
        (Machine.findReferences s₁.tracer.references (.new m.path slide address) fun _ =>
          (Elf.codeSections (Kernel.file s₁.kernel m.path)).map fun sections =>
            sections.map fun x => (x.1 + slide, x.2)).1
  function : ∀ {r : ModuleRegistry} {address : UInt64}, r.moduleAt address = some m →
    ∀ files : Files, ((ModuleRegistry.symbolize files address).run r).1 =
      ((found files m.path r).bind (·.functionAt (address - slide))).map
        fun s => (s.name, s.address + slide)

theorem relocates_of_movedBy (h : m.MovedBy slide) : Relocates m slide :=
  ⟨entryPoint_of_movedBy h, findReferences_of_movedBy h, symbolize_of_movedBy h⟩

/-- **There is one slide.** Let a module be described from the image of a file and the start of its
mappings. If the start is not below the lowest address in the file, the module was moved by the
difference: it is the slide of the module and the difference between the addresses of every section that
is in the process. It is shown in the replies to `attachToProcess`, `moduleAtIndex` and `moduleForFile`
and in the notifications of loaded modules, and by it the tracer moves the entry of the program, the code
that is searched for references and the starts of functions. If the start is below, no section is in the
process, and neither the reply to `attachToProcess` nor a notification of loaded modules tells a slide. -/
theorem slide_spec (f : ObjectFile) (span : ModuleRegistry.Span) :
    let start := UInt64.ofNat span.start
    let m := ModuleRegistry.describe (some f.toImage) span
    (f.toImage.fileAddress ≤ start → ∃ slide, slide = start - f.toImage.fileAddress ∧ m.MovedBy slide ∧
      (∀ s ∈ m.sections, ∀ load, s.loadAddress = some load → load - s.fileAddress = slide) ∧
      Session.ShowsSlide m slide ∧ Relocates m slide) ∧
    (start < f.toImage.fileAddress → m.Unmoved ∧ Session.HidesSlide m) := by
  intro start m
  refine ⟨fun h => ?_, fun h => ?_⟩
  · have hmoved := ModuleRegistry.movedBy_describe h
    refine ⟨_, rfl, hmoved, fun s hs load hload => ?_, Session.showsSlide_of_movedBy hmoved,
      relocates_of_movedBy hmoved⟩
    rw [hmoved.load_eq hs hload, UInt64.add_comm, UInt64.add_sub_cancel]
  · have hunmoved := ModuleRegistry.unmoved_describe h
    exact ⟨hunmoved, Session.hidesSlide_of_unmoved hunmoved⟩

end Tracer

end DebugAdapter
