import DebugAdapter.Tracer.Modules
import Mathlib.Data.String.Basic
import Mathlib.Order.Bounds.Basic

/-!
# Surveys of modules

A survey makes a module of each file in a memory map: the module lies over all mappings of its file. The
spans of the files are collected in the order of the paths, which is a strict total order of their
components, and so there is one for each path. The modules are sorted then: the main module comes first,
and the others ascend by their load addresses.

Main statements: `survey_run` and `refresh_run`.
-/

namespace DebugAdapter

/-! ### The order of paths -/

namespace Text.Path

namespace Component

theorem before_iff {a b : Component} : a.before b = true ↔
    a.rank < b.rank ∨ ∃ x y, a = normal x ∧ b = normal y ∧ x < y := by
  cases a <;> cases b <;> simp [before, rank]

theorem before_irrefl (a : Component) : a.before a = false := by
  refine Bool.eq_false_iff.mpr fun h => ?_
  rcases before_iff.mp h with hrank | ⟨x, y, rfl, heq, hlt⟩
  · exact lt_irrefl _ hrank
  · cases heq
    exact lt_irrefl x hlt

theorem before_trans {a b c : Component} (hab : a.before b = true) (hbc : b.before c = true) :
    a.before c = true := by
  rw [before_iff] at hab hbc ⊢
  rcases hab with hab | ⟨x, y, rfl, rfl, hxy⟩
  · rcases hbc with hbc | ⟨y, z, rfl, rfl, -⟩
    · exact Or.inl (hab.trans hbc)
    · exact Or.inl hab
  · rcases hbc with hbc | ⟨y', z, heq, rfl, hyz⟩
    · exact Or.inl hbc
    · cases heq
      exact Or.inr ⟨x, z, rfl, rfl, hxy.trans hyz⟩

theorem before_or_before {a b : Component} (h : a ≠ b) : a.before b = true ∨ b.before a = true := by
  rw [before_iff, before_iff]
  rcases lt_trichotomy a.rank b.rank with hrank | hrank | hrank
  · exact Or.inl (Or.inl hrank)
  · -- Only names have the same rank and differ.
    cases a with
    | normal x =>
      cases b with
      | normal y =>
        have hxy : x ≠ y := fun heq => h (congrArg normal heq)
        exact (lt_or_gt_of_ne hxy).imp (fun hlt => Or.inr ⟨x, y, rfl, rfl, hlt⟩)
          fun hlt => Or.inr ⟨y, x, rfl, rfl, hlt⟩
      | _ => cases hrank
    | _ =>
      cases b with
      | normal y => cases hrank
      | _ => first | exact absurd rfl h | cases hrank
  · exact Or.inr (Or.inl hrank)

end Component

theorem componentsBefore_irrefl (l : List Component) : componentsBefore l l = false := by
  induction l with
  | nil => rfl
  | cons a l ih => rw [componentsBefore, Component.before_irrefl, ih, Bool.and_false, Bool.or_false]

theorem componentsBefore_cons {a b : Component} {l r : List Component} :
    componentsBefore (a :: l) (b :: r) = true ↔
      a.before b = true ∨ (a = b ∧ componentsBefore l r = true) := by
  rw [componentsBefore, Bool.or_eq_true, Bool.and_eq_true, beq_iff_eq]

theorem componentsBefore_trans {l : List Component} : ∀ {r t : List Component},
    componentsBefore l r = true → componentsBefore r t = true → componentsBefore l t = true := by
  induction l with
  | nil =>
    intro r t hlr hrt
    cases t with
    | nil => cases r <;> cases hrt
    | cons c t => rfl
  | cons a l ih =>
    intro r t hlr hrt
    cases r with
    | nil => cases hlr
    | cons b r =>
      cases t with
      | nil => cases hrt
      | cons c t =>
        rw [componentsBefore_cons] at hlr hrt ⊢
        rcases hlr with hab | ⟨rfl, hlr⟩
        · rcases hrt with hbc | ⟨rfl, -⟩
          · exact Or.inl (Component.before_trans hab hbc)
          · exact Or.inl hab
        · exact hrt.imp_right fun ⟨hac, hrt⟩ => ⟨hac, ih hlr hrt⟩

theorem componentsBefore_or {l : List Component} : ∀ {r : List Component}, l ≠ r →
    componentsBefore l r = true ∨ componentsBefore r l = true := by
  induction l with
  | nil =>
    intro r h
    cases r with
    | nil => exact absurd rfl h
    | cons b r => exact Or.inl rfl
  | cons a l ih =>
    intro r h
    cases r with
    | nil => exact Or.inr rfl
    | cons b r =>
      rw [componentsBefore_cons, componentsBefore_cons]
      by_cases hab : a = b
      · subst hab
        have hlr : l ≠ r := fun heq => h (congrArg _ heq)
        exact (ih hlr).imp (fun h => Or.inr ⟨rfl, h⟩) fun h => Or.inr ⟨rfl, h⟩
      · exact (Component.before_or_before hab).imp Or.inl Or.inl

theorem same_iff {a b : String} : same a b = true ↔ components a = components b :=
  beq_iff_eq

theorem same_symm {a b : String} (h : same a b = true) : same b a = true :=
  same_iff.mpr (same_iff.mp h).symm

theorem same_trans {a b c : String} (hab : same a b = true) (hbc : same b c = true) :
    same a c = true :=
  same_iff.mpr ((same_iff.mp hab).trans (same_iff.mp hbc))

theorem same_comm (a b : String) : same a b = same b a :=
  Bool.eq_iff_iff.mpr ⟨same_symm, same_symm⟩

theorem same_eq_of_same {a b : String} (h : same a b = true) (c : String) :
    same a c = same b c :=
  Bool.eq_iff_iff.mpr ⟨same_trans (same_symm h), same_trans h⟩

theorem same_eq_false_of_before {a b : String} (h : before a b = true) : same a b = false := by
  refine Bool.eq_false_iff.mpr fun hsame => ?_
  rw [before, same_iff.mp hsame, componentsBefore_irrefl] at h
  cases h

theorem before_of_same {a b c : String} (hsame : same a b = true) (h : before a c = true) :
    before b c = true := by
  rw [before, same_iff.mp hsame] at h
  exact h

end Text.Path

namespace Tracer

open Debuggee
open Elf (Image)
open Linux
open Text.Path (same before)

namespace ModuleRegistry

/-! ### Spans -/

/-- Where the mappings of a file start. -/
def starts (mappings : List Mapping) (path : String) : Set Nat :=
  {a | ∃ m ∈ mappings, same m.path path = true ∧ m.start = a}

/-- Where the mappings of a file stop. -/
def stops (mappings : List Mapping) (path : String) : Set Nat :=
  {a | ∃ m ∈ mappings, same m.path path = true ∧ m.stop = a}

/-- The spans of the files in a memory map: one for each path, from the lowest start to the highest
stop. -/
structure Spans (mappings : List Mapping) (spans : List Span) : Prop where
  sorted : spans.Pairwise fun a b => before a.path b.path = true
  covers : ∀ m ∈ mappings, ∃ s ∈ spans, same m.path s.path = true
  written : ∀ s ∈ spans, ∃ m ∈ mappings, m.path = s.path
  lowest : ∀ s ∈ spans, IsLeast (starts mappings s.path) s.start
  highest : ∀ s ∈ spans, IsGreatest (stops mappings s.path) s.stop

section Spans

variable {mappings : List Mapping} {m : Mapping} {spans : List Span} {s : Span}

theorem starts_append_of_same {path : String} (h : same m.path path = true) :
    starts (mappings ++ [m]) path = insert m.start (starts mappings path) := by
  ext a
  simp only [starts, Set.mem_ofPred_eq, Set.mem_insert_iff, List.mem_append, List.mem_singleton]
  grind

theorem stops_append_of_same {path : String} (h : same m.path path = true) :
    stops (mappings ++ [m]) path = insert m.stop (stops mappings path) := by
  ext a
  simp only [stops, Set.mem_ofPred_eq, Set.mem_insert_iff, List.mem_append, List.mem_singleton]
  grind

theorem starts_append_of_not_same {path : String} (h : same m.path path = false) :
    starts (mappings ++ [m]) path = starts mappings path := by
  ext a
  simp only [starts, Set.mem_ofPred_eq, List.mem_append, List.mem_singleton]
  grind

theorem stops_append_of_not_same {path : String} (h : same m.path path = false) :
    stops (mappings ++ [m]) path = stops mappings path := by
  ext a
  simp only [stops, Set.mem_ofPred_eq, List.mem_append, List.mem_singleton]
  grind

/-- A span that a mapping is added to. -/
def Span.grow (s : Span) (m : Mapping) : Span :=
  { s with start := min s.start m.start, stop := max s.stop m.stop }

/-- A mapping makes the span of its file grow, or a new one, and leaves the others. -/
theorem mem_addMapping (hsorted : spans.Pairwise fun a b => before a.path b.path = true)
    (hs : s ∈ addMapping m spans) :
    (s ∈ spans ∧ same m.path s.path = false) ∨
    (∃ t ∈ spans, same m.path t.path = true ∧ s = t.grow m) ∨
    (s = ⟨m.path, m.start, m.stop⟩ ∧ ∀ t ∈ spans, same m.path t.path = false) := by
  induction spans with
  | nil => exact Or.inr (Or.inr ⟨List.mem_singleton.mp hs, fun _ ht => absurd ht List.not_mem_nil⟩)
  | cons t r ih =>
    obtain ⟨hfirst, hrest⟩ := List.pairwise_cons.mp hsorted
    have hdistinct : ∀ u ∈ r, same t.path u.path = false := fun u hu =>
      Text.Path.same_eq_false_of_before (hfirst u hu)
    rw [addMapping] at hs
    split at hs
    · rename_i hsame
      rcases List.mem_cons.mp hs with rfl | hr
      · exact Or.inr (Or.inl ⟨t, List.mem_cons_self, hsame, rfl⟩)
      · refine Or.inl ⟨List.mem_cons_of_mem t hr, ?_⟩
        rw [Text.Path.same_eq_of_same hsame]
        exact hdistinct s hr
    · rename_i hne
      have hne := Bool.eq_false_iff.mpr hne
      split at hs
      · rename_i hbefore
        have hnone : ∀ u ∈ t :: r, same m.path u.path = false := by
          refine List.forall_mem_cons.mpr ⟨hne, fun u hu => ?_⟩
          exact Text.Path.same_eq_false_of_before
            (Text.Path.componentsBefore_trans hbefore (hfirst u hu))
        rcases List.mem_cons.mp hs with rfl | hr
        · exact Or.inr (Or.inr ⟨rfl, hnone⟩)
        · exact Or.inl ⟨hr, hnone s hr⟩
      · rcases List.mem_cons.mp hs with rfl | hr
        · exact Or.inl ⟨List.mem_cons_self, hne⟩
        · rcases ih hrest hr with ⟨hmem, hs⟩ | ⟨u, hu, hsame, hgrow⟩ | ⟨hnew, hnone⟩
          · exact Or.inl ⟨List.mem_cons_of_mem t hmem, hs⟩
          · exact Or.inr (Or.inl ⟨u, List.mem_cons_of_mem t hu, hsame, hgrow⟩)
          · exact Or.inr (Or.inr ⟨hnew, List.forall_mem_cons.mpr ⟨hne, hnone⟩⟩)

/-- Each path keeps its span, and the path of the mapping gets one. -/
theorem covers_addMapping {path : String} (h : path = m.path ∨ ∃ t ∈ spans, same path t.path = true) :
    ∃ s ∈ addMapping m spans, same path s.path = true := by
  have hself : ∀ p : String, same p p = true := fun p => Text.Path.same_iff.mpr rfl
  induction spans with
  | nil =>
    rcases h with rfl | ⟨t, ht, -⟩
    · exact ⟨_, List.mem_singleton_self _, hself _⟩
    · exact absurd ht List.not_mem_nil
  | cons t r ih =>
    rw [addMapping]
    split
    · rename_i hsame
      rcases h with rfl | ⟨u, hu, hpath⟩
      · exact ⟨_, List.mem_cons_self, hsame⟩
      · rcases List.mem_cons.mp hu with rfl | hu
        · exact ⟨_, List.mem_cons_self, hpath⟩
        · exact ⟨u, List.mem_cons_of_mem _ hu, hpath⟩
    · split
      · rcases h with rfl | ⟨u, hu, hpath⟩
        · exact ⟨_, List.mem_cons_self, hself _⟩
        · exact ⟨u, List.mem_cons_of_mem _ hu, hpath⟩
      · rcases h with rfl | ⟨u, hu, hpath⟩
        · obtain ⟨s, hs, hpath⟩ := ih (Or.inl rfl)
          exact ⟨s, List.mem_cons_of_mem t hs, hpath⟩
        · rcases List.mem_cons.mp hu with rfl | hu
          · exact ⟨u, List.mem_cons_self, hpath⟩
          · obtain ⟨s, hs, hpath⟩ := ih (Or.inr ⟨u, hu, hpath⟩)
            exact ⟨s, List.mem_cons_of_mem t hs, hpath⟩

theorem sorted_addMapping (h : spans.Pairwise fun a b => before a.path b.path = true) :
    (addMapping m spans).Pairwise fun a b => before a.path b.path = true := by
  induction spans with
  | nil => exact List.pairwise_singleton _ _
  | cons t r ih =>
    obtain ⟨hfirst, hrest⟩ := List.pairwise_cons.mp h
    rw [addMapping]
    split
    · exact List.pairwise_cons.mpr ⟨hfirst, hrest⟩
    · rename_i hne
      split
      · rename_i hbefore
        refine List.pairwise_cons.mpr ⟨List.forall_mem_cons.mpr ⟨hbefore, fun u hu => ?_⟩, h⟩
        exact Text.Path.componentsBefore_trans hbefore (hfirst u hu)
      · rename_i hnot
        have hlast : before t.path m.path = true :=
          (Text.Path.componentsBefore_or fun heq => hne (Text.Path.same_iff.mpr heq)).resolve_left hnot
        refine List.pairwise_cons.mpr ⟨fun u hu => ?_, ih hrest⟩
        rcases mem_addMapping hrest hu with ⟨hmem, -⟩ | ⟨v, hv, -, rfl⟩ | ⟨rfl, -⟩
        · exact hfirst u hmem
        · exact hfirst v hv
        · exact hlast

theorem Spans.add (h : Spans mappings spans) (m : Mapping) :
    Spans (mappings ++ [m]) (addMapping m spans) := by
  have hnone : (∀ t ∈ spans, same m.path t.path = false) →
      ∀ n ∈ mappings, same n.path m.path = false := by
    intro hspans n hn
    obtain ⟨t, ht, hsame⟩ := h.covers n hn
    rw [Text.Path.same_eq_of_same hsame, Text.Path.same_comm]
    exact hspans t ht
  refine ⟨sorted_addMapping h.sorted, fun n hn => ?_, fun s hs => ?_, fun s hs => ?_, fun s hs => ?_⟩
  · rcases List.mem_append.mp hn with hn | hn
    · exact covers_addMapping (Or.inr (h.covers n hn))
    · exact covers_addMapping (Or.inl (congrArg _ (List.mem_singleton.mp hn)))
  · rcases mem_addMapping h.sorted hs with ⟨hmem, -⟩ | ⟨t, ht, -, rfl⟩ | ⟨rfl, -⟩
    · obtain ⟨n, hn, hpath⟩ := h.written s hmem
      exact ⟨n, List.mem_append_left _ hn, hpath⟩
    · obtain ⟨n, hn, hpath⟩ := h.written t ht
      exact ⟨n, List.mem_append_left _ hn, hpath⟩
    · exact ⟨m, List.mem_append_right _ (List.mem_singleton_self m), rfl⟩
  · rcases mem_addMapping h.sorted hs with ⟨hmem, hne⟩ | ⟨t, ht, hsame, rfl⟩ | ⟨rfl, hspans⟩
    · rw [starts_append_of_not_same hne]
      exact h.lowest s hmem
    · rw [Span.grow, starts_append_of_same hsame, min_comm]
      exact (h.lowest t ht).insert m.start
    · have hempty : starts mappings m.path = ∅ := by
        refine Set.eq_empty_iff_forall_notMem.mpr ?_
        rintro a ⟨n, hn, hsame, -⟩
        exact absurd hsame (Bool.eq_false_iff.mp (hnone hspans n hn))
      rw [starts_append_of_same (Text.Path.same_iff.mpr rfl), hempty, insert_empty_eq]
      exact isLeast_singleton
  · rcases mem_addMapping h.sorted hs with ⟨hmem, hne⟩ | ⟨t, ht, hsame, rfl⟩ | ⟨rfl, hspans⟩
    · rw [stops_append_of_not_same hne]
      exact h.highest s hmem
    · rw [Span.grow, stops_append_of_same hsame, max_comm]
      exact (h.highest t ht).insert m.stop
    · have hempty : stops mappings m.path = ∅ := by
        refine Set.eq_empty_iff_forall_notMem.mpr ?_
        rintro a ⟨n, hn, hsame, -⟩
        exact absurd hsame (Bool.eq_false_iff.mp (hnone hspans n hn))
      rw [stops_append_of_same (Text.Path.same_iff.mpr rfl), hempty, insert_empty_eq]
      exact isGreatest_singleton

theorem spans_spec (mappings : List Mapping) : Spans mappings (ModuleRegistry.spans mappings) := by
  have hfold : ∀ (rest seen : List Mapping) (acc : List Span), Spans seen acc →
      Spans (seen ++ rest) (rest.foldl (fun acc m => addMapping m acc) acc) := by
    intro rest
    induction rest with
    | nil =>
      intro seen acc h
      rw [List.append_nil]
      exact h
    | cons m rest ih =>
      intro seen acc h
      have h := ih (seen ++ [m]) (addMapping m acc) (h.add m)
      rw [List.append_assoc] at h
      exact h
  have hnone : ∀ {p : Span → Prop}, ∀ s ∈ ([] : List Span), p s := fun _ hs => absurd hs List.not_mem_nil
  exact hfold mappings [] [] ⟨.nil, fun _ hm => absurd hm List.not_mem_nil, hnone, hnone, hnone⟩

end Spans

/-! ### Surveys -/

/-- Whether a module is the main one. -/
def isMain (main : Option String) (m : Module) : Bool := main.any (same m.path)

/-- What a survey of a memory map makes the modules. -/
structure Surveyed (main : Option String) (mappings : List Mapping) (modules : List Module) : Prop where
  absolute : ∀ m ∈ modules, Text.Path.isAbsolute m.path = true
  distinct : modules.Pairwise fun a b => same a.path b.path = false
  covers : ∀ n ∈ mappings, ∃ m ∈ modules, same n.path m.path = true
  lowest : ∀ m ∈ modules, IsLeast (starts mappings m.path) m.loadAddress.toNat
  highest : ∀ m ∈ modules, ∃ stop, IsGreatest (stops mappings m.path) stop ∧
    m.size.toNat = stop - m.loadAddress.toNat
  first : ∀ m ∈ modules, isMain main m = true → modules.head? = some m
  ascending : (modules.filter fun m => !isMain main m).Pairwise fun a b =>
    a.loadAddress ≤ b.loadAddress

theorem precedes_iff {main : Option String} {a b : Module} : precedes main a b = true ↔
    (isMain main a = true ∧ isMain main b = false) ∨
    (isMain main a = isMain main b ∧ a.loadAddress ≤ b.loadAddress) := by
  have hprecedes : precedes main a b = if isMain main a = isMain main b
      then decide (a.loadAddress ≤ b.loadAddress) else isMain main a := rfl
  rw [hprecedes]
  cases isMain main a <;> cases isMain main b <;> simp

theorem precedes_trans (main : Option String) (a b c : Module) (hab : precedes main a b = true)
    (hbc : precedes main b c = true) : precedes main a c = true := by
  rw [precedes_iff] at hab hbc ⊢
  rcases hab with ⟨ha, hb⟩ | ⟨hkind, hle⟩
  · rcases hbc with ⟨hb', -⟩ | ⟨hkind', -⟩
    · cases hb.symm.trans hb'
    · exact Or.inl ⟨ha, hkind'.symm.trans hb⟩
  · rcases hbc with ⟨hb, hc⟩ | ⟨hkind', hle'⟩
    · exact Or.inl ⟨hkind.trans hb, hc⟩
    · exact Or.inr ⟨hkind.trans hkind', UInt64.le_trans hle hle'⟩

theorem precedes_total (main : Option String) (a b : Module) :
    (precedes main a b || precedes main b a) = true := by
  rw [Bool.or_eq_true, precedes_iff, precedes_iff]
  have hle := UInt64.le_total a.loadAddress b.loadAddress
  cases isMain main a with
  | true =>
    cases isMain main b with
    | true => exact hle.imp (fun h => Or.inr ⟨rfl, h⟩) fun h => Or.inr ⟨rfl, h⟩
    | false => exact Or.inl (Or.inl ⟨rfl, rfl⟩)
  | false =>
    cases isMain main b with
    | true => exact Or.inr (Or.inl ⟨rfl, rfl⟩)
    | false => exact hle.imp (fun h => Or.inr ⟨rfl, h⟩) fun h => Or.inr ⟨rfl, h⟩

/-- What a module takes from the span of its file. -/
def extent (m : Module) : String × UInt64 × UInt64 := (m.path, m.loadAddress, m.size)

/-- What the span of a file gives to its module. -/
def Span.extent (s : Span) : String × UInt64 × UInt64 :=
  (s.path, UInt64.ofNat s.start, UInt64.ofNat (s.stop - s.start))

theorem extent_describe (image : Option Image) (s : Span) : extent (describe image s) = s.extent := by
  cases image with
  | none => rfl
  | some image => rfl

/-- Describing the spans of files leaves the modules that are known. -/
theorem extents_describe (files : Files) (spans : List Span) (r : ModuleRegistry) :
    let described := (spans.mapM fun span => do
      let image ← image files span.path
      return describe image span : StateM ModuleRegistry (List Module)).run r
    described.1.map extent = spans.map Span.extent ∧ described.2.modules = r.modules := by
  induction spans generalizing r with
  | nil => exact ⟨rfl, rfl⟩
  | cons span rest ih =>
    rw [List.mapM_cons]
    obtain ⟨hextents, hmodules⟩ := ih ((image files span.path).run r).2
    refine ⟨?_, hmodules.trans (modules_image files span.path r)⟩
    exact congrArg₂ List.cons (extent_describe _ span) hextents

theorem mem_of_extents {modules : List Module} {spans : List Span}
    (h : modules.map extent = spans.map Span.extent) {m : Module} (hm : m ∈ modules) :
    ∃ s ∈ spans, m.path = s.path ∧ m.loadAddress = UInt64.ofNat s.start ∧
      m.size = UInt64.ofNat (s.stop - s.start) := by
  have hmem : extent m ∈ spans.map Span.extent := h ▸ List.mem_map_of_mem hm
  obtain ⟨s, hs, heq⟩ := List.mem_map.mp hmem
  obtain ⟨hpath, hrest⟩ := Prod.mk.inj heq
  obtain ⟨hstart, hsize⟩ := Prod.mk.inj hrest
  exact ⟨s, hs, hpath.symm, hstart.symm, hsize.symm⟩

/-- Mappings of files with absolute paths, at addresses. -/
def Placed (mappings : List Mapping) : Prop :=
  ∀ n ∈ mappings, Text.Path.isAbsolute n.path = true ∧ n.start < wordLimit ∧ n.stop < wordLimit

/-- Modules with the extents of the spans of a memory map, in order, are surveyed. -/
theorem surveyed_mergeSort (main : Option String) {mappings : List Mapping}
    (hplaced : Placed mappings) {modules : List Module}
    (hextents : modules.map extent = (spans mappings).map Span.extent) :
    Surveyed main mappings (modules.mergeSort (precedes main)) := by
  have hspans := spans_spec mappings
  have hperm := List.mergeSort_perm modules (precedes main)
  have hmem : ∀ m ∈ modules.mergeSort (precedes main), ∃ s ∈ spans mappings, m.path = s.path ∧
      m.loadAddress = UInt64.ofNat s.start ∧ m.size = UInt64.ofNat (s.stop - s.start) :=
    fun m hm => mem_of_extents hextents (hperm.mem_iff.mp hm)
  have hstart : ∀ s ∈ spans mappings, (UInt64.ofNat s.start).toNat = s.start := by
    intro s hs
    obtain ⟨n, hn, -, heq⟩ := (hspans.lowest s hs).1
    exact UInt64.toNat_ofNat_of_lt' (heq ▸ (hplaced n hn).2.1)
  have hdistinct : (modules.mergeSort (precedes main)).Pairwise fun a b =>
      same a.path b.path = false := by
    refine (hperm.pairwise_iff fun {a b} h => (Text.Path.same_comm b.path a.path).trans h).mpr ?_
    have hsorted : ((spans mappings).map Span.extent).Pairwise fun a b => same a.1 b.1 = false :=
      List.pairwise_map.mpr (hspans.sorted.imp Text.Path.same_eq_false_of_before)
    rw [← hextents] at hsorted
    exact List.pairwise_map.mp hsorted
  have hsorted := List.pairwise_mergeSort (precedes_trans main) (precedes_total main) modules
  refine ⟨fun m hm => ?_, hdistinct, fun n hn => ?_, fun m hm => ?_, fun m hm => ?_, fun m hm hmain => ?_,
    ?_⟩
  · obtain ⟨s, hs, hpath, -⟩ := hmem m hm
    obtain ⟨n, hn, hwritten⟩ := hspans.written s hs
    rw [hpath, ← hwritten]
    exact (hplaced n hn).1
  · obtain ⟨s, hs, hsame⟩ := hspans.covers n hn
    have hs : s.extent ∈ modules.map extent := hextents ▸ List.mem_map_of_mem hs
    obtain ⟨m, hm, heq⟩ := List.mem_map.mp hs
    have hpath : m.path = s.path := (Prod.mk.inj heq).1
    exact ⟨m, hperm.mem_iff.mpr hm, hpath ▸ hsame⟩
  · obtain ⟨s, hs, hpath, hload, -⟩ := hmem m hm
    rw [hpath, hload, hstart s hs]
    exact hspans.lowest s hs
  · obtain ⟨s, hs, hpath, hload, hsize⟩ := hmem m hm
    obtain ⟨n, hn, -, heq⟩ := (hspans.highest s hs).1
    rw [hpath, hload, hsize, hstart s hs]
    refine ⟨s.stop, hspans.highest s hs, UInt64.toNat_ofNat_of_lt' ?_⟩
    exact (Nat.sub_le _ _).trans_lt (heq ▸ (hplaced n hn).2.2)
  · -- A module before the main one would be another main one.
    rcases hl : modules.mergeSort (precedes main) with _ | ⟨a, r⟩
    · rw [hl] at hm
      exact absurd hm List.not_mem_nil
    · rw [hl] at hm hdistinct hsorted
      rcases List.mem_cons.mp hm with rfl | hr
      · rfl
      · have hother := (List.pairwise_cons.mp hdistinct).1 m hr
        rcases precedes_iff.mp ((List.pairwise_cons.mp hsorted).1 m hr) with ⟨-, hno⟩ | ⟨hkind, -⟩
        · cases hno.symm.trans hmain
        · cases main with
          | none => cases hmain
          | some path =>
            have ha : same a.path path = true := hkind.trans hmain
            exact absurd (Text.Path.same_trans ha (Text.Path.same_symm hmain))
              (Bool.eq_false_iff.mp hother)
  · refine (hsorted.filter _).imp_of_mem fun {a b} ha hb h => ?_
    have hno : ∀ {m : Module}, m ∈ (modules.mergeSort (precedes main)).filter (fun m => !isMain main m) →
        isMain main m = false := fun hm => by simpa using (List.mem_filter.mp hm).2
    rcases precedes_iff.mp h with ⟨hmain, -⟩ | ⟨-, hle⟩
    · cases hmain.symm.trans (hno ha)
    · exact hle

/-- A survey gives surveyed modules, and leaves those that are known. -/
theorem survey_run (files : Files) (main : Option String) {mappings : List Mapping}
    (hplaced : Placed mappings) (r : ModuleRegistry) :
    Surveyed main mappings ((survey files main mappings).run r).1 ∧
      ((survey files main mappings).run r).2.modules = r.modules := by
  obtain ⟨hextents, hmodules⟩ := extents_describe files (spans mappings) r
  exact ⟨surveyed_mergeSort main hplaced hextents, hmodules⟩

/-! ### Memory maps -/

theorem lt_of_readNatural? {base limit n : Nat} {cs : List Char}
    (h : Text.readNatural? base limit cs = some n) : n < limit := by
  -- The two forms of a numeral differ in their digits only.
  unfold Text.readNatural? at h
  extract_lets digits at h
  split at h
  · cases h
  · split at h
    · split at h
      · cases h
        assumption
      · cases h
    · cases h

theorem bounded_range? {word : String} {range : Nat × Nat} (h : Mapping.range? word = some range) :
    range.1 < wordLimit ∧ range.2 < wordLimit := by
  rw [Mapping.range?] at h
  split at h
  · obtain ⟨start, hstart, h⟩ := Option.bind_eq_some_iff.mp h
    obtain ⟨stop, hstop, h⟩ := Option.bind_eq_some_iff.mp h
    cases h
    exact ⟨lt_of_readNatural? hstart, lt_of_readNatural? hstop⟩
  · cases h

theorem bounded_ofWords? {words : List String} {m : Mapping} (h : Mapping.ofWords? words = some m) :
    m.start < wordLimit ∧ m.stop < wordLimit := by
  rw [Mapping.ofWords?.eq_def] at h
  split at h
  · obtain ⟨range, hrange, h⟩ := Option.bind_eq_some_iff.mp h
    obtain ⟨_, -, h⟩ := Option.bind_eq_some_iff.mp h
    obtain ⟨_, -, h⟩ := Option.bind_eq_some_iff.mp h
    cases h
    exact bounded_range? hrange
  · cases h

theorem bounded_ofLines {lines : List String} : ∀ {mappings : List Mapping},
    Mapping.ofLines lines = .ok mappings → ∀ m ∈ mappings, m.start < wordLimit ∧ m.stop < wordLimit := by
  induction lines with
  | nil =>
    rintro _ ⟨⟩ m hm
    exact absurd hm List.not_mem_nil
  | cons line rest ih =>
    intro mappings h
    rw [Mapping.ofLines] at h
    split at h
    · cases h
      exact fun m hm => absurd hm List.not_mem_nil
    · split at h
      · cases h
      · rename_i m hm
        rcases hrest : Mapping.ofLines rest with e | others
        · rw [hrest] at h
          cases h
        · rw [hrest] at h
          cases h
          exact List.forall_mem_cons.mpr ⟨bounded_ofWords? hm, ih hrest⟩

theorem placed_ofFile {map : Except OsError Bytes} {mappings : List Mapping}
    (h : Mapping.ofFile map = .ok mappings) : Placed mappings := by
  rcases map with e | data
  · cases h
  · rw [Mapping.ofFile] at h
    rcases htext : Text.Utf8.decode? data with _ | text
    · rw [htext] at h
      cases h
    · rw [htext] at h
      dsimp only at h
      rcases hall : Mapping.ofText text with e | all
      · rw [hall] at h
        cases h
      · rw [hall] at h
        cases h
        intro m hm
        obtain ⟨hmem, habsolute⟩ := List.mem_filter.mp hm
        exact ⟨habsolute, bounded_ofLines hall m hmem⟩

/-- A memory map that cannot be read changes nothing, and any other one makes the modules surveyed. -/
theorem refresh_run (files : Files) (main : Option String) (map : Except OsError Bytes)
    (r : ModuleRegistry) :
    match Mapping.ofFile map with
    | .error e => (refresh files main map).run.run r = (.error e, r)
    | .ok mappings => ∃ r', Surveyed main mappings r'.modules ∧ (refresh files main map).run.run r =
        (.ok ⟨without r'.modules r.modules, without r.modules r'.modules⟩, r') := by
  rcases hmap : Mapping.ofFile map with e | mappings
  · rw [refresh, hmap]
    rfl
  · obtain ⟨hsurveyed, hmodules⟩ := survey_run files main (placed_ofFile hmap) r
    refine ⟨{ ((survey files main mappings).run r).2 with
      modules := ((survey files main mappings).run r).1 }, hsurveyed, ?_⟩
    rw [refresh, hmap]
    show (_, _) = _
    rw [← hmodules]
    rfl

end ModuleRegistry

end Tracer

end DebugAdapter
