import DebugAdapter.Proofs.EntryOutcomes
import DebugAdapter.Proofs.PatchRuns

/-!
# Failed work on breakpoints

Work on breakpoints is a sequence of looks at memory and writes to it, and ends at the first of them that
is refused. What it leaves of the table then is said here for each operation and for every point where it
may fail. Setting a breakpoint loses none of the user's, but may leave an entry that stands for nothing.
Work that lifts traps for a while may leave some of them lifted (`Lifts`). Removing a breakpoint of the
user loses its id before its trap is lifted, so that a failure leaves a trap that nobody owns (`Orphans`).
-/

namespace DebugAdapter.Tracer

open Linux
open Operation

namespace BreakpointTable

/-- Every breakpoint of the user is there under its id, and enabled if it was. -/
def Keeps (t t' : BreakpointTable) : Prop :=
  ∀ x, t.userAt x ≠ none → t'.userAt x = t.userAt x ∧
    (t.isEnabledAt x = true → t'.isEnabledAt x = true)

/-- Every entry stands for something. -/
def Tidy (t : BreakpointTable) : Prop := ∀ x b, t.find? x = some b → b.isIdle = false

/-- Traps are lifted; nothing else changes but the bytes under them. -/
structure Lifts (lifted : List UInt64) (t t' : BreakpointTable) : Prop where
  sorted : t'.Sorted
  absent : ∀ x, t.find? x = none → t'.find? x = none
  present : ∀ x b, t.find? x = some b →
    ∃ saved, t'.find? x = some { b with saved, enabled := b.enabled && !lifted.contains x }

/-- Breakpoints of the user are removed, and then one more loses its id but not its trap. -/
structure Orphans (done : List UInt64) (a : UInt64) (t t' : BreakpointTable) : Prop where
  sorted : t'.Sorted
  removed : ∀ x ∈ done, t'.find? x = ((t.find? x).map Breakpoint.withoutId).filter (!·.isIdle)
  others : ∀ x ∉ done, x ≠ a → t'.find? x = t.find? x
  orphan : ∃ b, t.find? a = some b ∧ b.enabled = true ∧ b.planned = false ∧
    t'.find? a = some b.withoutId

/-! ### Entries that change alone -/

section Swap

variable {t t' : BreakpointTable} {a : UInt64} {e : Option Breakpoint}

theorem Swaps.keeps (h : Swaps a e t t')
    (hat : ∀ b, t.find? a = some b → ∃ b', e = some b' ∧ b'.userId = b.userId ∧
      (b.enabled = true → b'.enabled = true)) : Keeps t t' := by
  intro x hx
  by_cases hxa : x = a
  · subst hxa
    obtain ⟨b, hb⟩ : ∃ b, t.find? x = some b := by
      rw [userAt] at hx
      rcases hb : t.find? x with _ | b
      · rw [hb] at hx
        exact absurd rfl hx
      · exact ⟨b, rfl⟩
    obtain ⟨b', rfl, hid, henabled⟩ := hat b hb
    rw [userAt, userAt, isEnabledAt, isEnabledAt, h.self, hb]
    exact ⟨hid, henabled⟩
  · rw [userAt, userAt, isEnabledAt, isEnabledAt, h.of_ne hxa]
    exact ⟨rfl, id⟩

theorem Swaps.tidy_iff (h : Swaps a e t t') (ht : t.Tidy) :
    t'.Tidy ↔ ∀ b, e = some b → b.isIdle = false := by
  refine ⟨fun ht' b hb => ht' a b (h.self.trans hb), fun hat x b hb => ?_⟩
  by_cases hxa : x = a
  · subst hxa
    exact hat b (h.self.symm.trans hb)
  · exact ht x b ((h.of_ne hxa).symm.trans hb)

end Swap

/-! ### Lifted traps -/

section Lifted

variable {t t₁ t' : BreakpointTable} {a : UInt64} {lifted as : List UInt64}
  {r : Except OsError Unit}

theorem lifts_refl (h : t.Sorted) : Lifts [] t t := by
  refine ⟨h, fun _ hx => hx, fun x b hb => ⟨b.saved, ?_⟩⟩
  rw [hb, List.contains_nil, Bool.not_false, Bool.and_true]

theorem Lifts.userAt (h : Lifts lifted t t') (x : UInt64) : t'.userAt x = t.userAt x := by
  rw [BreakpointTable.userAt, BreakpointTable.userAt]
  rcases hx : t.find? x with _ | b
  · rw [h.absent x hx]
  · obtain ⟨saved, hx'⟩ := h.present x b hx
    rw [hx']
    rfl

theorem Lifts.isEnabledAt (h : Lifts lifted t t') (x : UInt64) :
    t'.isEnabledAt x = (t.isEnabledAt x && !lifted.contains x) := by
  rw [BreakpointTable.isEnabledAt, BreakpointTable.isEnabledAt]
  rcases hx : t.find? x with _ | b
  · rw [h.absent x hx]
    rfl
  · obtain ⟨saved, hx'⟩ := h.present x b hx
    rw [hx']
    rfl

/-- Nothing of the user's is lost but the traps that stay lifted. -/
theorem Lifts.keeps_iff (h : Lifts lifted t t') :
    Keeps t t' ↔ ∀ x ∈ lifted, t.userAt x ≠ none → t.isEnabledAt x = false := by
  refine ⟨fun hkeeps x hx huser => ?_, fun hnone x huser => ⟨h.userAt x, fun henabled => ?_⟩⟩
  · by_contra henabled
    have := (hkeeps x huser).2 (eq_true_of_ne_false henabled)
    rw [h.isEnabledAt, List.contains_iff_mem.mpr hx, Bool.not_true, Bool.and_false] at this
    cases this
  · rw [h.isEnabledAt, henabled, Bool.true_and, Bool.not_eq_true', ← Bool.not_eq_true]
    intro hmem
    rw [hnone x (List.contains_iff_mem.mp hmem) huser] at henabled
    cases henabled

theorem Lifts.tidy_iff (h : Lifts lifted t t') : t'.Tidy ↔ t.Tidy := by
  refine ⟨fun ht' x b hb => ?_, fun ht x b' hb' => ?_⟩
  · obtain ⟨saved, hx'⟩ := h.present x b hb
    exact (ht' x _ hx' :)
  · rcases hx : t.find? x with _ | b
    · rw [h.absent x hx] at hb'
      cases hb'
    · obtain ⟨saved, hx'⟩ := h.present x b hx
      cases hx'.symm.trans hb'
      exact ht x b hx

/-- One entry more changes. -/
theorem Lifts.swap {lifted' : List UInt64} {e : Option Breakpoint} (h : Lifts lifted t t₁)
    (hs : Swaps a e t₁ t') (helse : ∀ x, x ≠ a → (x ∈ lifted' ↔ x ∈ lifted))
    (habsent : t.find? a = none → e = none)
    (hpresent : ∀ b, t.find? a = some b →
      ∃ saved, e = some { b with saved, enabled := b.enabled && !lifted'.contains a }) :
    Lifts lifted' t t' := by
  refine ⟨hs.sorted, fun x hx => ?_, fun x b hb => ?_⟩
  · by_cases hxa : x = a
    · subst hxa
      exact hs.self.trans (habsent hx)
    · exact (hs.of_ne hxa).trans (h.absent x hx)
  · by_cases hxa : x = a
    · subst hxa
      obtain ⟨saved, he⟩ := hpresent b hb
      exact ⟨saved, hs.self.trans he⟩
    · obtain ⟨saved, hx'⟩ := h.present x b hb
      have hsame : lifted'.contains x = lifted.contains x := by
        rw [Bool.eq_iff_iff, List.contains_iff_mem, List.contains_iff_mem]
        exact helse x hxa
      rw [hsame]
      exact ⟨saved, (hs.of_ne hxa).trans hx'⟩

theorem Lifts.lift (h : Lifts lifted t t₁) (hl : Lifting a t₁ (.ok ()) t') :
    Lifts (lifted ++ [a]) t t' := by
  refine h.swap (hl.swaps_ok h.sorted) (fun x hx => ?_) (fun hnone => ?_) fun b hb => ?_
  · rw [List.mem_append, List.mem_singleton]
    exact or_iff_left hx
  · rw [h.absent a hnone]
    rfl
  · obtain ⟨saved, hb'⟩ := h.present a b hb
    refine ⟨saved, ?_⟩
    rw [hb', List.contains_iff_mem.mpr (List.mem_append_right _ (List.mem_singleton_self a)),
      Bool.not_true, Bool.and_false]
    rfl

/-- The entry at an address where a trap may be lifted. -/
theorem Lifts.swaps_self (h : Lifts lifted t t₁) {b : Breakpoint} (hb : t.find? a = some b) :
    ∃ saved, Swaps a (some { b with saved, enabled := b.enabled && !lifted.contains a }) t₁ t₁ := by
  obtain ⟨saved, hb'⟩ := h.present a b hb
  exact ⟨saved, hb' ▸ swaps_refl h.sorted⟩

/-- A trap is put in place again that was in place at first. -/
theorem Lifts.plant {rest : List UInt64} (h : Lifts (a :: rest) t t₁) (ha : a ∉ rest)
    (henabled : t.isEnabledAt a = true) (hplant : Planting a t₁ (.ok ()) t') :
    Lifts rest t t' := by
  obtain ⟨b, hb, hbenabled⟩ := Option.any_eq_true _ _ |>.mp henabled
  obtain ⟨_, hswaps⟩ := h.swaps_self hb
  obtain ⟨saved, hplanted⟩ := hplant.swaps_ok hswaps
  refine h.swap hplanted (fun x hx => ?_) (fun hnone => ?_) fun b' hb' => ⟨saved, ?_⟩
  · exact (List.mem_cons.trans (or_iff_right hx)).symm
  · cases hnone.symm.trans hb
  · cases hb.symm.trans hb'
    have hnot : rest.contains a = false := by
      rw [← Bool.not_eq_true, List.contains_iff_mem]
      exact ha
    rw [hbenabled, hnot]
    rfl

/-- A trap cannot be put in place again. -/
theorem Lifts.refused {e : OsError} (h : Lifts lifted t t₁)
    (henabled : t.isEnabledAt a = true) (hplant : Planting a t₁ (.error e) t') :
    Lifts lifted t t' := by
  obtain ⟨b, hb, -⟩ := Option.any_eq_true _ _ |>.mp henabled
  obtain ⟨_, hswaps⟩ := h.swaps_self hb
  obtain ⟨-, saved, hrefused⟩ := hplant.swaps_error hswaps
  refine h.swap hrefused (fun _ _ => Iff.rfl) (fun hnone => ?_) fun b' hb' => ⟨saved, ?_⟩
  · cases hnone.symm.trans hb
  · cases hb.symm.trans hb'
    rfl

/-- Traps are lifted one after the other: those before a failure stay lifted. -/
theorem Lifts.liftEach (h : Each Lifting as t₁ r t') :
    ∀ {lifted}, Lifts lifted t t₁ →
      ∃ done, done <+: as ∧ (r = .ok () → done = as) ∧ Lifts (lifted ++ done) t t' := by
  induction h with
  | done => exact fun hl => ⟨[], List.prefix_refl _, fun _ => rfl, (List.append_nil _).symm ▸ hl⟩
  | @next a rest t₁ t₂ t' r hfirst _ ih =>
    intro lifted hl
    obtain ⟨done, hdone, hok, hlifts⟩ := ih (hl.lift hfirst)
    rw [List.append_assoc, List.singleton_append] at hlifts
    exact ⟨a :: done, (List.prefix_cons_inj a).mpr hdone, fun hr => congrArg (a :: ·) (hok hr), hlifts⟩
  | stuck hfirst =>
    intro lifted hl
    cases hfirst
    exact ⟨[], List.nil_prefix, nofun, (List.append_nil _).symm ▸ hl⟩

/-- Traps are put in place again one after the other: those from a failure on stay lifted. -/
theorem Lifts.plantEach (h : Each Planting as t₁ r t') : as.Nodup →
    (∀ a ∈ as, t.isEnabledAt a = true) → Lifts as t t₁ →
      ∃ left, left <:+ as ∧ (r = .ok () → left = []) ∧ Lifts left t t' := by
  induction h with
  | done => exact fun _ _ hl => ⟨[], List.suffix_refl _, fun _ => rfl, hl⟩
  | @next a rest t₁ t₂ t' r hfirst _ ih =>
    intro hnodup henabled hl
    obtain ⟨ha, hrest⟩ := List.nodup_cons.mp hnodup
    obtain ⟨left, hleft, hok, hlifts⟩ := ih hrest
      (fun x hx => henabled x (List.mem_cons_of_mem a hx))
      (hl.plant ha (henabled a List.mem_cons_self) hfirst)
    exact ⟨left, hleft.trans (List.suffix_cons a rest), hok, hlifts⟩
  | @stuck a rest t₁ t' e hfirst =>
    intro _ henabled hl
    exact ⟨a :: rest, List.suffix_refl _, nofun,
      hl.refused (henabled a List.mem_cons_self) hfirst⟩

end Lifted

/-! ### Removed breakpoints -/

section Removed

variable {t t₁ t' : BreakpointTable} {a : UInt64} {done : List UInt64}

theorem orphans_unsetting {e : OsError} (h : Unsetting a Breakpoint.withoutId t (.error e) t')
    (ht : t.Sorted) : Orphans [] a t t' := by
  cases h with
  | @stuck b _ hb hidle henabled =>
    have hswaps := swaps_modify (a := a) ht (f := Breakpoint.withoutId) fun _ => rfl
    refine ⟨hswaps.sorted, nofun, fun x _ hx => hswaps.of_ne hx, b, hb, henabled, ?_, ?_⟩
    · exact (Breakpoint.isIdle_iff.mp hidle).2
    · rw [hswaps.self, hb]
      rfl

/-- The trap is in place, but nobody owns it. -/
theorem Orphans.not_keeps (h : Orphans done a t t') (hid : t.userAt a ≠ none) : ¬Keeps t t' := by
  intro hkeeps
  obtain ⟨b, -, -, -, hb'⟩ := h.orphan
  refine hid ((hkeeps a hid).1.symm.trans ?_)
  rw [userAt, hb']
  rfl

theorem Orphans.not_tidy (h : Orphans done a t t') : ¬t'.Tidy := by
  intro ht'
  obtain ⟨b, -, -, hplanned, hb'⟩ := h.orphan
  have hidle : b.withoutId.isIdle = true := Breakpoint.isIdle_iff.mpr ⟨rfl, hplanned⟩
  rw [ht' a _ hb'] at hidle
  cases hidle

/-- One breakpoint more was removed before. -/
theorem Orphans.after {x : UInt64} (h : Orphans done a t₁ t')
    (hx : Swaps x (((t.find? x).map Breakpoint.withoutId).filter (!·.isIdle)) t t₁)
    (hdone : x ∉ done) (hxa : x ≠ a) : Orphans (x :: done) a t t' := by
  obtain ⟨b, hb, henabled, hplanned, hb'⟩ := h.orphan
  refine ⟨h.sorted, fun y hy => ?_, fun y hy hya => ?_, b, (hx.of_ne hxa.symm).symm.trans hb, henabled,
    hplanned, hb'⟩
  · rcases List.mem_cons.mp hy with rfl | hy
    · rw [h.others y hdone hxa, hx.self]
    · have hyx : y ≠ x := fun heq => hdone (heq ▸ hy)
      rw [h.removed y hy, hx.of_ne hyx]
  · obtain ⟨hyx, hy⟩ := not_or.mp (mt List.mem_cons.mpr hy)
    rw [h.others y hy hya, hx.of_ne hyx]

/-- Breakpoints of the user are removed one after the other, up to the first failure. -/
theorem orphans_each {as : List UInt64} {r : Except OsError Unit} {e : OsError}
    (h : Each (Unsetting · Breakpoint.withoutId) as t r t') (hr : r = .error e) :
    as.Nodup → t.Sorted → ∃ done a rest, as = done ++ a :: rest ∧ Orphans done a t t' := by
  induction h with
  | done => cases hr
  | @next a rest t t₁ t' r hfirst _ ih =>
    intro hnodup ht
    obtain ⟨ha, hrest⟩ := List.nodup_cons.mp hnodup
    have hswaps := hfirst.swaps_ok ht fun _ => rfl
    obtain ⟨done, b, left, rfl, horphans⟩ := ih hr hrest hswaps.sorted
    obtain ⟨hdone, hb⟩ := not_or.mp (mt List.mem_append.mpr ha)
    exact ⟨a :: done, b, left, rfl, horphans.after hswaps hdone fun heq => hb (heq ▸ List.mem_cons_self)⟩
  | @stuck a rest t t' e' hfirst =>
    intro _ ht
    exact ⟨[], a, rest, rfl, orphans_unsetting hfirst ht⟩

end Removed

/-! ### Lists of addresses -/

section Addresses

variable {t : BreakpointTable}

theorem nodup_addresses (ht : t.Sorted) {l : List Breakpoint} (hl : l.Sublist t.entries) :
    (l.map (·.address)).Nodup :=
  List.pairwise_map.mpr ((ht.sublist hl).imp fun hlt => UInt64.ne_of_lt hlt)

theorem nodup_userAddresses (ht : t.Sorted) : (t.userBreakpoints.map (·.2)).Nodup := by
  refine List.pairwise_map.mpr (List.pairwise_filterMap.mpr (ht.imp fun hlt x hx y hy => ?_))
  obtain ⟨_, -, rfl⟩ := Option.map_eq_some_iff.mp hx
  obtain ⟨_, -, rfl⟩ := Option.map_eq_some_iff.mp hy
  exact UInt64.ne_of_lt hlt

theorem isEnabledAt_of_patchesIn (ht : t.Sorted) {a x : UInt64} {length : Nat}
    (hx : x ∈ (t.patchesIn a length).map (·.address)) : t.isEnabledAt x = true := by
  obtain ⟨b, hb, rfl⟩ := List.mem_map.mp hx
  obtain ⟨hmem, hin⟩ := List.mem_filter.mp hb
  rw [isEnabledAt, find?_of_mem ht hmem]
  simp only [Bool.and_eq_true] at hin
  exact hin.1.1

end Addresses

end BreakpointTable

open BreakpointTable

/-! ### Operations that fail -/

/-- Traps stay lifted, and that is all that is lost of the user's breakpoints. -/
structure LeavesLifted (lifted : List UInt64) (t t' : BreakpointTable) : Prop where
  lifts : Lifts lifted t t'
  keeps : Keeps t t' ↔ ∀ x ∈ lifted, t.userAt x ≠ none → t.isEnabledAt x = false
  tidy : t'.Tidy ↔ t.Tidy

theorem BreakpointTable.Lifts.leaves {lifted : List UInt64} {t t' : BreakpointTable}
    (h : Lifts lifted t t') : LeavesLifted lifted t t' :=
  ⟨h, h.keeps_iff, h.tidy_iff⟩

namespace PatchStep

/-- What an operation that fails leaves of a table. -/
def Fails (t t' : BreakpointTable) : PatchStep → Prop
  | addUser a => Keeps t t' ∧ (t.Tidy → (t'.Tidy ↔ t.find? a ≠ none))
  | addPlanned _ => Keeps t t' ∧ (t.Tidy → t'.Tidy)
  | removeUser id => ∃ a, t.userAt a = some id ∧ Orphans [] a t t' ∧ ¬Keeps t t' ∧ ¬t'.Tidy
  | removeAllUser => ∃ done a rest, t.userBreakpoints.map (·.2) = done ++ a :: rest ∧
      Orphans done a t t' ∧ ¬Keeps t t' ∧ ¬t'.Tidy
  | removePlanned _ => Keeps t t' ∧ ¬t'.Tidy
  | disable _ => t' = t
  | enable _ => Keeps t t' ∧ (t.Tidy → t'.Tidy)
  | rewrite a data _ => ∃ lifted, LeavesLifted lifted t t' ∧
      (lifted <+: (t.patchesIn a data.length).map (·.address) ∨
        lifted <:+ (t.patchesIn a data.length).map (·.address))
  | disableAll => ∃ lifted, LeavesLifted lifted t t' ∧ lifted <+: t.entries.map (·.address)

end PatchStep

namespace Patching

variable {κ : Type} [Kernel κ] {p : Patched κ}

theorem fails_addUser (tid : Nat) (a : UInt64) (hp : p.table.Sorted) :
    Ends (addUser tid a) p fun r p' => ∀ e, r = .error e →
      (PatchStep.addUser a).Fails p.table p'.table := by
  refine (setting_addUser tid hp).mono fun r p' hset e he => ?_
  subst he
  cases hset with
  | refused hplant =>
    obtain ⟨henabled, saved, hswaps⟩ := hplant.swaps_error (swaps_insert hp)
    refine ⟨hswaps.keeps fun b hb => ⟨_, rfl, ?_⟩, fun ht => (hswaps.tidy_iff ht).trans ?_⟩
    · rw [entryOr, hb]
      exact ⟨rfl, id⟩
    · rcases hb : p.table.find? a with _ | b
      · refine iff_of_false (fun hidle => ?_) (not_not_intro rfl)
        have := hidle _ rfl
        rw [entryOr, hb] at this
        cases this
      · refine iff_of_true ?_ (Option.some_ne_none b)
        rintro _ ⟨⟩
        have := ht a b hb
        rw [entryOr, hb]
        exact this

theorem fails_addPlanned (tid : Nat) (a : UInt64) (hp : p.table.Sorted) :
    Ends (addPlanned tid a) p fun r p' => ∀ e, r = .error e →
      (PatchStep.addPlanned a).Fails p.table p'.table := by
  refine (planting_addPlanned tid hp).mono fun r p' hplant e he => ?_
  subst he
  obtain ⟨henabled, saved, hswaps⟩ := hplant.swaps_error (swaps_plan hp)
  refine ⟨hswaps.keeps fun b hb => ⟨_, rfl, ?_⟩, fun ht => (hswaps.tidy_iff ht).mpr ?_⟩
  · rw [entryOr, hb]
    exact ⟨rfl, id⟩
  · rintro _ ⟨⟩
    simp [Breakpoint.isIdle]

theorem fails_rewrite (tid : Nat) (a : UInt64) (data : Bytes) (fits : data.length < wordLimit)
    (hp : p.table.Sorted) :
    Ends (rewrite tid a data) p fun r p' => ∀ e, r = .error e →
      (PatchStep.rewrite a data fits).Fails p.table p'.table := by
  rw [rewrite, ends_get_bind]
  dsimp only
  generalize hpatched : (p.table.patchesIn a data.length).map (·.address) = patched
  have hnodup : patched.Nodup := hpatched ▸ nodup_addresses hp List.filter_sublist
  have henabled : ∀ x ∈ patched, p.table.isEnabledAt x = true := fun x hx =>
    isEnabledAt_of_patchesIn hp (hpatched ▸ hx)
  have hlift := each_forM (fun _ _ _ _ h => h.sorted) (fun a p hp => lifting_disable (a := a) tid hp)
    patched p hp
  refine hlift.bind ?_ ?_
  · rintro _ p₁ h
    obtain ⟨done, -, hdone, hlifts⟩ := Lifts.liftEach h (lifts_refl hp)
    cases hdone rfl
    refine (table_calls (Memory.write tid a data) p₁).bind ?_ ?_
    · intro written p₂ h₂
      have hplant := each_forM (fun _ _ _ _ h => h.sorted)
        (fun a p hp => planting_enable (a := a) tid hp) patched p₂ (h₂ ▸ hlifts.sorted)
      refine hplant.bind (fun _ p₃ _ _ he => by cases he) ?_
      rintro e p₃ h₃ e' he'
      rw [h₂] at h₃
      obtain ⟨left, hleft, -, hlifts'⟩ := Lifts.plantEach h₃ hnodup henabled hlifts
      exact ⟨left, hlifts'.leaves, Or.inr (hpatched ▸ hleft)⟩
    · rintro e p₂ h₂ e' he'
      rw [h₂]
      exact ⟨patched, hlifts.leaves, Or.inl (hpatched ▸ List.prefix_refl _)⟩
  · rintro e p₁ h e' he'
    obtain ⟨done, hdone, -, hlifts⟩ := Lifts.liftEach h (lifts_refl hp)
    exact ⟨done, hlifts.leaves, Or.inl (hpatched ▸ hdone)⟩

theorem fails_removeUser (tid id : Nat) (hp : p.table.Sorted) :
    Ends (removeUser tid id) p fun r p' => ∀ e, r = .error e →
      (PatchStep.removeUser id).Fails p.table p'.table := by
  refine (unsetting_removeUser tid id hp).mono ?_
  rintro r p' (⟨rfl, -, -⟩ | ⟨a, r, hid, rfl, hr⟩) e he
  · cases he
  · rcases r with e | _
    · have horphans := orphans_unsetting hr hp
      have huser : p.table.userAt a ≠ none := hid ▸ Option.some_ne_none id
      exact ⟨a, hid, horphans, horphans.not_keeps huser, horphans.not_tidy⟩
    · cases he

theorem fails_removeAllUser (tid : Nat) (hp : p.table.Sorted) :
    Ends (removeAllUser tid) p fun r p' => ∀ e, r = .error e →
      PatchStep.removeAllUser.Fails p.table p'.table := by
  refine (each_removeAllUser tid hp).mono fun r p' h e he => ?_
  obtain ⟨done, a, rest, has, horphans⟩ := orphans_each h he (nodup_userAddresses hp) hp
  have huser : p.table.userAt a ≠ none := by
    rw [← mem_userAddresses hp, has]
    exact List.mem_append_right _ List.mem_cons_self
  exact ⟨done, a, rest, has, horphans, horphans.not_keeps huser, horphans.not_tidy⟩

theorem fails_removePlanned (tid : Nat) (a : UInt64) (hp : p.table.Sorted) :
    Ends (removePlanned tid a) p fun r p' => ∀ e, r = .error e →
      (PatchStep.removePlanned a).Fails p.table p'.table := by
  refine (unsetting_removePlanned tid hp).mono fun r p' hr e he => ?_
  subst he
  generalize p'.table = t' at hr
  cases hr with
  | @stuck b _ hb hidle henabled =>
    have hswaps := swaps_modify (a := a) hp (f := Breakpoint.withoutPlan) fun _ => rfl
    refine ⟨hswaps.keeps fun b' hb' => ⟨b'.withoutPlan, ?_, rfl, id⟩, fun ht' => ?_⟩
    · rw [hb']
      rfl
    · have := ht' a b.withoutPlan (hswaps.self.trans (hb ▸ rfl))
      rw [hidle] at this
      cases this

theorem fails_disable (tid : Nat) (a : UInt64) (hp : p.table.Sorted) :
    Ends (disable tid a) p fun r p' => ∀ e, r = .error e →
      (PatchStep.disable a).Fails p.table p'.table := by
  refine (lifting_disable tid hp).mono fun r p' hr e he => ?_
  subst he
  generalize p'.table = t' at hr
  cases hr
  exact rfl

theorem fails_enable (tid : Nat) (a : UInt64) (hp : p.table.Sorted) :
    Ends (enable tid a) p fun r p' => ∀ e, r = .error e →
      (PatchStep.enable a).Fails p.table p'.table := by
  refine (planting_enable tid hp).mono fun r p' hr e he => ?_
  subst he
  rcases hb : p.table.find? a with _ | b
  · generalize p'.table = t' at hr
    cases hr with
    | refused _ _ hb' => cases hb.symm.trans hb'
  · obtain ⟨-, saved, hswaps⟩ := hr.swaps_error (hb ▸ swaps_refl hp)
    refine ⟨hswaps.keeps fun b' hb' => ⟨_, rfl, ?_⟩, fun ht => (hswaps.tidy_iff ht).mpr ?_⟩
    · cases hb.symm.trans hb'
      exact ⟨rfl, id⟩
    · rintro _ ⟨⟩
      exact ht a b hb

theorem fails_disableAll (tid : Nat) (hp : p.table.Sorted) :
    Ends (disableAll tid) p fun r p' => ∀ e, r = .error e →
      PatchStep.disableAll.Fails p.table p'.table := by
  rw [disableAll, ends_get_bind]
  have hlift := each_forM (fun _ _ _ _ h => h.sorted) (fun a p hp => lifting_disable (a := a) tid hp)
    (p.table.entries.map (·.address)) p hp
  refine hlift.bind (fun _ p₁ _ _ he => by cases he) ?_
  rintro e p₁ h e' he'
  obtain ⟨done, hdone, -, hlifts⟩ := Lifts.liftEach h (lifts_refl hp)
  exact ⟨done, hlifts.leaves, hdone⟩

end Patching

/-- Every operation fails as described. -/
theorem PatchStep.ends_fails {κ : Type} [Kernel κ] {p : Patched κ} (tid : Nat) (op : PatchStep)
    (hp : p.table.Sorted) : Ends (op.perform tid) p fun r p' => ∀ e, r = .error e →
      op.Fails p.table p'.table := by
  have hdiscard : ∀ {α : Type} {m : Patching κ α} {P : Patched κ → Prop},
      Ends m p (fun r p' => ∀ e, r = .error e → P p') →
      Ends (do let _ ← m) p fun r p' => ∀ e, r = .error e → P p' :=
    fun h => h.bind (fun _ _ _ _ he => by cases he) fun e p' h' _ _ => h' e rfl
  cases op with
  | addUser a => exact hdiscard (Patching.fails_addUser tid a hp)
  | addPlanned a => exact Patching.fails_addPlanned tid a hp
  | removeUser id => exact hdiscard (Patching.fails_removeUser tid id hp)
  | removeAllUser => exact Patching.fails_removeAllUser tid hp
  | removePlanned a => exact Patching.fails_removePlanned tid a hp
  | disable a => exact Patching.fails_disable tid a hp
  | enable a => exact Patching.fails_enable tid a hp
  | rewrite a data fits => exact hdiscard (Patching.fails_rewrite tid a data fits hp)
  | disableAll => exact Patching.fails_disableAll tid hp

/-- The id that a failed removal lost is not found again. -/
theorem Patching.ends_removeUser_orphan (tid : Nat) {κ : Type} [Kernel κ] {p : Patched κ}
    {t : BreakpointTable} {id : Nat} {a : UInt64} (ht : t.WellFormed) (hid : t.userAt a = some id)
    (h : Orphans [] a t p.table) :
    Ends (removeUser tid id) p fun r p' => r = .ok false ∧ p' = p := by
  refine (unsetting_removeUser tid id h.sorted).mono ?_
  rintro r p' (⟨rfl, rfl, -⟩ | ⟨x, r, hx, -, -⟩)
  · exact ⟨rfl, rfl⟩
  · exfalso
    by_cases hxa : x = a
    · subst hxa
      obtain ⟨b, -, -, -, hb⟩ := h.orphan
      rw [userAt, hb] at hx
      cases hx
    · rw [userAt, h.others x List.not_mem_nil hxa] at hx
      exact hxa (ht.unique x a id hx hid)

/-- **What a failure leaves.** Wherever an operation on breakpoints fails, it leaves the table as
`PatchStep.Fails` says. No breakpoint of the user is lost when one is set, or the one of a step plan; but a
new address keeps an entry that stands for nothing. A write and the removal of all patches lose the traps
that they leave lifted, and no id. The removal of a breakpoint of the user, or of all of them, loses the id
of the breakpoint where it fails, and keeps its trap in an entry that stands for nothing: another removal
by the same id finds nothing. -/
theorem failures_of_perform {κ : Type} [Kernel κ] {p : Patched κ} (tid : Nat) (op : PatchStep)
    (hp : p.table.WellFormed) : Ends (op.perform tid) p fun r p' => ∀ e, r = .error e →
      op.Fails p.table p'.table ∧ ∀ id, op = .removeUser id → ∀ tid',
        Ends (Patching.removeUser tid' id) p' fun r' p'' => r' = .ok false ∧ p'' = p' := by
  refine (op.ends_fails tid hp.sorted).mono fun r p' h e he => ⟨h e he, ?_⟩
  rintro id rfl tid'
  obtain ⟨a, hid, horphans, -⟩ := h e he
  exact Patching.ends_removeUser_orphan tid' hp hid horphans

/-! ### Memory that is refused -/

/-- Memory that refuses some of the first requests. -/
structure Flaky where
  flat : FlatMemory
  /-- Which of the next requests are refused; those after them are not. -/
  refusals : List Bool

namespace Flaky

instance : Kernel Flaky where
  perform c k :=
    match k.refusals with
    | true :: rest => (.error .inputOutput, { k with refusals := rest })
    | refusals =>
      ((Kernel.perform c k.flat).1, ⟨(Kernel.perform c k.flat).2, refusals.tail⟩)
  file k := Kernel.file k.flat
  linkTarget? k := Kernel.linkTarget? k.flat
  process? k := Kernel.process? k.flat
  lookUp? k := Kernel.lookUp? k.flat
  outstanding k := Kernel.outstanding k.flat

/-- A breakpoint of the user whose trap cannot be lifted at once. -/
def stuck : Patched Flaky :=
  ((Patching.addUser 1 0x1000).run.run ⟨⟨⟨fun _ => 0⟩, [false, false, false, true]⟩, .empty⟩).2

theorem table_stuck : stuck.table = ⟨[⟨0x1000, 0, true, some 1, false⟩], 1⟩ := by decide +kernel

theorem wellFormed_stuck : stuck.table.WellFormed := by
  rw [table_stuck]
  have huser : ∀ x id, userAt ⟨[⟨0x1000, 0, true, some 1, false⟩], 1⟩ x = some id →
      x = 0x1000 ∧ id = 1 := by
    intro x id hid
    obtain ⟨b, hb, hid⟩ := Option.bind_eq_some_iff.mp hid
    cases List.mem_singleton.mp (mem_of_find? hb)
    exact ⟨(address_of_find? hb).symm, (Option.some.inj hid).symm⟩
  refine ⟨List.pairwise_singleton _ _, fun x id hid => ?_, fun x y id hx hy => ?_⟩
  · exact Nat.le_of_eq (huser x id hid).2
  · rw [(huser x id hx).1, (huser y id hy).1]

end Flaky

/-- A removal that fails where the trap is to be lifted. -/
theorem failures_of_removal : Flaky.stuck.table.WellFormed ∧
    Ends ((PatchStep.removeUser 1).perform 1) Flaky.stuck fun r p' => ∃ e, r = .error e ∧
      (PatchStep.removeUser 1).Fails Flaky.stuck.table p'.table := by
  have herror : Ends ((PatchStep.removeUser 1).perform 1) Flaky.stuck fun r _ => r.isOk = false := by
    rw [Ends]
    decide +kernel
  refine ⟨Flaky.wellFormed_stuck, ?_⟩
  refine (herror.and (failures_of_perform 1 (.removeUser 1) Flaky.wellFormed_stuck)).mono ?_
  rintro (e | _) p' ⟨hr, hfails⟩
  · exact ⟨e, rfl, (hfails e rfl).1⟩
  · cases hr

/-- The breakpoint of the user with the id 1 is lost by a removal that fails: its trap stays in place, and
the removal cannot be tried again. -/
theorem lost_by_removal : Flaky.stuck.table.userAt 0x1000 = some 1 ∧
    Ends (Patching.removeUser 1 1) Flaky.stuck fun r p' => r.isOk = false ∧
      p'.table.userBreakpoints = [] ∧ p'.table.isEnabledAt 0x1000 = true ∧
      Ends (Patching.removeUser 1 1) p' fun r' p'' =>
        r'.toOption = some false ∧ p''.table.isEnabledAt 0x1000 = true := by
  refine ⟨by decide +kernel, ?_⟩
  simp only [Ends]
  decide +kernel

end DebugAdapter.Tracer
