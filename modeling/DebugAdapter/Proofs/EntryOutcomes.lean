import DebugAdapter.Proofs.BreakpointRequests

/-!
# Outcomes of work on entries

Memory may be refused at any point of work on breakpoints. What the work makes of the table is said
here for every answer of the kernel, as one relation for each operation between the table before, the
outcome and the table after: a trap is planted (`Planting`) or lifted (`Lifting`), a use of an entry
ends (`Unsetting`), and a breakpoint is set (`Setting`).
-/

namespace DebugAdapter.Tracer

open Debuggee
open Linux
open Operation

namespace Breakpoint

/-- The entry stands for no breakpoint of the user any more. -/
def withoutId (b : Breakpoint) : Breakpoint := { b with userId := none }

/-- The entry stands for no breakpoint of a step plan any more. -/
def withoutPlan (b : Breakpoint) : Breakpoint := { b with planned := false }

theorem isIdle_iff {b : Breakpoint} :
    b.isIdle = true ↔ b.userId = none ∧ b.planned = false := by
  rw [isIdle, isUser]
  simp

end Breakpoint

namespace BreakpointTable

/-! ### Changes of one entry -/

/-- The trap at an address is in place, over a byte unless it was in place before. -/
def plant (t : BreakpointTable) (a : UInt64) (v : UInt8) : BreakpointTable :=
  t.modify a fun b => { b with saved := if b.enabled then b.saved else v, enabled := true }

/-- The trap at an address is lifted. -/
def lift (t : BreakpointTable) (a : UInt64) : BreakpointTable :=
  t.modify a fun b => { b with enabled := false }

/-- The entry at an address hides another byte. -/
def resave (t : BreakpointTable) (a : UInt64) (v : UInt8) : BreakpointTable :=
  t.modify a fun b => { b with saved := v }

/-- An address gets an entry for the breakpoint of a step plan. -/
def plan (t : BreakpointTable) (a : UInt64) : BreakpointTable :=
  (t.insert a).modify a fun b => { b with planned := true }

variable {t : BreakpointTable} {a : UInt64}

/-- Changes that make the same of the entry are the same. -/
theorem modify_congr (h : t.Sorted) {f g : Breakpoint → Breakpoint}
    (hfg : ∀ b, t.find? a = some b → f b = g b) : t.modify a f = t.modify a g := by
  refine congrArg (BreakpointTable.mk · t.lastId) (List.map_congr_left fun b hb => ?_)
  by_cases hat : b.address = a
  · rw [if_pos hat, if_pos hat, hfg b (hat ▸ find?_of_mem h hb)]
  · rw [if_neg hat, if_neg hat]

/-- A change that leaves the entry as it is. -/
theorem modify_eq_self (h : t.Sorted) {f : Breakpoint → Breakpoint}
    (hf : ∀ b, t.find? a = some b → f b = b) : t.modify a f = t :=
  (modify_congr h hf).trans (modify_id t a)

/-- An entry that is removed may change before. -/
theorem erase_modify {f : Breakpoint → Breakpoint} (hf : ∀ b, (f b).address = b.address) :
    (t.modify a f).erase a = t.erase a := by
  have haddress : ∀ b : Breakpoint, (if b.address = a then f b else b).address = b.address := by
    intro b
    split
    · exact hf b
    · rfl
  have hkept : ∀ b ∈ t.entries.filter (·.address ≠ a), (if b.address = a then f b else b) = b :=
    fun b hb => if_neg (of_decide_eq_true (List.mem_filter.mp hb).2)
  simp only [erase, modify, List.filter_map, Function.comp_def, haddress]
  rw [List.map_congr_left hkept, List.map_id']

/-- A table is another one but for one address, where it has an entry or none. -/
structure Swaps (a : UInt64) (e : Option Breakpoint) (t t' : BreakpointTable) : Prop where
  sorted : t'.Sorted
  find? : ∀ x, t'.find? x = if x = a then e else t.find? x

theorem Swaps.self {t t' : BreakpointTable} {e : Option Breakpoint} (h : Swaps a e t t') :
    t'.find? a = e :=
  (h.find? a).trans (if_pos rfl)

theorem Swaps.of_ne {t t' : BreakpointTable} {e : Option Breakpoint} (h : Swaps a e t t')
    {x : UInt64} (hx : x ≠ a) : t'.find? x = t.find? x :=
  (h.find? x).trans (if_neg hx)

/-- The entry of an address, which may be about to be added. -/
def entryOr (t : BreakpointTable) (a : UInt64) : Breakpoint := (t.find? a).getD (.new a)

theorem swaps_modify (h : t.Sorted) {f : Breakpoint → Breakpoint}
    (hf : ∀ b, (f b).address = b.address) : Swaps a ((t.find? a).map f) t (t.modify a f) := by
  refine ⟨h.modify hf a, fun x => ?_⟩
  rw [find?_modify hf]
  split
  · rename_i hx
    rw [hx]
  · rfl

theorem swaps_refl (h : t.Sorted) : Swaps a (t.find? a) t t := by
  refine ⟨h, fun x => ?_⟩
  split
  · rename_i hx
    rw [hx]
  · rfl

theorem swaps_erase (h : t.Sorted) : Swaps a none t (t.erase a) :=
  ⟨h.erase a, fun x => find?_erase t a x⟩

theorem swaps_insert (h : t.Sorted) : Swaps a (some (t.entryOr a)) t (t.insert a) := by
  refine ⟨h.insert a, fun x => ?_⟩
  split
  · rename_i hx
    rw [hx, find?_insert_self h]
    rfl
  · exact find?_insert_of_ne t ‹_›

/-- One change of an entry after another. -/
theorem Swaps.modify {t t' : BreakpointTable} {e : Option Breakpoint} (h : Swaps a e t t')
    {f : Breakpoint → Breakpoint} (hf : ∀ b, (f b).address = b.address) :
    Swaps a (e.map f) t (t'.modify a f) := by
  refine ⟨h.sorted.modify hf a, fun x => ?_⟩
  rw [find?_modify hf, h.find?]
  split
  · rfl
  · rfl

/-- The breakpoints of the user are the addresses that have an id. -/
theorem mem_userBreakpoints (h : t.Sorted) {id : Nat} {x : UInt64} :
    (id, x) ∈ t.userBreakpoints ↔ t.userAt x = some id := by
  rw [userBreakpoints, List.mem_filterMap, userAt, Option.bind_eq_some_iff]
  refine ⟨?_, ?_⟩
  · rintro ⟨b, hb, hid⟩
    obtain ⟨id', hid', heq⟩ := Option.map_eq_some_iff.mp hid
    cases heq
    exact ⟨b, find?_of_mem h hb, hid'⟩
  · rintro ⟨b, hb, hid⟩
    refine ⟨b, mem_of_find? hb, ?_⟩
    rw [hid, address_of_find? hb]
    rfl

theorem mem_userAddresses (h : t.Sorted) {x : UInt64} :
    x ∈ t.userBreakpoints.map (·.2) ↔ t.userAt x ≠ none := by
  rw [List.mem_map, Option.ne_none_iff_exists']
  refine ⟨?_, ?_⟩
  · rintro ⟨⟨id, y⟩, hmem, rfl⟩
    exact ⟨id, (mem_userBreakpoints h).mp hmem⟩
  · rintro ⟨id, hid⟩
    exact ⟨(id, x), (mem_userBreakpoints h).mpr hid, rfl⟩

end BreakpointTable

open BreakpointTable

/-! ### Outcomes -/

/-- How it goes to put a trap in place. -/
inductive Planting (a : UInt64) (t : BreakpointTable) : Except OsError Unit → BreakpointTable → Prop
  | planted (v : UInt8) : Planting a t (.ok ()) (t.plant a v)
  | refused {b : Breakpoint} (e : OsError) (v : UInt8) : t.find? a = some b → b.enabled = false →
      Planting a t (.error e) (t.resave a v)

/-- How it goes to lift a trap. -/
inductive Lifting (a : UInt64) (t : BreakpointTable) : Except OsError Unit → BreakpointTable → Prop
  | lifted : Lifting a t (.ok ()) (t.lift a)
  | refused {b : Breakpoint} (e : OsError) : t.find? a = some b → b.enabled = true →
      Lifting a t (.error e) t

/-- How it goes to end a use of an entry. -/
inductive Unsetting (a : UInt64) (unset : Breakpoint → Breakpoint) (t : BreakpointTable) :
    Except OsError Unit → BreakpointTable → Prop
  | absent : t.find? a = none → Unsetting a unset t (.ok ()) t
  /-- The entry stands for something else as well. -/
  | shared {b : Breakpoint} : t.find? a = some b → (unset b).isIdle = false →
      Unsetting a unset t (.ok ()) (t.modify a unset)
  | removed {b : Breakpoint} : t.find? a = some b → (unset b).isIdle = true →
      Unsetting a unset t (.ok ()) (t.erase a)
  /-- The trap cannot be lifted: the entry stays without its use. -/
  | stuck {b : Breakpoint} (e : OsError) : t.find? a = some b → (unset b).isIdle = true →
      b.enabled = true → Unsetting a unset t (.error e) (t.modify a unset)

/-- How it goes to set a breakpoint of the user. -/
inductive Setting (a : UInt64) (t : BreakpointTable) :
    Except OsError BreakpointInfo → BreakpointTable → Prop
  | again {id : Nat} {t' : BreakpointTable} : Planting a (t.insert a) (.ok ()) t' →
      t.userAt a = some id → Setting a t (.ok ⟨id, a⟩) t'
  | fresh {t' : BreakpointTable} : Planting a (t.insert a) (.ok ()) t' → t.userAt a = none →
      Setting a t (.ok ⟨t.lastId + 1, a⟩) (t'.assign a)
  | refused {e : OsError} {t' : BreakpointTable} : Planting a (t.insert a) (.error e) t' →
      Setting a t (.error e) t'

/-- How it goes to do the same at one address after the other, up to the first failure. -/
inductive Each (R : UInt64 → BreakpointTable → Except OsError Unit → BreakpointTable → Prop) :
    List UInt64 → BreakpointTable → Except OsError Unit → BreakpointTable → Prop
  | done {t : BreakpointTable} : Each R [] t (.ok ()) t
  | next {a : UInt64} {rest : List UInt64} {t t₁ t' : BreakpointTable} {r : Except OsError Unit} :
      R a t (.ok ()) t₁ → Each R rest t₁ r t' → Each R (a :: rest) t r t'
  | stuck {a : UInt64} {rest : List UInt64} {t t' : BreakpointTable} {e : OsError} :
      R a t (.error e) t' → Each R (a :: rest) t (.error e) t'

/-! ### What the outcomes make of an entry -/

section Outcomes

variable {a : UInt64} {t t' : BreakpointTable}

theorem Planting.sorted {r : Except OsError Unit} (h : Planting a t r t') (ht : t.Sorted) :
    t'.Sorted := by
  cases h with
  | planted v =>
    exact ht.modify
      (f := fun b => { b with saved := if b.enabled then b.saved else v, enabled := true })
      (fun _ => rfl) a
  | refused _ v => exact ht.modify (f := fun b => { b with saved := v }) (fun _ => rfl) a

theorem Lifting.sorted {r : Except OsError Unit} (h : Lifting a t r t') (ht : t.Sorted) :
    t'.Sorted := by
  cases h with
  | lifted => exact ht.modify (f := fun b => { b with enabled := false }) (fun _ => rfl) a
  | refused => exact ht

theorem Unsetting.sorted {unset : Breakpoint → Breakpoint} {r : Except OsError Unit}
    (h : Unsetting a unset t r t') (ht : t.Sorted)
    (haddress : ∀ b, (unset b).address = b.address) : t'.Sorted := by
  cases h with
  | absent => exact ht
  | shared => exact ht.modify haddress a
  | removed => exact ht.erase a
  | stuck => exact ht.modify haddress a

theorem Planting.lastId {r : Except OsError Unit} (h : Planting a t r t') :
    t'.lastId = t.lastId := by
  cases h with
  | planted => rfl
  | refused => rfl

theorem Unsetting.lastId {unset : Breakpoint → Breakpoint} {r : Except OsError Unit}
    (h : Unsetting a unset t r t') : t'.lastId = t.lastId := by
  cases h with
  | absent => rfl
  | shared => rfl
  | removed => rfl
  | stuck => rfl

variable {b : Breakpoint} {t₁ : BreakpointTable}

theorem Planting.swaps_ok (h : Planting a t₁ (.ok ()) t') (ht : Swaps a (some b) t t₁) :
    ∃ saved, Swaps a (some { b with saved, enabled := true }) t t' := by
  cases h with
  | planted v => exact ⟨if b.enabled then b.saved else v, ht.modify
      (f := fun b => { b with saved := if b.enabled then b.saved else v, enabled := true })
      fun _ => rfl⟩

theorem Planting.swaps_error {e : OsError} (h : Planting a t₁ (.error e) t')
    (ht : Swaps a (some b) t t₁) :
    b.enabled = false ∧ ∃ saved, Swaps a (some { b with saved }) t t' := by
  cases h with
  | refused _ v hb henabled =>
    rw [ht.self] at hb
    cases hb
    exact ⟨henabled, v, ht.modify (f := fun b => { b with saved := v }) fun _ => rfl⟩

theorem Lifting.swaps_ok (h : Lifting a t (.ok ()) t') (ht : t.Sorted) :
    Swaps a ((t.find? a).map fun b => { b with enabled := false }) t t' := by
  cases h with
  | lifted => exact swaps_modify (f := fun b => { b with enabled := false }) ht fun _ => rfl

/-- An entry that stands for nothing any more is removed. -/
theorem Unsetting.swaps_ok {unset : Breakpoint → Breakpoint} (h : Unsetting a unset t (.ok ()) t')
    (ht : t.Sorted) (haddress : ∀ b, (unset b).address = b.address) :
    Swaps a (((t.find? a).map unset).filter (!·.isIdle)) t t' := by
  cases h with
  | absent hb =>
    have hnone : ((t.find? a).map unset).filter (!·.isIdle) = t.find? a := by
      rw [hb]
      rfl
    rw [hnone]
    exact swaps_refl ht
  | shared hb hidle =>
    have hkept : ((t.find? a).map unset).filter (!·.isIdle) = (t.find? a).map unset := by
      rw [hb, Option.map_some, Option.filter_some, hidle]
      rfl
    rw [hkept]
    exact swaps_modify ht haddress
  | removed hb hidle =>
    have hgone : ((t.find? a).map unset).filter (!·.isIdle) = none := by
      rw [hb, Option.map_some, Option.filter_some, hidle]
      rfl
    rw [hgone]
    exact swaps_erase ht

theorem userId_entryOr (t : BreakpointTable) (a : UInt64) :
    (t.entryOr a).userId = t.userAt a := by
  rw [entryOr, userAt]
  cases t.find? a with
  | none => rfl
  | some b => rfl

theorem swaps_plan (ht : t.Sorted) :
    Swaps a (some { t.entryOr a with planned := true }) t (t.plan a) :=
  (swaps_insert ht).modify (f := fun b => { b with planned := true }) fun _ => rfl

/-- A breakpoint that was set has the id that its address had before, or the next one. -/
theorem Setting.swaps_ok {info : BreakpointInfo} (h : Setting a t (.ok info) t') (ht : t.Sorted) :
    info = ⟨(t.userAt a).getD (t.lastId + 1), a⟩ ∧
      t'.lastId = (if (t.userAt a).isNone then t.lastId + 1 else t.lastId) ∧
      ∃ saved, Swaps a
        (some { t.entryOr a with saved, enabled := true, userId := some info.id }) t t' := by
  cases h with
  | again hplant hid =>
    obtain ⟨saved, hswaps⟩ := hplant.swaps_ok (swaps_insert ht)
    rw [hid]
    refine ⟨rfl, hplant.lastId, saved, ?_⟩
    rwa [← hid, ← userId_entryOr]
  | @fresh t₁ hplant hid =>
    obtain ⟨saved, hswaps⟩ := hplant.swaps_ok (swaps_insert ht)
    rw [hid]
    have hlast : t₁.lastId = t.lastId := hplant.lastId
    refine ⟨rfl, congrArg (· + 1) hlast, saved, ?_⟩
    rw [← hlast]
    have hassign := hswaps.modify (f := fun b => { b with userId := some (t₁.lastId + 1) })
      fun _ => rfl
    exact ⟨hassign.sorted, hassign.find?⟩

end Outcomes

namespace Patching

variable {κ : Type} [Kernel κ] {a : UInt64} {p : Patched κ}

omit [Kernel κ] in
/-- System calls leave the table alone. -/
theorem table_calls {α : Type} (c : Calls κ α) (p : Patched κ) :
    Ends (calls c) p fun _ p' => p'.table = p.table := rfl

theorem planting_enable (tid : Nat) (hp : p.table.Sorted) :
    Ends (enable tid a) p fun r p' => Planting a p.table r p'.table := by
  rw [enable, ends_get_bind]
  rcases hb : p.table.find? a with _ | b
  · -- Without an entry there is no trap to put in place.
    have hsame : p.table.plant a 0 = p.table :=
      modify_eq_self hp fun b hb' => (Option.some_ne_none b (hb'.symm.trans hb)).elim
    have hplanted : Planting a p.table (.ok ()) (p.table.plant a 0) := .planted 0
    rw [hsame] at hplanted
    exact hplanted
  · dsimp only
    split
    · rename_i henabled
      have hsame : p.table.plant a 0 = p.table := by
        refine modify_eq_self hp fun b' hb' => ?_
        cases hb.symm.trans hb'
        rw [if_pos henabled, ← henabled]
      have hplanted : Planting a p.table (.ok ()) (p.table.plant a 0) := .planted 0
      rw [hsame] at hplanted
      exact hplanted
    · rename_i henabled
      refine (table_calls (call (.peek tid a)) p).bind ?_ fun e p₁ h₁ => ?_
      · intro word p₁ h₁
        rw [ends_modifyTable_bind]
        refine (table_calls (call (.poke tid a _)) _).bind ?_ fun e p₂ h₂ => ?_
        · intro _ p₂ h₂
          have hplanted : (p₁.table.modify a fun b => { b with saved := word.toUInt8 }).modify a
              (fun b => { b with enabled := true }) = p.table.plant a word.toUInt8 := by
            rw [modify_modify (f := fun b => { b with saved := word.toUInt8 }) fun _ => rfl, h₁]
            refine modify_congr hp fun b' hb' => ?_
            cases hb.symm.trans hb'
            rw [if_neg henabled]
          rw [ends_modifyTable, h₂]
          show Planting a p.table (.ok ()) _
          rw [hplanted]
          exact .planted _
        · rw [h₂]
          show Planting a p.table (.error e) (p₁.table.resave a word.toUInt8)
          rw [h₁]
          exact .refused e _ hb (eq_false_of_ne_true henabled)
      · have hsame : p.table.resave a b.saved = p.table := by
          refine modify_eq_self hp fun b' hb' => ?_
          cases hb.symm.trans hb'
          rfl
        have hrefused : Planting a p.table (.error e) (p.table.resave a b.saved) :=
          .refused e _ hb (eq_false_of_ne_true henabled)
        rw [h₁]
        rwa [hsame] at hrefused

theorem lifting_disable (tid : Nat) (hp : p.table.Sorted) :
    Ends (disable tid a) p fun r p' => Lifting a p.table r p'.table := by
  rw [disable, ends_get_bind]
  rcases hb : p.table.find? a with _ | b
  · have hsame : p.table.lift a = p.table :=
      modify_eq_self hp fun b hb' => (Option.some_ne_none b (hb'.symm.trans hb)).elim
    have hlifted : Lifting a p.table (.ok ()) (p.table.lift a) := .lifted
    rw [hsame] at hlifted
    exact hlifted
  · show Ends (if (!b.enabled) = true then _ else _) p _
    cases henabled : b.enabled with
    | false =>
      have hsame : p.table.lift a = p.table := by
        refine modify_eq_self hp fun b' hb' => ?_
        cases hb.symm.trans hb'
        rw [← henabled]
      have hlifted : Lifting a p.table (.ok ()) (p.table.lift a) := .lifted
      rw [hsame] at hlifted
      exact hlifted
    | true =>
      refine (table_calls (call (.peek tid a)) p).bind ?_ fun e p₁ h₁ => ?_
      · intro word p₁ h₁
        refine (table_calls (call (.poke tid a _)) p₁).bind ?_ fun e p₂ h₂ => ?_
        · intro _ p₂ h₂
          rw [ends_modifyTable, h₂, h₁]
          exact .lifted
        · rw [h₂, h₁]
          exact .refused e hb henabled
      · rw [h₁]
        exact .refused e hb henabled

theorem unsetting_release (tid : Nat) (unset : Breakpoint → Breakpoint) (hp : p.table.Sorted)
    (haddress : ∀ b, (unset b).address = b.address)
    (henabled : ∀ b, (unset b).enabled = b.enabled) :
    Ends (release tid a unset) p fun r p' => Unsetting a unset p.table r p'.table := by
  rw [release, ends_modifyTable_bind, ends_get_bind]
  dsimp only
  rcases hb : p.table.find? a with _ | b
  · rw [find?_modify_self haddress, hb]
    show Unsetting a unset p.table (.ok ()) (p.table.modify a unset)
    rw [modify_eq_self hp fun b hb' => (Option.some_ne_none b (hb'.symm.trans hb)).elim]
    exact .absent hb
  · rw [find?_modify_self haddress, hb]
    dsimp only [Option.map_some]
    split
    · rename_i hidle
      have hsorted : (p.table.modify a unset).Sorted := hp.modify haddress a
      refine (lifting_disable tid (p := { p with table := p.table.modify a unset }) hsorted).bind ?_ ?_
      · rintro _ p' hlifting
        have htable : p'.table = (p.table.modify a unset).lift a := by
          generalize p'.table = t' at hlifting
          cases hlifting
          rfl
        have herased : ((p.table.modify a unset).lift a).erase a = p.table.erase a :=
          (erase_modify (f := fun b => { b with enabled := false }) fun _ => rfl).trans
            (erase_modify haddress)
        rw [ends_modifyTable]
        show Unsetting a unset p.table (.ok ()) (p'.table.erase a)
        rw [htable, herased]
        exact .removed hb hidle
      · rintro e p' hlifting
        obtain ⟨htable, henabled'⟩ : p'.table = p.table.modify a unset ∧ b.enabled = true := by
          generalize p'.table = t' at hlifting
          cases hlifting with
          | @refused b' _ hb' henabled' =>
            rw [find?_modify_self haddress, hb] at hb'
            cases hb'
            exact ⟨rfl, (henabled b).symm.trans henabled'⟩
        rw [htable]
        exact .stuck e hb hidle henabled'
    · rename_i hidle
      exact .shared hb (eq_false_of_ne_true hidle)

theorem setting_addUser (tid : Nat) (hp : p.table.Sorted) :
    Ends (addUser tid a) p fun r p' => Setting a p.table r p'.table := by
  rw [addUser, ends_modifyTable_bind]
  have hinsert : Swaps a (some (p.table.entryOr a)) p.table (p.table.insert a) := swaps_insert hp
  refine (planting_enable tid (p := { p with table := p.table.insert a }) hinsert.sorted).bind ?_
    fun e p₁ h => .refused h
  rintro _ p₁ h
  obtain ⟨saved, hswaps⟩ := h.swaps_ok hinsert
  have huser : (p₁.table.find? a).bind (·.userId) = p.table.userAt a := by
    rw [hswaps.self]
    exact userId_entryOr p.table a
  rw [ends_get_bind]
  dsimp only
  rw [huser]
  rcases hid : p.table.userAt a with _ | id
  · dsimp only
    rw [ends_modifyTable_bind]
    show Setting a p.table (.ok ⟨p₁.table.lastId + 1, a⟩) (p₁.table.assign a)
    rw [h.lastId]
    exact .fresh h hid
  · exact .again h hid

theorem planting_addPlanned (tid : Nat) (hp : p.table.Sorted) :
    Ends (addPlanned tid a) p fun r p' => Planting a (p.table.plan a) r p'.table := by
  rw [addPlanned, ends_modifyTable_bind, ends_modifyTable_bind]
  exact planting_enable tid (p := { p with table := p.table.plan a }) (swaps_plan hp).sorted

theorem unsetting_withoutId (tid : Nat) (hp : p.table.Sorted) :
    Ends (release tid a fun b => { b with userId := none }) p fun r p' =>
      Unsetting a Breakpoint.withoutId p.table r p'.table :=
  unsetting_release tid Breakpoint.withoutId hp (fun _ => rfl) fun _ => rfl

theorem unsetting_removePlanned (tid : Nat) (hp : p.table.Sorted) :
    Ends (removePlanned tid a) p fun r p' =>
      Unsetting a Breakpoint.withoutPlan p.table r p'.table :=
  unsetting_release tid Breakpoint.withoutPlan hp (fun _ => rfl) fun _ => rfl

/-- How it goes to remove the breakpoint of the user with an id. -/
theorem unsetting_removeUser (tid id : Nat) (hp : p.table.Sorted) :
    Ends (removeUser tid id) p fun r p' =>
      (r = .ok false ∧ p' = p ∧ ∀ x, p.table.userAt x ≠ some id) ∨
      ∃ x r', p.table.userAt x = some id ∧ r = r'.map (fun _ => true) ∧
        Unsetting x Breakpoint.withoutId p.table r' p'.table := by
  rw [removeUser, ends_get_bind]
  split
  · rename_i hnone
    exact Or.inl ⟨rfl, rfl, fun x hx => findUser?_of_userAt hx hnone⟩
  · rename_i b hb
    obtain ⟨-, hid⟩ := userAt_of_findUser? hp hb
    refine (unsetting_withoutId tid hp).bind ?_ fun e p' h => ?_
    · exact fun _ p' h => Or.inr ⟨b.address, .ok (), hid, rfl, h⟩
    · exact Or.inr ⟨b.address, .error e, hid, rfl, h⟩

omit [Kernel κ] in
theorem each_forM {R : UInt64 → BreakpointTable → Except OsError Unit → BreakpointTable → Prop}
    {f : UInt64 → Patching κ Unit} (hsorted : ∀ a t r t', R a t r t' → t.Sorted → t'.Sorted)
    (hf : ∀ a (p : Patched κ), p.table.Sorted → Ends (f a) p fun r p' => R a p.table r p'.table)
    (as : List UInt64) :
    ∀ p : Patched κ, p.table.Sorted → Ends (as.forM f) p fun r p' => Each R as p.table r p'.table := by
  induction as with
  | nil => exact fun p _ => .done
  | cons a rest ih =>
    intro p hp
    refine (hf a p hp).bind ?_ fun e p₁ h => .stuck h
    rintro _ p₁ h
    exact (ih p₁ (hsorted _ _ _ _ h hp)).mono fun _ _ hrest => .next h hrest

/-- How it goes to remove every breakpoint of the user. -/
theorem each_removeAllUser (tid : Nat) (hp : p.table.Sorted) :
    Ends (removeAllUser tid) p fun r p' => Each (Unsetting · Breakpoint.withoutId)
      (p.table.userBreakpoints.map (·.2)) p.table r p'.table := by
  rw [removeAllUser, ends_get_bind]
  exact each_forM (R := (Unsetting · Breakpoint.withoutId)) (fun _ _ _ _ h ht => h.sorted ht fun _ => rfl)
    (fun _ _ => unsetting_withoutId tid) _ p hp

end Patching

end DebugAdapter.Tracer
