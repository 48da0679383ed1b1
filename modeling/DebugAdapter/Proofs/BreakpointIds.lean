import DebugAdapter.Proofs.PatchCells
import DebugAdapter.Proofs.TracerRequests

/-!
# Ids of breakpoints

A breakpoint table gives each breakpoint of the user an id that it never gave before. As long as the
table lives an id therefore stands for one address: `Extends` says that no other address gets an id
that is already given out, and every operation on breakpoints moves along it. A table lives as long
as its process keeps its image. `ExecCount` counts the images that a kernel reports, and `Along`
follows the table of a system while this count stays the same.
-/

namespace DebugAdapter.Tracer

open Linux
open Operation

/-! ### Tables -/

namespace BreakpointTable

/-- The id of the breakpoint of the user at an address. -/
def userAt (t : BreakpointTable) (x : UInt64) : Option Nat := (t.find? x).bind (·.userId)

/-- The entries are in order, and each id that was given out stands for at most one address. -/
structure WellFormed (t : BreakpointTable) : Prop where
  sorted : t.Sorted
  bounded : ∀ x id, t.userAt x = some id → id ≤ t.lastId
  unique : ∀ x y id, t.userAt x = some id → t.userAt y = some id → x = y

/-- No address gets an id that was given out before. -/
structure Extends (t t' : BreakpointTable) : Prop where
  lastId : t.lastId ≤ t'.lastId
  old : ∀ x id, t'.userAt x = some id → id ≤ t.lastId → t.userAt x = some id

instance : StepRelation Extends where
  refl _ := ⟨Nat.le_refl _, fun _ _ h _ => h⟩
  trans h h' :=
    { lastId := Nat.le_trans h.lastId h'.lastId
      old := fun x id hid hle => h.old x id (h'.old x id hid (Nat.le_trans hle h.lastId)) hle }

theorem wellFormed_of_entries {t : BreakpointTable} (h : t.entries = []) : t.WellFormed := by
  have huser : ∀ x, t.userAt x = none := by
    intro x
    rw [userAt, find?, h]
    rfl
  refine ⟨?_, ?_, ?_⟩
  · rw [Sorted, h]
    exact .nil
  · intro x id hid
    rw [huser] at hid
    cases hid
  · intro x y id hid
    rw [huser] at hid
    cases hid

/-- The entry with an id is the one at the address for which the id stands. -/
theorem userAt_of_findUser? {t : BreakpointTable} (h : t.Sorted) {id : Nat} {b : Breakpoint}
    (hb : t.findUser? id = some b) : t.find? b.address = some b ∧ t.userAt b.address = some id := by
  have hmem : b ∈ t.entries := List.mem_of_find?_eq_some hb
  have hid : b.userId = some id := by
    have hfound : (b.userId == some id) = true :=
      List.find?_some (p := fun c : Breakpoint => c.userId == some id) hb
    exact eq_of_beq hfound
  have hfind := find?_of_mem h hmem
  refine ⟨hfind, ?_⟩
  rw [userAt, hfind]
  exact hid

/-- An id with an entry has one that is found. -/
theorem findUser?_of_userAt {t : BreakpointTable} {x : UInt64} {id : Nat}
    (h : t.userAt x = some id) : t.findUser? id ≠ none := by
  obtain ⟨b, hb, hid⟩ := Option.bind_eq_some_iff.mp h
  intro hnone
  refine List.find?_eq_none.mp hnone b (mem_of_find? hb) ?_
  exact beq_iff_eq.mpr hid

/-- A change that gives no id away leaves a table well formed. -/
theorem WellFormed.of_userAt {t t' : BreakpointTable} (h : t.WellFormed) (hsorted : t'.Sorted)
    (hlast : t'.lastId = t.lastId)
    (huser : ∀ x id, t'.userAt x = some id → t.userAt x = some id) :
    t'.WellFormed ∧ Extends t t' := by
  refine ⟨⟨hsorted, ?_, ?_⟩, ?_, ?_⟩
  · intro x id hid
    rw [hlast]
    exact h.bounded x id (huser x id hid)
  · exact fun x y id hx hy => h.unique x y id (huser x id hx) (huser y id hy)
  · exact Nat.le_of_eq hlast.symm
  · exact fun x id hid _ => huser x id hid

theorem userAt_insert {t : BreakpointTable} (h : t.Sorted) (a x : UInt64) :
    (t.insert a).userAt x = t.userAt x := by
  rw [userAt, userAt]
  by_cases hx : x = a
  · subst hx
    rw [find?_insert_self h]
    cases t.find? x with
    | none => rfl
    | some b => rfl
  · rw [find?_insert_of_ne t hx]

theorem userAt_modify {f : Breakpoint → Breakpoint} (hf : ∀ b, (f b).address = b.address)
    (t : BreakpointTable) (a x : UInt64) :
    (t.modify a f).userAt x
      = if x = a then (t.find? x).bind fun b => (f b).userId else t.userAt x := by
  rw [userAt, find?_modify hf]
  split
  · rw [Option.bind_map]
    rfl
  · rfl

/-- A change of an entry that keeps its id. -/
theorem userAt_modify_of_userId {f : Breakpoint → Breakpoint} (hf : ∀ b, (f b).address = b.address)
    (hid : ∀ b, (f b).userId = b.userId) (t : BreakpointTable) (a x : UInt64) :
    (t.modify a f).userAt x = t.userAt x := by
  rw [userAt_modify hf]
  split
  · simp only [hid]
    rfl
  · rfl

theorem userAt_erase (t : BreakpointTable) (a x : UInt64) :
    (t.erase a).userAt x = if x = a then none else t.userAt x := by
  rw [userAt, find?_erase]
  split
  · rfl
  · rfl

theorem WellFormed.insert {t : BreakpointTable} (h : t.WellFormed) (a : UInt64) :
    (t.insert a).WellFormed ∧ Extends t (t.insert a) := by
  refine h.of_userAt (h.sorted.insert a) rfl ?_
  intro x id hid
  rwa [userAt_insert h.sorted] at hid

/-- An entry changes, and keeps its id or loses it. -/
theorem WellFormed.modify {t : BreakpointTable} (h : t.WellFormed) (a : UInt64)
    {f : Breakpoint → Breakpoint} (hf : ∀ b, (f b).address = b.address)
    (hid : ∀ b id, (f b).userId = some id → b.userId = some id) :
    (t.modify a f).WellFormed ∧ Extends t (t.modify a f) := by
  refine h.of_userAt (h.sorted.modify hf a) rfl ?_
  intro x id hx
  rw [userAt_modify hf] at hx
  split at hx
  · obtain ⟨b, hb, hidb⟩ := Option.bind_eq_some_iff.mp hx
    rw [userAt, hb]
    exact hid b id hidb
  · exact hx

theorem WellFormed.erase {t : BreakpointTable} (h : t.WellFormed) (a : UInt64) :
    (t.erase a).WellFormed ∧ Extends t (t.erase a) := by
  refine h.of_userAt (h.sorted.erase a) rfl ?_
  intro x id hx
  rw [userAt_erase] at hx
  split at hx
  · cases hx
  · exact hx

/-- An entry without an id gets the next one. -/
def assign (t : BreakpointTable) (a : UInt64) : BreakpointTable :=
  { t.modify a fun b => { b with userId := some (t.lastId + 1) } with lastId := t.lastId + 1 }

theorem find?_assign (t : BreakpointTable) (a x : UInt64) : (t.assign a).find? x
    = if x = a then (t.find? x).map fun b => { b with userId := some (t.lastId + 1) }
      else t.find? x :=
  find?_modify (f := fun b => { b with userId := some (t.lastId + 1) }) (fun _ => rfl) t a x

theorem userAt_assign (t : BreakpointTable) (a x : UInt64) :
    (t.assign a).userAt x
      = if x = a then (t.find? x).map fun _ => t.lastId + 1 else t.userAt x := by
  have hmodify := userAt_modify (f := fun b => { b with userId := some (t.lastId + 1) })
    (fun _ => rfl) t a x
  refine hmodify.trans ?_
  split
  · cases t.find? x with
    | none => rfl
    | some b => rfl
  · rfl

theorem WellFormed.assign {t : BreakpointTable} (h : t.WellFormed) (a : UInt64) :
    (t.assign a).WellFormed ∧ Extends t (t.assign a) := by
  -- Elsewhere nothing changes, and the id of the address is new.
  have hcases : ∀ x id, (t.assign a).userAt x = some id →
      (x = a ∧ id = t.lastId + 1) ∨ (x ≠ a ∧ t.userAt x = some id) := by
    intro x id hid
    rw [userAt_assign] at hid
    split at hid
    · rename_i hx
      obtain ⟨b, -, rfl⟩ := Option.map_eq_some_iff.mp hid
      exact Or.inl ⟨hx, rfl⟩
    · exact Or.inr ⟨‹_›, hid⟩
  have hsorted : (t.assign a).Sorted :=
    h.sorted.modify (f := fun b => { b with userId := some (t.lastId + 1) }) (fun _ => rfl) a
  refine ⟨⟨hsorted, ?_, ?_⟩, Nat.le_succ _, ?_⟩
  · intro x id hid
    rcases hcases x id hid with ⟨-, rfl⟩ | ⟨-, hold⟩
    · exact Nat.le_refl _
    · exact Nat.le_succ_of_le (h.bounded x id hold)
  · intro x y id hx hy
    rcases hcases x id hx with ⟨rfl, rfl⟩ | ⟨-, hxold⟩
    · rcases hcases y _ hy with ⟨rfl, -⟩ | ⟨-, hyold⟩
      · rfl
      · exact absurd (h.bounded y _ hyold) (Nat.not_succ_le_self _)
    · rcases hcases y id hy with ⟨rfl, rfl⟩ | ⟨-, hyold⟩
      · exact absurd (h.bounded x _ hxold) (Nat.not_succ_le_self _)
      · exact h.unique x y id hxold hyold
  · intro x id hid hle
    rcases hcases x id hid with ⟨-, rfl⟩ | ⟨-, hold⟩
    · exact absurd hle (Nat.not_succ_le_self _)
    · exact hold

end BreakpointTable

end DebugAdapter.Tracer
