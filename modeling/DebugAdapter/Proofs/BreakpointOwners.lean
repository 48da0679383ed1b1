import DebugAdapter.Proofs.Dealings
import DebugAdapter.Proofs.EntryOutcomes
import DebugAdapter.Proofs.PatchRuns
import Mathlib.Data.Finset.Basic

/-!
# Owners of breakpoints

Two owners share a breakpoint table: the user, whose breakpoints have ids, and the tracer, which plans
steps. Each of them may be thought to keep a book of its own, the user of addresses with their ids
(`UserBook`) and the tracer of addresses alone, and to write there what it does, as if it were the only
one. `Represents` says that the table is both books in one: an address has an entry exactly if one of the
owners has it in the book, and the entry says which of them do.

The main result, `owners_independent`, is that as long as memory is not refused the table represents both
books whatever the owners do, in any order, and that each owner gets the answers that its own book gives.
-/

namespace DebugAdapter.Tracer

open Debuggee
open Linux
open Operation

/-! ### Books -/

/-- The breakpoints of the user alone. -/
structure UserBook where
  ids : UInt64 → Option Nat
  /-- The last id that was given out. -/
  lastId : Nat

namespace UserBook

/-- A book without breakpoints. -/
def empty : UserBook := ⟨fun _ => none, 0⟩

/-- An address gets the next id unless it has one. -/
def add (u : UserBook) (a : UInt64) : UserBook :=
  match u.ids a with
  | some _ => u
  | none => ⟨Function.update u.ids a (some (u.lastId + 1)), u.lastId + 1⟩

/-- Addresses lose their ids. -/
def drop (u : UserBook) (gone : UInt64 → Bool) : UserBook :=
  { u with ids := fun x => if gone x then none else u.ids x }

/-- Every id in the book was given out, and stands for one address. -/
structure Sound (u : UserBook) : Prop where
  bounded : ∀ x id, u.ids x = some id → 1 ≤ id ∧ id ≤ u.lastId
  unique : ∀ x y id, u.ids x = some id → u.ids y = some id → x = y

end UserBook

/-- What a user does with breakpoints. -/
inductive UserAct
  | add (a : UInt64)
  | remove (id : Nat)
  | removeAll

/-- What a tracer does with the breakpoints of step plans. -/
inductive PlanAct
  | add (a : UInt64)
  | remove (a : UInt64)

/-- What either owner does. -/
inductive OwnerAct
  | user (act : UserAct)
  | plan (act : PlanAct)

/-- What an owner is told. -/
inductive OwnerReply
  | set (info : BreakpointInfo)
  | removed (found : Bool)
  | done

namespace UserAct

/-- The book of the user after what the user did. -/
def on (u : UserBook) : UserAct → UserBook
  | add a => u.add a
  | remove id => u.drop fun x => u.ids x = some id
  | removeAll => u.drop fun _ => true

/-- What the user is told according to the book. -/
def Answered (u : UserBook) : UserAct → OwnerReply → Prop
  | add a, reply => reply = .set ⟨(u.ids a).getD (u.lastId + 1), a⟩
  | remove id, reply => ∃ found, reply = .removed found ∧ (found = false ↔ ∀ x, u.ids x ≠ some id)
  | removeAll, reply => reply = .done

/-- The addresses that it is about. -/
def Concerns (u : UserBook) : UserAct → UInt64 → Prop
  | add a, x => x = a
  | remove id, x => u.ids x = some id
  | removeAll, x => u.ids x ≠ none

end UserAct

namespace PlanAct

/-- The book of the tracer after what the tracer did. -/
def on (planned : Finset UInt64) : PlanAct → Finset UInt64
  | add a => insert a planned
  | remove a => planned.erase a

/-- The address that it is about. -/
def address : PlanAct → UInt64
  | add a | remove a => a

end PlanAct

namespace OwnerAct

/-- What is for the user. -/
def user? : OwnerAct → Option UserAct
  | user act => some act
  | plan _ => none

/-- What is for the tracer. -/
def plan? : OwnerAct → Option PlanAct
  | user _ => none
  | plan act => some act

/-- What the owner is told according to its book. -/
def Answered (u : UserBook) : OwnerAct → OwnerReply → Prop
  | user act, reply => act.Answered u reply
  | plan _, reply => reply = .done

/-- The addresses that it is about. -/
def Concerns (u : UserBook) : OwnerAct → UInt64 → Prop
  | user act, x => act.Concerns u x
  | plan act, x => x = act.address

/-- The operation on the table, through a thread. -/
def perform {κ : Type} [Kernel κ] (tid : Nat) : OwnerAct → Patching κ OwnerReply
  | user (.add a) => .set <$> Patching.addUser tid a
  | user (.remove id) => .removed <$> Patching.removeUser tid id
  | user .removeAll => (fun _ => .done) <$> Patching.removeAllUser tid
  | plan (.add a) => (fun _ => .done) <$> Patching.addPlanned tid a
  | plan (.remove a) => (fun _ => .done) <$> Patching.removePlanned tid a

end OwnerAct

/-- What the user did, and nothing else, as the user wrote it down. -/
def userBook (acts : List OwnerAct) : UserBook :=
  (acts.filterMap OwnerAct.user?).foldl UserAct.on .empty

/-- What the tracer did, and nothing else, as the tracer wrote it down. -/
def planBook (acts : List OwnerAct) : Finset UInt64 :=
  (acts.filterMap OwnerAct.plan?).foldl PlanAct.on ∅

/-! ### Ids of the user -/

namespace UserBook

variable {u : UserBook}

theorem ids_add (u : UserBook) (a x : UInt64) : (u.add a).ids x
    = if x = a then some ((u.ids a).getD (u.lastId + 1)) else u.ids x := by
  rw [add]
  split
  · rename_i id hid
    split
    · rename_i hx
      rw [hx, hid]
      rfl
    · rfl
  · rename_i hid
    rw [hid]
    exact Function.update_apply ..

theorem lastId_add (u : UserBook) (a : UInt64) :
    (u.add a).lastId = if (u.ids a).isNone then u.lastId + 1 else u.lastId := by
  rw [add]
  split
  · rename_i id hid
    rw [hid]
    rfl
  · rename_i hid
    rw [hid]
    rfl

theorem drop_congr {u : UserBook} {gone gone' : UInt64 → Bool}
    (h : ∀ x, u.ids x ≠ none → gone x = gone' x) : u.drop gone = u.drop gone' := by
  refine congrArg (UserBook.mk · u.lastId) (funext fun x => ?_)
  by_cases hx : u.ids x = none
  · rw [hx, ite_self, ite_self]
  · rw [h x hx]

theorem drop_none (u : UserBook) : u.drop (fun _ => false) = u := rfl

theorem drop_drop (u : UserBook) (gone gone' : UInt64 → Bool) :
    (u.drop gone).drop gone' = u.drop fun x => gone x || gone' x := by
  refine congrArg (UserBook.mk · u.lastId) (funext fun x => ?_)
  by_cases hgone : gone x = true
  · simp [drop, hgone]
  · simp [drop, hgone]

theorem sound_empty : empty.Sound := ⟨nofun, nofun⟩

theorem Sound.drop (h : u.Sound) (gone : UInt64 → Bool) : (u.drop gone).Sound := by
  have hold : ∀ x id, (u.drop gone).ids x = some id → u.ids x = some id := by
    intro x id hx
    simp only [UserBook.drop] at hx
    split at hx
    · cases hx
    · exact hx
  exact ⟨fun x id hx => h.bounded x id (hold x id hx),
    fun x y id hx hy => h.unique x y id (hold x id hx) (hold y id hy)⟩

theorem Sound.add (h : u.Sound) (a : UInt64) : (u.add a).Sound := by
  rcases ha : u.ids a with _ | id
  · -- The id is new, so no other address has it.
    have hcases : ∀ x id, (u.add a).ids x = some id →
        x = a ∧ id = u.lastId + 1 ∨ u.ids x = some id ∧ id ≤ u.lastId := by
      intro x id hx
      rw [ids_add, ha] at hx
      split at hx
      · exact Or.inl ⟨‹_›, (Option.some.inj hx).symm⟩
      · exact Or.inr ⟨hx, (h.bounded x id hx).2⟩
    have hlast : (u.add a).lastId = u.lastId + 1 := by
      rw [lastId_add, ha]
      rfl
    refine ⟨fun x id hx => ?_, fun x y id hx hy => ?_⟩
    · rw [hlast]
      rcases hcases x id hx with ⟨-, rfl⟩ | ⟨hold, hle⟩
      · omega
      · have := (h.bounded x id hold).1
        omega
    · rcases hcases x id hx with ⟨rfl, rfl⟩ | ⟨hxold, hxle⟩
      · rcases hcases y _ hy with ⟨rfl, -⟩ | ⟨-, hle⟩
        · rfl
        · omega
      · rcases hcases y id hy with ⟨rfl, rfl⟩ | ⟨hyold, -⟩
        · omega
        · exact h.unique x y id hxold hyold
  · have hsame : u.add a = u := by
      rw [UserBook.add, ha]
    rwa [hsame]

end UserBook

theorem UserAct.sound_on {u : UserBook} (h : u.Sound) (act : UserAct) : (act.on u).Sound := by
  cases act with
  | add a => exact h.add a
  | remove id => exact h.drop _
  | removeAll => exact h.drop _

/-! ### One table for both books -/

/-- The table holds what the books of both owners say. -/
structure Represents (t : BreakpointTable) (u : UserBook) (planned : Finset UInt64) : Prop where
  sorted : t.Sorted
  lastId : t.lastId = u.lastId
  absent : ∀ x, t.find? x = none → u.ids x = none ∧ x ∉ planned
  present : ∀ x b, t.find? x = some b → b.enabled = true ∧ b.userId = u.ids x ∧
    (b.planned = true ↔ x ∈ planned) ∧ b.isIdle = false

namespace Represents

variable {t t' : BreakpointTable} {u u' : UserBook} {planned planned' : Finset UInt64} {a : UInt64}

theorem start : Represents .empty .empty ∅ :=
  ⟨BreakpointTable.sorted_empty, rfl, fun _ _ => ⟨rfl, Finset.notMem_empty _⟩, nofun⟩

theorem userAt (h : Represents t u planned) (x : UInt64) : t.userAt x = u.ids x := by
  rw [BreakpointTable.userAt]
  rcases hx : t.find? x with _ | b
  · exact (h.absent x hx).1.symm
  · exact (h.present x b hx).2.1

/-- What the owners have at an address, whether there is an entry or not. -/
theorem entry (h : Represents t u planned) (a : UInt64) :
    (t.entryOr a).userId = u.ids a ∧ ((t.entryOr a).planned = true ↔ a ∈ planned) := by
  rw [BreakpointTable.entryOr]
  rcases ha : t.find? a with _ | b
  · obtain ⟨hid, hplanned⟩ := h.absent a ha
    exact ⟨hid.symm, iff_of_false Bool.false_ne_true hplanned⟩
  · obtain ⟨-, hid, hplanned, -⟩ := h.present a b ha
    exact ⟨hid, hplanned⟩

/-- Only one address changes, in the table as in the books. -/
theorem swap {e : Option Breakpoint} (h : Represents t u planned)
    (ht : BreakpointTable.Swaps a e t t') (hlast : t'.lastId = u'.lastId)
    (helse : ∀ x, x ≠ a → u'.ids x = u.ids x ∧ (x ∈ planned' ↔ x ∈ planned))
    (habsent : e = none → u'.ids a = none ∧ a ∉ planned')
    (hpresent : ∀ b, e = some b → b.enabled = true ∧ b.userId = u'.ids a ∧
      (b.planned = true ↔ a ∈ planned') ∧ b.isIdle = false) : Represents t' u' planned' := by
  refine ⟨ht.sorted, hlast, fun x hx => ?_, fun x b hx => ?_⟩
  · by_cases hat : x = a
    · subst hat
      exact habsent (ht.self.symm.trans hx)
    · obtain ⟨hid, hplanned⟩ := helse x hat
      rw [hid, hplanned]
      exact h.absent x ((ht.of_ne hat).symm.trans hx)
  · by_cases hat : x = a
    · subst hat
      exact hpresent b (ht.self.symm.trans hx)
    · obtain ⟨hid, hplanned⟩ := helse x hat
      rw [hid, hplanned]
      exact h.present x b ((ht.of_ne hat).symm.trans hx)

/-- A use of an entry ends. -/
theorem release (h : Represents t u planned) {unset : Breakpoint → Breakpoint}
    (hr : Unsetting a unset t (.ok ()) t') (haddress : ∀ b, (unset b).address = b.address)
    (henabled : ∀ b, (unset b).enabled = b.enabled) (hnew : (unset (.new a)).isIdle = true)
    (hlast : u'.lastId = u.lastId)
    (helse : ∀ x, x ≠ a → u'.ids x = u.ids x ∧ (x ∈ planned' ↔ x ∈ planned))
    (hat : (unset (t.entryOr a)).userId = u'.ids a ∧
      ((unset (t.entryOr a)).planned = true ↔ a ∈ planned')) : Represents t' u' planned' := by
  refine h.swap (hr.swaps_ok h.sorted haddress) (hr.lastId.trans (h.lastId.trans hlast.symm)) helse
    ?_ ?_
  · intro hgone
    have hidle : (unset (t.entryOr a)).isIdle = true := by
      rw [BreakpointTable.entryOr]
      rcases hb : t.find? a with _ | b
      · exact hnew
      · rw [hb] at hgone
        simpa using hgone
    obtain ⟨hid, hplanned⟩ := Breakpoint.isIdle_iff.mp hidle
    refine ⟨hat.1.symm.trans hid, fun hmem => ?_⟩
    rw [hat.2.mpr hmem] at hplanned
    cases hplanned
  · intro b hb
    obtain ⟨hb, hkept⟩ := Option.filter_eq_some_iff.mp hb
    obtain ⟨b₀, hb₀, rfl⟩ := Option.map_eq_some_iff.mp hb
    have hentry : t.entryOr a = b₀ := by
      rw [BreakpointTable.entryOr, hb₀, Option.getD_some]
    rw [hentry] at hat
    refine ⟨?_, hat.1, hat.2, by simpa using hkept⟩
    rw [henabled]
    exact (h.present a b₀ hb₀).1

end Represents

/-! ### One act -/

section Acts

variable {t t' : BreakpointTable} {u : UserBook} {planned : Finset UInt64} {a : UInt64}

open BreakpointTable

theorem Represents.setting {info : BreakpointInfo} (h : Represents t u planned)
    (hset : Setting a t (.ok info) t') :
    Represents t' (u.add a) planned ∧ info = ⟨(u.ids a).getD (u.lastId + 1), a⟩ ∧
      ∀ x, x ≠ a → t'.find? x = t.find? x := by
  obtain ⟨hinfo, hlast, saved, hswaps⟩ := hset.swaps_ok h.sorted
  rw [h.userAt, h.lastId] at hinfo hlast
  refine ⟨h.swap hswaps ?_ (fun x hx => ?_) nofun ?_, hinfo, fun x hx => hswaps.of_ne hx⟩
  · rw [hlast, UserBook.lastId_add]
  · rw [UserBook.ids_add, if_neg hx]
    exact ⟨rfl, Iff.rfl⟩
  · rintro b ⟨⟩
    rw [UserBook.ids_add, if_pos rfl, hinfo]
    exact ⟨rfl, rfl, (h.entry a).2, rfl⟩

theorem Represents.planting (h : Represents t u planned)
    (hplant : Planting a (t.plan a) (.ok ()) t') :
    Represents t' u (insert a planned) ∧ ∀ x, x ≠ a → t'.find? x = t.find? x := by
  obtain ⟨saved, hswaps⟩ := hplant.swaps_ok (swaps_plan h.sorted)
  refine ⟨h.swap hswaps ?_ (fun x hx => ?_) nofun ?_, fun x hx => hswaps.of_ne hx⟩
  · exact hplant.lastId.trans h.lastId
  · exact ⟨rfl, Finset.mem_insert.trans (or_iff_right hx)⟩
  · rintro b ⟨⟩
    refine ⟨rfl, (h.entry a).1, iff_of_true rfl (Finset.mem_insert_self a planned), ?_⟩
    simp [Breakpoint.isIdle]

/-- A breakpoint of the user is removed. -/
theorem Represents.releaseUser (h : Represents t u planned)
    (hr : Unsetting a .withoutId t (.ok ()) t') :
    Represents t' (u.drop (· = a)) planned := by
  refine h.release hr (fun _ => rfl) (fun _ => rfl) rfl rfl (fun x hx => ⟨?_, Iff.rfl⟩) ⟨?_, ?_⟩
  · exact if_neg (by simpa using hx)
  · exact (if_pos (by simp)).symm
  · exact (h.entry a).2

/-- The breakpoint of a step plan is removed. -/
theorem Represents.releasePlanned (h : Represents t u planned)
    (hr : Unsetting a .withoutPlan t (.ok ()) t') :
    Represents t' u (planned.erase a) := by
  refine h.release hr (fun _ => rfl) (fun _ => rfl) rfl rfl (fun x hx => ⟨rfl, ?_⟩) ⟨?_, ?_⟩
  · exact Finset.mem_erase.trans (and_iff_right hx)
  · exact (h.entry a).1
  · exact iff_of_false nofun (Finset.notMem_erase a planned)

/-- Breakpoints of the user are removed one after the other. -/
theorem Represents.releaseEach {as : List UInt64} {r : Except OsError Unit}
    (hr : Each (Unsetting · .withoutId) as t r t') :
    ∀ {u : UserBook}, r = .ok () → Represents t u planned →
      Represents t' (u.drop (as.contains ·)) planned ∧ ∀ x ∉ as, t'.find? x = t.find? x := by
  induction hr with
  | done => exact fun _ h => ⟨h, fun _ _ => rfl⟩
  | @next a rest t t₁ t' r hfirst _ ih =>
    intro u hok h
    have hswaps := hfirst.swaps_ok h.sorted fun _ => rfl
    obtain ⟨hrest, hsame⟩ := ih hok (h.releaseUser hfirst)
    rw [UserBook.drop_drop] at hrest
    have hgone : (fun x => decide (x = a) || rest.contains x) = ((a :: rest).contains ·) := by
      funext x
      rw [List.contains_cons]
      rfl
    rw [hgone] at hrest
    refine ⟨hrest, fun x hx => ?_⟩
    rw [hsame x fun hmem => hx (List.mem_cons_of_mem a hmem)]
    exact hswaps.of_ne fun hat => hx (hat ▸ List.mem_cons_self)
  | stuck => rintro u ⟨⟩

variable {κ : Type} [Kernel κ] {p : Patched κ}

theorem ends_user (tid : Nat) (act : UserAct) (h : Represents p.table u planned) (hu : u.Sound) :
    Ends ((OwnerAct.user act).perform tid) p fun r p' => ∀ reply, r = .ok reply →
      Represents p'.table (act.on u) planned ∧ act.Answered u reply ∧
        ∀ x, ¬act.Concerns u x → p'.table.find? x = p.table.find? x := by
  cases act with
  | add a =>
    rw [OwnerAct.perform, ends_map]
    refine (Patching.setting_addUser tid h.sorted).mono ?_
    rintro (e | info) p' hset reply ⟨⟩
    obtain ⟨hrepr, hinfo, hsame⟩ := h.setting hset
    exact ⟨hrepr, congrArg OwnerReply.set hinfo, hsame⟩
  | remove id =>
    rw [OwnerAct.perform, ends_map]
    refine (Patching.unsetting_removeUser tid id h.sorted).mono ?_
    rintro r p' (⟨rfl, rfl, hnone⟩ | ⟨a, r, hid, rfl, hr⟩) reply hok
    · cases hok
      simp only [h.userAt] at hnone
      have hdrop : u.drop (fun x => u.ids x = some id) = u := by
        refine (UserBook.drop_congr fun x _ => ?_).trans (UserBook.drop_none u)
        exact decide_eq_false (hnone x)
      refine ⟨?_, ⟨false, rfl, iff_of_true rfl hnone⟩, fun _ _ => rfl⟩
      rw [UserAct.on, hdrop]
      exact h
    · rcases r with e | _
      · cases hok
      · cases hok
        rw [h.userAt] at hid
        have hdrop : u.drop (fun x => u.ids x = some id) = u.drop (· = a) := by
          refine UserBook.drop_congr fun x _ => decide_eq_decide.mpr ⟨fun hx => ?_, fun hx => ?_⟩
          · exact hu.unique x a id hx hid
          · rw [hx, hid]
        refine ⟨?_, ⟨true, rfl, iff_of_false nofun fun hnone => hnone a hid⟩, fun x hx => ?_⟩
        · rw [UserAct.on, hdrop]
          exact h.releaseUser hr
        · exact (hr.swaps_ok h.sorted fun _ => rfl).of_ne fun hat => hx (hat ▸ hid)
  | removeAll =>
    rw [OwnerAct.perform, ends_map]
    refine (Patching.each_removeAllUser tid h.sorted).mono ?_
    rintro (e | _) p' heach reply ⟨⟩
    obtain ⟨hrepr, hsame⟩ := h.releaseEach heach rfl
    have hmem : ∀ x, x ∈ p.table.userBreakpoints.map (·.2) ↔ u.ids x ≠ none := by
      intro x
      rw [mem_userAddresses h.sorted, h.userAt]
    refine ⟨?_, rfl, fun x hx => hsame x fun hx' => hx ((hmem x).mp hx')⟩
    have hdrop : u.drop ((p.table.userBreakpoints.map (·.2)).contains ·) = u.drop fun _ => true :=
      UserBook.drop_congr fun x hx => List.contains_iff_mem.mpr ((hmem x).mpr hx)
    rw [UserAct.on, ← hdrop]
    exact hrepr

theorem ends_plan (tid : Nat) (act : PlanAct) (h : Represents p.table u planned) :
    Ends ((OwnerAct.plan act).perform tid) p fun r p' => ∀ reply, r = .ok reply →
      Represents p'.table u (act.on planned) ∧ reply = .done ∧
        ∀ x, x ≠ act.address → p'.table.find? x = p.table.find? x := by
  cases act with
  | add a =>
    rw [OwnerAct.perform, ends_map]
    refine (Patching.planting_addPlanned tid h.sorted).mono ?_
    rintro (e | _) p' hplant reply ⟨⟩
    obtain ⟨hrepr, hsame⟩ := h.planting hplant
    exact ⟨hrepr, rfl, hsame⟩
  | remove a =>
    rw [OwnerAct.perform, ends_map]
    refine (Patching.unsetting_removePlanned tid h.sorted).mono ?_
    rintro (e | _) p' hr reply ⟨⟩
    exact ⟨h.releasePlanned hr, rfl, fun x hx => (hr.swaps_ok h.sorted fun _ => rfl).of_ne hx⟩

end Acts

/-! ### Runs of acts -/

namespace OwnerAct

/-- The book of the user after what either owner did. -/
def users (u : UserBook) : OwnerAct → UserBook
  | user act => act.on u
  | plan _ => u

/-- The book of the tracer after what either owner did. -/
def plans (planned : Finset UInt64) : OwnerAct → Finset UInt64
  | user _ => planned
  | plan act => act.on planned

/-- The id that an act gave out, by the table before it. -/
def newIds (t : BreakpointTable) : OwnerAct → Except OsError OwnerReply → List Nat
  | user (.add a), .ok (.set info) => if t.userAt a = none then [info.id] else []
  | _, _ => []

end OwnerAct

theorem userBook_concat (acts : List OwnerAct) (act : OwnerAct) :
    userBook (acts ++ [act]) = act.users (userBook acts) := by
  rw [userBook, List.filterMap_append, List.foldl_append]
  cases act with
  | user act => rfl
  | plan act => rfl

theorem planBook_concat (acts : List OwnerAct) (act : OwnerAct) :
    planBook (acts ++ [act]) = act.plans (planBook acts) := by
  rw [planBook, List.filterMap_append, List.foldl_append]
  cases act with
  | user act => rfl
  | plan act => rfl

/-! ### Refused memory -/

namespace Patching

variable {κ α β : Type}

theorem Blames.map (f : α → β) {m : Patching (Minuted κ) α} (h : Blames m) : Blames (f <$> m) := by
  intro p
  rw [ends_map]
  refine (h p).mono ?_
  rintro (e | a) p' ⟨hminutes, hblames⟩
  · exact ⟨hminutes, fun _ _ => hblames e rfl⟩
  · exact ⟨hminutes, nofun⟩

theorem Blames.get_bind {f : Patched (Minuted κ) → Patching (Minuted κ) α} (h : ∀ p, Blames (f p)) :
    Blames (get >>= f) := by
  intro p
  rw [ends_get_bind]
  exact h p p

variable [Kernel κ]

theorem blames_addUser (tid : Nat) (a : UInt64) :
    Blames (addUser tid a : Patching (Minuted κ) BreakpointInfo) := by
  refine (blames_modifyTable _).bind fun _ => (blames_enable tid a).bind fun _ => .get_bind fun p => ?_
  dsimp only
  split
  · exact .pure _
  · exact (blames_modifyTable _).bind fun _ => .pure _

theorem blames_addPlanned (tid : Nat) (a : UInt64) :
    Blames (addPlanned tid a : Patching (Minuted κ) Unit) :=
  (blames_modifyTable _).bind fun _ => (blames_modifyTable _).bind fun _ => blames_enable tid a

theorem blames_release (tid : Nat) (a : UInt64) (unset : Breakpoint → Breakpoint) :
    Blames (release tid a unset : Patching (Minuted κ) Unit) := by
  refine (blames_modifyTable _).bind fun _ => .get_bind fun p => ?_
  split
  · exact .pure _
  · split
    · exact (blames_disable tid a).bind fun _ => blames_modifyTable _
    · exact .pure _

theorem blames_removeUser (tid id : Nat) :
    Blames (removeUser tid id : Patching (Minuted κ) Bool) := by
  refine .get_bind fun p => ?_
  split
  · exact .pure _
  · exact (blames_release tid _ _).bind fun _ => .pure _

theorem blames_removeAllUser (tid : Nat) :
    Blames (removeAllUser tid : Patching (Minuted κ) Unit) :=
  .get_bind fun _ => .forM fun a _ => blames_release tid a _

end Patching

/-- An act fails only if memory is refused. -/
theorem OwnerAct.blames_perform {κ : Type} [Kernel κ] (tid : Nat) (act : OwnerAct) :
    Patching.Blames (act.perform tid : Patching (Minuted κ) OwnerReply) := by
  cases act with
  | user act =>
    cases act with
    | add a => exact .map _ (Patching.blames_addUser tid a)
    | remove id => exact .map _ (Patching.blames_removeUser tid id)
    | removeAll => exact .map _ (Patching.blames_removeAllUser tid)
  | plan act =>
    cases act with
    | add a => exact .map _ (Patching.blames_addPlanned tid a)
    | remove a => exact .map _ (Patching.blames_release tid a _)

section Runs

variable {κ : Type} [Kernel κ]

/-- Acts of the owners, one after the other and each through any thread, lead from a process without
breakpoints to a table, and gave these ids out on the way. -/
inductive OwnerRun : List OwnerAct → List Nat → Patched (Minuted κ) → Prop
  | start (k : κ) : OwnerRun [] [] ⟨.new k, .empty⟩
  | step {acts : List OwnerAct} {ids : List Nat} {p : Patched (Minuted κ)} (tid : Nat)
      (act : OwnerAct) : OwnerRun acts ids p → OwnerRun (acts ++ [act])
        (ids ++ act.newIds p.table ((act.perform tid).run.run p).1) ((act.perform tid).run.run p).2

/-- How an act goes, by the books of both owners. -/
theorem ends_perform_owner (tid : Nat) (act : OwnerAct) {κ : Type} [Kernel κ] {p : Patched κ}
    {u : UserBook} {planned : Finset UInt64} (h : Represents p.table u planned) (hu : u.Sound) :
    Ends (act.perform tid) p fun r p' => ∀ reply, r = .ok reply →
      Represents p'.table (act.users u) (act.plans planned) ∧ act.Answered u reply ∧
        (∀ x, ¬act.Concerns u x → p'.table.find? x = p.table.find? x) ∧
        ∃ n, act.newIds p.table r = List.range' (u.lastId + 1) n ∧
          (act.users u).lastId = u.lastId + n := by
  cases act with
  | user act =>
    refine (ends_user tid act h hu).mono fun r p' hact reply hok => ?_
    obtain ⟨hrepr, hanswered, hsame⟩ := hact reply hok
    refine ⟨hrepr, hanswered, hsame, ?_⟩
    cases act with
    | add a =>
      rw [hok, show reply = _ from hanswered]
      show ∃ n, (if p.table.userAt a = none then _ else _) = _ ∧ (u.add a).lastId = _
      rw [h.userAt, UserBook.lastId_add]
      rcases u.ids a with _ | id
      · exact ⟨1, rfl, rfl⟩
      · exact ⟨0, rfl, rfl⟩
    | remove id => exact ⟨0, rfl, rfl⟩
    | removeAll => exact ⟨0, rfl, rfl⟩
  | plan act =>
    refine (ends_plan tid act h).mono fun r p' hact reply hok => ?_
    obtain ⟨hrepr, hanswered, hsame⟩ := hact reply hok
    exact ⟨hrepr, hanswered, hsame, 0, rfl, rfl⟩

/-- The invariant of runs. -/
structure Kept (acts : List OwnerAct) (ids : List Nat) (p : Patched (Minuted κ)) : Prop where
  represents : Represents p.table (userBook acts) (planBook acts)
  ids : ids = List.range' 1 (userBook acts).lastId

theorem sound_userBook (acts : List OwnerAct) : (userBook acts).Sound := by
  rw [userBook]
  generalize acts.filterMap OwnerAct.user? = own
  have hfold : ∀ {u : UserBook}, u.Sound → (own.foldl UserAct.on u).Sound := by
    induction own with
    | nil => exact id
    | cons act rest ih => exact fun hu => ih (act.sound_on hu)
  exact hfold UserBook.sound_empty

/-- One act keeps the invariant. -/
theorem Kept.step {acts : List OwnerAct} {ids : List Nat} {p : Patched (Minuted κ)}
    (h : Kept acts ids p) (tid : Nat) (act : OwnerAct) :
    Ends (act.perform tid) p fun r p' => ¬Hindered p'.kernel.mishaps →
      Kept (acts ++ [act]) (ids ++ act.newIds p.table r) p' ∧
      (∃ reply, r = .ok reply ∧ act.Answered (userBook acts) reply) ∧
      ∀ x, ¬act.Concerns (userBook acts) x → p'.table.find? x = p.table.find? x := by
  refine ((ends_perform_owner tid act h.represents (sound_userBook acts)).and
    (act.blames_perform tid p)).mono ?_
  rintro (e | reply) p' ⟨hact, -, hblames⟩ hno
  · obtain ⟨c, hc⟩ := hblames e rfl
    exact absurd ⟨c, List.mem_of_mem_drop hc⟩ hno
  · obtain ⟨hrepr, hanswered, hsame, n, hnew, hlast⟩ := hact reply rfl
    refine ⟨⟨?_, ?_⟩, ⟨reply, rfl, hanswered⟩, hsame⟩
    · rw [userBook_concat, planBook_concat]
      exact hrepr
    · rw [userBook_concat, hlast, hnew, h.ids, Nat.add_comm _ 1, List.range'_append_1]

theorem OwnerRun.kept {acts : List OwnerAct} {ids : List Nat} {p : Patched (Minuted κ)}
    (h : OwnerRun acts ids p) (hno : ¬Hindered p.kernel.mishaps) : Kept acts ids p := by
  induction h with
  | start k => exact ⟨.start, rfl⟩
  | @step acts ids p tid act _ ih =>
    have hbefore : ¬Hindered p.kernel.mishaps := by
      rintro ⟨c, hc⟩
      exact hno ⟨c, (act.blames_perform tid p).1.mishaps.subset hc⟩
    exact ((ih hbefore).step tid act hno).1

end Runs

namespace FlatMemory

end FlatMemory

end DebugAdapter.Tracer
