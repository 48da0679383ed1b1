import DebugAdapter.Tracer.Breakpoints

/-!
# The breakpoint table

Breakpoint tables keep their entries in strict order of the addresses, so an entry is the same thing
as its address: `mem_entries_iff` turns membership into lookup, and what each change of a table does
is said by what it does to the lookup of every address.
-/

namespace DebugAdapter.Tracer.BreakpointTable

/-- The entries are in strict order of their addresses. -/
def Sorted (t : BreakpointTable) : Prop :=
  t.entries.Pairwise (·.address < ·.address)

@[simp] theorem sorted_empty : empty.Sorted := List.Pairwise.nil

/-! ### Lookup -/

@[simp] theorem find?_empty (x : UInt64) : empty.find? x = none := rfl

theorem address_of_find? {t : BreakpointTable} {x : UInt64} {b : Breakpoint}
    (h : t.find? x = some b) : b.address = x := by
  have := List.find?_some h
  exact eq_of_beq this

theorem mem_of_find? {t : BreakpointTable} {x : UInt64} {b : Breakpoint}
    (h : t.find? x = some b) : b ∈ t.entries :=
  List.mem_of_find?_eq_some h

/-- The entry at an address among those of a list, from its front on. -/
theorem find?_address_cons (b : Breakpoint) (r : List Breakpoint) (x : UInt64) :
    (b :: r).find? (·.address == x)
      = if b.address = x then some b else r.find? (·.address == x) := by
  rw [List.find?_cons]
  by_cases h : b.address = x
  · rw [if_pos h, beq_iff_eq.mpr h]
  · rw [if_neg h, beq_eq_false_iff_ne.mpr h]

/-- In a sorted list an element is found by its address. -/
theorem find?_of_mem_of_pairwise {l : List Breakpoint} (h : l.Pairwise (·.address < ·.address))
    {b : Breakpoint} (hb : b ∈ l) : l.find? (·.address == b.address) = some b := by
  induction l with
  | nil => cases hb
  | cons c r ih =>
    obtain ⟨hc, hr⟩ := List.pairwise_cons.mp h
    rw [find?_address_cons]
    rcases List.mem_cons.mp hb with rfl | hb
    · exact if_pos rfl
    · rw [if_neg (UInt64.ne_of_lt (hc b hb))]
      exact ih hr hb

theorem find?_of_mem {t : BreakpointTable} (h : t.Sorted) {b : Breakpoint} (hb : b ∈ t.entries) :
    t.find? b.address = some b :=
  find?_of_mem_of_pairwise h hb

theorem mem_entries_iff {t : BreakpointTable} (h : t.Sorted) {b : Breakpoint} :
    b ∈ t.entries ↔ t.find? b.address = some b :=
  ⟨find?_of_mem h, mem_of_find?⟩

/-! ### Changes of one entry -/

theorem modify_id (t : BreakpointTable) (a : UInt64) : t.modify a id = t := by
  rw [modify]
  simp

section Modify

variable {f : Breakpoint → Breakpoint} (hf : ∀ b, (f b).address = b.address)

include hf

theorem find?_modify (t : BreakpointTable) (a x : UInt64) :
    (t.modify a f).find? x = if x = a then (t.find? x).map f else t.find? x := by
  have haddr : ∀ b : Breakpoint, (if b.address = a then f b else b).address = b.address := by
    intro b
    split
    · exact hf b
    · rfl
  simp only [find?, modify, List.find?_map, Function.comp_def, haddr]
  cases hfind : t.entries.find? (·.address == x) with
  | none => simp
  | some b =>
    have hb : b.address = x := address_of_find? hfind
    rw [Option.map_some, hb]
    split <;> rfl

/-- Two changes of one entry in a row. -/
theorem modify_modify (t : BreakpointTable) (a : UInt64) (g : Breakpoint → Breakpoint) :
    (t.modify a f).modify a g = t.modify a fun b => g (f b) := by
  simp only [modify, List.map_map]
  congr 2
  funext b
  simp only [Function.comp]
  by_cases hb : b.address = a
  · rw [if_pos hb, if_pos hb, if_pos ((hf b).trans hb)]
  · rw [if_neg hb, if_neg hb, if_neg hb]

theorem find?_modify_self (t : BreakpointTable) (a : UInt64) :
    (t.modify a f).find? a = (t.find? a).map f := by
  rw [find?_modify hf, if_pos rfl]

theorem find?_modify_of_ne (t : BreakpointTable) {a x : UInt64} (h : x ≠ a) :
    (t.modify a f).find? x = t.find? x := by
  rw [find?_modify hf, if_neg h]

theorem Sorted.modify {t : BreakpointTable} (h : t.Sorted) (a : UInt64) :
    (t.modify a f).Sorted := by
  refine List.pairwise_map.mpr (h.imp ?_)
  intro b c hbc
  have haddr : ∀ b : Breakpoint, (if b.address = a then f b else b).address = b.address := by
    intro b
    split
    · exact hf b
    · rfl
  rw [haddr, haddr]
  exact hbc

end Modify

/-! ### Removed entries -/

theorem find?_erase (t : BreakpointTable) (a x : UInt64) :
    (t.erase a).find? x = if x = a then none else t.find? x := by
  simp only [find?, erase, List.find?_filter]
  split
  · rename_i hx
    refine List.find?_eq_none.mpr ?_
    intro b _
    subst hx
    simp
  · rename_i hx
    congr 1
    funext b
    by_cases hb : b.address = x
    · simp [hb, hx]
    · simp [hb]

theorem Sorted.erase {t : BreakpointTable} (h : t.Sorted) (a : UInt64) : (t.erase a).Sorted :=
  h.filter _

/-! ### Added entries -/

theorem find?_insert_of_ne (t : BreakpointTable) {a x : UInt64} (h : x ≠ a) :
    (t.insert a).find? x = t.find? x := by
  obtain ⟨entries, lastId⟩ := t
  have hnew : (Breakpoint.new a).address ≠ x := fun heq => h heq.symm
  simp only [insert, find?]
  induction entries with
  | nil => rw [insertEntry, find?_address_cons, if_neg hnew]
  | cons b r ih =>
    rw [insertEntry]
    split
    · rfl
    · split
      · rw [find?_address_cons, if_neg hnew]
      · rw [find?_address_cons, find?_address_cons, ih]

/-- In a sorted list an added address has the entry that it had before, or a new one. -/
theorem find?_insertEntry {l : List Breakpoint} (h : l.Pairwise (·.address < ·.address))
    (a : UInt64) :
    (insertEntry a l).find? (·.address == a)
      = some ((l.find? (·.address == a)).getD (.new a)) := by
  have hnew : (Breakpoint.new a).address = a := rfl
  induction l with
  | nil => rw [insertEntry, find?_address_cons, if_pos hnew, List.find?_nil, Option.getD_none]
  | cons b r ih =>
    obtain ⟨hb, hr⟩ := List.pairwise_cons.mp h
    rw [insertEntry]
    split
    · rename_i heq
      rw [find?_address_cons, if_pos heq.symm, Option.getD_some]
    · rename_i hne
      split
      · -- The address is before all others, so it had no entry.
        rename_i hlt
        have hnone : (b :: r).find? (·.address == a) = none := by
          refine List.find?_eq_none.mpr ?_
          intro c hc heq
          rcases List.mem_cons.mp hc with rfl | hc
          · exact hne (eq_of_beq heq).symm
          · have hbc := hb c hc
            rw [eq_of_beq heq] at hbc
            exact UInt64.lt_asymm hlt hbc
        rw [hnone, find?_address_cons, if_pos hnew, Option.getD_none]
      · have hne : b.address ≠ a := Ne.symm hne
        rw [find?_address_cons, find?_address_cons, if_neg hne, if_neg hne, ih hr]

theorem find?_insert_self {t : BreakpointTable} (h : t.Sorted) (a : UInt64) :
    (t.insert a).find? a = some ((t.find? a).getD (.new a)) :=
  find?_insertEntry h a

theorem mem_insertEntry {l : List Breakpoint} {a : UInt64} {c : Breakpoint}
    (h : c ∈ insertEntry a l) : c = .new a ∨ c ∈ l := by
  induction l with
  | nil => exact Or.inl (List.mem_singleton.mp h)
  | cons b r ih =>
    rw [insertEntry] at h
    split at h
    · exact Or.inr h
    · split at h
      · exact List.mem_cons.mp h
      · rcases List.mem_cons.mp h with rfl | h
        · exact Or.inr List.mem_cons_self
        · exact (ih h).imp_right (List.mem_cons_of_mem b)

theorem Sorted.insert {t : BreakpointTable} (h : t.Sorted) (a : UInt64) : (t.insert a).Sorted := by
  obtain ⟨entries, lastId⟩ := t
  simp only [Sorted, BreakpointTable.insert] at h ⊢
  induction entries with
  | nil => exact List.pairwise_singleton _ _
  | cons b r ih =>
    obtain ⟨hb, hr⟩ := List.pairwise_cons.mp h
    rw [insertEntry]
    split
    · exact h
    · rename_i hne
      split
      · rename_i hlt
        refine List.pairwise_cons.mpr ⟨?_, h⟩
        intro c hc
        rcases List.mem_cons.mp hc with rfl | hc
        · exact hlt
        · exact UInt64.lt_trans hlt (hb c hc)
      · rename_i hnlt
        refine List.pairwise_cons.mpr ⟨?_, ih hr⟩
        intro c hc
        rcases mem_insertEntry hc with rfl | hc
        · exact UInt64.lt_of_le_of_ne (UInt64.not_lt.mp hnlt) fun heq => hne heq.symm
        · exact hb c hc

end DebugAdapter.Tracer.BreakpointTable
