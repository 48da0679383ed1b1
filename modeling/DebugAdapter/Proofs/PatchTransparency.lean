import DebugAdapter.Proofs.PatchCells

/-!
# Transparency of patches

The original view of a patched process is its memory with the saved byte put back at every enabled
breakpoint. This module holds what each operation on breakpoints does to it.

Setting and removing breakpoints, and lifting one for a step, hide their patches: the original view
stays (`Hides`). A write to memory under the patches changes the original view to the data, and a
masked window of memory shows the original view, unless a patch of the window is *overlooked*: the
operations look for patches in front of the end of a window that is capped at the last address, so
they miss the last address itself and whatever of a window lies behind it.
-/

namespace DebugAdapter.Tracer

open Linux
open Operation (Ends ends_bind)
open WordMemory (memory)

variable {κ : Type} [Kernel κ] [WordMemory κ]

/-- The memory of a process with the saved byte put back at every enabled breakpoint. -/
def Patched.original (s : Patched κ) : AddressSpace := fun x => (s.cell x).original

/-- Every patch that is meant to be in place is in place. -/
def Patched.Sound (s : Patched κ) : Prop := ∀ x, (s.cell x).Sound

/-- The entries stay in order, patches are in place, and the original view stays. -/
structure Hides (s s' : Patched κ) : Prop where
  sorted : s'.table.Sorted
  sound : s.Sound → s'.Sound
  original : s'.original = s.original

theorem Hides.refl {s : Patched κ} (h : s.table.Sorted) : Hides s s := ⟨h, id, rfl⟩

theorem Hides.trans {s t u : Patched κ} (h : Hides s t) (h' : Hides t u) : Hides s u :=
  ⟨h'.sorted, fun hs => h'.sound (h.sound hs), h'.original.trans h.original⟩

/-- A change of cells that keeps their original bytes hides what it does. -/
theorem Acts.hides {f : UInt64 → Cell → Cell} {s s' : Patched κ} (h : Acts f s s')
    (hsound : ∀ x, (s.cell x).Sound → (f x (s.cell x)).Sound)
    (horiginal : ∀ x, (f x (s.cell x)).original = (s.cell x).original) : Hides s s' where
  sorted := h.sorted
  sound hs x := by
    rw [h.cell]
    exact hsound x (hs x)
  original := by
    funext x
    rw [Patched.original, h.cell, horiginal]
    rfl

/-! ### Changes of the table alone -/

section Table

variable {s : Patched κ} (hs : s.table.Sorted)

include hs

/-- An added entry is not enabled yet. -/
theorem hides_insert (a : UInt64) : Hides s { s with table := s.table.insert a } := by
  have hcell : ∀ x, (Patched.cell { s with table := s.table.insert a } x).trapped
        = (s.cell x).trapped ∧
      (Patched.cell { s with table := s.table.insert a } x).original = (s.cell x).original := by
    intro x
    by_cases hx : x = a
    · subst hx
      have hfind := BreakpointTable.find?_insert_self hs x
      cases hb : s.table.find? x with
      | none =>
        rw [hb, Option.getD_none] at hfind
        simp [Patched.cell, hfind, hb, Cell.trapped, Cell.original, Breakpoint.new]
      | some b =>
        rw [hb, Option.getD_some] at hfind
        simp [Patched.cell, hfind, hb, Cell.trapped, Cell.original]
    · have hfind := BreakpointTable.find?_insert_of_ne s.table hx
      simp [Patched.cell, hfind, Cell.trapped, Cell.original]
  refine ⟨hs.insert a, fun h x => ?_, funext fun x => (hcell x).2⟩
  intro ht
  rw [(hcell x).1] at ht
  exact h x ht

/-- What an entry is used for has no effect on its patch. -/
theorem hides_modify (a : UInt64) {f : Breakpoint → Breakpoint}
    (hf : ∀ b, (f b).address = b.address ∧ (f b).saved = b.saved ∧ (f b).enabled = b.enabled)
    (lastId : Nat) :
    Hides s { s with table := { s.table.modify a f with lastId } } := by
  have hfind : ∀ x, (BreakpointTable.mk (s.table.modify a f).entries lastId).find? x
      = if x = a then (s.table.find? x).map f else s.table.find? x :=
    BreakpointTable.find?_modify (fun b => (hf b).1) s.table a
  have hcell : ∀ x,
      (Patched.cell { s with table := { s.table.modify a f with lastId } } x).trapped
        = (s.cell x).trapped ∧
      (Patched.cell { s with table := { s.table.modify a f with lastId } } x).original
        = (s.cell x).original := by
    intro x
    simp only [Patched.cell, hfind]
    cases hb : s.table.find? x with
    | none => simp [Cell.trapped, Cell.original]
    | some b =>
      by_cases hx : x = a
      · simp [hx, Cell.trapped, Cell.original, hf b]
      · simp [hx, Cell.trapped, Cell.original]
  refine ⟨hs.modify (fun b => (hf b).1) a, fun h x => ?_, funext fun x => (hcell x).2⟩
  intro ht
  rw [(hcell x).1] at ht
  exact h x ht

/-- An entry that is not enabled may be removed. -/
theorem hides_erase {a : UInt64} (ha : (s.cell a).trapped = false) :
    Hides s { s with table := s.table.erase a } := by
  have hcell : ∀ x, Patched.cell { s with table := s.table.erase a } x
      = if x = a then ⟨memory s.kernel x, none⟩ else s.cell x := by
    intro x
    rw [Patched.cell, BreakpointTable.find?_erase]
    split
    · rfl
    · rfl
  refine ⟨hs.erase a, fun h x => ?_, funext fun x => ?_⟩
  · rw [hcell]
    split
    · exact Cell.sound_of_not_trapped rfl
    · exact h x
  · rw [Patched.original, hcell]
    split
    · rename_i hx
      subst hx
      exact (Cell.original_of_not_trapped ha).symm
    · rfl

end Table

/-! ### Setting and removing breakpoints -/

namespace Patching

theorem hides_of_plant {s s' : Patched κ} {a : UInt64} (h : Acts (atAddress a Cell.plant) s s') :
    Hides s s' := by
  refine h.hides (fun x hx => ?_) fun x => ?_
  · rw [atAddress]
    split
    · exact Cell.sound_plant hx
    · exact hx
  · rw [atAddress]
    split
    · exact Cell.original_plant _
    · rfl

theorem hides_of_lift {s s' : Patched κ} {a : UInt64} (h : Acts (atAddress a Cell.lift) s s') :
    Hides s s' := by
  refine h.hides (fun x hx => ?_) fun x => ?_
  · rw [atAddress]
    split
    · exact Cell.sound_of_not_trapped (Cell.trapped_lift _)
    · exact hx
  · rw [atAddress]
    split
    · exact Cell.original_lift _
    · rfl

theorem hides_enable (tid : Nat) (a : UInt64) {s : Patched κ} (hs : s.table.Sorted) :
    Ends (enable tid a) s fun r s' => r = .ok () ∧ Hides s s' :=
  (ends_enable tid a hs).mono fun _ _ h => ⟨h.1, hides_of_plant h.2⟩

theorem hides_disable (tid : Nat) (a : UInt64) {s : Patched κ} (hs : s.table.Sorted) :
    Ends (disable tid a) s fun r s' => r = .ok () ∧ Hides s s' :=
  (ends_disable tid a hs).mono fun _ _ h => ⟨h.1, hides_of_lift h.2⟩

theorem hides_addUser (tid : Nat) (a : UInt64) {s : Patched κ} (hs : s.table.Sorted) :
    Ends (addUser tid a) s fun r s' => (∃ id, r = .ok ⟨id, a⟩) ∧ Hides s s' := by
  rw [addUser, ends_modifyTable_bind]
  have h₀ := hides_insert hs a
  refine (hides_enable tid a h₀.sorted).bind_eq fun s₁ h₁ => ?_
  rw [Operation.ends_get_bind]
  have h₁' := h₀.trans h₁
  dsimp only
  split
  · exact ⟨⟨_, rfl⟩, h₁'⟩
  · rw [ends_modifyTable_bind]
    refine ⟨⟨_, rfl⟩, h₁'.trans ?_⟩
    exact hides_modify h₁.sorted a (f := fun b => { b with userId := some (s₁.table.lastId + 1) })
      (fun _ => ⟨rfl, rfl, rfl⟩) (s₁.table.lastId + 1)

theorem hides_addPlanned (tid : Nat) (a : UInt64) {s : Patched κ} (hs : s.table.Sorted) :
    Ends (addPlanned tid a) s fun r s' => r = .ok () ∧ Hides s s' := by
  rw [addPlanned, ends_modifyTable_bind, ends_modifyTable_bind]
  have h₀ := hides_insert hs a
  have h₁ := h₀.trans (hides_modify h₀.sorted a (f := fun b => { b with planned := true })
    (fun _ => ⟨rfl, rfl, rfl⟩) s.table.lastId)
  exact (hides_enable tid a h₁.sorted).mono fun _ _ h => ⟨h.1, h₁.trans h.2⟩

/-- The end of a use of an entry is hidden, whether or not the entry goes with it. -/
theorem hides_release (tid : Nat) (a : UInt64) (unset : Breakpoint → Breakpoint)
    (hunset : ∀ b, (unset b).address = b.address ∧ (unset b).saved = b.saved ∧
      (unset b).enabled = b.enabled) {s : Patched κ} (hs : s.table.Sorted) :
    Ends (release tid a unset) s fun r s' => r = .ok () ∧ Hides s s' := by
  rw [release, ends_modifyTable_bind, Operation.ends_get_bind]
  have h₀ := hides_modify hs a hunset s.table.lastId
  split
  · exact ⟨rfl, h₀⟩
  · split
    · refine (ends_disable tid a h₀.sorted).bind_eq fun s₁ h₁ => ?_
      have h₁' := h₀.trans (hides_of_lift h₁)
      have hlifted : (s₁.cell a).trapped = false := by
        rw [h₁.cell, atAddress, if_pos rfl]
        exact Cell.trapped_lift _
      exact ⟨rfl, h₁'.trans (hides_erase h₁.sorted hlifted)⟩
    · exact ⟨rfl, h₀⟩

theorem hides_removeUser (tid id : Nat) {s : Patched κ} (hs : s.table.Sorted) :
    Ends (removeUser tid id) s fun r s' => (∃ found, r = .ok found) ∧ Hides s s' := by
  rw [removeUser, Operation.ends_get_bind]
  split
  · exact ⟨⟨_, rfl⟩, Hides.refl hs⟩
  · rename_i b _
    have hrelease := hides_release tid b.address (fun b => { b with userId := none })
      (fun _ => ⟨rfl, rfl, rfl⟩) hs
    exact hrelease.bind_eq fun s₁ h₁ => ⟨⟨true, rfl⟩, h₁⟩

theorem hides_removePlanned (tid : Nat) (a : UInt64) {s : Patched κ} (hs : s.table.Sorted) :
    Ends (removePlanned tid a) s fun r s' => r = .ok () ∧ Hides s s' :=
  hides_release tid a (fun b => { b with planned := false }) (fun _ => ⟨rfl, rfl, rfl⟩) hs

/-- Hidden steps in a row are hidden. -/
theorem hides_forM {op : UInt64 → Patching κ Unit}
    (hop : ∀ (a : UInt64) (s : Patched κ), s.table.Sorted →
      Ends (op a) s fun r s' => r = .ok () ∧ Hides s s') (as : List UInt64) :
    ∀ {s : Patched κ}, s.table.Sorted →
      Ends (as.forM op) s fun r s' => r = .ok () ∧ Hides s s' := by
  induction as with
  | nil =>
    intro s hs
    exact ⟨rfl, Hides.refl hs⟩
  | cons a r ih =>
    intro s hs
    refine Ends.bind_eq (hop a s hs) fun s₁ h₁ => ?_
    exact (ih h₁.sorted).mono fun _ _ h₂ => ⟨h₂.1, h₁.trans h₂.2⟩

theorem hides_removeAllUser (tid : Nat) {s : Patched κ} (hs : s.table.Sorted) :
    Ends (removeAllUser tid) s fun r s' => r = .ok () ∧ Hides s s' := by
  rw [removeAllUser, Operation.ends_get_bind]
  exact hides_forM (fun a s hs => hides_release tid a (fun b => { b with userId := none })
    (fun _ => ⟨rfl, rfl, rfl⟩) hs) _ hs

/-- After every patch was removed, memory is the original view, and the table has no entries. -/
theorem ends_disableAll (tid : Nat) {s : Patched κ} (hs : s.table.Sorted) :
    Ends (disableAll tid) s fun r s' =>
      r = .ok () ∧ s'.table.entries = [] ∧ memory s'.kernel = s.original ∧ Hides s s' := by
  rw [disableAll, Operation.ends_get_bind]
  refine (ends_forM_disable tid _ hs).bind_eq fun s₁ h₁ => ?_
  rw [ends_modifyTable]
  have hlifted : ∀ x, s₁.cell x = (s.cell x).lift := by
    intro x
    rw [h₁.cell]
    split
    · rfl
    · rename_i hx
      have hnone : s.table.find? x = none := by
        refine List.find?_eq_none.mpr fun b hb heq => hx ?_
        exact List.mem_map.mpr ⟨b, hb, eq_of_beq heq⟩
      exact (Cell.lift_of_not_trapped (by rw [Cell.trapped, Patched.cell, hnone]; rfl)).symm
  have hbyte : ∀ x, memory s₁.kernel x = (s.cell x).original := by
    intro x
    rw [← Cell.original_lift, Cell.original_of_not_trapped (Cell.trapped_lift _), ← hlifted]
    rfl
  refine ⟨rfl, rfl, funext hbyte, ⟨List.Pairwise.nil, fun _ x => ?_, funext hbyte⟩⟩
  exact Cell.sound_of_not_trapped rfl

end Patching

/-! ### Windows of memory -/

/-- An address among `length` from an address on. -/
def InWindow (a : UInt64) (length : Nat) (x : UInt64) : Prop := (x - a).toNat < length

/-- The addresses in which operations on a window look for patches. -/
def Searched (a : UInt64) (length : Nat) (x : UInt64) : Prop :=
  a ≤ x ∧ x < Debuggee.saturatingAdd a (UInt64.ofNat length)

instance (a : UInt64) (length : Nat) (x : UInt64) : Decidable (InWindow a length x) :=
  inferInstanceAs (Decidable (_ < _))

instance (a : UInt64) (length : Nat) (x : UInt64) : Decidable (Searched a length x) :=
  inferInstanceAs (Decidable (_ ∧ _))

/-- An address of a window with a patch that operations on the window miss. -/
def Overlooked (s : Patched κ) (a : UInt64) (length : Nat) (x : UInt64) : Prop :=
  (s.cell x).trapped = true ∧ InWindow a length x ∧ ¬Searched a length x

/-- The byte that is written at an address, if the address belongs to what is written. -/
def received (a : UInt64) (data : Bytes) (x : UInt64) : Option UInt8 := data[(x - a).toNat]?

theorem saturatingAdd_ofNat (a : UInt64) {length : Nat} (h : length < wordLimit) :
    (Debuggee.saturatingAdd a (UInt64.ofNat length)).toNat
      = min (a.toNat + length) (wordLimit - 1) := by
  have ha := a.toNat_lt
  have hlen : (UInt64.ofNat length).toNat = length := UInt64.toNat_ofNat_of_lt' h
  rw [Debuggee.saturatingAdd, hlen]
  simp only [wordLimit] at h ⊢
  split
  · rw [UInt64.toNat_add, hlen]
    omega
  · rw [UInt64.toNat_ofNat']
    omega

/-- Nothing is overlooked in a window that ends before the last address. -/
theorem searched_of_inWindow {a x : UInt64} {length : Nat} (h : a.toNat + length < wordLimit)
    (hx : InWindow a length x) : Searched a length x := by
  have ha := a.toNat_lt
  have hx' := x.toNat_lt
  rw [InWindow, UInt64.toNat_sub] at hx
  rw [Searched, UInt64.le_iff_toNat_le, UInt64.lt_iff_toNat_lt, saturatingAdd_ofNat a (by omega)]
  simp only [wordLimit] at h ⊢
  omega

theorem mem_patchesIn_iff {s : Patched κ} (hs : s.table.Sorted) (a : UInt64) (length : Nat)
    (x : UInt64) :
    x ∈ (s.table.patchesIn a length).map (·.address)
      ↔ (s.cell x).trapped = true ∧ Searched a length x := by
  simp only [BreakpointTable.patchesIn, List.mem_map, List.mem_filter, Bool.and_eq_true,
    decide_eq_true_eq, Searched, Cell.trapped, Patched.cell]
  constructor
  · rintro ⟨b, ⟨hb, ⟨hen, hle⟩, hlt⟩, rfl⟩
    rw [BreakpointTable.find?_of_mem hs hb]
    exact ⟨hen, hle, hlt⟩
  · rintro ⟨hen, hle, hlt⟩
    cases hb : s.table.find? x with
    | none =>
      rw [hb] at hen
      cases hen
    | some b =>
      rw [hb] at hen
      have haddr := BreakpointTable.address_of_find? hb
      refine ⟨b, ⟨BreakpointTable.mem_of_find? hb, ⟨hen, ?_⟩, ?_⟩, haddr⟩
      · rwa [haddr]
      · rwa [haddr]

/-! ### Masked windows -/

/-- A byte string into which the bytes of entries were put, each at the distance of its address. -/
theorem getElem?_foldl_set {l : List Breakpoint} (h : l.Pairwise (·.address < ·.address))
    (a : UInt64) {i : Nat} : ∀ {data : Bytes}, i < data.length → i < wordLimit →
    (l.foldl (fun bs b => bs.set (b.address - a).toNat b.saved) data)[i]?
      = ((l.find? (·.address == a + UInt64.ofNat i)).map (·.saved)).or data[i]? := by
  induction l with
  | nil =>
    intro data _ _
    rfl
  | cons b r ih =>
    intro data hi hword
    obtain ⟨hb, hr⟩ := List.pairwise_cons.mp h
    rw [List.foldl_cons, ih hr (by rwa [List.length_set]) hword,
      BreakpointTable.find?_address_cons]
    by_cases haddr : b.address = a + UInt64.ofNat i
    · have hdist : (b.address - a).toNat = i := by
        rw [haddr]
        exact AddressSpace.toNat_add_ofNat_sub a hword
      have hnone : r.find? (·.address == a + UInt64.ofNat i) = none := by
        refine List.find?_eq_none.mpr fun c hc heq => ?_
        exact UInt64.ne_of_lt (hb c hc) (haddr.trans (eq_of_beq heq).symm)
      rw [hnone, if_pos haddr, hdist, List.getElem?_set_self hi]
      rfl
    · have hdist : (b.address - a).toNat ≠ i := by
        intro heq
        apply haddr
        rw [← heq, AddressSpace.add_ofNat_toNat_sub]
      rw [if_neg haddr, List.getElem?_set_ne hdist]

/-- A masked window has the saved byte where a patch was found, and the byte of memory elsewhere. -/
theorem getElem?_mask {s : Patched κ} (hs : s.table.Sorted) (a : UInt64) {data : Bytes} {i : Nat}
    (hi : i < data.length) (hlen : data.length < wordLimit) :
    (s.table.mask a data)[i]? = if (s.cell (a + UInt64.ofNat i)).trapped = true ∧
        Searched a data.length (a + UInt64.ofNat i)
      then some (s.original (a + UInt64.ofNat i)) else data[i]? := by
  have hsorted : (s.table.patchesIn a data.length).Pairwise (·.address < ·.address) :=
    List.Pairwise.filter _ hs
  rw [BreakpointTable.mask, getElem?_foldl_set hsorted a hi (Nat.lt_trans hi hlen)]
  generalize hx : a + UInt64.ofNat i = x
  have hmem := mem_patchesIn_iff hs a data.length x
  cases hfind : (s.table.patchesIn a data.length).find? (·.address == x) with
  | none =>
    have hnot : ¬((s.cell x).trapped = true ∧ Searched a data.length x) := by
      rw [← hmem]
      intro hin
      obtain ⟨b, hb, haddr⟩ := List.mem_map.mp hin
      exact List.find?_eq_none.mp hfind b hb (beq_iff_eq.mpr haddr)
    rw [if_neg hnot]
    rfl
  | some b =>
    have hb := List.mem_of_find?_eq_some hfind
    have haddr : b.address = x := by
      have := List.find?_some hfind
      exact eq_of_beq this
    have htable : s.table.find? x = some b := by
      rw [← haddr]
      exact BreakpointTable.find?_of_mem hs (List.mem_filter.mp hb).1
    have hin : (s.cell x).trapped = true ∧ Searched a data.length x :=
      hmem.mp (List.mem_map.mpr ⟨b, hb, haddr⟩)
    have hen : b.enabled = true := by
      have := hin.1
      rwa [Cell.trapped, Patched.cell, htable] at this
    rw [if_pos hin, Patched.original, Patched.cell, htable]
    simp [Cell.original, hen]

/-- What masking a window shows at an address. -/
def shown (s : Patched κ) (a : UInt64) (length : Nat) : AddressSpace := fun x =>
  if (s.cell x).trapped = true ∧ Searched a length x then s.original x
  else memory s.kernel x

theorem mask_window {s : Patched κ} (hs : s.table.Sorted) (a : UInt64) {length : Nat}
    (hlen : length < wordLimit) :
    s.table.mask a ((memory s.kernel).window a length) = (shown s a length).window a length := by
  refine AddressSpace.eq_window _ a ?_ fun i hi => ?_
  · rw [BreakpointTable.length_mask, AddressSpace.length_window]
  · have hwindow : ((memory s.kernel).window a length).length = length :=
      AddressSpace.length_window _ a length
    rw [getElem?_mask hs a (hwindow.symm ▸ hi) (hwindow.symm ▸ hlen), hwindow,
      AddressSpace.getElem?_window _ a hi, shown]
    split
    · rfl
    · rfl

/-- A masked window of memory is the original view exactly if every overlooked patch hides a byte
that is a trap instruction itself. -/
theorem mask_window_iff {s : Patched κ} (hs : s.table.Sorted) (hsound : s.Sound) (a : UInt64)
    {length : Nat} (hlen : length < wordLimit) :
    s.table.mask a ((memory s.kernel).window a length) = s.original.window a length
      ↔ ∀ x, Overlooked s a length x → s.original x = Breakpoint.trapByte := by
  rw [mask_window hs a hlen, AddressSpace.window_eq_iff]
  constructor
  · rintro h x ⟨htrapped, hin, hnot⟩
    have hx := h x hin
    rw [shown, if_neg fun hboth => hnot hboth.2] at hx
    rw [← hx]
    exact hsound x htrapped
  · intro h x hin
    rw [shown]
    split
    · rfl
    · rename_i hnot
      cases htrapped : (s.cell x).trapped with
      | false => exact (Cell.original_of_not_trapped htrapped).symm
      | true =>
        have hover : Overlooked s a length x := ⟨htrapped, hin, fun hs => hnot ⟨htrapped, hs⟩⟩
        rw [h x hover]
        exact hsound x htrapped

namespace Patching

/-- Reading without patches gives the masked window and leaves everything as it is. -/
theorem ends_readMasked (tid : Nat) (a : UInt64) (length : Nat) (s : Patched κ) :
    Ends (readMasked tid a length) s fun r s' =>
      r = .ok (s.table.mask a ((memory s.kernel).window a length)) ∧
        memory s'.kernel = memory s.kernel ∧ s'.table = s.table := by
  have hread : Ends (calls (Memory.read tid a length)) s fun r s' =>
      r = .ok ((memory s.kernel).window a length) ∧
        memory s'.kernel = memory s.kernel ∧ s'.table = s.table := by
    rw [ends_calls]
    exact (WordMemory.ends_read tid a length s.kernel).mono fun _ _ h => ⟨h.1, h.2, rfl⟩
  rw [readMasked]
  refine hread.bind_eq fun s₁ h₁ => ?_
  rw [Operation.ends_get_bind]
  refine ⟨?_, h₁⟩
  rw [← h₁.2]
  rfl

/-! ### Writes under the patches -/

/-- What a write does at one address: found patches are lifted for it and planted again. -/
def rewritten (s : Patched κ) (a : UInt64) (data : Bytes) (x : UInt64) (c : Cell) : Cell :=
  if x ∈ (s.table.patchesIn a data.length).map (·.address) then
    (c.lift.write ((received a data x).getD c.lift.byte)).plant
  else c.write ((received a data x).getD c.byte)

theorem ends_rewrite (tid : Nat) (a : UInt64) {data : Bytes} (hlen : data.length ≤ wordLimit)
    {s : Patched κ} (hs : s.table.Sorted) :
    Ends (rewrite tid a data) s fun r s' =>
      r = .ok data.length ∧ Acts (rewritten s a data) s s' := by
  rw [rewrite, Operation.ends_get_bind]
  refine (ends_forM_disable tid _ hs).bind_eq fun s₁ h₁ => ?_
  have hwrite : Ends (calls (Memory.write tid a data)) s₁ fun r s' =>
      r = .ok data.length ∧
        Acts (fun x c => c.write ((received a data x).getD c.byte)) s₁ s' := by
    rw [ends_calls]
    refine (WordMemory.ends_write tid a s₁.kernel hlen).mono fun _ k h => ⟨h.1, h₁.sorted, ?_⟩
    intro x
    rw [Patched.cell, h.2]
    rfl
  refine hwrite.bind_eq fun s₂ h₂ => ?_
  refine (ends_forM_enable tid _ h₂.sorted).bind_eq fun s₃ h₃ => ?_
  refine ⟨rfl, ((h₁.trans h₂).trans h₃).congr fun x => ?_⟩
  rw [rewritten]
  split
  · rfl
  · rfl

end Patching

/-- A write loses nothing of a patch that it overlooks only if it puts a trap instruction over one
that hides a trap instruction. -/
def Harmless (s : Patched κ) (a : UInt64) (data : Bytes) : Prop :=
  ∀ x, Overlooked s a data.length x →
    received a data x = some Breakpoint.trapByte ∧ s.original x = Breakpoint.trapByte

theorem received_isSome_iff (a : UInt64) (data : Bytes) (x : UInt64) :
    (received a data x).isSome = true ↔ InWindow a data.length x := by
  simp [received, InWindow]

/-- A write that overlooks a patch at an address leaves the trap and the saved byte as they are
meant to be only if both are trap instructions. -/
theorem overlooked_write_iff {c : Cell} (htrapped : c.trapped = true) (v : UInt8) :
    (c.write v).Sound ∧ (c.write v).original = v
      ↔ v = Breakpoint.trapByte ∧ c.original = Breakpoint.trapByte := by
  rw [Cell.original_write_of_trapped htrapped]
  constructor
  · rintro ⟨hsound, horiginal⟩
    have hv : v = Breakpoint.trapByte := hsound htrapped
    exact ⟨hv, horiginal.trans hv⟩
  · rintro ⟨hv, horiginal⟩
    exact ⟨fun _ => hv, horiginal.trans hv.symm⟩

/-- A write under the patches, address by address. -/
theorem rewritten_iff {s : Patched κ} (hs : s.table.Sorted) (hsound : s.Sound) (a : UInt64)
    (data : Bytes) (x : UInt64) :
    (Patching.rewritten s a data x (s.cell x)).Sound ∧
        (Patching.rewritten s a data x (s.cell x)).original = s.original.overwrite a data x
      ↔ (Overlooked s a data.length x →
          received a data x = some Breakpoint.trapByte ∧ s.original x = Breakpoint.trapByte) := by
  have hgoal : s.original.overwrite a data x = (received a data x).getD (s.cell x).original := rfl
  rw [hgoal, Patching.rewritten]
  simp only [mem_patchesIn_iff hs]
  by_cases hfound : (s.cell x).trapped = true ∧ Searched a data.length x
  · -- The patch is lifted, so the byte is written like any other, and the patch is planted again.
    rw [if_pos hfound]
    have hlift : (s.cell x).lift.byte = (s.cell x).original := by
      rw [← Cell.original_lift, Cell.original_of_not_trapped (Cell.trapped_lift _)]
    refine iff_of_true ⟨?_, ?_⟩ fun hover => absurd hfound.2 hover.2.2
    · exact Cell.sound_plant (Cell.sound_of_not_trapped (Cell.trapped_lift _))
    · rw [Cell.original_plant, Cell.original_write_of_not_trapped (Cell.trapped_lift _), hlift]
  · rw [if_neg hfound]
    cases htrapped : (s.cell x).trapped with
    | false =>
      refine iff_of_true ⟨?_, ?_⟩ ?_
      · exact Cell.sound_of_not_trapped htrapped
      · rw [Cell.original_write_of_not_trapped htrapped, Cell.original_of_not_trapped htrapped]
      · intro hover
        rw [hover.1] at htrapped
        cases htrapped
    | true =>
      have hnot : ¬Searched a data.length x := fun h => hfound ⟨htrapped, h⟩
      cases hreceived : received a data x with
      | none =>
        refine iff_of_true ⟨hsound x, rfl⟩ fun hover => ?_
        have := (received_isSome_iff a data x).mpr hover.2.1
        rw [hreceived] at this
        cases this
      | some v =>
        have hin : InWindow a data.length x :=
          (received_isSome_iff a data x).mp (by rw [hreceived]; rfl)
        have hover : Overlooked s a data.length x := ⟨htrapped, hin, hnot⟩
        rw [Option.getD_some, Option.getD_some, overlooked_write_iff htrapped]
        constructor
        · rintro ⟨hv, horiginal⟩ _
          exact ⟨congrArg some hv, horiginal⟩
        · intro h
          exact ⟨Option.some.inj (h hover).1, (h hover).2⟩

/-- A write changes no breakpoint, so a window overlooks the same patches before and after it. -/
theorem Acts.overlooked_rewrite_iff {s s' : Patched κ} {a : UInt64} {data : Bytes}
    (h : Acts (Patching.rewritten s a data) s s') (hs : s.table.Sorted) (a' : UInt64)
    (length : Nat) (x : UInt64) : Overlooked s' a' length x ↔ Overlooked s a' length x := by
  have htrapped : (s'.cell x).trapped = (s.cell x).trapped := by
    rw [h.cell, Patching.rewritten]
    split
    · rename_i hfound
      have ht := ((mem_patchesIn_iff hs a data.length x).mp hfound).1
      rw [ht, Cell.trapped_plant_of_trapped_lift ht]
    · exact Cell.trapped_write _ _
  rw [Overlooked, Overlooked, htrapped]

/-- A write changes the original view exactly to the data exactly if it is harmless. -/
theorem Acts.rewrite_iff {s s' : Patched κ} {a : UInt64} {data : Bytes}
    (h : Acts (Patching.rewritten s a data) s s') (hs : s.table.Sorted) (hsound : s.Sound) :
    s'.Sound ∧ s'.original = s.original.overwrite a data ↔ Harmless s a data := by
  have hcell : ∀ x, (s'.cell x).Sound ∧ (s'.cell x).original = s.original.overwrite a data x
      ↔ (Overlooked s a data.length x →
          received a data x = some Breakpoint.trapByte ∧ s.original x = Breakpoint.trapByte) := by
    intro x
    rw [h.cell]
    exact rewritten_iff hs hsound a data x
  constructor
  · rintro ⟨hsound', horiginal⟩ x
    exact (hcell x).mp ⟨hsound' x, congrFun horiginal x⟩
  · intro hharmless
    exact ⟨fun x => ((hcell x).mpr (hharmless x)).1,
      funext fun x => ((hcell x).mpr (hharmless x)).2⟩

end DebugAdapter.Tracer
