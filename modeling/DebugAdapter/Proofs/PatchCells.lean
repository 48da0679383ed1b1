import DebugAdapter.Proofs.AddressSpace
import DebugAdapter.Proofs.BreakpointTable

/-!
# Patches address by address

Patches are written by whole words, but what an operation on breakpoints does can be said for each
address alone. A `Cell` is what there is at one address: the byte in memory and the entry of the
breakpoint table. Enabling a breakpoint plants the trap instruction in its cell, disabling it lifts
the trap again, and all other cells stay as they are (`ends_enable`, `ends_disable`). `Acts f s s'`
says that each cell of `s'` is what `f` makes of it in `s`.
-/

namespace DebugAdapter.Tracer

open Linux
open Operation (Ends ends_bind)

/-- One address of a patched process: the byte in memory and the entry of the table. -/
structure Cell where
  byte : UInt8
  entry : Option Breakpoint

namespace Cell

/-- The trap instruction is meant to be in place. -/
def trapped (c : Cell) : Bool := c.entry.any (·.enabled)

/-- The byte with the saved one put back under a patch. -/
def original (c : Cell) : UInt8 :=
  match c.entry with
  | some b => if b.enabled then b.saved else c.byte
  | none => c.byte

/-- A patch that is meant to be in place is in place. -/
def Sound (c : Cell) : Prop := c.trapped = true → c.byte = Breakpoint.trapByte

/-- The trap instruction replaces the byte, which is saved. -/
def plant (c : Cell) : Cell :=
  match c.entry with
  | none => c
  | some b =>
    if b.enabled then c
    else ⟨Breakpoint.trapByte, some { b with saved := c.byte, enabled := true }⟩

/-- The saved byte replaces the trap instruction. -/
def lift (c : Cell) : Cell :=
  match c.entry with
  | none => c
  | some b => if b.enabled then ⟨b.saved, some { b with enabled := false }⟩ else c

/-- Another byte is written without regard to patches. -/
def write (c : Cell) (v : UInt8) : Cell := { c with byte := v }

theorem original_of_not_trapped {c : Cell} (h : c.trapped = false) : c.original = c.byte := by
  rcases c with ⟨v, _ | b⟩
  · rfl
  · have hb : b.enabled = false := h
    simp [original, hb]

@[simp] theorem original_plant (c : Cell) : c.plant.original = c.original := by
  rcases c with ⟨v, _ | b⟩
  · rfl
  · cases h : b.enabled <;> simp [plant, original, h]

theorem sound_plant {c : Cell} (h : c.Sound) : c.plant.Sound := by
  rcases c with ⟨v, _ | b⟩
  · exact h
  · cases hb : b.enabled with
    | true => simpa [plant, hb] using h
    | false => simp [plant, hb, Sound]

@[simp] theorem original_lift (c : Cell) : c.lift.original = c.original := by
  rcases c with ⟨v, _ | b⟩
  · rfl
  · cases h : b.enabled <;> simp [lift, original, h]

@[simp] theorem trapped_lift (c : Cell) : c.lift.trapped = false := by
  rcases c with ⟨v, _ | b⟩
  · rfl
  · cases h : b.enabled <;> simp [lift, trapped, h]

theorem sound_of_not_trapped {c : Cell} (h : c.trapped = false) : c.Sound := by
  intro ht
  rw [h] at ht
  cases ht

theorem lift_of_not_trapped {c : Cell} (h : c.trapped = false) : c.lift = c := by
  rcases c with ⟨v, _ | b⟩
  · rfl
  · have hb : b.enabled = false := h
    simp [lift, hb]

@[simp] theorem lift_lift (c : Cell) : c.lift.lift = c.lift :=
  lift_of_not_trapped (trapped_lift c)

@[simp] theorem plant_plant (c : Cell) : c.plant.plant = c.plant := by
  rcases c with ⟨v, _ | b⟩
  · rfl
  · cases h : b.enabled <;> simp [plant, h]

theorem trapped_plant_of_trapped_lift {c : Cell} (h : c.trapped = true) (v : UInt8) :
    (c.lift.write v).plant.trapped = true := by
  rcases c with ⟨w, _ | b⟩
  · cases h
  · have hb : b.enabled = true := h
    simp [lift, write, plant, trapped, hb]

@[simp] theorem trapped_write (c : Cell) (v : UInt8) : (c.write v).trapped = c.trapped := rfl

theorem original_write_of_not_trapped {c : Cell} (h : c.trapped = false) (v : UInt8) :
    (c.write v).original = v :=
  original_of_not_trapped (c := c.write v) h

theorem original_write_of_trapped {c : Cell} (h : c.trapped = true) (v : UInt8) :
    (c.write v).original = c.original := by
  rcases c with ⟨w, _ | b⟩
  · cases h
  · have hb : b.enabled = true := h
    simp [write, original, hb]

end Cell

variable {κ : Type} [Kernel κ] [WordMemory κ]

/-- What there is at an address. -/
def Patched.cell (s : Patched κ) (x : UInt64) : Cell :=
  ⟨WordMemory.memory s.kernel x, s.table.find? x⟩

/-- The entries stay in order, and each cell becomes what `f` makes of it. -/
structure Acts (f : UInt64 → Cell → Cell) (s s' : Patched κ) : Prop where
  sorted : s'.table.Sorted
  cell : ∀ x, s'.cell x = f x (s.cell x)

theorem Acts.refl {s : Patched κ} (h : s.table.Sorted) : Acts (fun _ c => c) s s :=
  ⟨h, fun _ => rfl⟩

theorem Acts.trans {f g : UInt64 → Cell → Cell} {s t u : Patched κ} (h : Acts f s t)
    (h' : Acts g t u) : Acts (fun x c => g x (f x c)) s u :=
  ⟨h'.sorted, fun x => by rw [h'.cell, h.cell]⟩

theorem Acts.congr {f g : UInt64 → Cell → Cell} {s s' : Patched κ} (h : Acts f s s')
    (hfg : ∀ x, f x (s.cell x) = g x (s.cell x)) : Acts g s s' :=
  ⟨h.sorted, fun x => by rw [h.cell, hfg]⟩

/-- A change of the cell at one address. -/
def atAddress (a : UInt64) (f : Cell → Cell) : UInt64 → Cell → Cell :=
  fun x c => if x = a then f c else c

/-! ### The two writes of a patch -/

theorem low_byte_merge {n v : Nat} (hn : n < wordLimit) (hv : v < 256) :
    n &&& 256 * 0xFFFFFFFFFFFFFF ||| v = v + 256 * (n / 256) := by
  have hdiv : (n &&& 256 * 0xFFFFFFFFFFFFFF ||| v) / 2 ^ 8 = n / 256 := by
    have hmask : 256 * 0xFFFFFFFFFFFFFF / 2 ^ 8 = 2 ^ 56 - 1 := by decide
    rw [Nat.or_div_two_pow, Nat.and_div_two_pow, hmask, Nat.and_two_pow_sub_one_eq_mod,
      Nat.div_eq_of_lt hv, Nat.or_zero]
    simp only [wordLimit] at hn
    omega
  have hmod : (n &&& 256 * 0xFFFFFFFFFFFFFF ||| v) % 2 ^ 8 = v := by
    have hmask : 256 * 0xFFFFFFFFFFFFFF % 2 ^ 8 = 0 := by decide
    rw [Nat.or_mod_two_pow, Nat.and_mod_two_pow, Nat.mod_eq_of_lt hv, hmask, Nat.and_zero,
      Nat.zero_or]
  omega

/-- A word with another lowest byte, by its bytes. -/
theorem ofWord_withLowByte (w : UInt64) (v : UInt8) :
    Bytes.ofWord (withLowByte w v) = v :: (Bytes.ofWord w).drop 1 := by
  have hv : v.toNat < 256 := v.toNat_lt
  have hmask : (~~~0xFF : UInt64).toNat = 256 * 0xFFFFFFFFFFFFFF := rfl
  have hnat : (withLowByte w v).toNat = v.toNat + 256 * (w.toNat / 256) := by
    rw [withLowByte, UInt64.toNat_or, UInt64.toNat_and, hmask]
    exact low_byte_merge w.toNat_lt hv
  have hmod : (v.toNat + 256 * (w.toNat / 256)) % 256 = v.toNat := by omega
  have hdiv : (v.toNat + 256 * (w.toNat / 256)) / 256 = w.toNat / 256 := by omega
  show UInt8.ofNat ((withLowByte w v).toNat % 256)
      :: Bytes.littleEndian 7 ((withLowByte w v).toNat / 256)
    = v :: Bytes.littleEndian 7 (w.toNat / 256)
  rw [hnat, hmod, hdiv, UInt8.ofNat_toNat]

/-- Writing a word back with another lowest byte changes the byte at its address. -/
theorem overwrite_withLowByte (m : AddressSpace) (a : UInt64) (v : UInt8) :
    m.overwrite a (Bytes.ofWord (withLowByte (m.word a) v)) = Function.update m a v := by
  rw [ofWord_withLowByte, AddressSpace.ofWord_word, ← AddressSpace.overwrite_singleton]
  exact AddressSpace.overwrite_append_window m a [v] 7

namespace Patching

section Steps

variable {κ : Type}

@[simp] theorem ends_modifyTable (f : BreakpointTable → BreakpointTable) (s : Patched κ)
    (Q : Except OsError Unit → Patched κ → Prop) :
    Ends (modifyTable f) s Q ↔ Q (.ok ()) { s with table := f s.table } := Iff.rfl

@[simp] theorem ends_modifyTable_bind {α : Type} (f : BreakpointTable → BreakpointTable)
    (g : Unit → Patching κ α) (s : Patched κ) (Q : Except OsError α → Patched κ → Prop) :
    Ends (modifyTable f >>= g) s Q ↔ Ends (g ()) { s with table := f s.table } Q :=
  Operation.ends_modify_bind _ g s Q

theorem ends_calls {α : Type} (c : Calls κ α) (s : Patched κ)
    (Q : Except OsError α → Patched κ → Prop) :
    Ends (calls c) s Q ↔ Ends c s.kernel fun r k => Q r { s with kernel := k } := Iff.rfl

end Steps

variable {κ : Type} [Kernel κ] [WordMemory κ]

open WordMemory (memory)

theorem ends_peek (tid : Nat) (a : UInt64) (s : Patched κ) :
    Ends (calls (call (.peek tid a))) s fun r s' =>
      r = .ok ((memory s.kernel).word a) ∧
        memory s'.kernel = memory s.kernel ∧ s'.table = s.table := by
  rw [ends_calls]
  exact (WordMemory.ends_peek tid a s.kernel).mono fun _ _ h => ⟨h.1, h.2, rfl⟩

/-- Writing back the word at an address with another lowest byte. -/
theorem ends_poke (tid : Nat) (a : UInt64) (v : UInt8) {m : AddressSpace} {s : Patched κ}
    (hm : memory s.kernel = m) :
    Ends (calls (call (.poke tid a (withLowByte (m.word a) v)))) s fun r s' =>
      r = .ok () ∧ memory s'.kernel = Function.update m a v ∧ s'.table = s.table := by
  rw [ends_calls]
  refine (WordMemory.ends_poke tid a _ s.kernel).mono fun _ _ h => ⟨h.1, ?_, rfl⟩
  rw [h.2, hm, overwrite_withLowByte]

/-! ### One patch -/

/-- Where a change of cells has no effect at its address, it has none. -/
theorem acts_atAddress_of_eq {s : Patched κ} (hs : s.table.Sorted) {a : UInt64} {f : Cell → Cell}
    (h : f (s.cell a) = s.cell a) : Acts (atAddress a f) s s := by
  refine (Acts.refl hs).congr fun x => ?_
  by_cases hx : x = a
  · subst hx
    exact ((if_pos rfl).trans h).symm
  · exact (if_neg hx).symm

/-- What changes the byte and the entry at one address changes the cell there. -/
theorem acts_atAddress {s s' : Patched κ} (hs : s.table.Sorted) {a : UInt64} {f : Cell → Cell}
    {v : UInt8} {g : Breakpoint → Breakpoint} (hg : ∀ b, (g b).address = b.address)
    (hm : memory s'.kernel = Function.update (memory s.kernel) a v)
    (ht : s'.table = s.table.modify a g)
    (hf : f (s.cell a) = ⟨v, (s.table.find? a).map g⟩) : Acts (atAddress a f) s s' := by
  refine ⟨ht ▸ hs.modify hg a, fun x => ?_⟩
  rw [Patched.cell, hm, ht]
  by_cases hx : x = a
  · subst hx
    rw [atAddress, if_pos rfl, hf, Function.update_self, BreakpointTable.find?_modify_self hg]
  · rw [atAddress, if_neg hx, Function.update_of_ne hx, BreakpointTable.find?_modify_of_ne hg _ hx]
    rfl

/-- Enabling the breakpoint at an address plants the trap instruction there. -/
theorem ends_enable (tid : Nat) (a : UInt64) {s : Patched κ} (hs : s.table.Sorted) :
    Ends (enable tid a) s fun r s' => r = .ok () ∧ Acts (atAddress a Cell.plant) s s' := by
  rw [enable, Operation.ends_get_bind]
  cases hb : s.table.find? a with
  | none =>
    have hcell : (s.cell a).plant = s.cell a := by
      rw [Patched.cell, hb]
      rfl
    exact ⟨rfl, acts_atAddress_of_eq hs hcell⟩
  | some b =>
    show Ends (if b.enabled then _ else _) s _
    cases hen : b.enabled with
    | true =>
      have hcell : (s.cell a).plant = s.cell a := by
        simp [Patched.cell, hb, Cell.plant, hen]
      exact ⟨rfl, acts_atAddress_of_eq hs hcell⟩
    | false =>
      refine (ends_peek tid a s).bind_eq fun s₁ h₁ => ?_
      obtain ⟨hm₁, ht₁⟩ := h₁
      rw [ends_modifyTable_bind]
      refine (ends_poke tid a _ ?_).bind_eq fun s₂ h₂ => ?_
      · exact hm₁
      obtain ⟨hm₂, ht₂⟩ := h₂
      rw [ends_modifyTable]
      refine ⟨rfl, acts_atAddress hs (v := Breakpoint.trapByte)
        (g := fun b => { b with saved := memory s.kernel a, enabled := true }) ?_ hm₂ ?_ ?_⟩
      · exact fun _ => rfl
      · show s₂.table.modify a _ = _
        rw [ht₂]
        show (s₁.table.modify a _).modify a _ = _
        rw [ht₁, BreakpointTable.modify_modify, AddressSpace.toUInt8_word]
        exact fun _ => rfl
      · simp [Patched.cell, hb, Cell.plant, hen]

/-- Disabling the breakpoint at an address lifts the trap instruction there. -/
theorem ends_disable (tid : Nat) (a : UInt64) {s : Patched κ} (hs : s.table.Sorted) :
    Ends (disable tid a) s fun r s' => r = .ok () ∧ Acts (atAddress a Cell.lift) s s' := by
  rw [disable, Operation.ends_get_bind]
  cases hb : s.table.find? a with
  | none =>
    have hcell : (s.cell a).lift = s.cell a := by
      rw [Patched.cell, hb]
      rfl
    exact ⟨rfl, acts_atAddress_of_eq hs hcell⟩
  | some b =>
    show Ends (if (!b.enabled) = true then _ else _) s _
    cases hen : b.enabled with
    | false =>
      have hcell : (s.cell a).lift = s.cell a := by
        simp [Patched.cell, hb, Cell.lift, hen]
      exact ⟨rfl, acts_atAddress_of_eq hs hcell⟩
    | true =>
      refine (ends_peek tid a s).bind_eq fun s₁ h₁ => ?_
      obtain ⟨hm₁, ht₁⟩ := h₁
      refine (ends_poke tid a _ hm₁).bind_eq fun s₂ h₂ => ?_
      obtain ⟨hm₂, ht₂⟩ := h₂
      rw [ends_modifyTable]
      refine ⟨rfl, acts_atAddress hs (v := b.saved)
        (g := fun b => { b with enabled := false }) ?_ hm₂ ?_ ?_⟩
      · exact fun _ => rfl
      · show s₂.table.modify a _ = _
        rw [ht₂, ht₁]
      · simp [Patched.cell, hb, Cell.lift, hen]

/-- A change of cells at each address of a list, one after the other. -/
theorem ends_forM {op : UInt64 → Patching κ Unit} {f : Cell → Cell}
    (hop : ∀ (a : UInt64) (s : Patched κ), s.table.Sorted →
      Ends (op a) s fun r s' => r = .ok () ∧ Acts (atAddress a f) s s')
    (hf : ∀ c, f (f c) = f c) (as : List UInt64) : ∀ {s : Patched κ}, s.table.Sorted →
    Ends (as.forM op) s fun r s' =>
      r = .ok () ∧ Acts (fun x c => if x ∈ as then f c else c) s s' := by
  induction as with
  | nil =>
    intro s hs
    exact ⟨rfl, (Acts.refl hs).congr fun x => (if_neg List.not_mem_nil).symm⟩
  | cons a r ih =>
    intro s hs
    refine Ends.bind_eq (hop a s hs) fun s₁ h₁ => ?_
    refine (ih h₁.sorted).mono fun _ s₂ h₂ => ⟨h₂.1, (h₁.trans h₂.2).congr fun x => ?_⟩
    by_cases hx : x = a
    · subst hx
      rw [atAddress, if_pos rfl, if_pos List.mem_cons_self, hf, ite_self]
    · have hmem : x ∈ a :: r ↔ x ∈ r := by
        rw [List.mem_cons]
        exact or_iff_right hx
      rw [atAddress, if_neg hx]
      simp only [hmem]

theorem ends_forM_enable (tid : Nat) (as : List UInt64) {s : Patched κ} (hs : s.table.Sorted) :
    Ends (as.forM (enable tid)) s fun r s' =>
      r = .ok () ∧ Acts (fun x c => if x ∈ as then c.plant else c) s s' :=
  ends_forM (fun a _ h => ends_enable tid a h) Cell.plant_plant as hs

theorem ends_forM_disable (tid : Nat) (as : List UInt64) {s : Patched κ} (hs : s.table.Sorted) :
    Ends (as.forM (disable tid)) s fun r s' =>
      r = .ok () ∧ Acts (fun x c => if x ∈ as then c.lift else c) s s' :=
  ends_forM (fun a _ h => ends_disable tid a h) Cell.lift_lift as hs

end Patching

end DebugAdapter.Tracer
