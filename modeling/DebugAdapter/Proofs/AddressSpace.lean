import DebugAdapter.Linux.Memory
import DebugAdapter.Proofs.Operation
import Mathlib.Logic.Function.Basic

/-!
# Address spaces

The memory of a process as a function from addresses to bytes, and the kernels whose system calls
read and write one. An address space has a byte at every address and its addresses wrap, so a window
of it may run over the last address; `overwrite` and `window` are defined for every window and are
inverse to each other as long as a window does not reach its own beginning again.

`WordMemory` says of a kernel that words can be read and written everywhere. From it follow the
specifications of the byte strings that are transferred word by word: reading gives the window
(`ends_read`), and writing changes exactly the window (`ends_write`), although its last word is
written as a whole.
-/

namespace DebugAdapter

/-- The byte at each address. -/
abbrev AddressSpace := UInt64 → UInt8

namespace AddressSpace

/-- The bytes from an address on. -/
def window (m : AddressSpace) (a : UInt64) : (length : Nat) → Bytes
  | 0 => []
  | n + 1 => m a :: window m (a + 1) n

/-- The memory in which a byte string was written from an address on. -/
def overwrite (m : AddressSpace) (a : UInt64) (bs : Bytes) : AddressSpace :=
  fun x => (bs[(x - a).toNat]?).getD (m x)

/-- The word at an address. -/
def word (m : AddressSpace) (a : UInt64) : UInt64 := Bytes.toWord (m.window a 8)

/-! ### Distances between addresses -/

theorem toNat_sub_eq_zero {x a : UInt64} (h : (x - a).toNat = 0) : x = a := by
  rw [UInt64.toNat_sub] at h
  have hx := x.toNat_lt
  have ha := a.toNat_lt
  exact UInt64.toNat_inj.mp (by omega)

/-- The address at a distance from another one. -/
theorem toNat_add_ofNat_sub (a : UInt64) {i : Nat} (h : i < wordLimit) :
    (a + UInt64.ofNat i - a).toNat = i := by
  have ha := a.toNat_lt
  rw [UInt64.toNat_sub, UInt64.toNat_add, UInt64.toNat_ofNat']
  simp only [wordLimit] at h
  omega

theorem add_ofNat_toNat_sub (x a : UInt64) : a + UInt64.ofNat (x - a).toNat = x := by
  have ha := a.toNat_lt
  have hx := x.toNat_lt
  apply UInt64.toNat_inj.mp
  rw [UInt64.toNat_add, UInt64.toNat_ofNat', UInt64.toNat_sub]
  omega

/-- The distance from a later address, for what is not closer than that. -/
theorem toNat_sub_add_ofNat {x a : UInt64} {n : Nat} (h : n ≤ (x - a).toNat) :
    (x - (a + UInt64.ofNat n)).toNat = (x - a).toNat - n := by
  have ha := a.toNat_lt
  have hx := x.toNat_lt
  rw [UInt64.toNat_sub] at h ⊢
  rw [UInt64.toNat_sub, UInt64.toNat_add, UInt64.toNat_ofNat']
  omega

/-! ### Windows -/

section Window

variable (m : AddressSpace) (a : UInt64)

@[simp] theorem length_window (n : Nat) : (m.window a n).length = n := by
  induction n generalizing a with
  | zero => rfl
  | succ n ih => simp [window, ih]

theorem getElem?_window {n i : Nat} (h : i < n) :
    (m.window a n)[i]? = some (m (a + UInt64.ofNat i)) := by
  induction n generalizing a i with
  | zero => exact absurd h (Nat.not_lt_zero i)
  | succ n ih =>
    cases i with
    | zero => simp [window]
    | succ i =>
      have hassoc : a + 1 + UInt64.ofNat i = a + UInt64.ofNat (i + 1) := by
        rw [UInt64.add_assoc]
        congr 1
        rw [Nat.add_comm, UInt64.ofNat_add]
        rfl
      rw [window, List.getElem?_cons_succ, ih (a + 1) (Nat.lt_of_succ_lt_succ h), hassoc]

/-- A byte string is a window if it has the byte of each address in its place. -/
theorem eq_window {bs : Bytes} {n : Nat} (hlen : bs.length = n)
    (h : ∀ i, i < n → bs[i]? = some (m (a + UInt64.ofNat i))) : bs = m.window a n := by
  apply List.ext_getElem?
  intro i
  by_cases hi : i < n
  · rw [h i hi, getElem?_window m a hi]
  · rw [List.getElem?_eq_none (by omega), List.getElem?_eq_none (by rw [length_window]; omega)]

/-- Windows are equal if the memories agree in them. -/
theorem window_eq_iff (m' : AddressSpace) (n : Nat) :
    m.window a n = m'.window a n ↔ ∀ x : UInt64, (x - a).toNat < n → m x = m' x := by
  constructor
  · intro heq x hx
    have h : some (m (a + UInt64.ofNat (x - a).toNat)) = some (m' (a + UInt64.ofNat (x - a).toNat)) := by
      rw [← getElem?_window m a hx, ← getElem?_window m' a hx, heq]
    rw [add_ofNat_toNat_sub] at h
    exact Option.some.inj h
  · intro h
    refine eq_window m' a (length_window m a n) fun i hi => ?_
    have hx : (a + UInt64.ofNat i - a).toNat < n := by
      have ha := a.toNat_lt
      rw [UInt64.toNat_sub, UInt64.toNat_add, UInt64.toNat_ofNat']
      omega
    rw [getElem?_window m a hi, h _ hx]

theorem take_window {k n : Nat} (h : k ≤ n) : (m.window a n).take k = m.window a k := by
  refine eq_window m a (by simp [h]) ?_
  intro i hi
  rw [List.getElem?_take_of_lt hi, getElem?_window m a (Nat.lt_of_lt_of_le hi h)]

/-- A window in two parts. -/
theorem window_add (k n : Nat) :
    m.window a k ++ m.window (a + UInt64.ofNat k) n = m.window a (k + n) := by
  refine eq_window m a (by simp) ?_
  intro i hi
  by_cases hk : i < k
  · rw [List.getElem?_append_left (by rwa [length_window]), getElem?_window m a hk]
  · rw [List.getElem?_append_right (by rw [length_window]; omega), length_window,
      getElem?_window _ _ (by omega), UInt64.add_assoc, ← UInt64.ofNat_add]
    congr 4
    omega

end Window

/-! ### Overwriting -/

section Overwrite

variable (m : AddressSpace) (a : UInt64)

@[simp] theorem overwrite_nil : m.overwrite a [] = m := rfl

theorem overwrite_apply_of_lt {bs : Bytes} {x : UInt64} (h : (x - a).toNat < bs.length) :
    m.overwrite a bs x = bs[(x - a).toNat] := by
  rw [overwrite, List.getElem?_eq_getElem h]
  rfl

/-- Nothing else changes. -/
theorem overwrite_apply_of_le {bs : Bytes} {x : UInt64} (h : bs.length ≤ (x - a).toNat) :
    m.overwrite a bs x = m x := by
  rw [overwrite, List.getElem?_eq_none h]
  rfl

theorem overwrite_singleton (b : UInt8) : m.overwrite a [b] = Function.update m a b := by
  funext x
  by_cases hx : x = a
  · subst hx
    simp [overwrite]
  · have hlen : [b].length ≤ (x - a).toNat :=
      Nat.pos_of_ne_zero fun h => hx (toNat_sub_eq_zero h)
    rw [overwrite_apply_of_le m a hlen, Function.update_of_ne hx]

/-- Two byte strings in a row, which do not reach around to the first again. -/
theorem overwrite_append {bs cs : Bytes} (h : bs.length + cs.length ≤ wordLimit) :
    m.overwrite a (bs ++ cs) = (m.overwrite a bs).overwrite (a + UInt64.ofNat bs.length) cs := by
  funext x
  by_cases hx : (x - a).toNat < bs.length
  · -- The second string begins after `x` and ends before the addresses wrap around to it.
    have hfar : cs.length ≤ (x - (a + UInt64.ofNat bs.length)).toNat := by
      have ha := a.toNat_lt
      have hx' := x.toNat_lt
      rw [UInt64.toNat_sub] at hx ⊢
      rw [UInt64.toNat_add, UInt64.toNat_ofNat']
      simp only [wordLimit] at h
      omega
    rw [overwrite_apply_of_le _ _ hfar, overwrite, overwrite, List.getElem?_append_left hx]
  · have hle : bs.length ≤ (x - a).toNat := Nat.le_of_not_lt hx
    rw [overwrite, List.getElem?_append_right hle, ← toNat_sub_add_ofNat hle, overwrite,
      overwrite_apply_of_le m a hle]

/-- Bytes that are there already may be written along. -/
theorem overwrite_append_window (bs : Bytes) (n : Nat) :
    m.overwrite a (bs ++ m.window (a + UInt64.ofNat bs.length) n) = m.overwrite a bs := by
  funext x
  by_cases hx : (x - a).toNat < bs.length
  · rw [overwrite, overwrite, List.getElem?_append_left hx]
  · have hle : bs.length ≤ (x - a).toNat := Nat.le_of_not_lt hx
    rw [overwrite_apply_of_le m a hle]
    by_cases hn : (x - a).toNat < bs.length + n
    · rw [overwrite, List.getElem?_append_right hle,
        getElem?_window m _ (by omega), ← toNat_sub_add_ofNat hle, add_ofNat_toNat_sub]
      rfl
    · exact overwrite_apply_of_le m a (by simp; omega)

/-- What was written is read back. -/
theorem window_overwrite {bs : Bytes} (h : bs.length ≤ wordLimit) :
    (m.overwrite a bs).window a bs.length = bs := by
  symm
  refine eq_window _ a rfl ?_
  intro i hi
  rw [overwrite_apply_of_lt]
  · simp only [toNat_add_ofNat_sub a (Nat.lt_of_lt_of_le hi h), List.getElem?_eq_getElem hi]
  · rwa [toNat_add_ofNat_sub a (Nat.lt_of_lt_of_le hi h)]

end Overwrite

/-! ### Words -/

theorem ofWord_toWord {bs : Bytes} (h : bs.length = 8) : Bytes.ofWord (Bytes.toWord bs) = bs := by
  have hlt : Bytes.toNat bs < wordLimit := by
    have := Bytes.toNat_lt bs
    rwa [h, byteLimit_eight] at this
  have hnat : (Bytes.toWord bs).toNat = Bytes.toNat bs := by
    rw [Bytes.toWord, UInt64.toNat_ofNat', Nat.mod_eq_of_lt hlt]
  rw [Bytes.ofWord, hnat, ← h]
  exact Bytes.littleEndian_toNat bs

theorem ofWord_word (m : AddressSpace) (a : UInt64) : Bytes.ofWord (m.word a) = m.window a 8 :=
  ofWord_toWord (length_window m a 8)

/-- The lowest byte of a word is the one at its address. -/
theorem toUInt8_word (m : AddressSpace) (a : UInt64) : (m.word a).toUInt8 = m a := by
  have hlow : UInt8.ofNat ((m.word a).toNat % 256) = m a :=
    (List.cons.inj (ofWord_word m a)).1
  rw [← hlow]
  apply UInt8.toNat_inj.mp
  rw [UInt64.toNat_toUInt8, UInt8.toNat_ofNat']
  omega

end AddressSpace

/-! ### Kernels with an address space -/

open Linux
open Operation (Ends ends_bind ends_pure)

/-- A kernel through which every word of memory can be read and written, at any time and through
any thread. -/
class WordMemory (κ : Type) [Kernel κ] where
  /-- The memory of the process. -/
  memory : κ → AddressSpace
  peek_answer : ∀ (tid : Nat) (a : UInt64) (k : κ),
    (Kernel.perform (.peek tid a) k).1 = .ok ((memory k).word a)
  memory_peek : ∀ (tid : Nat) (a : UInt64) (k : κ),
    memory (Kernel.perform (.peek tid a) k).2 = memory k
  poke_answer : ∀ (tid : Nat) (a w : UInt64) (k : κ),
    (Kernel.perform (.poke tid a w) k).1 = .ok ()
  memory_poke : ∀ (tid : Nat) (a w : UInt64) (k : κ),
    memory (Kernel.perform (.poke tid a w) k).2 = (memory k).overwrite a (Bytes.ofWord w)

namespace WordMemory

variable {κ : Type} [Kernel κ] [WordMemory κ]

theorem ends_peek (tid : Nat) (a : UInt64) (k : κ) :
    Ends (call (.peek tid a)) k fun r k' =>
      r = .ok ((memory k).word a) ∧ memory k' = memory k :=
  ⟨peek_answer tid a k, memory_peek tid a k⟩

theorem ends_poke (tid : Nat) (a w : UInt64) (k : κ) :
    Ends (call (.poke tid a w)) k fun r k' =>
      r = .ok () ∧ memory k' = (memory k).overwrite a (Bytes.ofWord w) :=
  ⟨poke_answer tid a w k, memory_poke tid a w k⟩

/-! ### Transfer word by word -/

/-- The words that are read from an address on have the bytes of the window. -/
theorem ends_readWords (tid : Nat) (count : Nat) : ∀ (a : UInt64) (k : κ),
    Ends (Memory.readWords tid a count) k fun r k' =>
      ∃ words, r = .ok words ∧
        words.flatMap Bytes.ofWord = (memory k).window a (8 * count) ∧ memory k' = memory k := by
  induction count with
  | zero =>
    intro a k
    exact ⟨[], rfl, rfl, rfl⟩
  | succ count ih =>
    intro a k
    rw [Memory.readWords]
    refine (ends_peek tid a k).bind_eq fun k₁ hk₁ => ?_
    refine (ih (a + 8) k₁).bind_ok ?_
    rintro words k₂ ⟨hwords, hk₂⟩
    refine ⟨_, rfl, ?_, hk₂.trans hk₁⟩
    rw [List.flatMap_cons, AddressSpace.ofWord_word, hwords, hk₁]
    exact (AddressSpace.window_add (memory k) a 8 (8 * count)).trans
      (congrArg ((memory k).window a) (by omega))

theorem le_wordsFor (length : Nat) : length ≤ 8 * Memory.wordsFor length := by
  simp only [Memory.wordsFor, Memory.wordLength]
  omega

/-- Reading gives the window and leaves memory as it is. -/
theorem ends_read (tid : Nat) (a : UInt64) (length : Nat) (k : κ) :
    Ends (Memory.read tid a length) k fun r k' =>
      r = .ok ((memory k).window a length) ∧ memory k' = memory k := by
  rw [Memory.read]
  refine (ends_readWords tid (Memory.wordsFor length) a k).bind_ok ?_
  rintro words k' ⟨hwords, hk'⟩
  refine ⟨congrArg Except.ok ?_, hk'⟩
  rw [hwords]
  exact AddressSpace.take_window _ a (le_wordsFor length)

theorem readSomeWords_spec (tid : Nat) (count : Nat) : ∀ (a : UInt64) (k : κ),
    ((Memory.readSomeWords tid a count).run k).1.flatMap Bytes.ofWord
        = (memory k).window a (8 * count) ∧
      memory ((Memory.readSomeWords tid a count).run k).2 = memory k := by
  induction count with
  | zero => exact fun a k => ⟨rfl, rfl⟩
  | succ count ih =>
    intro a k
    rcases hpeek : Kernel.perform (.peek tid a) k with ⟨r, k₁⟩
    have hr := peek_answer tid a k
    have hk₁ := memory_peek tid a k
    rw [hpeek] at hr hk₁
    obtain ⟨hwords, hk₂⟩ := ih (a + 8) k₁
    have hcall : ((call (.peek tid a) : Calls κ _).run).run k = (.ok ((memory k).word a), k₁) := by
      rw [← hr]
      exact hpeek
    have hrun : (Memory.readSomeWords tid a (count + 1)).run k
        = ((memory k).word a :: ((Memory.readSomeWords tid (a + 8) count).run k₁).1,
          ((Memory.readSomeWords tid (a + 8) count).run k₁).2) := by
      rw [Memory.readSomeWords, StateT.run_bind, hcall]
      rfl
    rw [hrun]
    refine ⟨?_, hk₂.trans hk₁⟩
    rw [List.flatMap_cons, AddressSpace.ofWord_word, hwords, hk₁]
    exact (AddressSpace.window_add (memory k) a 8 (8 * count)).trans
      (congrArg ((memory k).window a) (by omega))

/-- As many bytes as possible are all bytes. -/
theorem readAvailable_spec (tid : Nat) (a : UInt64) (length : Nat) (k : κ) :
    ((Memory.readAvailable tid a length).run k).1 = (memory k).window a length ∧
      memory ((Memory.readAvailable tid a length).run k).2 = memory k := by
  obtain ⟨hwords, hk'⟩ := readSomeWords_spec tid (Memory.wordsFor length) a k
  refine ⟨?_, hk'⟩
  show (((Memory.readSomeWords tid a (Memory.wordsFor length)).run k).1.flatMap
    Bytes.ofWord).take length = _
  rw [hwords]
  exact AddressSpace.take_window _ a (le_wordsFor length)

/-- A word into which bytes were merged, written back, changes only these bytes. -/
theorem overwrite_mergeWord (m : AddressSpace) (a : UInt64) {bs : Bytes} (h : bs.length ≤ 8) :
    m.overwrite a (Bytes.ofWord (Memory.mergeWord (m.word a) bs)) = m.overwrite a bs := by
  have hrest : (m.window a 8).drop bs.length
      = m.window (a + UInt64.ofNat bs.length) (8 - bs.length) := by
    have hsplit := AddressSpace.window_add m a bs.length (8 - bs.length)
    rw [show bs.length + (8 - bs.length) = 8 by omega] at hsplit
    rw [← hsplit, List.drop_append_of_le_length (by simp),
      List.drop_of_length_le (by simp), List.nil_append]
  rw [Memory.mergeWord, AddressSpace.ofWord_word, hrest,
    AddressSpace.ofWord_toWord (by simp; omega), AddressSpace.overwrite_append_window]

/-- Eight bytes of a string, and then the others. -/
theorem overwrite_take_drop (m : AddressSpace) (a : UInt64) {data : Bytes}
    (h : data.length ≤ wordLimit) :
    (m.overwrite a (data.take 8)).overwrite (a + 8) (data.drop 8) = m.overwrite a data := by
  by_cases hlen : data.length ≤ 8
  · rw [List.take_of_length_le hlen, List.drop_of_length_le hlen, AddressSpace.overwrite_nil]
  · have hcut : (data.take 8).length = 8 := by
      rw [List.length_take]
      omega
    have hsum : (data.take 8).length + (data.drop 8).length ≤ wordLimit := by
      rw [← List.length_append, List.take_append_drop]
      exact h
    have happ := AddressSpace.overwrite_append m a hsum
    rw [List.take_append_drop, hcut] at happ
    exact happ.symm

/-- Words that are written from an address on change exactly the bytes of the string, as long as
it does not reach around to its own beginning. -/
theorem ends_writeWords (tid : Nat) (fuel : Nat) : ∀ (a : UInt64) (data : Bytes) (k : κ),
    Memory.wordsFor data.length ≤ fuel → data.length ≤ wordLimit →
    Ends (Memory.writeWords tid fuel a data) k fun r k' =>
      r = .ok () ∧ memory k' = (memory k).overwrite a data := by
  induction fuel with
  | zero =>
    intro a data k hfuel hlen
    have hnil : data = [] := by
      have := le_wordsFor data.length
      exact List.eq_nil_of_length_eq_zero (by omega)
    subst hnil
    exact ⟨rfl, rfl⟩
  | succ fuel ih =>
    intro a data k hfuel hlen
    cases data with
    | nil => exact ⟨rfl, rfl⟩
    | cons b rest =>
      -- Both kinds of words change the first eight bytes only; then the others are written.
      have hrest : ∀ (w : UInt64) (k₁ : κ), memory k₁ = memory k →
          (memory k).overwrite a (Bytes.ofWord w)
            = (memory k).overwrite a ((b :: rest).take 8) →
          Ends (do
            call (.poke tid a w)
            Memory.writeWords tid fuel (a + 8) ((b :: rest).drop 8)) k₁ fun r k' =>
              r = .ok () ∧ memory k' = (memory k).overwrite a (b :: rest) := by
        intro w k₁ hk₁ hw
        refine (ends_poke tid a w k₁).bind_eq fun k₂ hk₂ => ?_
        have hlen' : ((b :: rest).drop 8).length = (b :: rest).length - 8 := List.length_drop
        refine (ih (a + 8) ((b :: rest).drop 8) k₂ ?_ (by omega)).mono ?_
        · rw [hlen']
          simp only [Memory.wordsFor, Memory.wordLength] at hfuel ⊢
          omega
        · rintro r k₃ ⟨hr, hk₃⟩
          refine ⟨hr, ?_⟩
          rw [hk₃, hk₂, hk₁, hw, overwrite_take_drop _ a hlen]
      rw [Memory.writeWords]
      · split
        · rename_i hfull
          exact hrest _ k rfl (by rw [AddressSpace.ofWord_toWord hfull]; rfl)
        · refine (ends_peek tid a k).bind_eq fun k₁ hk₁ => ?_
          exact hrest _ k₁ hk₁ (overwrite_mergeWord _ a (List.length_take_le 8 _))
      · exact List.cons_ne_nil b rest

/-- Writing changes exactly the window. -/
theorem ends_write (tid : Nat) (a : UInt64) {data : Bytes} (k : κ) (h : data.length ≤ wordLimit) :
    Ends (Memory.write tid a data) k fun r k' =>
      r = .ok data.length ∧ memory k' = (memory k).overwrite a data := by
  rw [Memory.write]
  refine (ends_writeWords tid _ a data k (Nat.le_refl _) h).bind_eq fun k' hk' => ?_
  exact ⟨rfl, hk'⟩

end WordMemory

end DebugAdapter
