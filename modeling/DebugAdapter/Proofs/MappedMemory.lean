import DebugAdapter.Proofs.PatchRuns

/-!
# Mapped memory

Of most processes only parts of the address space are mapped, and a word of memory can be accessed
where all of its eight bytes are. Byte strings are transferred by words from their own first byte on,
so a string whose last word crosses the end of a mapping is not transferred to its end, although all of
its bytes are mapped: of the bytes before the first unmapped one only those in whole words are
`accessible`.

Main statement: `access_spec`.
-/

namespace DebugAdapter

open Linux
open Operation (Ends ends_bind)

/-! ### Mapped bytes in a row -/

/-- The number of mapped bytes in a row from an address on, up to a limit. -/
def reach (mapped : UInt64 → Bool) (a : UInt64) : (limit : Nat) → Nat
  | 0 => 0
  | n + 1 => if mapped a then reach mapped (a + 1) n + 1 else 0

/-- The number of bytes from an address on, up to a limit, that lie in words without an unmapped byte. -/
def accessible (mapped : UInt64 → Bool) (a : UInt64) (length : Nat) : Nat :=
  min length (8 * (reach mapped a (8 * Memory.wordsFor length) / 8))

section Reach

variable (mapped : UInt64 → Bool) (a : UInt64)

theorem reach_le (n : Nat) : reach mapped a n ≤ n := by
  induction n generalizing a with
  | zero => exact Nat.le_refl 0
  | succ n ih =>
    rw [reach]
    split
    · exact Nat.succ_le_succ (ih (a + 1))
    · exact Nat.zero_le _

/-- A row of mapped bytes in two parts. -/
theorem reach_add (k n : Nat) : reach mapped a (k + n) =
    if reach mapped a k = k then k + reach mapped (a + UInt64.ofNat k) n else reach mapped a k := by
  induction k generalizing a with
  | zero => simp [reach]
  | succ k ih =>
    have hnext : a + 1 + UInt64.ofNat k = a + UInt64.ofNat (k + 1) := by
      rw [UInt64.add_assoc, Nat.add_comm, UInt64.ofNat_add]
      rfl
    rw [Nat.succ_add, reach, reach, ih, hnext]
    split
    · simp only [Nat.add_right_cancel_iff]
      split
      · omega
      · rfl
    · rfl

/-- A shorter limit leaves less. -/
theorem reach_eq_min {k n : Nat} (h : k ≤ n) : reach mapped a k = min k (reach mapped a n) := by
  obtain ⟨m, rfl⟩ := Nat.exists_eq_add_of_le h
  have hle := reach_le mapped a k
  rw [reach_add]
  split <;> omega

/-- All bytes of a range are mapped. -/
theorem reach_eq_iff {n : Nat} :
    reach mapped a n = n ↔ ∀ i, i < n → mapped (a + UInt64.ofNat i) = true := by
  induction n with
  | zero => exact iff_of_true rfl nofun
  | succ n ih =>
    have hlast : reach mapped (a + UInt64.ofNat n) 1 = 1 ↔ mapped (a + UInt64.ofNat n) = true := by
      rw [reach, reach]
      split <;> simp_all
    have hle := reach_le mapped a n
    have hle' := reach_le mapped (a + UInt64.ofNat n) 1
    rw [Nat.forall_lt_succ_right, ← ih, ← hlast, reach_add]
    split <;> omega

/-- Of the mapped bytes less than a word is not accessible. -/
theorem accessible_bounds (length : Nat) :
    accessible mapped a length ≤ reach mapped a length ∧
      reach mapped a length < accessible mapped a length + 8 := by
  rw [accessible, reach_eq_min mapped a (WordMemory.le_wordsFor length)]
  omega

/-- All of the mapped bytes are accessible exactly if they are whole words, or the last word of the
range does not cross the end of the mapping. -/
theorem accessible_eq_reach_iff (length : Nat) :
    accessible mapped a length = reach mapped a length ↔ 8 ∣ reach mapped a length ∨
      reach mapped a (8 * Memory.wordsFor length) = 8 * Memory.wordsFor length := by
  have hle := reach_le mapped a (8 * Memory.wordsFor length)
  rw [accessible, reach_eq_min mapped a (WordMemory.le_wordsFor length)]
  simp only [Memory.wordsFor, Memory.wordLength] at hle ⊢
  omega

/-- A range is accessible as a whole exactly if its last word is mapped as a whole. -/
theorem accessible_eq_iff (length : Nat) : accessible mapped a length = length ↔
    reach mapped a (8 * Memory.wordsFor length) = 8 * Memory.wordsFor length := by
  have hle := reach_le mapped a (8 * Memory.wordsFor length)
  rw [accessible]
  simp only [Memory.wordsFor, Memory.wordLength] at hle ⊢
  omega

/-- After a word that is mapped as a whole come the other words. -/
theorem accessible_of_whole {length : Nat} (hlength : 0 < length) (h : reach mapped a 8 = 8) :
    accessible mapped a length = min 8 length + accessible mapped (a + 8) (length - 8) := by
  have hwords : 8 * Memory.wordsFor length = 8 + 8 * Memory.wordsFor (length - 8) := by
    simp only [Memory.wordsFor, Memory.wordLength]
    omega
  have hnext : a + UInt64.ofNat 8 = a + 8 := rfl
  rw [accessible, accessible, hwords, reach_add, if_pos h, hnext]
  omega

/-- Nothing is accessible from a word on that is not mapped as a whole. -/
theorem accessible_of_partial (length : Nat) (h : reach mapped a 8 ≠ 8) :
    accessible mapped a length = 0 := by
  have hle := reach_le mapped a 8
  rw [accessible]
  cases hwords : Memory.wordsFor length with
  | zero => simp [reach]
  | succ n =>
    rw [Nat.mul_succ, Nat.add_comm, reach_add, if_neg h]
    omega

end Reach

/-! ### Kernels with mappings -/

/-- A kernel through which words can be accessed by a thread where all of their bytes are mapped. -/
class MappedMemory (κ : Type) [Kernel κ] (tid : Nat) where
  /-- The memory of the process; what it has at unmapped addresses does not matter. -/
  memory : κ → AddressSpace
  mapped : κ → UInt64 → Bool
  peek_whole : ∀ (a : UInt64) (k : κ), reach (mapped k) a 8 = 8 →
    (Kernel.perform (.peek tid a) k).1 = .ok ((memory k).word a)
  peek_partial : ∀ (a : UInt64) (k : κ), reach (mapped k) a 8 ≠ 8 →
    ∃ e, (Kernel.perform (.peek tid a) k).1 = .error e
  memory_peek : ∀ (a : UInt64) (k : κ), memory (Kernel.perform (.peek tid a) k).2 = memory k
  mapped_peek : ∀ (a : UInt64) (k : κ), mapped (Kernel.perform (.peek tid a) k).2 = mapped k
  poke_whole : ∀ (a w : UInt64) (k : κ), reach (mapped k) a 8 = 8 →
    (Kernel.perform (.poke tid a w) k).1 = .ok () ∧
      memory (Kernel.perform (.poke tid a w) k).2 = (memory k).overwrite a (Bytes.ofWord w)
  poke_partial : ∀ (a w : UInt64) (k : κ), reach (mapped k) a 8 ≠ 8 →
    (∃ e, (Kernel.perform (.poke tid a w) k).1 = .error e) ∧
      memory (Kernel.perform (.poke tid a w) k).2 = memory k
  mapped_poke : ∀ (a w : UInt64) (k : κ), mapped (Kernel.perform (.poke tid a w) k).2 = mapped k

namespace MappedMemory

variable {κ : Type} [Kernel κ] {tid : Nat} [MappedMemory κ tid]

/-- The words that can be read from an address on have the bytes in whole words. -/
theorem readSomeWords_spec (tid : Nat) [MappedMemory κ tid] (count : Nat) : ∀ (a : UInt64) (k : κ),
    ((Memory.readSomeWords tid a count).run k).1.flatMap Bytes.ofWord =
        (memory tid k).window a (8 * (reach (mapped tid k) a (8 * count) / 8)) ∧
      memory tid ((Memory.readSomeWords tid a count).run k).2 = memory tid k ∧
      mapped tid ((Memory.readSomeWords tid a count).run k).2 = mapped tid k := by
  induction count with
  | zero =>
    intro a k
    rw [Nat.mul_zero, reach]
    exact ⟨rfl, rfl, rfl⟩
  | succ count ih =>
    intro a k
    rcases hpeek : Kernel.perform (.peek tid a) k with ⟨r, k₁⟩
    have hmemory : memory tid (Kernel.perform (.peek tid a) k).2 = memory tid k := memory_peek a k
    have hmapped : mapped tid (Kernel.perform (.peek tid a) k).2 = mapped tid k := mapped_peek a k
    rw [hpeek] at hmemory hmapped
    have hcall : ((call (.peek tid a) : Calls κ _).run).run k = (r, k₁) := hpeek
    rw [Memory.readSomeWords, StateT.run_bind, hcall, Nat.mul_succ, Nat.add_comm, reach_add]
    by_cases hwhole : reach (mapped tid k) a 8 = 8
    · have hr := peek_whole a k hwhole
      rw [hpeek] at hr
      cases hr
      obtain ⟨hwords, hmemory', hmapped'⟩ := ih (a + 8) k₁
      refine ⟨?_, hmemory'.trans hmemory, hmapped'.trans hmapped⟩
      show ((memory tid k).word a :: ((Memory.readSomeWords tid (a + 8) count).run k₁).1).flatMap
        Bytes.ofWord = _
      rw [List.flatMap_cons, AddressSpace.ofWord_word, hwords, hmemory, hmapped, if_pos hwhole]
      refine (AddressSpace.window_add (memory tid k) a 8 _).trans (congrArg _ ?_)
      have hnext : a + UInt64.ofNat 8 = a + 8 := rfl
      rw [hnext]
      omega
    · obtain ⟨e, hr⟩ := peek_partial a k hwhole
      rw [hpeek] at hr
      cases hr
      have hle := reach_le (mapped tid k) a 8
      have hnone : 8 * (reach (mapped tid k) a 8 / 8) = 0 := by omega
      rw [if_neg hwhole, hnone]
      exact ⟨rfl, hmemory, hmapped⟩

/-- As many bytes as possible are the accessible ones. -/
theorem readAvailable_spec (a : UInt64) (length : Nat) (k : κ) :
    ((Memory.readAvailable tid a length).run k).1 =
        (memory tid k).window a (accessible (mapped tid k) a length) ∧
      memory tid ((Memory.readAvailable tid a length).run k).2 = memory tid k ∧
      mapped tid ((Memory.readAvailable tid a length).run k).2 = mapped tid k := by
  obtain ⟨hwords, hk'⟩ := readSomeWords_spec tid (Memory.wordsFor length) a k
  refine ⟨?_, hk'⟩
  show (((Memory.readSomeWords tid a (Memory.wordsFor length)).run k).1.flatMap
    Bytes.ofWord).take length = _
  rw [hwords, accessible]
  by_cases hle : length ≤ 8 * (reach (mapped tid k) a (8 * Memory.wordsFor length) / 8)
  · rw [Nat.min_eq_left hle, AddressSpace.take_window _ a hle]
  · rw [Nat.min_eq_right (Nat.le_of_not_le hle), List.take_of_length_le]
    rw [AddressSpace.length_window]
    exact Nat.le_of_not_le hle

/-- What an access to a word does: it succeeds where the word is mapped as a whole. -/
theorem ends_peek (a : UInt64) (k : κ) : Ends (call (.peek tid a)) k fun r k' =>
    (if reach (mapped tid k) a 8 = 8 then r = .ok ((memory tid k).word a) else ∃ e, r = .error e) ∧
      memory tid k' = memory tid k ∧ mapped tid k' = mapped tid k := by
  refine ⟨?_, memory_peek a k, mapped_peek a k⟩
  split
  · exact peek_whole a k ‹_›
  · exact peek_partial a k ‹_›

theorem ends_poke (a w : UInt64) (k : κ) : Ends (call (.poke tid a w)) k fun r k' =>
    (if reach (mapped tid k) a 8 = 8 then
        r = .ok () ∧ memory tid k' = (memory tid k).overwrite a (Bytes.ofWord w)
      else (∃ e, r = .error e) ∧ memory tid k' = memory tid k) ∧
      mapped tid k' = mapped tid k := by
  refine ⟨?_, mapped_poke a w k⟩
  split
  · exact poke_whole a w k ‹_›
  · exact poke_partial a w k ‹_›

/-- What writing bytes at an address does: the accessible ones are there then, and it succeeds if these
are all of them. -/
structure Writes {α : Type} (tid : Nat) [MappedMemory κ tid] (a : UInt64) (data : Bytes) (done : α)
    (k : κ) (r : Except OsError α) (k' : κ) : Prop where
  done : accessible (mapped tid k) a data.length = data.length → r = .ok done
  failed : accessible (mapped tid k) a data.length ≠ data.length → ∃ e, r = .error e
  mapped : mapped tid k' = mapped tid k
  memory : data.length ≤ wordLimit → memory tid k' = (memory tid k).overwrite a
    (data.take (accessible (MappedMemory.mapped tid k) a data.length))

/-- The first word is written, and then the accessible ones of the others. -/
theorem overwrite_accessible (m : AddressSpace) (a : UInt64) {data : Bytes} {n : Nat}
    (hn : n ≤ data.length - 8) (hlen : data.length ≤ wordLimit) :
    (m.overwrite a (data.take 8)).overwrite (a + 8) ((data.drop 8).take n) =
      m.overwrite a (data.take (min 8 data.length + n)) := by
  have hshort : (data.take (min 8 data.length + n)).length ≤ wordLimit :=
    Nat.le_trans (List.length_take_le' ..) hlen
  rw [← WordMemory.overwrite_take_drop m a hshort]
  by_cases hle : 8 ≤ data.length
  · rw [Nat.min_eq_left hle, List.take_take, Nat.min_eq_left (Nat.le_add_right 8 n),
      List.drop_take, Nat.add_sub_cancel_left]
  · have hzero : n = 0 := by omega
    subst hzero
    rw [Nat.min_eq_right (Nat.le_of_not_le hle), Nat.add_zero, List.take_length, List.take_zero,
      List.drop_of_length_le (Nat.le_of_not_le hle)]

/-- Where the first word is not mapped as a whole, nothing is written. -/
theorem writes_none {α : Type} {done : α} {a : UInt64} {data : Bytes} {k k' : κ}
    (hdata : 0 < data.length) (hpartial : reach (mapped tid k) a 8 ≠ 8)
    (hmemory : memory tid k' = memory tid k) (hmapped : mapped tid k' = mapped tid k) (e : OsError) :
    Writes tid a data done k (.error e) k' := by
  have hnone := accessible_of_partial (mapped tid k) a data.length hpartial
  refine ⟨fun h => absurd (hnone.symm.trans h) (Nat.ne_of_lt hdata), fun _ => ⟨e, rfl⟩, hmapped,
    fun _ => ?_⟩
  rw [hnone, hmemory]
  rfl

/-- Once the word for the first bytes is known, it is written, and the others follow. -/
theorem writes_rest {fuel : Nat} {a w : UInt64} {data : Bytes} {k k₁ : κ} (hdata : 0 < data.length)
    (hmemory : memory tid k₁ = memory tid k) (hmapped : mapped tid k₁ = mapped tid k)
    (hw : (memory tid k).overwrite a (Bytes.ofWord w) = (memory tid k).overwrite a (data.take 8))
    (hrest : ∀ k : κ, Ends (Memory.writeWords tid fuel (a + 8) (data.drop 8)) k
      (Writes tid (a + 8) (data.drop 8) () k)) :
    Ends (do call (.poke tid a w); Memory.writeWords tid fuel (a + 8) (data.drop 8)) k₁
      (Writes tid a data () k) := by
  refine (ends_poke a w k₁).bind ?_ ?_
  · rintro ⟨⟩ k₂ ⟨hpoke, hmapped₂⟩
    rw [hmapped] at hpoke hmapped₂
    split at hpoke
    · rename_i hwhole
      obtain ⟨-, hmemory₂⟩ := hpoke
      have haccessible := accessible_of_whole (mapped tid k) a hdata hwhole
      have hdrop : (data.drop 8).length = data.length - 8 := List.length_drop
      refine (hrest k₂).mono fun r k₃ h => ⟨fun hall => h.done ?_, fun hpart => h.failed ?_,
        h.mapped.trans hmapped₂, fun hlen => ?_⟩
      · rw [hmapped₂, hdrop]
        omega
      · rw [hmapped₂, hdrop]
        omega
      · have hle : accessible (mapped tid k) (a + 8) (data.length - 8) ≤ data.length - 8 :=
          Nat.min_le_left ..
        rw [h.memory (by omega), hmapped₂, hmemory₂, hmemory, hw, hdrop, haccessible]
        exact overwrite_accessible _ a hle hlen
    · obtain ⟨⟨e, he⟩, -⟩ := hpoke
      cases he
  · rintro e k₂ ⟨hpoke, hmapped₂⟩
    rw [hmapped] at hpoke hmapped₂
    split at hpoke
    · cases hpoke.1
    · rename_i hpartial
      exact writes_none hdata hpartial (hpoke.2.trans hmemory) hmapped₂ e

/-- Words that are written from an address on put the accessible bytes there. -/
theorem ends_writeWords (fuel : Nat) : ∀ (a : UInt64) (data : Bytes) (k : κ),
    Memory.wordsFor data.length ≤ fuel →
    Ends (Memory.writeWords tid fuel a data) k (Writes tid a data () k) := by
  have hnil : ∀ (fuel : Nat) (a : UInt64) (k : κ),
      Ends (Memory.writeWords tid fuel a []) k (Writes tid a [] () k) := by
    intro fuel a k
    have hall : accessible (mapped tid k) a 0 = 0 := Nat.le_zero.mp (Nat.min_le_left ..)
    cases fuel <;> exact ⟨fun _ => rfl, fun h => absurd hall h, rfl, fun _ => rfl⟩
  induction fuel with
  | zero =>
    intro a data k hfuel
    have hdata : data = [] := by
      have := WordMemory.le_wordsFor data.length
      exact List.eq_nil_of_length_eq_zero (by omega)
    subst hdata
    exact hnil 0 a k
  | succ fuel ih =>
    intro a data k hfuel
    cases data with
    | nil => exact hnil (fuel + 1) a k
    | cons b bs =>
      have hdata : 0 < (b :: bs).length := Nat.zero_lt_succ _
      have hrest : ∀ k : κ, Ends (Memory.writeWords tid fuel (a + 8) ((b :: bs).drop 8)) k
          (Writes tid (a + 8) ((b :: bs).drop 8) () k) := by
        refine fun k => ih _ _ k ?_
        rw [List.length_drop]
        simp only [Memory.wordsFor, Memory.wordLength] at hfuel ⊢
        omega
      rw [Memory.writeWords]
      · split
        · rename_i hfull
          exact writes_rest hdata rfl rfl
            (by rw [AddressSpace.ofWord_toWord hfull]; rfl) hrest
        · refine (ends_peek a k).bind ?_ ?_
          · rintro old k₁ ⟨hpeek, hmemory, hmapped⟩
            split at hpeek
            · obtain rfl := Except.ok.inj hpeek
              exact writes_rest hdata hmemory hmapped
                (WordMemory.overwrite_mergeWord _ a (List.length_take_le 8 _)) hrest
            · obtain ⟨e, he⟩ := hpeek
              cases he
          · rintro e k₁ ⟨hpeek, hmemory, hmapped⟩
            split at hpeek
            · cases hpeek
            · rename_i hpartial
              exact writes_none hdata hpartial hmemory hmapped e
      · exact List.cons_ne_nil b bs

/-- Writing bytes puts the accessible ones there. -/
theorem ends_write (a : UInt64) (data : Bytes) (k : κ) :
    Ends (Memory.write tid a data) k (Writes tid a data data.length k) := by
  rw [Memory.write]
  refine (ends_writeWords _ a data k (Nat.le_refl _)).bind ?_ ?_
  · rintro ⟨⟩ k' h
    refine ⟨fun _ => rfl, fun hpart => ?_, h.mapped, h.memory⟩
    obtain ⟨e, he⟩ := h.failed hpart
    cases he
  · rintro e k' h
    refine ⟨fun hall => ?_, fun _ => ⟨e, rfl⟩, h.mapped, h.memory⟩
    cases h.done hall

/-! ### Patches -/

open Tracer (Patched Patching withLowByte)
open Tracer.Patching (calls ends_calls ends_modifyTable ends_modifyTable_bind)

/-- Mappings stay, and so does memory, some addresses aside. -/
structure Touches (tid : Nat) [MappedMemory κ tid] (as : List UInt64) (k k' : κ) : Prop where
  mapped : mapped tid k' = mapped tid k
  memory : ∀ y, y ∉ as → memory tid k' y = memory tid k y

theorem Touches.refl (as : List UInt64) (k : κ) : Touches tid as k k := ⟨rfl, fun _ _ => rfl⟩

theorem Touches.trans {as : List UInt64} {k k₁ k₂ : κ} (h : Touches tid as k k₁)
    (h' : Touches tid as k₁ k₂) : Touches tid as k k₂ :=
  ⟨h'.mapped.trans h.mapped, fun y hy => (h'.memory y hy).trans (h.memory y hy)⟩

theorem Touches.mono {as bs : List UInt64} {k k' : κ} (h : Touches tid as k k')
    (hsub : ∀ y ∈ as, y ∈ bs) : Touches tid bs k k' :=
  ⟨h.mapped, fun y hy => h.memory y fun hmem => hy (hsub y hmem)⟩

theorem ends_calls_peek {a : UInt64} {s : Patched κ} (h : reach (mapped tid s.kernel) a 8 = 8) :
    Ends (calls (call (.peek tid a))) s fun r s' => r = .ok ((memory tid s.kernel).word a) ∧
      memory tid s'.kernel = memory tid s.kernel ∧ mapped tid s'.kernel = mapped tid s.kernel := by
  rw [ends_calls]
  refine (ends_peek a s.kernel).mono fun r k' hpeek => ?_
  rw [if_pos h] at hpeek
  exact hpeek

/-- Writing back the word at an address with another lowest byte. -/
theorem ends_calls_poke {a : UInt64} (v : UInt8) {m : AddressSpace} {s : Patched κ}
    (hm : memory tid s.kernel = m) (h : reach (mapped tid s.kernel) a 8 = 8) :
    Ends (calls (call (.poke tid a (withLowByte (m.word a) v)))) s fun r s' => r = .ok () ∧
      (∀ y, y ≠ a → memory tid s'.kernel y = m y) ∧
      mapped tid s'.kernel = mapped tid s.kernel := by
  rw [ends_calls]
  refine (ends_poke a _ s.kernel).mono fun r k' hpoke => ?_
  rw [if_pos h, hm, Tracer.overwrite_withLowByte] at hpoke
  obtain ⟨⟨hr, hmemory⟩, hmapped⟩ := hpoke
  exact ⟨hr, fun y hy => by rw [hmemory, Function.update_of_ne hy], hmapped⟩

/-- A patch is lifted where its word can be accessed. -/
theorem ends_disable (a : UInt64) (s : Patched κ) (h : reach (mapped tid s.kernel) a 8 = 8) :
    Ends (Patching.disable tid a) s fun r s' =>
      r = .ok () ∧ Touches tid [a] s.kernel s'.kernel := by
  rw [Patching.disable, Operation.ends_get_bind]
  split
  · exact ⟨rfl, .refl _ _⟩
  · split
    · exact ⟨rfl, .refl _ _⟩
    · refine (ends_calls_peek h).bind_eq fun s₁ h₁ => ?_
      refine (ends_calls_poke _ h₁.1 (h₁.2 ▸ h)).bind_eq fun s₂ h₂ => ?_
      rw [ends_modifyTable]
      exact ⟨rfl, h₂.2.trans h₁.2, fun y hy => h₂.1 y (mt List.mem_singleton.mpr hy)⟩

/-- A patch is planted where its word can be accessed. -/
theorem ends_enable (a : UInt64) (s : Patched κ) (h : reach (mapped tid s.kernel) a 8 = 8) :
    Ends (Patching.enable tid a) s fun r s' =>
      r = .ok () ∧ Touches tid [a] s.kernel s'.kernel := by
  rw [Patching.enable, Operation.ends_get_bind]
  split
  · exact ⟨rfl, .refl _ _⟩
  · split
    · exact ⟨rfl, .refl _ _⟩
    · refine (ends_calls_peek h).bind_eq fun s₁ h₁ => ?_
      rw [ends_modifyTable_bind]
      refine Ends.bind_eq (ends_calls_poke _ ?_ ?_) fun s₂ h₂ => ?_
      · exact h₁.1
      · exact h₁.2 ▸ h
      rw [ends_modifyTable]
      exact ⟨rfl, h₂.2.trans h₁.2, fun y hy => h₂.1 y (mt List.mem_singleton.mpr hy)⟩

theorem ends_forM {op : UInt64 → Patching κ Unit}
    (hop : ∀ (a : UInt64) (s : Patched κ), reach (mapped tid s.kernel) a 8 = 8 →
      Ends (op a) s fun r s' => r = .ok () ∧ Touches tid [a] s.kernel s'.kernel)
    (as : List UInt64) : ∀ s : Patched κ, (∀ a ∈ as, reach (mapped tid s.kernel) a 8 = 8) →
    Ends (as.forM op) s fun r s' => r = .ok () ∧ Touches tid as s.kernel s'.kernel := by
  induction as with
  | nil => exact fun s _ => ⟨rfl, .refl _ _⟩
  | cons a as ih =>
    intro s h
    obtain ⟨ha, has⟩ := List.forall_mem_cons.mp h
    refine (hop a s ha).bind_eq fun s₁ h₁ => ?_
    refine (ih s₁ (h₁.mapped.symm ▸ has)).mono fun r s₂ ⟨hr, h₂⟩ => ⟨hr, ?_⟩
    exact (h₁.mono fun y hy => List.mem_cons.mpr (Or.inl (List.mem_singleton.mp hy))).trans
      (h₂.mono fun y hy => List.mem_cons_of_mem a hy)

/-- The addresses of the patches that work on a range finds. -/
def patched (s : Patched κ) (a : UInt64) (length : Nat) : List UInt64 :=
  (s.table.patchesIn a length).map (·.address)

/-- Bytes are written under the patches: the accessible ones, and it succeeds if these are all. -/
theorem ends_rewrite (a : UInt64) (data : Bytes) (s : Patched κ)
    (h : ∀ y ∈ patched s a data.length, reach (mapped tid s.kernel) y 8 = 8) :
    Ends (Patching.rewrite tid a data) s fun r s' =>
      let n := accessible (mapped tid s.kernel) a data.length
      (n = data.length → r = .ok data.length) ∧ (n ≠ data.length → ∃ e, r = .error e) ∧
      mapped tid s'.kernel = mapped tid s.kernel ∧
      (data.length ≤ wordLimit → ∀ y, y ∉ patched s a data.length →
        memory tid s'.kernel y = (memory tid s.kernel).overwrite a (data.take n) y) := by
  rw [Patching.rewrite, Operation.ends_get_bind]
  refine (ends_forM ends_disable _ s h).bind_eq fun s₁ h₁ => ?_
  have hwrite : Ends (calls (Memory.write tid a data)) s₁ fun r s₂ =>
      Writes tid a data data.length s₁.kernel r s₂.kernel := by
    rw [ends_calls]
    exact ends_write a data s₁.kernel
  have hmemory : ∀ (bs : Bytes) y, y ∉ patched s a data.length →
      (memory tid s₁.kernel).overwrite a bs y = (memory tid s.kernel).overwrite a bs y :=
    fun bs y hy => congrArg (Option.getD _) (h₁.memory y hy)
  refine hwrite.bind ?_ ?_
  · rintro written s₂ hw
    have hall : accessible (mapped tid s.kernel) a data.length = data.length := by
      by_contra hpart
      obtain ⟨e, he⟩ := hw.failed (h₁.mapped.symm ▸ hpart)
      cases he
    have hwritten := Except.ok.inj (hw.done (h₁.mapped.symm ▸ hall))
    have hmapped₂ := hw.mapped.trans h₁.mapped
    refine (ends_forM ends_enable _ s₂ (hmapped₂.symm ▸ h)).bind_eq fun s₃ h₃ => ?_
    refine ⟨fun _ => congrArg Except.ok hwritten, fun hpart => absurd hall hpart,
      h₃.mapped.trans hmapped₂, fun hlen y hy => ?_⟩
    show memory tid s₃.kernel y = _
    rw [h₃.memory y hy, hw.memory hlen, h₁.mapped, hmemory _ y hy]
  · rintro e s₂ hw
    refine ⟨fun hall => ?_, fun _ => ⟨e, rfl⟩, hw.mapped.trans h₁.mapped, fun hlen y hy => ?_⟩
    · cases hw.done (h₁.mapped.symm ▸ hall)
    · rw [hw.memory hlen, h₁.mapped, hmemory _ y hy]

end MappedMemory

/-! ### Memory as a tracer accesses it -/

namespace Tracer.Tracing

open Debuggee (DebugError)
open MappedMemory (memory mapped)

variable {κ : Type} [Kernel κ] {tid : Nat} [MappedMemory κ tid]

theorem ends_readMemory_mapped {x : System κ} {p : Process} (h : Stopped x p tid) (a : UInt64)
    (length : Nat) :
    Ends (readMemory a length) x fun r _ =>
      r = if accessible (mapped tid x.kernel) a length = 0 ∧ 0 < length then .error (.memoryAccess a)
        else .ok (x.tracer.breakpoints.mask a
          ((memory tid x.kernel).window a (accessible (mapped tid x.kernel) a length))) := by
  rw [readMemory, ends_stoppedProcess_bind h, readCode, ends_memoryThread_bind h]
  refine Ends.bind_eq (P := fun x' => x'.tracer = x.tracer)
    ⟨congrArg Except.ok (MappedMemory.readAvailable_spec a length x.kernel).1, rfl⟩ fun x' hx' => ?_
  generalize accessible (mapped tid x.kernel) a length = n
  have hempty : (((memory tid x.kernel).window a n).isEmpty && decide (0 < length)) = true ↔
      n = 0 ∧ 0 < length := by
    rw [Bool.and_eq_true, decide_eq_true_eq, List.isEmpty_iff_length_eq_zero,
      AddressSpace.length_window]
  simp only [hempty]
  split
  · exact rfl
  · show Ends (tracer >>= fun t => pure (t.breakpoints.mask a ((memory tid x.kernel).window a n))) x' _
    rw [ends_tracer_bind, hx']
    rfl

/-- The patches that a write finds can be lifted and planted again. -/
def Reachable (tid : Nat) [MappedMemory κ tid] (x : System κ) (a : UInt64) (length : Nat) : Prop :=
  ∀ b ∈ x.tracer.breakpoints.patchesIn a length, reach (mapped tid x.kernel) b.address 8 = 8

theorem ends_writeMemory_mapped {x : System κ} {p : Process} (h : Stopped x p tid) (a : UInt64)
    (data : Bytes) (hpatches : Reachable tid x a data.length) :
    Ends (writeMemory a data) x fun r x' =>
      (r = if accessible (mapped tid x.kernel) a data.length = data.length then .ok data.length
        else .error (.memoryAccess a)) ∧
      (data.length ≤ wordLimit → ∀ y,
        (∀ b ∈ x.tracer.breakpoints.patchesIn a data.length, b.address ≠ y) →
        memory tid x'.kernel y = (memory tid x.kernel).overwrite a
          (data.take (accessible (mapped tid x.kernel) a data.length)) y) := by
  rw [writeMemory, ends_stoppedProcess_bind h, ends_memoryThread_bind h, ends_patching]
  have hpatched : ∀ y ∈ MappedMemory.patched (breakpointsOf x) a data.length,
      reach (mapped tid x.kernel) y 8 = 8 := by
    intro y hy
    obtain ⟨b, hb, rfl⟩ := List.mem_map.mp hy
    exact hpatches b hb
  refine (MappedMemory.ends_rewrite a data (breakpointsOf x) hpatched).mono ?_
  rintro r t ⟨hdone, hfailed, -, hmemory⟩
  refine ⟨?_, fun hlen y hy => hmemory hlen y fun hmem => ?_⟩
  · split
    · rw [hdone ‹_›]
      rfl
    · obtain ⟨e, rfl⟩ := hfailed ‹_›
      rfl
  · obtain ⟨b, hb, hby⟩ := List.mem_map.mp hmem
    exact hy b hb hby

/-- **Memory is accessible in whole words.** While a process is stopped and whatever is mapped, a read
gives the accessible bytes from its address on, as they are under the patches, and fails only if it asks
for some and there are none. A write whose patches can be lifted succeeds exactly if all of its bytes are
accessible, and in any case puts exactly the accessible ones into memory, patched addresses aside. A range
that is mapped as a whole is accessible as a whole exactly if its last word is mapped as a whole too. Less
than a word of the bytes before the first unmapped one is not accessible; and all of them are exactly if
they are whole words or the last word of the range is mapped as a whole. -/
theorem access_spec {x : System κ} {p : Process} (h : Stopped x p tid) (a : UInt64) :
    (∀ length, Ends (readMemory a length) x fun r _ =>
      r = if accessible (mapped tid x.kernel) a length = 0 ∧ 0 < length then .error (.memoryAccess a)
        else .ok (x.tracer.breakpoints.mask a
          ((memory tid x.kernel).window a (accessible (mapped tid x.kernel) a length)))) ∧
    (∀ data, Reachable tid x a data.length → Ends (writeMemory a data) x fun r x' =>
      (r = if accessible (mapped tid x.kernel) a data.length = data.length then .ok data.length
        else .error (.memoryAccess a)) ∧
      (data.length ≤ wordLimit → ∀ y,
        (∀ b ∈ x.tracer.breakpoints.patchesIn a data.length, b.address ≠ y) →
        memory tid x'.kernel y = (memory tid x.kernel).overwrite a
          (data.take (accessible (mapped tid x.kernel) a data.length)) y)) ∧
    ∀ length,
      (reach (mapped tid x.kernel) a length = length ↔
        ∀ i, i < length → mapped tid x.kernel (a + UInt64.ofNat i) = true) ∧
      (accessible (mapped tid x.kernel) a length = length ↔
        reach (mapped tid x.kernel) a (8 * Memory.wordsFor length) = 8 * Memory.wordsFor length) ∧
      accessible (mapped tid x.kernel) a length ≤ reach (mapped tid x.kernel) a length ∧
      reach (mapped tid x.kernel) a length < accessible (mapped tid x.kernel) a length + 8 ∧
      (accessible (mapped tid x.kernel) a length = reach (mapped tid x.kernel) a length ↔
        8 ∣ reach (mapped tid x.kernel) a length ∨
        reach (mapped tid x.kernel) a (8 * Memory.wordsFor length) = 8 * Memory.wordsFor length) := by
  refine ⟨ends_readMemory_mapped h a, ends_writeMemory_mapped h a, fun length => ?_⟩
  obtain ⟨hle, hlt⟩ := accessible_bounds (mapped tid x.kernel) a length
  exact ⟨reach_eq_iff .., accessible_eq_iff .., hle, hlt, accessible_eq_reach_iff ..⟩

end Tracer.Tracing

/-! ### A page of sixteen bytes -/

/-- A kernel that is a memory of which some bytes are mapped. -/
structure PartialMemory where
  bytes : AddressSpace
  mapped : UInt64 → Bool

namespace PartialMemory

instance : Kernel PartialMemory where
  perform c k :=
    match c with
    | .peek _ a => if reach k.mapped a 8 = 8 then (.ok (k.bytes.word a), k) else (.error .inputOutput, k)
    | .poke _ a w =>
      if reach k.mapped a 8 = 8 then (.ok (), { k with bytes := k.bytes.overwrite a (Bytes.ofWord w) })
      else (.error .inputOutput, k)
    | _ => (.error .noProcess, k)
  file _ _ := .error .noEntry
  linkTarget? _ _ := none
  process? _ _ := none
  lookUp? _ _ := none
  outstanding _ := 0

theorem perform_peek (tid : Nat) (a : UInt64) (k : PartialMemory) :
    Kernel.perform (.peek tid a) k =
    if reach k.mapped a 8 = 8 then (.ok (k.bytes.word a), k) else (.error .inputOutput, k) :=
  rfl

theorem perform_poke (tid : Nat) (a w : UInt64) (k : PartialMemory) :
    Kernel.perform (.poke tid a w) k =
    if reach k.mapped a 8 = 8 then (.ok (), { k with bytes := k.bytes.overwrite a (Bytes.ofWord w) })
    else (.error .inputOutput, k) :=
  rfl

instance (tid : Nat) : MappedMemory PartialMemory tid where
  memory := bytes
  mapped := mapped
  peek_whole a k h := by rw [perform_peek, if_pos h]
  peek_partial a k h := by rw [perform_peek, if_neg h]; exact ⟨_, rfl⟩
  memory_peek a k := by rw [perform_peek]; split <;> rfl
  mapped_peek a k := by rw [perform_peek]; split <;> rfl
  poke_whole a w k h := by rw [perform_poke, if_pos h]; exact ⟨rfl, rfl⟩
  poke_partial a w k h := by rw [perform_poke, if_neg h]; exact ⟨⟨_, rfl⟩, rfl⟩
  mapped_poke a w k := by rw [perform_poke]; split <;> rfl

/-- Sixteen mapped bytes, each of which is the lowest byte of its address. -/
def page : PartialMemory := ⟨UInt64.toUInt8, fun a => 0x1000 ≤ a && a < 0x1010⟩

end PartialMemory

namespace Tracer.Tracing

/-- A stopped process with one thread. -/
def idle : Process := ⟨100, true, none, [.new 100], none, false, none⟩

/-- A tracer of a stopped process with a page of memory. -/
def pageSystem : System PartialMemory := ⟨.page, { State.new none with process := some idle }⟩

theorem stopped_pageSystem : Stopped pageSystem idle 100 := ⟨rfl, rfl, rfl⟩

/-- The second word of the page can be read and written. -/
theorem access_second_word :
    Stopped pageSystem idle 100 ∧ Reachable 100 pageSystem 0x1008 2 ∧
    Ends (readMemory 0x1008 3) pageSystem (fun r _ => r = .ok [0x08, 0x09, 0x0A]) ∧
    Ends (writeMemory 0x1008 [1, 2]) pageSystem (fun r _ => r = .ok 2) := by
  have hpatches : Reachable 100 pageSystem 0x1008 2 := nofun
  obtain ⟨hread, hwrite, -⟩ := access_spec stopped_pageSystem 0x1008
  exact ⟨stopped_pageSystem, hpatches, hread 3, (hwrite [1, 2] hpatches).mono fun _ _ h => h.1⟩

/-- The last three bytes of the page are mapped and can be neither read nor written; of eleven mapped
bytes before the end of the page eight are read. -/
theorem access_lost :
    (∀ i < 3, PartialMemory.page.mapped (0x100D + UInt64.ofNat i) = true) ∧
    Ends (readMemory 0x100D 3) pageSystem (fun r _ => r = .error (.memoryAccess 0x100D)) ∧
    Ends (writeMemory 0x100D [1, 2, 3]) pageSystem (fun r _ => r = .error (.memoryAccess 0x100D)) ∧
    reach PartialMemory.page.mapped 0x1005 16 = 11 ∧
    Ends (readMemory 0x1005 16) pageSystem
      (fun r _ => r = .ok [0x05, 0x06, 0x07, 0x08, 0x09, 0x0A, 0x0B, 0x0C]) :=
  ⟨by decide, rfl, rfl, rfl, rfl⟩

end Tracer.Tracing

end DebugAdapter
