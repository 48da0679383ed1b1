import DebugAdapter.Text.Numeral
import Mathlib.Data.List.Forall2
import Mathlib.Data.Nat.Digits.Defs
import Mathlib.Data.String.Basic

/-!
# Numerals in texts

What a numeral denotes, as a grammar: digits of a base with the value of their positions (`Digits`), a
plus sign that may be before them (`Signed`), the mark of the base (`Numeral`), and the blanks around it
(`Denotes`). The reader of addresses accepts what the grammar does, as long as the number fits into a word,
and gives the same number.

Main statements: `readAddress?_eq_some_iff`, `Numeral.unique` and the ways to write a number from
`numeral_decimal` on.
-/

namespace DebugAdapter.Text

/-! ### The grammar -/

/-- A character is a digit with a value; a letter may be of either case. -/
def IsDigit (base : Nat) (c : Char) (d : Nat) : Prop :=
  d < base ∧ (c = Nat.digitChar d ∨ c = (Nat.digitChar d).toUpper)

/-- One or more digits of a number, from the highest place to the lowest one. -/
def Digits (base : Nat) (cs : List Char) (n : Nat) : Prop :=
  cs ≠ [] ∧ ∃ ds, List.Forall₂ (IsDigit base) cs ds ∧ n = Nat.ofDigits base ds.reverse

/-- Digits, perhaps after a plus sign. -/
inductive Signed (base : Nat) : (cs : List Char) → (n : Nat) → Prop
  | bare {cs : List Char} {n : Nat} : Digits base cs n → Signed base cs n
  | plus {cs : List Char} {n : Nat} : Digits base cs n → Signed base ('+' :: cs) n

/-- A numeral: decimal, or hexadecimal after its mark. -/
inductive Numeral : (cs : List Char) → (n : Nat) → Prop
  | decimal {cs : List Char} {n : Nat} : Signed 10 cs n → Numeral cs n
  | hex {x : Char} {cs : List Char} {n : Nat} : x = 'x' ∨ x = 'X' → Signed 16 cs n →
      Numeral ('0' :: x :: cs) n

/-- Only blanks. -/
def Blanks (cs : List Char) : Prop := ∀ c ∈ cs, isBlank c = true

/-- A text that is a numeral with blanks around it. -/
def Denotes (s : String) (n : Nat) : Prop :=
  ∃ before cs after, s.toList = before ++ (cs ++ after) ∧ Blanks before ∧ Blanks after ∧ Numeral cs n

/-! ### Digits -/

section Digits

variable {base n m d : Nat} {c : Char} {cs : List Char}

/-- A digit of a smaller base is one of base sixteen. -/
theorem digitValue?_of_le (h : base ≤ 16) (c : Char) :
    digitValue? base c = (digitValue? 16 c).filter (· < base) := by
  rw [digitValue?, digitValue?]
  generalize (if '0' ≤ c ∧ c ≤ '9' then some (c.toNat - 48)
    else if 'a' ≤ c ∧ c ≤ 'f' then some (c.toNat - 87)
    else if 'A' ≤ c ∧ c ≤ 'F' then some (c.toNat - 55) else none) = value
  rcases value with _ | v
  · rfl
  · by_cases hv : v < base
    · simp [Option.filter, hv, Nat.lt_of_lt_of_le hv h]
    · by_cases hv' : v < 16 <;> simp [Option.filter, hv, hv']

theorem toNat_lt_of_digitValue? (h : digitValue? 16 c = some d) : c.toNat < 103 := by
  by_contra hc
  have hbig : 103 ≤ c.toNat := Nat.not_lt.mp hc
  have hnone : digitValue? 16 c = none := by
    rw [digitValue?]
    have hle : ∀ e : Char, e.toNat < 103 → ¬ c ≤ e := fun e he hle => by
      have hle : c.toNat ≤ e.toNat := hle
      omega
    simp [hle '9' (by decide), hle 'f' (by decide), hle 'F' (by decide)]
  rw [hnone] at h
  cases h

theorem digitValue?_eq_some_iff (h : base ≤ 16) :
    digitValue? base c = some d ↔ IsDigit base c d := by
  have hread : ∀ d < 16, digitValue? 16 (Nat.digitChar d) = some d ∧
      digitValue? 16 (Nat.digitChar d).toUpper = some d := by decide
  have hwrite : ∀ k < 103, ∀ d ∈ digitValue? 16 (Char.ofNat k),
      Char.ofNat k = Nat.digitChar d ∨ Char.ofNat k = (Nat.digitChar d).toUpper := by decide +kernel
  rw [digitValue?_of_le h, Option.filter_eq_some_iff, decide_eq_true_iff, IsDigit, and_comm]
  refine and_congr_right fun hd => ⟨fun hc => ?_, ?_⟩
  · have hwrite := hwrite c.toNat (toNat_lt_of_digitValue? hc) d
    rw [Char.ofNat_toNat] at hwrite
    exact hwrite hc
  · rintro (rfl | rfl)
    · exact (hread d (Nat.lt_of_lt_of_le hd h)).1
    · exact (hread d (Nat.lt_of_lt_of_le hd h)).2

/-- Reading digits adds their value to that of the places before. -/
theorem digitsValue?_eq_some_iff (h : base ≤ 16) (acc : Nat) :
    digitsValue? base acc cs = some n ↔ ∃ ds, List.Forall₂ (IsDigit base) cs ds ∧
      n = base ^ cs.length * acc + Nat.ofDigits base ds.reverse := by
  induction cs generalizing acc with
  | nil => simp [digitsValue?, List.forall₂_nil_left_iff, eq_comm]
  | cons c cs ih =>
    have hvalue : ∀ (d : Nat) (ds : List Nat), List.Forall₂ (IsDigit base) cs ds →
        base ^ cs.length * (acc * base + d) + Nat.ofDigits base ds.reverse =
          base ^ (c :: cs).length * acc + Nat.ofDigits base (d :: ds).reverse := by
      intro d ds hds
      rw [List.reverse_cons, Nat.ofDigits_append, List.length_reverse, ← hds.length_eq,
        Nat.ofDigits_singleton, List.length_cons, Nat.pow_succ]
      ring
    rw [digitsValue?]
    constructor
    · intro hn
      rcases hd : digitValue? base c with _ | d
      · rw [hd] at hn
        cases hn
      · rw [hd] at hn
        obtain ⟨ds, hds, rfl⟩ := (ih _).mp hn
        exact ⟨d :: ds, .cons ((digitValue?_eq_some_iff h).mp hd) hds, hvalue d ds hds⟩
    · rintro ⟨_, _ | ⟨hd, hds⟩, rfl⟩
      rw [(digitValue?_eq_some_iff h).mpr hd]
      exact (ih _).mpr ⟨_, hds, (hvalue _ _ hds).symm⟩

theorem digits_iff (h : base ≤ 16) :
    Digits base cs n ↔ cs ≠ [] ∧ digitsValue? base 0 cs = some n := by
  rw [Digits, digitsValue?_eq_some_iff h, Nat.mul_zero]
  simp only [Nat.zero_add]

/-- A digit is neither a sign, nor a mark, nor a blank. -/
theorem IsDigit.visible (h : base ≤ 16) (hd : IsDigit base c d) :
    c ≠ '+' ∧ c ≠ '-' ∧ c ≠ 'x' ∧ c ≠ 'X' ∧ isBlank c = false := by
  have hall : ∀ d < 16, [Nat.digitChar d, (Nat.digitChar d).toUpper].all fun c =>
      c ≠ '+' ∧ c ≠ '-' ∧ c ≠ 'x' ∧ c ≠ 'X' ∧ isBlank c = false := by decide
  obtain ⟨hd, hc⟩ := hd
  have hvisible := List.all_eq_true.mp (hall d (Nat.lt_of_lt_of_le hd h)) c (by simpa using hc)
  exact of_decide_eq_true hvisible

theorem Digits.visible (h : base ≤ 16) (hcs : Digits base cs n) :
    ∀ c ∈ cs, c ≠ '+' ∧ c ≠ '-' ∧ c ≠ 'x' ∧ c ≠ 'X' ∧ isBlank c = false := by
  obtain ⟨-, ds, hds, -⟩ := hcs
  induction hds with
  | nil => exact nofun
  | cons hd _ ih => exact List.forall_mem_cons.mpr ⟨hd.visible h, ih⟩

theorem Digits.snoc (h : Digits base cs n) (hd : IsDigit base c d) :
    Digits base (cs ++ [c]) (base * n + d) := by
  obtain ⟨-, ds, hds, rfl⟩ := h
  refine ⟨by simp, ds ++ [d], List.rel_append hds (.cons hd .nil), ?_⟩
  rw [List.reverse_append, List.reverse_singleton, List.singleton_append, Nat.ofDigits_cons,
    Nat.add_comm]

/-- Zeros before the digits of a number change nothing. -/
theorem Digits.zeros (hbase : 0 < base) (h : Digits base cs n) (k : Nat) :
    Digits base (List.replicate k '0' ++ cs) n := by
  obtain ⟨hne, ds, hds, rfl⟩ := h
  have hzero : IsDigit base '0' 0 := ⟨hbase, Or.inl rfl⟩
  refine ⟨by simp [hne], List.replicate k 0 ++ ds, ?_, ?_⟩
  · refine List.rel_append ?_ hds
    induction k with
    | zero => exact .nil
    | succ k ih => exact .cons hzero ih
  · rw [List.reverse_append, Nat.ofDigits_append, List.reverse_replicate,
      Nat.ofDigits_replicate_zero, Nat.mul_zero, Nat.add_zero]

/-- Each character is kept or put into upper case. -/
def Recased (cs cs' : List Char) : Prop :=
  List.Forall₂ (fun c c' => c' = c ∨ c' = c.toUpper) cs cs'

/-- The case of letters makes no difference. -/
theorem Digits.recased {cs' : List Char} (hbase : base ≤ 16) (h : Digits base cs n)
    (hcase : Recased cs cs') : Digits base cs' n := by
  have hupper : ∀ d < 16, (Nat.digitChar d).toUpper.toUpper = (Nat.digitChar d).toUpper := by decide
  have hdigit : ∀ {c c' : Char} {d : Nat}, IsDigit base c d → c' = c ∨ c' = c.toUpper →
      IsDigit base c' d := by
    rintro c c' d ⟨hd, rfl | rfl⟩ (rfl | rfl)
    · exact ⟨hd, Or.inl rfl⟩
    · exact ⟨hd, Or.inr rfl⟩
    · exact ⟨hd, Or.inr rfl⟩
    · exact ⟨hd, Or.inr (hupper d (Nat.lt_of_lt_of_le hd hbase))⟩
  obtain ⟨hne, ds, hds, rfl⟩ := h
  refine ⟨?_, ds, ?_, rfl⟩
  · rintro rfl
    cases hcase
    exact hne rfl
  · clear hne
    induction hcase generalizing ds with
    | nil => exact hds
    | cons hc _ ih =>
      cases hds with
      | cons hd hds => exact .cons (hdigit hd hc) (ih _ hds)

/-- The digits of a number in order. -/
theorem digits_natDigits (hbase : 1 < base) (n : Nat) : Digits base (natDigits base n) n := by
  induction n using Nat.strong_induction_on with
  | _ n ih =>
    rw [natDigits]
    rcases Nat.lt_or_ge n base with hn | hn
    · rw [Nat.toDigits_of_lt_base hn]
      exact ⟨by simp, [n], .cons ⟨hn, Or.inl rfl⟩ .nil, by simp⟩
    · have hpos : 0 < n := by omega
      have hdigit : IsDigit base (Nat.digitChar (n % base)) (n % base) :=
        ⟨Nat.mod_lt n (by omega), Or.inl rfl⟩
      have h := (ih (n / base) (Nat.div_lt_self hpos hbase)).snoc hdigit
      rw [Nat.div_add_mod] at h
      rwa [Nat.toDigits_of_base_le hbase hn]

end Digits

/-! ### Numerals -/

section Numerals

variable {base n m : Nat} {cs : List Char}

theorem signed_plus_iff (h : base ≤ 16) : Signed base ('+' :: cs) n ↔ Digits base cs n := by
  refine ⟨fun hn => ?_, .plus⟩
  cases hn with
  | bare hn => exact absurd rfl (hn.visible h '+' List.mem_cons_self).1
  | plus hn => exact hn

theorem signed_iff_of_ne_plus (hcs : ∀ r, cs ≠ '+' :: r) : Signed base cs n ↔ Digits base cs n := by
  refine ⟨fun hn => ?_, .bare⟩
  cases hn with
  | bare hn => exact hn
  | plus _ => exact absurd rfl (hcs _)

theorem readNatural?_eq_some_iff (h : base ≤ 16) (limit : Nat) :
    readNatural? base limit cs = some n ↔ Signed base cs n ∧ n < limit := by
  unfold readNatural?
  extract_lets digits
  have hsigned : Signed base cs n ↔ Digits base digits n := by
    by_cases hplus : ∃ r, cs = '+' :: r
    · obtain ⟨r, rfl⟩ := hplus
      exact signed_plus_iff h
    · have hdigits : digits = cs := by
        simp only [digits]
        split
        · exact absurd ⟨_, rfl⟩ hplus
        · rfl
      rw [hdigits]
      exact signed_iff_of_ne_plus fun r hr => hplus ⟨r, hr⟩
  rw [hsigned, digits_iff h]
  split
  · rename_i hempty
    simp [List.isEmpty_iff.mp hempty]
  · rename_i hempty
    have hne : digits ≠ [] := fun hnil => hempty (List.isEmpty_iff.mpr hnil)
    split
    · rename_i m hm
      rw [hm]
      split_ifs with hlt
      · exact ⟨by rintro ⟨⟩; exact ⟨⟨hne, rfl⟩, hlt⟩, fun h => h.1.2⟩
      · exact ⟨nofun, fun h => absurd (Option.some.inj h.1.2 ▸ h.2) hlt⟩
    · rename_i hnone
      simp [hnone]

theorem Signed.visible (h : base ≤ 16) (hcs : Signed base cs n) :
    ∀ c ∈ cs, c ≠ '-' ∧ c ≠ 'x' ∧ c ≠ 'X' ∧ isBlank c = false := by
  cases hcs with
  | bare hcs => exact fun c hc => (hcs.visible h c hc).2
  | plus hcs => exact List.forall_mem_cons.mpr ⟨by decide, fun c hc => (hcs.visible h c hc).2⟩

theorem Signed.unique (h : base ≤ 16) (hn : Signed base cs n) (hm : Signed base cs m) : n = m := by
  have hn := (readNatural?_eq_some_iff h (n + m + 1)).mpr ⟨hn, by omega⟩
  have hm := (readNatural?_eq_some_iff h (n + m + 1)).mpr ⟨hm, by omega⟩
  exact Option.some.inj (hn.symm.trans hm)

/-- After the mark of a base nothing else than digits of this base can be read. -/
theorem numeral_mark_iff {x : Char} (hx : x = 'x' ∨ x = 'X') :
    Numeral ('0' :: x :: cs) n ↔ Signed 16 cs n := by
  refine ⟨fun hn => ?_, .hex hx⟩
  cases hn with
  | decimal hn =>
    have hmark := hn.visible (by decide) x (by simp)
    exact absurd hx (not_or.mpr ⟨hmark.2.1, hmark.2.2.1⟩)
  | hex _ hn => exact hn

theorem Numeral.unique (hn : Numeral cs n) (hm : Numeral cs m) : n = m := by
  cases hm with
  | decimal hm =>
    cases hn with
    | decimal hn => exact hn.unique (by decide) hm
    | hex hx hn => exact hn.unique (by decide) ((numeral_mark_iff hx).mp (.decimal hm))
  | hex hx hm => exact ((numeral_mark_iff hx).mp hn).unique (by decide) hm

theorem Numeral.visible (hn : Numeral cs n) : ∀ c ∈ cs, c ≠ '-' ∧ isBlank c = false := by
  have hsigned : ∀ {base : Nat} {cs : List Char}, base ≤ 16 → Signed base cs n →
      ∀ c ∈ cs, c ≠ '-' ∧ isBlank c = false := fun h hn c hc =>
    ⟨(hn.visible h c hc).1, (hn.visible h c hc).2.2.2⟩
  cases hn with
  | decimal hn => exact hsigned (by decide) hn
  | hex hx hn =>
    have hmark : ∀ x, x = 'x' ∨ x = 'X' → x ≠ '-' ∧ isBlank x = false := by
      rintro _ (rfl | rfl) <;> decide
    refine List.forall_mem_cons.mpr ⟨by decide, List.forall_mem_cons.mpr ⟨hmark _ hx, ?_⟩⟩
    exact hsigned (by decide) hn

/-- Words are read from the numerals of their values. -/
theorem readWord?_eq_some_iff {w : UInt64} : readWord? cs = some w ↔ Numeral cs w.toNat := by
  have hword : ∀ {number? : Option Nat}, (∀ n, number? = some n ↔ Numeral cs n ∧ n < wordLimit) →
      (number?.map UInt64.ofNat = some w ↔ Numeral cs w.toNat) := by
    intro number? hnumber
    rw [Option.map_eq_some_iff]
    constructor
    · rintro ⟨n, hn, rfl⟩
      obtain ⟨hn, hlt⟩ := (hnumber n).mp hn
      rwa [UInt64.toNat_ofNat_of_lt' hlt]
    · intro hn
      exact ⟨w.toNat, (hnumber _).mpr ⟨hn, w.toNat_lt⟩, UInt64.ofNat_toNat⟩
  unfold readWord?
  extract_lets number?
  refine hword fun n => ?_
  by_cases hmark : ∃ x r, cs = '0' :: x :: r ∧ (x = 'x' ∨ x = 'X')
  · obtain ⟨x, r, rfl, hx⟩ := hmark
    rw [numeral_mark_iff hx, ← readNatural?_eq_some_iff (by decide) wordLimit]
    rcases hx with rfl | rfl <;> rfl
  · have hnumber : number? = readNatural? 10 wordLimit cs := by
      simp only [number?]
      split
      · exact absurd ⟨_, _, rfl, Or.inl rfl⟩ hmark
      · exact absurd ⟨_, _, rfl, Or.inr rfl⟩ hmark
      · rfl
    rw [hnumber, readNatural?_eq_some_iff (by decide) wordLimit]
    refine and_congr_left fun _ => ⟨.decimal, fun hn => ?_⟩
    cases hn with
    | decimal hn => exact hn
    | hex hx _ => exact absurd ⟨_, _, rfl, hx⟩ hmark

end Numerals

/-! ### Blanks around numerals -/

section Blanks

variable {s : String} {n m : Nat}

/-- Trimming takes blanks away at both ends. -/
theorem exists_trimBlanks (cs : List Char) : ∃ before after,
    cs = before ++ (trimBlanks cs ++ after) ∧ Blanks before ∧ Blanks after := by
  have hblanks : ∀ cs : List Char, Blanks (cs.takeWhile isBlank) := fun _ =>
    List.all_eq_true.mp List.all_takeWhile
  refine ⟨cs.takeWhile isBlank, ((cs.dropWhile isBlank).reverse.takeWhile isBlank).reverse, ?_,
    hblanks cs, fun c hc => hblanks _ c (List.mem_reverse.mp hc)⟩
  rw [trimBlanks, ← List.reverse_append, List.takeWhile_append_dropWhile, List.reverse_reverse,
    List.takeWhile_append_dropWhile]

theorem dropWhile_blanks {before cs : List Char} (h : Blanks before)
    (hcs : ∀ c ∈ cs, isBlank c = false) : (before ++ cs).dropWhile isBlank = cs := by
  rw [List.dropWhile_append_of_pos h]
  cases cs with
  | nil => rfl
  | cons c cs => exact List.dropWhile_cons_of_neg (by simp [hcs c List.mem_cons_self])

/-- What has no blanks is left by trimming. -/
theorem trimBlanks_append {before cs after : List Char} (hbefore : Blanks before)
    (hafter : Blanks after) (hcs : ∀ c ∈ cs, isBlank c = false) :
    trimBlanks (before ++ (cs ++ after)) = cs := by
  have hrev : ∀ {l : List Char}, Blanks l → Blanks l.reverse := fun h c hc =>
    h c (List.mem_reverse.mp hc)
  rw [trimBlanks, List.dropWhile_append_of_pos hbefore]
  cases cs with
  | nil =>
    have hnone : ∀ c ∈ ([] : List Char), isBlank c = false := nofun
    have hnil : after.dropWhile isBlank = [] := by simpa using dropWhile_blanks hafter hnone
    rw [List.nil_append, hnil]
    rfl
  | cons c cs =>
    have hc : ¬ isBlank c = true := by simp [hcs c List.mem_cons_self]
    rw [List.cons_append, List.dropWhile_cons_of_neg hc, ← List.cons_append, List.reverse_append,
      dropWhile_blanks (hrev hafter) fun d hd => hcs d (List.mem_reverse.mp hd), List.reverse_reverse]

/-- A text denotes a number exactly if it is a numeral without the blanks at both ends. -/
theorem denotes_iff_trimBlanks : Denotes s n ↔ Numeral (trimBlanks s.toList) n := by
  constructor
  · rintro ⟨before, cs, after, hs, hbefore, hafter, hcs⟩
    rwa [hs, trimBlanks_append hbefore hafter fun c hc => (hcs.visible c hc).2]
  · intro h
    obtain ⟨before, after, hs, hbefore, hafter⟩ := exists_trimBlanks s.toList
    exact ⟨before, _, after, hs, hbefore, hafter, h⟩

theorem Denotes.unique (hn : Denotes s n) (hm : Denotes s m) : n = m :=
  (denotes_iff_trimBlanks.mp hn).unique (denotes_iff_trimBlanks.mp hm)

/-- The reader of addresses accepts the numerals of words, with their values. -/
theorem readAddress?_eq_some_iff {w : UInt64} : readAddress? s = some w ↔ Denotes s w.toNat := by
  rw [readAddress?, readWord?_eq_some_iff, denotes_iff_trimBlanks]

example : readAddress? " 0X+00fF " = some 255 := by decide

/-- What it refuses is no numeral, or one of a number that does not fit into a word. -/
theorem readAddress?_eq_none_iff : readAddress? s = none ↔ ∀ n, Denotes s n → wordLimit ≤ n := by
  rw [Option.eq_none_iff_forall_ne_some]
  constructor
  · intro h n hn
    by_contra hlt
    refine h (UInt64.ofNat n) (readAddress?_eq_some_iff.mpr ?_)
    rwa [UInt64.toNat_ofNat_of_lt' (Nat.not_le.mp hlt)]
  · intro h w hw
    exact Nat.not_le.mpr w.toNat_lt (h _ (readAddress?_eq_some_iff.mp hw))

theorem Denotes.not_mem_minus (h : Denotes s n) : '-' ∉ s.toList := by
  obtain ⟨before, cs, after, hs, hbefore, hafter, hcs⟩ := h
  have hblank : ¬ isBlank '-' = true := by decide
  rw [hs, List.mem_append, List.mem_append]
  rintro (hmem | hmem | hmem)
  · exact hblank (hbefore _ hmem)
  · exact (hcs.visible _ hmem).1 rfl
  · exact hblank (hafter _ hmem)

end Blanks

/-! ### Ways to write a number -/

section Writing

variable {n : Nat} {cs : List Char}

/-- Digits of a number, with zeros before them and letters of either case. -/
theorem digits_of_recased {base : Nat} (hone : 1 < base) (hbase : base ≤ 16) (k : Nat)
    (h : Recased (natDigits base n) cs) : Digits base (List.replicate k '0' ++ cs) n :=
  ((digits_natDigits hone n).recased hbase h).zeros (by omega) k

theorem recased_refl (cs : List Char) : Recased cs cs :=
  List.forall₂_same.mpr fun _ _ => Or.inl rfl

theorem numeral_decimal (n k : Nat) : Numeral (List.replicate k '0' ++ natDigits 10 n) n :=
  .decimal (.bare (digits_of_recased (by decide) (by decide) k (recased_refl _)))

theorem numeral_hex {x : Char} (hx : x = 'x' ∨ x = 'X') (k : Nat)
    (h : Recased (natDigits 16 n) cs) : Numeral ('0' :: x :: (List.replicate k '0' ++ cs)) n :=
  .hex hx (.bare (digits_of_recased (by decide) (by decide) k h))

theorem denotes_of_numeral {s : String} (h : Numeral s.toList n) : Denotes s n :=
  ⟨[], _, [], by simp, nofun, nofun, h⟩

theorem denotes_decimal (n : Nat) : Denotes (decimal n) n :=
  denotes_of_numeral (by rw [decimal, String.toList_ofList]; exact numeral_decimal n 0)

theorem denotes_hexNumber (n : Nat) : Denotes (hexNumber n) n := by
  refine denotes_of_numeral ?_
  simp only [hexNumber, String.toList_append, String.toList_ofList]
  exact numeral_hex (Or.inl rfl) 0 (recased_refl _)

/-- Words are read back from what is shown of them. -/
theorem readAddress?_hexWord (w : UInt64) : readAddress? (hexWord w) = some w := by
  refine readAddress?_eq_some_iff.mpr (denotes_of_numeral ?_)
  simp only [hexWord, paddedHex, String.toList_append, String.toList_ofList]
  exact numeral_hex (Or.inl rfl) _ (recased_refl _)

end Writing

end DebugAdapter.Text
