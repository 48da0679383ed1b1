import DebugAdapter.Json.Render

/-!
# Rendered text

The text of a document holds no control character, whatever its strings, names and numbers are: the
control characters of strings and names are escaped, and the rest of the text consists of marks,
digits and words. In particular a document is a single line of text.

The induction is on the value, with one statement each for values, items and members.
-/

namespace DebugAdapter

/-- A text without control characters. -/
def Text.Printable (s : String) : Prop :=
  ∀ c ∈ s.toList, 32 ≤ c.toNat

instance (s : String) : Decidable (Text.Printable s) :=
  List.decidableBAll (fun c : Char => 32 ≤ c.toNat) s.toList

namespace Text

variable {s t : String}

theorem printable_append : Printable (s ++ t) ↔ Printable s ∧ Printable t := by
  simp only [Printable, String.toList_append, List.forall_mem_append]

theorem printable_ofList {cs : List Char} :
    Printable (String.ofList cs) ↔ ∀ c ∈ cs, 32 ≤ c.toNat := by
  simp only [Printable, String.toList_ofList]

theorem le_of_isDigit {c : Char} (h : c.isDigit = true) : 32 ≤ c.toNat := by
  have hzero : 48 ≤ c.toNat := by
    simp only [Char.isDigit, Bool.and_eq_true, decide_eq_true_eq] at h
    exact UInt32.le_iff_toNat_le.mp h.1
  omega

theorem le_of_mem_natDigits {n : Nat} {c : Char} (h : c ∈ natDigits 10 n) : 32 ≤ c.toNat :=
  le_of_isDigit (Nat.isDigit_of_mem_toDigits (by decide) (by decide) h)

theorem printable_decimal (n : Nat) : Printable (decimal n) :=
  printable_ofList.mpr fun _ hc => le_of_mem_natDigits hc

theorem printable_decimalInt (i : Int) : Printable (decimalInt i) := by
  cases i with
  | ofNat n => exact printable_decimal n
  | negSucc n =>
    have hsign : Printable "-" := by decide
    exact printable_append.mpr ⟨hsign, printable_decimal (n + 1)⟩

end Text

open Text

/-! ### Numbers -/

namespace Decimal

/-- Digits and zeros in front of them or behind them. -/
theorem printable_zeros (n d : Nat) :
    Printable (String.ofList (List.replicate n '0' ++ natDigits 10 d)) ∧
    Printable (String.ofList (natDigits 10 d ++ List.replicate n '0')) := by
  have hzeros : ∀ c ∈ List.replicate n '0', 32 ≤ c.toNat := by
    intro c hc
    rw [List.eq_of_mem_replicate hc]
    decide
  have hdigits : ∀ c ∈ natDigits 10 d, 32 ≤ c.toNat := fun _ hc => le_of_mem_natDigits hc
  simp only [printable_ofList, List.forall_mem_append]
  exact ⟨⟨hzeros, hdigits⟩, ⟨hdigits, hzeros⟩⟩

theorem printable_take (n d : Nat) : Printable (String.ofList ((natDigits 10 d).take n)) :=
  printable_ofList.mpr fun _ hc => le_of_mem_natDigits (List.mem_of_mem_take hc)

theorem printable_drop (n d : Nat) : Printable (String.ofList ((natDigits 10 d).drop n)) :=
  printable_ofList.mpr fun _ hc => le_of_mem_natDigits (List.mem_of_mem_drop hc)

theorem Decimal.printable_text (d : Decimal) : Printable d.text := by
  have hpoint : Printable "." := by decide
  have hwhole : Printable ".0" := by decide
  have hzero : Printable "0." := by decide
  have hdigits : Printable (String.ofList (natDigits 10 d.digits)) := printable_decimal d.digits
  have hpower : ∀ (c : Prop) [Decidable c] (i : Int),
      Printable ((if c then "e+" else "e") ++ decimalInt i) := by
    intro c _ i
    have hmark : Printable (if c then "e+" else "e") := by
      split
      · decide
      · decide
    exact printable_append.mpr ⟨hmark, printable_decimalInt i⟩
  unfold Decimal.text
  simp only
  split
  · exact printable_append.mpr ⟨(printable_zeros _ _).2, hwhole⟩
  · split
    · exact printable_append.mpr
        ⟨printable_append.mpr ⟨printable_take _ _, hpoint⟩, printable_drop _ _⟩
    · split
      · exact printable_append.mpr ⟨hzero, (printable_zeros _ _).1⟩
      · split
        · exact printable_append.mpr ⟨hdigits, hpower _ _⟩
        · have hfraction := printable_append.mpr
            ⟨printable_append.mpr ⟨printable_take 1 d.digits, hpoint⟩, printable_drop 1 d.digits⟩
          exact printable_append.mpr ⟨hfraction, hpower _ _⟩

theorem printable_binary64Text (bits : UInt64) : Printable (binary64Text bits) := by
  have hzero : Printable "0.0" := by decide
  unfold binary64Text
  apply printable_append.mpr
  constructor
  · split
    · decide
    · decide
  · split
    · exact hzero
    · exact Decimal.printable_text _

end Decimal

namespace Json

theorem Number.printable_text (n : Number) : Printable n.text := by
  cases n with
  | integer i => exact printable_decimalInt i
  | binary bits => exact Decimal.printable_binary64Text bits

/-! ### Strings -/

/-- No character is written as a control character. -/
theorem le_of_mem_escape {c d : Char} (h : d ∈ escape c) : 32 ≤ d.toNat := by
  unfold escape at h
  -- Seven characters have a mark of their own.
  iterate 7
    split at h
    · simp only [List.mem_cons, List.not_mem_nil, or_false] at h
      rcases h with rfl | rfl
      · decide
      · decide
  split at h
  · rename_i hcontrol
    have hdigit : ∀ n < 16, 32 ≤ (Nat.digitChar n).toNat := by decide
    simp only [List.mem_cons, List.not_mem_nil, or_false] at h
    rcases h with rfl | rfl | rfl | rfl | rfl | rfl
    · decide
    · decide
    · decide
    · decide
    · exact hdigit _ (by omega)
    · exact hdigit _ (by omega)
  · rename_i hplain
    rw [List.mem_singleton] at h
    rw [h]
    exact Nat.le_of_not_lt hplain

theorem printable_quote (s : String) : Printable (quote s) := by
  have hmark : Printable "\"" := by decide
  have hbody : Printable (String.ofList (s.toList.flatMap escape)) := by
    rw [printable_ofList]
    intro d hd
    obtain ⟨c, -, hc⟩ := List.mem_flatMap.mp hd
    exact le_of_mem_escape hc
  exact printable_append.mpr ⟨printable_append.mpr ⟨hmark, hbody⟩, hmark⟩

/-! ### Values -/

mutual

/-- The text of a value holds no control character. -/
theorem printable_render : ∀ v : Json, Printable (render v)
  | .null => by decide
  | .bool true => by decide
  | .bool false => by decide
  | .num n => n.printable_text
  | .str s => printable_quote s
  | .arr [] => by decide
  | .arr (v :: r) => by
    simp only [render, printable_append]
    exact ⟨⟨⟨by decide, printable_render v⟩, printable_renderItems r⟩, by decide⟩
  | .obj [] => by decide
  | .obj ((n, v) :: r) => by
    simp only [render, printable_append]
    exact ⟨⟨⟨⟨⟨by decide, printable_quote n⟩, by decide⟩, printable_render v⟩,
      printable_renderMembers r⟩, by decide⟩

theorem printable_renderItems : ∀ items : List Json, Printable (renderItems items)
  | [] => by decide
  | v :: r => by
    simp only [renderItems, printable_append]
    exact ⟨⟨by decide, printable_render v⟩, printable_renderItems r⟩

theorem printable_renderMembers : ∀ members : Members, Printable (renderMembers members)
  | [] => by decide
  | (n, v) :: r => by
    simp only [renderMembers, printable_append]
    exact ⟨⟨⟨⟨by decide, printable_quote n⟩, by decide⟩, printable_render v⟩,
      printable_renderMembers r⟩

end

end Json

end DebugAdapter
