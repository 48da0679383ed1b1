/-!
# Decimals beyond binary64

A decimal that is too large has no nearest binary64 number. The bound lies half a step above the
largest number, where rounding to even goes up.

Main statement: `overflows_iff`, the decision by the number of digits agrees with the comparison.
-/

namespace DebugAdapter.Decimal

/-- The least number that rounds to no binary64 number: half a step above the largest. -/
def overflowBound : Nat := Nat.pow 2 1024 - Nat.pow 2 970

/-- Whether `m * 10 ^ exponent` has no nearest binary64 number, where `m` has `digitCount` digits
without leading zeros. Only decimals with 309 digits before the point have to be compared. -/
def overflows (digitCount m : Nat) (exponent : Int) : Bool :=
  let size := digitCount + exponent
  if m = 0 || size < 309 then false
  else if 309 < size then true
  else if 0 ≤ exponent then overflowBound ≤ m * Nat.pow 10 exponent.toNat
  else overflowBound * Nat.pow 10 exponent.natAbs ≤ m

theorem pow_le_overflowBound {n : Nat} (h : n < 309) : Nat.pow 10 n ≤ overflowBound := by
  have all : ∀ n < 309, Nat.pow 10 n ≤ overflowBound := by decide +kernel
  exact all n h

theorem overflowBound_le_pow {n : Nat} (h : 309 ≤ n) : overflowBound ≤ Nat.pow 10 n := by
  have least : ∀ k, k = 309 → overflowBound ≤ Nat.pow 10 k := by
    rintro k rfl
    decide +kernel
  obtain ⟨k, hk⟩ : ∃ k, k = 309 := ⟨_, rfl⟩
  exact Nat.le_trans (least k hk) (Nat.pow_le_pow_right (by decide) (hk ▸ h))

/-- The decision by the number of digits agrees with the comparison. -/
theorem overflows_iff {d m n : Nat} (least : Nat.pow 10 (d - 1) ≤ m) (limit : m < Nat.pow 10 d) :
    overflows d m n = true ↔ overflowBound ≤ m * Nat.pow 10 n := by
  have pos : 0 < m := Nat.lt_of_lt_of_le (Nat.pow_pos (by decide)) least
  have npos : 0 < Nat.pow 10 n := Nat.pow_pos (by decide)
  have split (a b : Nat) : Nat.pow 10 a * Nat.pow 10 b = Nat.pow 10 (a + b) :=
    (Nat.pow_add 10 a b).symm
  simp only [overflows, Int.natCast_nonneg, if_true, Int.toNat_natCast]
  by_cases small : d + n < 309
  · have hlt : m * Nat.pow 10 n < overflowBound :=
      calc m * Nat.pow 10 n < Nat.pow 10 d * Nat.pow 10 n := Nat.mul_lt_mul_of_pos_right limit npos
        _ = Nat.pow 10 (d + n) := split d n
        _ ≤ overflowBound := pow_le_overflowBound small
    have : (d : Int) + n < 309 := by omega
    rw [if_pos (by simp [this])]
    simpa using hlt
  · have h1 : ¬(d : Int) + n < 309 := by omega
    rw [if_neg (by simp [h1, Nat.ne_of_gt pos])]
    by_cases large : 309 < d + n
    · have hle : overflowBound ≤ m * Nat.pow 10 n :=
        calc overflowBound ≤ Nat.pow 10 (d - 1 + n) := overflowBound_le_pow (by omega)
          _ = Nat.pow 10 (d - 1) * Nat.pow 10 n := (split _ _).symm
          _ ≤ m * Nat.pow 10 n := Nat.mul_le_mul_right _ least
      have h2 : (309 : Int) < d + n := by omega
      rw [if_pos h2]
      simpa using hle
    · have h2 : ¬(309 : Int) < d + n := by omega
      rw [if_neg h2]
      simp

end DebugAdapter.Decimal
