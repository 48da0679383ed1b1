/-!
# Punycode

A text with characters beyond ASCII as an ASCII text: its basic characters, and then for each other
character, in the order of code points, how far the pair of code point and place has moved on. A
distance is a numeral with the least digit first; the digit that ends it depends on a bias, which
adapts to the distances seen so far.

Main statement: `length_le_of_decode?`, no decoded text exceeds the given limit.
-/

namespace DebugAdapter.Text.Punycode

/-- The value of a digit: `a` to `z`, then `0` to `9`. -/
def digit? (c : Char) : Option Nat :=
  if 'a' ≤ c ∧ c ≤ 'z' then some (c.toNat - 97)
  else if '0' ≤ c ∧ c ≤ '9' then some (c.toNat - 22)
  else none

/-- The least digit that does not end a numeral at place `k`. -/
def threshold (bias k : Nat) : Nat :=
  min (max (k - bias) 1) 26

/-- Reads a numeral from place `k` on, where a digit weighs `weight`: its value on top of `acc`, and
what follows it. -/
def readDistance (bias : Nat) : (k weight acc : Nat) → List Char → Option (Nat × List Char)
  | _, _, _, [] => none
  | k, weight, acc, c :: r =>
    match digit? c with
    | none => none
    | some d =>
      let t := threshold bias k
      let acc := acc + d * weight
      if d < t then some (acc, r) else readDistance bias (k + 36) (weight * (36 - t)) acc r

/-- Divides a distance until it is small, counting the places. -/
def settle (k delta : Nat) : Nat × Nat :=
  if 455 < delta then settle (k + 36) (delta / 35) else (k, delta)
termination_by delta
decreasing_by exact Nat.div_lt_self (by omega) (by omega)

/-- The bias after a distance, in a text that now has `length` characters. -/
def nextBias (first : Bool) (delta length : Nat) : Nat :=
  let delta := if first then delta / 700 else delta / 2
  let (k, delta) := settle 0 (delta + delta / length)
  k + 36 * delta / (delta + 38)

/-- The text with `c` at place `i`. -/
def insertAt (c : Char) (i : Nat) (text : List Char) : List Char :=
  text.take i ++ c :: text.drop i

/-- Inserts the characters that distances stand for. `code` and `place` are the pair reached so far
and `fuel` bounds the number of characters. -/
def insertAll (limit : Nat) : (fuel : Nat) → (first : Bool) → (bias code place : Nat) →
    (text : List Char) → List Char → Option (List Char)
  | 0, _, _, _, _, _, _ => none
  | fuel + 1, first, bias, code, place, text, cs =>
    match readDistance bias 36 1 0 cs with
    | none => none
    | some (delta, r) =>
      let length := text.length + 1
      let code := code + (place + delta) / length
      let place := (place + delta) % length
      if code.isValidChar then
        if limit < length then none
        else
          let text := insertAt (Char.ofNat code) place text
          match r with
          | [] => some text
          | _ => insertAll limit fuel false (nextBias first delta length) code (place + 1) text r
      else none

/-- The text with the given basic characters and distances, if it has at most `limit` characters. -/
def decode? (limit : Nat) (basic distances : List Char) : Option (List Char) :=
  if limit < basic.length then none
  else insertAll limit distances.length true 72 0x80 0 basic distances

theorem length_insertAt (c : Char) (i : Nat) (text : List Char) :
    (insertAt c i text).length = text.length + 1 := by
  simp only [insertAt, List.length_append, List.length_cons, List.length_take, List.length_drop]
  omega

theorem length_le_of_insertAll {limit fuel : Nat} {first : Bool} {bias code place : Nat}
    {text cs out : List Char}
    (h : insertAll limit fuel first bias code place text cs = some out) :
    out.length ≤ limit := by
  induction fuel generalizing first bias code place text cs with
  | zero => simp [insertAll] at h
  | succ fuel ih =>
    rw [insertAll] at h
    cases hread : readDistance bias 36 1 0 cs with
    | none => simp [hread] at h
    | some found =>
      obtain ⟨delta, r⟩ := found
      simp only [hread] at h
      split at h
      · split at h
        · simp at h
        · next hlimit =>
          split at h
          · obtain rfl := Option.some.inj h
            rw [length_insertAt]
            omega
          · exact ih h
      · simp at h

/-- No decoded text exceeds the limit. -/
theorem length_le_of_decode? {limit : Nat} {basic distances out : List Char}
    (h : decode? limit basic distances = some out) : out.length ≤ limit := by
  rw [decode?] at h
  split at h
  · simp at h
  · exact length_le_of_insertAll h

end DebugAdapter.Text.Punycode
