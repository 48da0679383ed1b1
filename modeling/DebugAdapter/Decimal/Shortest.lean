import DebugAdapter.Text.Numeral

/-!
# Shortest decimals

The decimal text of a binary64 value: the fewest digits that read back as the value, and of those
the nearest to it (an exact tie goes to the even digit).

A value is `m * 2 ^ q`; the reals that round to it form an interval, whose ends belong to it when
`m` is even. For `n = 1, 2, …, 17` digits the two neighbours of the value on the decimal grid with
`n` significant digits are tried; seventeen digits always suffice.
-/

namespace DebugAdapter.Decimal

/-- A decimal `digits * 10 ^ exponent`. -/
structure Decimal where
  digits : Nat
  exponent : Int
  deriving Repr, DecidableEq

/-- The interval of reals that round to a positive binary64 value, as numerators over one
denominator: the value, the lower end and the upper end, and whether the ends belong to it. -/
structure Rounding where
  value : Nat
  low : Nat
  high : Nat
  den : Nat
  closed : Bool
  deriving Repr, DecidableEq

namespace Rounding

/-- The number of values of the stored part of a significand, which has 52 bits. -/
def significandLimit : Nat := 0x10000000000000

/-- The rounding interval of a finite positive binary64 value, given by the bits below its sign.
Below a power of two the values lie twice as dense, so there the lower half gap is half as wide. -/
def ofBits (bits : Nat) : Rounding :=
  let fraction := bits % significandLimit
  let biased := bits / significandLimit
  let m := if biased = 0 then fraction else fraction + significandLimit
  let scaled : Nat := if biased = 0 then 1 else biased
  let q : Int := (scaled : Int) - 1075 - 2
  let below := if fraction = 0 ∧ 1 < biased then 1 else 2
  let scale := Nat.pow 2 q.toNat
  ⟨4 * m * scale, (4 * m - below) * scale, (4 * m + 2) * scale, Nat.pow 2 (-q).toNat, m % 2 == 0⟩

/-- Whether the decimal `d * num / den` lies in the interval. -/
def contains (r : Rounding) (d num den : Nat) : Bool :=
  let x := d * num * r.den
  if r.closed then r.low * den ≤ x && x ≤ r.high * den
  else r.low * den < x && x < r.high * den

/-- The power of ten of the leading digit of the value. -/
def leading (r : Rounding) : Int :=
  if r.den ≤ r.value then ((Text.natDigits 10 (r.value / r.den)).length : Int) - 1
  else
    let n := (Text.natDigits 10 (r.den / r.value)).length
    if r.den ≤ r.value * Nat.pow 10 (n - 1) then -((n - 1 : Nat) : Int) else -(n : Int)

/-- The point of the grid `10 ^ exponent` in the interval that is nearest to the value, if any. -/
def nearest? (r : Rounding) (exponent : Int) : Option Nat :=
  let num := Nat.pow 10 exponent.toNat
  let den := Nat.pow 10 (-exponent).toNat
  let d := r.value * den / (r.den * num)
  let rest := r.value * den % (r.den * num)
  let lowFits := r.contains d num den
  let highFits := r.contains (d + 1) num den
  if lowFits && highFits then
    if 2 * rest < r.den * num then some d
    else if r.den * num < 2 * rest then some (d + 1)
    else if d % 2 = 0 then some d else some (d + 1)
  else if lowFits then some d
  else if highFits then some (d + 1)
  else none

/-- Tries grids of `n`, `n + 1`, … significant digits, `fuel` of them. -/
def search (r : Rounding) (leading : Int) : (fuel n : Nat) → Decimal
  | 0, n => ⟨r.value * Nat.pow 10 n / r.den, -(n : Int)⟩
  | fuel + 1, n =>
    let exponent := leading - (n : Int) + 1
    match r.nearest? exponent with
    | some d => ⟨d, exponent⟩
    | none => search r leading fuel (n + 1)

end Rounding

/-- Moves trailing zeros of the digits into the exponent, at most `fuel` of them. -/
def dropZeros : (fuel : Nat) → Decimal → Decimal
  | 0, d => d
  | fuel + 1, d =>
    if d.digits ≠ 0 ∧ d.digits % 10 = 0 then dropZeros fuel ⟨d.digits / 10, d.exponent + 1⟩ else d

/-- The shortest decimal of a finite positive binary64 value, given by the bits below its sign. -/
def shortest (bits : Nat) : Decimal :=
  let r := Rounding.ofBits bits
  dropZeros 18 (r.search r.leading 17 1)

/-- The text of a decimal: positional while the point stands at most sixteen places to the right
and four to the left of the first digit's left edge, else with a signed exponent; a positional
integer ends in `.0`. -/
def Decimal.text (d : Decimal) : String :=
  let ds := Text.natDigits 10 d.digits
  let n : Int := ds.length
  let point : Int := n + d.exponent
  let power := (if 1 ≤ point then "e+" else "e") ++ Text.decimalInt (point - 1)
  if 0 ≤ d.exponent ∧ point ≤ 16 then
    String.ofList (ds ++ List.replicate d.exponent.toNat '0') ++ ".0"
  else if 0 < point ∧ point ≤ 16 then
    String.ofList (ds.take point.toNat) ++ "." ++ String.ofList (ds.drop point.toNat)
  else if -5 < point ∧ point ≤ 0 then
    "0." ++ String.ofList (List.replicate (-point).toNat '0' ++ ds)
  else if ds.length = 1 then
    String.ofList ds ++ power
  else
    String.ofList (ds.take 1) ++ "." ++ String.ofList (ds.drop 1) ++ power

/-- The text of a finite binary64 value, given by its bits. -/
def binary64Text (bits : UInt64) : String :=
  let magnitude := bits.toNat % wordSign
  let sign := if bits.toNat / wordSign = 1 then "-" else ""
  sign ++ (if magnitude = 0 then "0.0" else (shortest magnitude).text)

end DebugAdapter.Decimal
