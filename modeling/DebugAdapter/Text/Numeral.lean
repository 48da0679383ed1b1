import DebugAdapter.Word

/-!
# White space and numerals

Texts from the client are trimmed by the Unicode property `White_Space`, which is larger than the
ASCII set. Numerals are read as 64-bit numbers with an optional plus sign; addresses may carry a
hexadecimal mark.
-/

namespace DebugAdapter.Text

/-- The Unicode property `White_Space`. -/
def isBlank (c : Char) : Bool :=
  let n := c.toNat
  (9 ≤ n && n ≤ 13) || n == 0x20 || n == 0x85 || n == 0xA0 || n == 0x1680
    || (0x2000 ≤ n && n ≤ 0x200A) || n == 0x2028 || n == 0x2029 || n == 0x202F || n == 0x205F
    || n == 0x3000

theorem isBlank_of_isWhitespace {c : Char} (h : c.isWhitespace = true) : isBlank c = true := by
  have h : ((c = ' ' ∨ c = '\t') ∨ c = '\r') ∨ c = '\n' := by
    simpa [Char.isWhitespace] using h
  rcases h with ((rfl | rfl) | rfl) | rfl <;> decide

/-- The characters without the blanks at both ends. -/
def trimBlanks (cs : List Char) : List Char :=
  ((cs.dropWhile isBlank).reverse.dropWhile isBlank).reverse

/-- The text without the blanks at both ends. -/
def trim (s : String) : String :=
  String.ofList (trimBlanks s.toList)

/-- The text without the blanks at its end. -/
def trimEnd (s : String) : String :=
  String.ofList (s.toList.reverse.dropWhile isBlank).reverse

/-- The value of a digit in a base up to sixteen, letters of either case. -/
def digitValue? (base : Nat) (c : Char) : Option Nat :=
  let v? : Option Nat :=
    if '0' ≤ c ∧ c ≤ '9' then some (c.toNat - 48)
    else if 'a' ≤ c ∧ c ≤ 'f' then some (c.toNat - 87)
    else if 'A' ≤ c ∧ c ≤ 'F' then some (c.toNat - 55)
    else none
  match v? with
  | some v => if v < base then some v else none
  | none => none

/-- The number that digits denote after those read so far; `none` if one of them is no digit. -/
def digitsValue? (base : Nat) : (acc : Nat) → List Char → Option Nat
  | acc, [] => some acc
  | acc, c :: r =>
    match digitValue? base c with
    | some d => digitsValue? base (acc * base + d) r
    | none => none

/-- Reads one or more digits after an optional plus sign as a number below `limit`. -/
def readNatural? (base limit : Nat) (cs : List Char) : Option Nat :=
  let digits := match cs with
    | '+' :: r => r
    | _ => cs
  if digits.isEmpty then none
  else match digitsValue? base 0 digits with
    | some n => if n < limit then some n else none
    | none => none

/-- Reads a 64-bit number: hexadecimal after `0x` or `0X`, decimal otherwise. -/
def readWord? (cs : List Char) : Option UInt64 :=
  let number? : Option Nat := match cs with
    | '0' :: 'x' :: r => readNatural? 16 wordLimit r
    | '0' :: 'X' :: r => readNatural? 16 wordLimit r
    | _ => readNatural? 10 wordLimit cs
  number?.map UInt64.ofNat

/-- Reads an address or register value, with blanks around it allowed. -/
def readAddress? (s : String) : Option UInt64 :=
  readWord? (trimBlanks s.toList)

/-- The lower-case digits of a number in a base up to sixteen, without leading zeros. -/
def natDigits (base n : Nat) : List Char :=
  Nat.toDigits base n

/-- The decimal numeral of a number. -/
def decimal (n : Nat) : String :=
  String.ofList (natDigits 10 n)

/-- The decimal numeral of an integer. -/
def decimalInt (i : Int) : String :=
  match i with
  | .ofNat n => decimal n
  | .negSucc n => "-" ++ decimal (n + 1)

/-- The lower-case hexadecimal numeral of a number after `0x`, without leading zeros. -/
def hexNumber (n : Nat) : String :=
  "0x" ++ String.ofList (natDigits 16 n)

/-- The hexadecimal digits of a number, filled up with zeros to `width`. -/
def paddedHex (width n : Nat) : String :=
  let ds := natDigits 16 n
  String.ofList (List.replicate (width - ds.length) '0' ++ ds)

/-- A machine word as `0x` and sixteen hexadecimal digits. -/
def hexWord (w : UInt64) : String :=
  "0x" ++ paddedHex 16 w.toNat

end DebugAdapter.Text
