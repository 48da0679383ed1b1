import DebugAdapter.Bytes
import DebugAdapter.Json.Basic
import DebugAdapter.Text.Utf8

/-!
# Lenient reading of JSON values

Documents that people write by hand leave out what is not needed. Here every value can be read as a
number, a text, a list or a byte string: a value of another type, or a member that is missing, counts
as nothing (zero, the empty text). Large numbers may be written in hexadecimal in a text, and byte
strings as a text, by their digits, as a list of parts, or as a part that is repeated.

Main statements: `asNat_ofNat` and `asWord_ofWord`, numbers are read as what they are.
-/

namespace DebugAdapter.Json

/-! ### Values -/

/-- The items of a list. -/
def items : Json → List Json
  | .arr xs => xs
  | _ => []

/-- The members of an object. -/
def members : Json → Members
  | .obj ms => ms
  | _ => []

/-- The text that a value is, if it is one. -/
def asText? : Json → Option String
  | .str s => some s
  | _ => none

/-- The text that a value is. -/
def asText (j : Json) : String := j.asText?.getD ""

/-- The number that a text writes: decimal, or hexadecimal after `0x`. -/
def numberIn (s : String) : Nat :=
  match s.toList with
  | '0' :: 'x' :: r => (Text.digitsValue? 16 0 r).getD 0
  | r => (Text.digitsValue? 10 0 r).getD 0

/-- The integer that a value is. -/
def asInt : Json → Int
  | .num (.integer i) => i
  | .str s => numberIn s
  | _ => 0

/-- The natural number that a value is. -/
def asNat (j : Json) : Nat := j.asInt.toNat

/-- The machine word that a value is. -/
def asWord (j : Json) : UInt64 := UInt64.ofNat j.asNat

/-- A value unless it is `null`. -/
def given? : Json → Option Json
  | .null => none
  | j => some j

/-- The most parts of a byte string that are nested. -/
def maxNesting : Nat := 128

/-- The byte string that a value describes; `depth` bounds the nesting of its parts. -/
def bytesWithin : (depth : Nat) → Json → Bytes
  | _, .str s => Text.Utf8.encode s
  | depth + 1, .arr xs => xs.flatMap (bytesWithin depth)
  | depth + 1, .obj ms =>
    match lookup "hex" ms, lookup "text" ms, lookup "repeat" ms with
    | some digits, _, _ => (Bytes.ofHex? digits.asText).getD []
    | none, some text, _ => Text.Utf8.encode text.asText
    | none, none, some part =>
      let times := ((lookup "times" ms).map asNat).getD 0
      (List.replicate times (bytesWithin depth part)).flatten
    | none, none, none => []
  | _, _ => []

/-- The byte string that a value describes. -/
def asBytes (j : Json) : Bytes := bytesWithin maxNesting j

/-! ### Members -/

/-- Whether an object has a member. -/
def has (j : Json) (name : String) : Bool := (j.get? name).isSome

/-- A member of an object; `null` without it. -/
def member (j : Json) (name : String) : Json := (j.get? name).getD .null

/-- The items of a member. -/
def list (j : Json) (name : String) : List Json := (j.member name).items

/-- The text in a member, if there is one. -/
def text? (j : Json) (name : String) : Option String := (j.member name).asText?

/-- The text in a member. -/
def text (j : Json) (name : String) : String := (j.member name).asText

/-- The integer in a member, if there is one. -/
def int? (j : Json) (name : String) : Option Int := (j.member name).given?.map asInt

/-- The integer in a member. -/
def int (j : Json) (name : String) : Int := (j.member name).asInt

/-- The natural number in a member, if there is one. -/
def nat? (j : Json) (name : String) : Option Nat := (j.member name).given?.map asNat

/-- The natural number in a member. -/
def nat (j : Json) (name : String) : Nat := (j.member name).asNat

/-- The machine word in a member, if there is one. -/
def word? (j : Json) (name : String) : Option UInt64 := (j.member name).given?.map asWord

/-- The machine word in a member. -/
def word (j : Json) (name : String) : UInt64 := (j.member name).asWord

/-- The byte string in a member. -/
def bytes (j : Json) (name : String) : Bytes := (j.member name).asBytes

/-- The truth value in a member, which need not be given. -/
def flag (j : Json) (name : String) (standard : Bool) : Bool :=
  match j.member name with
  | .bool b => b
  | _ => standard

/-! ### Numbers -/

@[simp] theorem asNat_ofNat (n : Nat) : (ofNat n).asNat = n := by
  simp [ofNat, asNat, asInt]

@[simp] theorem asWord_ofWord (w : UInt64) : (ofWord w).asWord = w := by
  simp [ofWord, asWord]

end DebugAdapter.Json
