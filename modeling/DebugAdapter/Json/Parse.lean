import DebugAdapter.Json.Basic
import DebugAdapter.Text.Utf8

/-!
# Reading JSON

Reads one value from a byte string. Every fault has a cause and a position; the position is kept as
the number of bytes after it, and turned into a line and a column of bytes only for the message.

Nesting is limited to 127 levels. Integers that fit 64 bits, signed or unsigned, stay integers;
all other numbers become binary64 values by one multiplication or division of the digits read (at
most nineteen or twenty of them count) by a power of ten.
-/

namespace DebugAdapter.Json

/-- Why a text is no JSON value. -/
inductive Fault where
  | eofList | eofObject | eofString | eofValue
  | expectedColon | expectedListEnd | expectedObjectEnd | expectedIdent | expectedValue
  | invalidEscape | invalidNumber | numberOutOfRange | invalidCodePoint
  | controlCharacter | keyNotString | loneSurrogate | trailingComma | trailingCharacters
  | endOfHexEscape | tooDeep
  deriving Repr, DecidableEq

/-- The wording of a fault. -/
def Fault.text : Fault → String
  | eofList => "EOF while parsing a list"
  | eofObject => "EOF while parsing an object"
  | eofString => "EOF while parsing a string"
  | eofValue => "EOF while parsing a value"
  | expectedColon => "expected `:`"
  | expectedListEnd => "expected `,` or `]`"
  | expectedObjectEnd => "expected `,` or `\x7d`"
  | expectedIdent => "expected ident"
  | expectedValue => "expected value"
  | invalidEscape => "invalid escape"
  | invalidNumber => "invalid number"
  | numberOutOfRange => "number out of range"
  | invalidCodePoint => "invalid unicode code point"
  | controlCharacter => "control character (\\u0000-\\u001F) found while parsing a string"
  | keyNotString => "key must be a string"
  | loneSurrogate => "lone leading surrogate in hex escape"
  | trailingComma => "trailing comma"
  | trailingCharacters => "trailing characters"
  | endOfHexEscape => "unexpected end of hex escape"
  | tooDeep => "recursion limit exceeded"

/-- A fault and the number of bytes after its position. -/
structure Failure where
  fault : Fault
  after : Nat
  deriving Repr, DecidableEq

/-- The outcome of a reader: what was read and the bytes after it. -/
abbrev Read (α : Type) := Except Failure (α × Bytes)

/-- A fault found where `rest` begins. -/
def failAt {α : Type} (fault : Fault) (rest : Bytes) : Except Failure α :=
  .error ⟨fault, rest.length⟩

/-- A fault of the first byte of `rest`, whose position is behind that byte. -/
def failAhead {α : Type} (fault : Fault) (rest : Bytes) : Except Failure α :=
  .error ⟨fault, rest.length - 1⟩

/-- The bytes that may stand between tokens. -/
def isSpace (b : UInt8) : Bool :=
  b == 32 || b == 10 || b == 9 || b == 13

/-- Drops the blanks before a token. -/
def skipSpace (bs : Bytes) : Bytes :=
  bs.dropWhile isSpace

/-- Whether a byte is a decimal digit. -/
def isDigit (b : UInt8) : Bool :=
  48 ≤ b && b ≤ 57

/-! ### Strings -/

/-- The four digits of a `\u` escape. -/
def readHexEscape : Bytes → Read Nat
  | a :: b :: c :: d :: r =>
    let digit := fun (x : UInt8) => Text.digitValue? 16 (Char.ofNat x.toNat)
    match digit a, digit b, digit c, digit d with
    | some a, some b, some c, some d => .ok (4096 * a + 256 * b + 16 * c + d, r)
    | _, _, _, _ => failAt .invalidEscape r
  | _ => failAt .eofString []

/-- The scalar value of a `\u` escape, two of which make a value above U+FFFF. -/
def readUnicodeEscape (bs : Bytes) : Except Failure (Nat × Bytes) := do
  let (n, r) ← readHexEscape bs
  if 0xDC00 ≤ n ∧ n ≤ 0xDFFF then failAt .loneSurrogate r
  else if n < 0xD800 ∨ 0xDBFF < n then return (n, r)
  else match r with
    | [] => failAt .eofString []
    | 92 :: [] => failAt .eofString []
    | 92 :: 117 :: r =>
      let (low, r) ← readHexEscape r
      if 0xDC00 ≤ low ∧ low ≤ 0xDFFF then
        return ((n - 0xD800) * 1024 + (low - 0xDC00) + 0x10000, r)
      else failAt .loneSurrogate r
    | 92 :: _ :: r => failAt .endOfHexEscape r
    | _ :: r => failAt .endOfHexEscape r

/-- The bytes that an escape stands for, read behind its backslash. -/
def readEscape : Bytes → Except Failure (Bytes × Bytes)
  | [] => failAt .eofString []
  | b :: r =>
    if b == 34 || b == 92 || b == 47 then .ok ([b], r)
    else if b == 98 then .ok ([8], r)
    else if b == 102 then .ok ([12], r)
    else if b == 110 then .ok ([10], r)
    else if b == 114 then .ok ([13], r)
    else if b == 116 then .ok ([9], r)
    else if b == 117 then do
      let (n, r) ← readUnicodeEscape r
      return (String.utf8EncodeChar (Char.ofNat n), r)
    else failAt .invalidEscape r

/-- Reads the bytes of a string behind its opening quote; `found` holds those so far, last first. -/
def readStringOnto (found : Bytes) : (fuel : Nat) → Bytes → Except Failure (Bytes × Bytes)
  | 0, r => failAt .eofString r
  | _ + 1, [] => failAt .eofString []
  | fuel + 1, b :: r =>
    if b == 34 then .ok (found.reverse, r)
    else if b == 92 then
      match readEscape r with
      | .ok (bytes, r) => readStringOnto (bytes.reverse ++ found) fuel r
      | .error e => .error e
    else if b < 32 then failAt .controlCharacter r
    else readStringOnto (b :: found) fuel r

/-- Reads a string behind its opening quote. Bytes that are no character are a fault, found when the
string is complete. Its position counts back from the end of the string as many bytes as the text
has from the fault on, so that every escape before the fault moves it to the right. -/
def readString (bs : Bytes) : Read String :=
  match readStringOnto [] (bs.length + 1) bs with
  | .error e => .error e
  | .ok (bytes, r) =>
    match Text.Utf8.decode? bytes with
    | some s => .ok (s, r)
    | none => .error ⟨.invalidCodePoint, r.length + (bytes.length - Text.Utf8.validLength bytes)⟩

/-! ### Numbers -/

/-- The largest 64-bit number. -/
def maxWord : Nat := wordLimit - 1

/-- `significand * 10 ^ exponent` in binary64 arithmetic, by steps of at most 308 powers of ten. -/
def scale (significand : Float) : (fuel : Nat) → (exponent : Int) → Option Float
  | 0, _ => some significand
  | fuel + 1, exponent =>
    if exponent.natAbs ≤ 308 then
      let power := Float.ofScientific 1 false exponent.natAbs
      if 0 ≤ exponent then
        let f := significand * power
        if f.isInf then none else some f
      else some (significand / power)
    else if significand == 0.0 then some significand
    else if 0 ≤ exponent then none
    else scale (significand / Float.ofScientific 1 false 308) fuel (exponent + 308)

/-- A binary64 number from its digits, sign and power of ten. -/
def readBinary (positive : Bool) (significand : Nat) (exponent : Int) (r : Bytes) : Read Number :=
  match scale (UInt64.ofNat significand).toFloat 8 exponent with
  | some f => .ok (.binary (if positive then f else -f).toBits, r)
  | none => failAt .numberOutOfRange r

/-- Zero with a sign. -/
def signedZero (positive : Bool) : Number :=
  .binary (if positive then 0 else 0x8000000000000000)

/-- Digits of an exponent after those read so far. An exponent above the 32-bit range is an error,
except that it makes no difference to a zero, and turns any number into zero if it is negative. -/
def readExponentDigits (positive upwards : Bool) (significand : Nat) (start : Int) :
    (exponent : Nat) → Bytes → Read Number
  | exponent, [] =>
    readBinary positive significand (if upwards then start + exponent else start - exponent) []
  | exponent, b :: r =>
    if isDigit b then
      let next := exponent * 10 + (b.toNat - 48)
      if next < halfSign then
        readExponentDigits positive upwards significand start next r
      else if significand ≠ 0 ∧ upwards then failAt .numberOutOfRange r
      else .ok (signedZero positive, r.dropWhile isDigit)
    else
      readBinary positive significand (if upwards then start + exponent else start - exponent)
        (b :: r)

/-- An exponent behind its letter; `start` is the exponent that the digits before it give. -/
def readExponent (positive : Bool) (significand : Nat) (start : Int) (bs : Bytes) : Read Number :=
  let (upwards, r) := match bs with
    | 43 :: r => (true, r)
    | 45 :: r => (false, r)
    | r => (true, r)
  match r with
  | [] => failAt .eofValue []
  | b :: r =>
    if isDigit b then
      readExponentDigits positive upwards significand start (b.toNat - 48) r
    else failAt .invalidNumber r

/-- The end of a number with a point: an exponent or nothing. -/
def readAfterFraction (positive : Bool) (significand : Nat) (exponent : Int) (bs : Bytes) :
    Read Number :=
  match bs with
  | b :: r =>
    if b == 101 || b == 69 then readExponent positive significand exponent r
    else readBinary positive significand exponent bs
  | [] => readBinary positive significand exponent bs

/-- Digits behind the point; those that no longer fit 64 bits are dropped. -/
def readFraction (positive : Bool) (start : Int) :
    (significand : Nat) → (places : Nat) → Bytes → Read Number
  | significand, places, [] =>
    if places = 0 then failAhead .eofValue []
    else readAfterFraction positive significand (start - places) []
  | significand, places, b :: r =>
    if isDigit b then
      let next := significand * 10 + (b.toNat - 48)
      if next ≤ maxWord then readFraction positive start next (places + 1) r
      else readAfterFraction positive significand (start - places) ((b :: r).dropWhile isDigit)
    else if places = 0 then failAhead .invalidNumber (b :: r)
    else readAfterFraction positive significand (start - places) (b :: r)

/-- The rest of an integer part that does not fit 64 bits: each digit counts as a power of ten. -/
def readLongInteger (positive : Bool) (significand : Nat) : (dropped : Nat) → Bytes → Read Number
  | dropped, [] => readBinary positive significand dropped []
  | dropped, b :: r =>
    if isDigit b then readLongInteger positive significand (dropped + 1) r
    else if b == 46 then readFraction positive dropped significand 0 r
    else if b == 101 || b == 69 then readExponent positive significand dropped r
    else readBinary positive significand dropped (b :: r)

/-- An integer without point and exponent; a negative one below the signed range, and a negative
zero, are binary64 values. -/
def integerOf (positive : Bool) (significand : Nat) : Number :=
  if positive then .integer significand
  else if 0 < significand ∧ significand ≤ wordSign then .integer (-(significand : Int))
  else .binary (-(UInt64.ofNat significand).toFloat).toBits

/-- What follows the integer part of a number. -/
def readAfterInteger (positive : Bool) (significand : Nat) (bs : Bytes) : Read Number :=
  match bs with
  | b :: r =>
    if b == 46 then readFraction positive 0 significand 0 r
    else if b == 101 || b == 69 then readExponent positive significand 0 r
    else .ok (integerOf positive significand, bs)
  | [] => .ok (integerOf positive significand, bs)

/-- Digits of the integer part after those read so far. -/
def readIntegerDigits (positive : Bool) : (significand : Nat) → Bytes → Read Number
  | significand, [] => readAfterInteger positive significand []
  | significand, b :: r =>
    if isDigit b then
      let next := significand * 10 + (b.toNat - 48)
      if next ≤ maxWord then readIntegerDigits positive next r
      else readLongInteger positive significand 0 (b :: r)
    else readAfterInteger positive significand (b :: r)

/-- A number behind its sign. -/
def readNumber (positive : Bool) : Bytes → Read Number
  | [] => failAt .eofValue []
  | b :: r =>
    if b == 48 then
      match r with
      | d :: _ => if isDigit d then failAhead .invalidNumber r else readAfterInteger positive 0 r
      | [] => readAfterInteger positive 0 r
    else if isDigit b then readIntegerDigits positive (b.toNat - 48) r
    else failAt .invalidNumber r

/-! ### Values -/

/-- The rest of a literal word. -/
def readIdent (value : Json) : (expected : Bytes) → Bytes → Read Json
  | [], r => .ok (value, r)
  | _ :: _, [] => failAt .eofValue []
  | e :: es, b :: r => if b == e then readIdent value es r else failAt .expectedIdent r

/-- The colon behind a member name. -/
def readColon (bs : Bytes) : Except Failure Bytes :=
  match skipSpace bs with
  | [] => failAhead .eofObject []
  | b :: r => if b == 58 then .ok r else failAhead .expectedColon (b :: r)

mutual

/-- A value; `depth` is one more than the number of brackets that may still be opened. -/
def readValue : (fuel depth : Nat) → Bytes → Read Json
  | 0, _, r => failAt .eofValue r
  | fuel + 1, depth, bs =>
    match skipSpace bs with
    | [] => failAhead .eofValue []
    | b :: r =>
      if b == 110 then readIdent .null [117, 108, 108] r
      else if b == 116 then readIdent (.bool true) [114, 117, 101] r
      else if b == 102 then readIdent (.bool false) [97, 108, 115, 101] r
      else if b == 45 then
        match readNumber false r with
        | .ok (n, r) => .ok (.num n, r)
        | .error e => .error e
      else if isDigit b then
        match readNumber true (b :: r) with
        | .ok (n, r) => .ok (.num n, r)
        | .error e => .error e
      else if b == 34 then
        match readString r with
        | .ok (s, r) => .ok (.str s, r)
        | .error e => .error e
      else if b == 91 then
        if depth ≤ 1 then failAhead .tooDeep (b :: r) else readItems fuel (depth - 1) true [] r
      else if b == 123 then
        if depth ≤ 1 then failAhead .tooDeep (b :: r) else readMembers fuel (depth - 1) true [] r
      else failAhead .expectedValue (b :: r)

/-- The items of a list after those found (last first), `first` before any was read. -/
def readItems : (fuel depth : Nat) → (first : Bool) → (found : List Json) → Bytes → Read Json
  | 0, _, _, _, r => failAt .eofList r
  | fuel + 1, depth, first, found, bs =>
    match skipSpace bs with
    | [] => failAhead .eofList []
    | b :: r =>
      if b == 93 then .ok (.arr found.reverse, r)
      else
        let start : Except Failure Bytes :=
          if first then .ok (b :: r)
          else if b == 44 then
            match skipSpace r with
            | [] => failAhead .eofValue []
            | c :: r => if c == 93 then failAhead .trailingComma (c :: r) else .ok (c :: r)
          else failAhead .expectedListEnd (b :: r)
        match start with
        | .error e => .error e
        | .ok r =>
          match readValue fuel depth r with
          | .error e => .error e
          | .ok (v, r) => readItems fuel depth false (v :: found) r

/-- The members of an object after those found, `first` before any was read. -/
def readMembers : (fuel depth : Nat) → (first : Bool) → (found : Members) → Bytes → Read Json
  | 0, _, _, _, r => failAt .eofObject r
  | fuel + 1, depth, first, found, bs =>
    match skipSpace bs with
    | [] => failAhead .eofObject []
    | b :: r =>
      if b == 125 then .ok (.obj found, r)
      else
        let start : Except Failure Bytes :=
          if first then
            if b == 34 then .ok r else failAhead .keyNotString (b :: r)
          else if b == 44 then
            match skipSpace r with
            | [] => failAhead .eofValue []
            | c :: r =>
              if c == 34 then .ok r
              else if c == 125 then failAhead .trailingComma (c :: r)
              else failAhead .keyNotString (c :: r)
          else failAhead .expectedObjectEnd (b :: r)
        match start with
        | .error e => .error e
        | .ok r =>
          match readString r with
          | .error e => .error e
          | .ok (name, r) =>
            match readColon r with
            | .error e => .error e
            | .ok r =>
              match readValue fuel depth r with
              | .error e => .error e
              | .ok (v, r) => readMembers fuel depth false (insert name v found) r

end

/-- The whole byte string as one value. Every second step of the reader takes a byte, which bounds
their number. -/
def parse (bs : Bytes) : Except Failure Json :=
  match readValue (2 * bs.length + 2) 128 bs with
  | .error e => .error e
  | .ok (v, r) =>
    match skipSpace r with
    | [] => .ok v
    | r => failAhead .trailingCharacters r

/-- The wording of a failure to read `bs`: lines count from one, columns are the bytes between the
last line feed before the position and the position. -/
def Failure.message (bs : Bytes) (f : Failure) : String :=
  let before := bs.take (bs.length - f.after)
  let line := 1 + before.count 10
  let column := (before.reverse.takeWhile (· != 10)).length
  f.fault.text ++ " at line " ++ Text.decimal line ++ " column " ++ Text.decimal column

end DebugAdapter.Json
