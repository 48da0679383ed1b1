import DebugAdapter.Text.Numeral
import DebugAdapter.Word

/-!
# Byte strings

Frames, memory windows and process output are lists of bytes. This module holds what all of them
share: the little-endian form of a number and the two-digit hexadecimal view of a byte string.

Main statements: `toNat_littleEndian` (a number that fits is read back) and `length_littleEndian`.
-/

namespace DebugAdapter

/-- A string of bytes. -/
abbrev Bytes := List UInt8

namespace Bytes

/-- The `width` low-order bytes of `n`, lowest first. -/
def littleEndian : (width : Nat) → (n : Nat) → Bytes
  | 0, _ => []
  | w + 1, n => UInt8.ofNat (n % 256) :: littleEndian w (n / 256)

/-- The number whose bytes, lowest first, are given. -/
def toNat : Bytes → Nat
  | [] => 0
  | b :: r => b.toNat + 256 * toNat r

@[simp] theorem length_littleEndian (w n : Nat) : (littleEndian w n).length = w := by
  induction w generalizing n with
  | zero => rfl
  | succ w ih => simp [littleEndian, ih]

/-- A number below the limit of `w` bytes is read back from its `w` bytes. -/
theorem toNat_littleEndian {w n : Nat} (h : n < byteLimit w) : toNat (littleEndian w n) = n := by
  induction w generalizing n with
  | zero => simp only [byteLimit] at h; simp [littleEndian, toNat]; omega
  | succ w ih =>
    have : n / 256 < byteLimit w := by rw [byteLimit] at h; omega
    simp [littleEndian, toNat, ih this]
    omega

/-- The bytes of a number that was read from them. -/
theorem littleEndian_toNat (bs : Bytes) : littleEndian bs.length (toNat bs) = bs := by
  induction bs with
  | nil => rfl
  | cons b r ih =>
    have hb : b.toNat < 256 := b.toNat_lt
    have h1 : (b.toNat + 256 * toNat r) % 256 = b.toNat := by omega
    have h2 : (b.toNat + 256 * toNat r) / 256 = toNat r := by omega
    simp [littleEndian, toNat, ih, h1, h2]

theorem toNat_lt (bs : Bytes) : toNat bs < byteLimit bs.length := by
  induction bs with
  | nil => simp [toNat, byteLimit]
  | cons b r ih =>
    have hb : b.toNat < 256 := b.toNat_lt
    simp [toNat, byteLimit]
    omega

/-- The eight bytes of a machine word, lowest first. -/
def ofWord (w : UInt64) : Bytes :=
  littleEndian 8 w.toNat

/-- The machine word with the given bytes, lowest first; bytes after the eighth have no effect. -/
def toWord (bs : Bytes) : UInt64 :=
  UInt64.ofNat (toNat bs)

@[simp] theorem length_ofWord (w : UInt64) : (ofWord w).length = 8 :=
  length_littleEndian 8 _

@[simp] theorem toWord_ofWord (w : UInt64) : toWord (ofWord w) = w := by
  have h : w.toNat < byteLimit 8 := w.toNat_lt
  simp [toWord, ofWord, toNat_littleEndian h]

/-- The two hexadecimal digits of a byte. -/
def hexByte (b : UInt8) : List Char :=
  [Nat.digitChar (b.toNat / 16), Nat.digitChar (b.toNat % 16)]

/-- The bytes as pairs of lower-case hexadecimal digits without separators. -/
def hex (bs : Bytes) : String :=
  String.ofList (bs.flatMap hexByte)

/-- The bytes as pairs of lower-case hexadecimal digits with a blank between two bytes. -/
def hexSpaced (bs : Bytes) : String :=
  String.ofList ((bs.map hexByte).intersperse [' ']).flatten

/-- Reads pairs of hexadecimal digits; `none` if there is another character or half a pair. -/
def ofHexDigits? : List Char → Option Bytes
  | [] => some []
  | [_] => none
  | c :: d :: r => do
    let hi ← Text.digitValue? 16 c
    let lo ← Text.digitValue? 16 d
    let rest ← ofHexDigits? r
    return UInt8.ofNat (16 * hi + lo) :: rest

/-- Reads a text of hexadecimal digit pairs. -/
def ofHex? (s : String) : Option Bytes :=
  ofHexDigits? s.toList

end Bytes

end DebugAdapter
