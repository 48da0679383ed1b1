/-!
# Limits of machine words

How many values words and byte strings of a width have. Numbers are natural numbers or integers
wherever they are computed with; these limits say where they stop to fit.

Main statement: `byteLimit_eight` (a word of 64 bits is a string of eight bytes).
-/

namespace DebugAdapter

/-- The number of values of a string of `width` bytes. -/
def byteLimit : (width : Nat) → Nat
  | 0 => 1
  | width + 1 => 256 * byteLimit width

/-- The number of values of a word of 64 bits. -/
abbrev wordLimit : Nat := 0x10000000000000000

/-- The values of a word of 64 bits from here on stand for negative numbers in two's complement. -/
abbrev wordSign : Nat := 0x8000000000000000

/-- The number of values of a word of 32 bits. -/
abbrev halfLimit : Nat := 0x100000000

/-- The values of a word of 32 bits from here on stand for negative numbers in two's complement. -/
abbrev halfSign : Nat := 0x80000000

/-- A word of 64 bits is a string of eight bytes. -/
theorem byteLimit_eight : byteLimit 8 = wordLimit := rfl

end DebugAdapter
