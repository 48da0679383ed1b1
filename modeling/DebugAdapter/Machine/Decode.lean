import DebugAdapter.Debuggee.Engine
import DebugAdapter.Machine.Operand

/-!
# Decoding machine instructions

Reads one instruction of 64-bit code from the front of a byte string. It knows the instructions of
function prologues, calls, returns, jumps, stack adjustments, moves, integer arithmetic and padding;
anything else, and an instruction that is cut off, has no decoding.

Main statements: `length_decode?_pos` and `length_decode?_le` (an instruction takes at least one
byte, at most fifteen, and none beyond the code).
-/

namespace DebugAdapter.Machine

/-- An instruction without its address. -/
structure Decoded where
  mnemonic : String
  operands : List Operand
  /-- Whether immediates are shown as signed numbers. -/
  signed : Bool
  deriving Repr, DecidableEq

namespace Decoded

/-- The operands in text form. -/
def operandText (d : Decoded) : String :=
  ", ".intercalate (d.operands.map (·.text d.signed))

end Decoded

/-- Reads from the front of a byte string. -/
abbrev CodeReader := StateT Bytes Option

namespace CodeReader

/-- Refuses the code. -/
def refuse {α : Type} : CodeReader α := fun _ => none

/-- The next byte. -/
def byte : CodeReader Nat
  | [] => none
  | b :: r => some (b.toNat, r)

/-- The number in the next `n` bytes, lowest first. -/
def unsigned (n : Nat) : CodeReader Nat := fun bs =>
  if n ≤ bs.length then some (Bytes.toNat (bs.take n), bs.drop n) else none

/-- The number in the next `n` bytes in two's complement. -/
def signed (n : Nat) : CodeReader Int := do
  let v ← unsigned n
  return if 2 * v < byteLimit n then (v : Int) else (v : Int) - byteLimit n

end CodeReader

open CodeReader

/-- The register extension prefix: a wide operand, and the fourth bits of the register, index and
base numbers. -/
structure Extension where
  isPresent : Bool
  wide : Bool
  register : Nat
  index : Nat
  base : Nat
  deriving Repr, DecidableEq

namespace Extension

/-- No prefix. -/
def absent : Extension := ⟨false, false, 0, 0, 0⟩

/-- The prefix in the four low bits of a byte. -/
def ofByte (b : Nat) : Extension :=
  ⟨true, b.testBit 3, (b / 4 % 2) * 8, (b / 2 % 2) * 8, (b % 2) * 8⟩

/-- The size of an operand that is wide on demand. -/
def width (x : Extension) : Width :=
  if x.wide then .qword else .dword

end Extension

/-- The byte after an opcode: how an operand is addressed, a register number or an opcode extension,
and a register number. -/
structure Selector where
  mode : Nat
  register : Nat
  rm : Nat
  deriving Repr, DecidableEq

/-- Reads a selector. -/
def selector : CodeReader Selector := do
  let b ← byte
  return ⟨b / 64, b / 8 % 8, b % 8⟩

/-- A byte register: without the extension prefix the numbers four to seven are second bytes. -/
def byteRegister (x : Extension) (n : Nat) : Operand :=
  if !x.isPresent && 4 ≤ n && n < 8 then .highByte (n - 4) else .register .byte n

/-- A register operand. -/
def registerOperand (w : Width) (x : Extension) (n : Nat) : Operand :=
  match w with
  | .byte => byteRegister x n
  | w => .register w n

/-- The displacement that an addressing mode calls for. -/
def displacement (mode : Nat) : CodeReader Int :=
  match mode with
  | 1 => signed 1
  | 2 => signed 4
  | _ => return 0

/-- The scaled index that a byte after the selector encodes. The number four stands for no index; the
zero index is shown where the byte would not be needed, or has a scale, although there is none. -/
def scaledIndex (x : Extension) (needsByte : Bool) (b : Nat) : Option (Index × Nat) :=
  let scale := Nat.pow 2 (b / 64)
  let number := b / 8 % 8 + x.index
  if number ≠ 4 then some (.register number, scale)
  else if needsByte && scale = 1 then none
  else some (.zero, scale)

/-- The memory operand of a selector whose mode is not that of a register. -/
def memoryOperand (w : Option Width) (x : Extension) (s : Selector) : CodeReader Operand := do
  if s.rm = 4 then
    let b ← byte
    let isBaseless := b % 8 = 5 && s.mode = 0
    let index := scaledIndex x (isBaseless || b % 8 = 4) b
    if isBaseless then
      return .memory w .none index (← signed 4)
    else
      return .memory w (.register (b % 8 + x.base)) index (← displacement s.mode)
  else if s.rm = 5 && s.mode = 0 then
    return .memory w .rip none (← signed 4)
  else
    return .memory w (.register (s.rm + x.base)) none (← displacement s.mode)

/-- The operand that a selector addresses. -/
def addressed (w : Width) (x : Extension) (s : Selector) : CodeReader Operand :=
  if s.mode = 3 then return registerOperand w x (s.rm + x.base)
  else memoryOperand (some w) x s

/-- An instruction that shows its immediates as unsigned numbers. -/
def plain (mnemonic : String) (operands : List Operand) : CodeReader Decoded :=
  return ⟨mnemonic, operands, false⟩

/-- The eight operations with a common encoding. -/
def arithmeticName (n : Nat) : String :=
  ["add", "or", "adc", "sbb", "and", "sub", "xor", "cmp"].getD n ""

/-- Whether an arithmetic operation is bitwise: its immediates are bit patterns of its width. -/
def isBitwise (n : Nat) : Bool :=
  n == 1 || n == 4 || n == 6

/-- An arithmetic operation with an immediate. -/
def arithmeticImmediate (n : Nat) (w : Width) (target : Operand) (v : Int) : Decoded :=
  if isBitwise n then
    let pattern := if 0 ≤ v && v ≤ 9 then v else v % byteLimit w.bytes
    ⟨arithmeticName n, [target, .immediate (UInt64.ofInt pattern)], false⟩
  else ⟨arithmeticName n, [target, .immediate (UInt64.ofInt v)], true⟩

/-- The conditions of conditional jumps. -/
def conditionName (n : Nat) : String :=
  ["o", "no", "b", "ae", "e", "ne", "be", "a", "s", "ns", "p", "np", "l", "ge", "le", "g"].getD n ""

/-- A jump or call by a signed distance of `n` bytes from the end of the instruction, which is
`address` with what was read since `code`. -/
def relative (mnemonic : String) (n : Nat) (next : Bytes → UInt64) : CodeReader Decoded := do
  let distance ← signed n
  let rest ← get
  plain mnemonic [.immediate (next rest + UInt64.ofInt distance)]

/-- A four-byte immediate: a wide operand reads it as a signed number. -/
def immediate4 (x : Extension) : CodeReader Int :=
  if x.wide then signed 4 else return ((← unsigned 4 : Nat) : Int)

/-- The instructions with an opcode of two bytes, after the first byte. -/
def extendedOpcode (x : Extension) (next : Bytes → UInt64) : CodeReader Decoded := do
  let op ← byte
  if op = 0x05 then plain "syscall" []
  else if op = 0x0B then plain "ud2" []
  else if op = 0x1F then
    let s ← selector
    plain "nop" [← addressed x.width x s]
  else if 0x80 ≤ op && op < 0x90 then relative ("j" ++ conditionName (op - 0x80)) 4 next
  else refuse

/-- The instructions with an opcode of one byte. -/
def opcode (x : Extension) (op : Nat) (next : Bytes → UInt64) : CodeReader Decoded := do
  let w := x.width
  if op = 0x0F then extendedOpcode x next
  else if op < 0x40 && op % 8 < 6 then
    let name := arithmeticName (op / 8)
    let size := if op % 2 = 0 then Width.byte else w
    if op % 8 = 4 then return arithmeticImmediate (op / 8) .byte (.register .byte 0) (← signed 1)
    else if op % 8 = 5 then
      return arithmeticImmediate (op / 8) w (.register w 0) (← immediate4 x)
    else
      let s ← selector
      let a ← addressed size x s
      let r := registerOperand size x (s.register + x.register)
      plain name (if op % 8 < 2 then [a, r] else [r, a])
  else if 0x50 ≤ op && op < 0x58 then plain "push" [.register .qword (op - 0x50 + x.base)]
  else if 0x58 ≤ op && op < 0x60 then plain "pop" [.register .qword (op - 0x58 + x.base)]
  else if op = 0x68 then return ⟨"push", [.immediate (UInt64.ofInt (← signed 4))], true⟩
  else if op = 0x6A then return ⟨"push", [.immediate (UInt64.ofInt (← signed 1))], true⟩
  else if 0x70 ≤ op && op < 0x80 then relative ("j" ++ conditionName (op - 0x70)) 1 next
  else if op = 0x81 then
    let s ← selector
    let a ← addressed w x s
    return arithmeticImmediate s.register w a (← immediate4 x)
  else if op = 0x83 then
    let s ← selector
    let a ← addressed w x s
    return arithmeticImmediate s.register w a (← signed 1)
  else if op = 0x84 || op = 0x85 then
    let size := if op = 0x84 then Width.byte else w
    let s ← selector
    let a ← addressed size x s
    plain "test" [a, registerOperand size x (s.register + x.register)]
  else if 0x88 ≤ op && op < 0x8C then
    let size := if op % 2 = 0 then Width.byte else w
    let s ← selector
    let a ← addressed size x s
    let r := registerOperand size x (s.register + x.register)
    plain "mov" (if op < 0x8A then [a, r] else [r, a])
  else if op = 0x8D then
    let s ← selector
    if s.mode = 3 then refuse
    else
      let a ← memoryOperand none x s
      plain "lea" [.register w (s.register + x.register), a]
  else if op = 0x90 && x.base = 0 then plain "nop" []
  else if 0xB8 ≤ op && op < 0xC0 then
    let r := op - 0xB8 + x.base
    if x.wide then
      plain "movabs" [.register .qword r, .immediate (UInt64.ofNat (← unsigned 8))]
    else plain "mov" [.register .dword r, .immediate (UInt64.ofNat (← unsigned 4))]
  else if op = 0xC2 then plain "ret" [.immediate (UInt64.ofNat (← unsigned 2))]
  else if op = 0xC3 then plain "ret" []
  else if op = 0xC7 then
    let s ← selector
    if s.register = 0 then
      let a ← addressed w x s
      plain "mov" [a, .immediate (UInt64.ofInt (← immediate4 x))]
    else refuse
  else if op = 0xC9 then plain "leave" []
  else if op = 0xCB then plain (if x.wide then "retfq" else "retf") []
  else if op = 0xCC then plain "int3" []
  else if op = 0xE8 then relative "call" 4 next
  else if op = 0xE9 then relative "jmp" 4 next
  else if op = 0xEB then relative "jmp" 1 next
  else if op = 0xF4 then plain "hlt" []
  else if op = 0xFF then
    let s ← selector
    match s.register with
    | 2 => plain "call" [← addressed .qword x s]
    | 4 => plain "jmp" [← addressed .qword x s]
    | 6 => plain "push" [← addressed .qword x s]
    | _ => refuse
  else refuse

/-- An instruction after its legacy prefixes: an optional register extension and an opcode. -/
def extended (next : Bytes → UInt64) : CodeReader Decoded := do
  let b ← byte
  if 0x40 ≤ b && b < 0x50 then
    opcode (.ofByte (b - 0x40)) (← byte) next
  else opcode .absent b next

/-- An instruction. A repeat prefix stands before a return and is part of the branch target marker;
an operand size prefix stands before a padding instruction. -/
def instruction (next : Bytes → UInt64) : CodeReader Decoded := fun bs =>
  match bs with
  | 0xF3 :: 0x0F :: 0x1E :: 0xFA :: r => some (⟨"endbr64", [], false⟩, r)
  | 0xF3 :: 0xC3 :: r => some (⟨"ret", [], false⟩, r)
  | 0xF3 :: _ => none
  | 0x66 :: 0x90 :: r => some (⟨"nop", [], false⟩, r)
  | 0x66 :: _ => none
  | bs => extended next bs

/-- The length of the longest instruction. -/
def maxLength : Nat := 15

/-- The instruction at the front of code that starts at an address, and its length. -/
def decode? (code : Bytes) (address : UInt64) : Option (Decoded × Nat) :=
  let window := code.take maxLength
  let next := fun (rest : Bytes) => address + UInt64.ofNat (window.length - rest.length)
  match instruction next window with
  | some (d, rest) =>
    let length := window.length - rest.length
    if 0 < length then some (d, length) else none
  | none => none

theorem length_decode?_pos {code : Bytes} {address : UInt64} {d : Decoded} {n : Nat}
    (h : decode? code address = some (d, n)) : 0 < n := by
  simp only [decode?] at h
  split at h
  · split at h
    · rename_i hn
      simp only [Option.some.injEq, Prod.mk.injEq] at h
      exact h.2 ▸ hn
    · simp at h
  · simp at h

theorem length_decode?_le {code : Bytes} {address : UInt64} {d : Decoded} {n : Nat}
    (h : decode? code address = some (d, n)) : n ≤ min maxLength code.length := by
  simp only [decode?, List.length_take] at h
  split at h
  · split at h
    · simp only [Option.some.injEq, Prod.mk.injEq] at h
      omega
    · simp at h
  · simp at h

/-- An instruction at its address. -/
structure Located where
  address : UInt64
  bytes : Bytes
  decoded : Decoded
  deriving Repr, DecidableEq

namespace Located

/-- The address after the instruction. -/
def next (i : Located) : UInt64 :=
  i.address + UInt64.ofNat i.bytes.length

/-- The text form. -/
def toInstruction (i : Located) : Debuggee.Instruction :=
  ⟨i.address, i.bytes, i.decoded.mnemonic, i.decoded.operandText⟩

/-- Whether the instruction refers to an address. -/
def refersTo (target : UInt64) (i : Located) : Bool :=
  i.decoded.operands.any (·.refersTo i.next target)

end Located

/-- The instructions of code in a row, at most `count`, up to the first one without a decoding. -/
def sweep : (count : Nat) → (code : Bytes) → (address : UInt64) → List Located
  | 0, _, _ => []
  | count + 1, code, address =>
    match decode? code address with
    | some (d, n) =>
      ⟨address, code.take n, d⟩ :: sweep count (code.drop n) (address + UInt64.ofNat n)
    | none => []

/-- All instructions of code in a row, up to the first one without a decoding. -/
def sweepAll (code : Bytes) (address : UInt64) : List Located :=
  sweep code.length code address

/-- The instructions among those of a section of code that refer to an address. -/
def referencesIn (target : UInt64) (instructions : List Located) : List Debuggee.Instruction :=
  (instructions.filter (·.refersTo target)).map (·.toInstruction)

end DebugAdapter.Machine
