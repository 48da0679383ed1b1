import DebugAdapter.Text.Numeral

/-!
# Operands of machine instructions

The operands of 64-bit instructions and their text in Intel syntax: the destination comes first,
numbers up to nine are decimal and larger ones hexadecimal.
-/

namespace DebugAdapter.Machine

/-- The size of an operand. -/
inductive Width where
  | byte
  | word
  | dword
  | qword
  deriving Repr, DecidableEq

namespace Width

/-- The size in bytes. -/
def bytes : Width → Nat
  | byte => 1
  | word => 2
  | dword => 4
  | qword => 8

/-- The name of the size in a memory operand. -/
def name : Width → String
  | byte => "byte"
  | word => "word"
  | dword => "dword"
  | qword => "qword"

end Width

/-- The names of the first eight registers of a size. The byte names are those that need a register
extension prefix for the last four. -/
def legacyNames : Width → List String
  | .byte => ["al", "cl", "dl", "bl", "spl", "bpl", "sil", "dil"]
  | .word => ["ax", "cx", "dx", "bx", "sp", "bp", "si", "di"]
  | .dword => ["eax", "ecx", "edx", "ebx", "esp", "ebp", "esi", "edi"]
  | .qword => ["rax", "rcx", "rdx", "rbx", "rsp", "rbp", "rsi", "rdi"]

/-- What the names of the registers from the ninth on end in. -/
def extendedSuffix : Width → String
  | .byte => "b"
  | .word => "w"
  | .dword => "d"
  | .qword => ""

/-- The name of a register by its number. -/
def registerName (w : Width) (n : Nat) : String :=
  match (legacyNames w)[n]? with
  | some s => s
  | none => "r" ++ Text.decimal n ++ extendedSuffix w

/-- The register that a memory operand starts from. -/
inductive Base where
  | none
  /-- The address of the next instruction. -/
  | rip
  | register (n : Nat)
  deriving Repr, DecidableEq

/-- The register that a memory operand adds a multiple of. -/
inductive Index where
  /-- A register that is always zero; it shows that an index could have been encoded. -/
  | zero
  | register (n : Nat)
  deriving Repr, DecidableEq

/-- The name of an index. -/
def Index.name : Index → String
  | zero => "riz"
  | register n => registerName .qword n

/-- An operand of an instruction. -/
inductive Operand where
  | register (w : Width) (n : Nat)
  /-- One of the four byte registers that are the second byte of a legacy register. -/
  | highByte (n : Nat)
  | immediate (value : UInt64)
  /-- A memory cell: its size if it is accessed, base, scaled index, and displacement. -/
  | memory (w : Option Width) (base : Base) (index : Option (Index × Nat)) (displacement : Int)
  deriving Repr, DecidableEq

/-- The text of an unsigned number: hexadecimal above nine. -/
def unsignedText (n : Nat) : String :=
  if n ≤ 9 then Text.decimal n else Text.hexNumber n

/-- The text of a word read as a signed number: its absolute value after a minus sign. -/
def signedText (v : UInt64) : String :=
  if v.toNat < wordSign then unsignedText v.toNat else "-" ++ unsignedText (wordLimit - v.toNat)

/-- The parts of an address that stand before its displacement. -/
def addressTerms (base : Base) (index : Option (Index × Nat)) : List String :=
  let start := match base with
    | .none => []
    | .rip => ["rip"]
    | .register n => [registerName .qword n]
  let scaled := match index with
    | none => []
    | some (i, 1) => [i.name]
    | some (i, s) => [i.name ++ "*" ++ Text.decimal s]
  start ++ scaled

/-- The text of an address between brackets. -/
def addressText (base : Base) (index : Option (Index × Nat)) (displacement : Int) : String :=
  match addressTerms base index with
  | [] => unsignedText (displacement % wordLimit).toNat
  | terms =>
    let start := " + ".intercalate terms
    match displacement with
    | .ofNat 0 => start
    | .ofNat n => start ++ " + " ++ unsignedText n
    | .negSucc n => start ++ " - " ++ unsignedText (n + 1)

namespace Operand

/-- The text of an operand; `signed` says how an immediate is read. -/
def text (signed : Bool) : Operand → String
  | register w n => registerName w n
  | highByte n => ["ah", "ch", "dh", "bh"].getD n ""
  | immediate v => if signed then signedText v else unsignedText v.toNat
  | memory w base index displacement =>
    let address := "[" ++ addressText base index displacement ++ "]"
    match w with
    | some w => w.name ++ " ptr " ++ address
    | none => address

/-- Whether an operand stands for an address, in an instruction with a given next address: as an
immediate, or relative to the next instruction. -/
def refersTo (next target : UInt64) : Operand → Bool
  | immediate v => v == target
  | memory _ .rip _ displacement => next + UInt64.ofInt displacement == target
  | _ => false

end Operand

end DebugAdapter.Machine
