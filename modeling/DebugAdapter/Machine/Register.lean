import DebugAdapter.Bytes

/-!
# The register file of a thread

The general purpose registers of a 64-bit thread in the order of the kernel's register block, and
a register file as a value for each of them.

Main statements: `value_set_self` and `value_set_ne` (writing one register changes that one only)
and `ofName?_name` (a register is found by its name).
-/

namespace DebugAdapter.Machine

/-- A general purpose register. -/
inductive Register where
  | rax | rbx | rcx | rdx | rdi | rsi | rbp | rsp
  | r8 | r9 | r10 | r11 | r12 | r13 | r14 | r15
  | rip | eflags | cs | origRax | fsBase | gsBase | fs | gs | ss | ds | es
  deriving Repr, DecidableEq

namespace Register

/-- Every register, in the order of the register block. -/
def all : List Register :=
  [rax, rbx, rcx, rdx, rdi, rsi, rbp, rsp, r8, r9, r10, r11, r12, r13, r14, r15, rip, eflags, cs,
    origRax, fsBase, gsBase, fs, gs, ss, ds, es]

theorem mem_all (r : Register) : r ∈ all := by
  cases r <;> decide

/-- The name of a register. -/
def name : Register → String
  | rax => "rax"
  | rbx => "rbx"
  | rcx => "rcx"
  | rdx => "rdx"
  | rdi => "rdi"
  | rsi => "rsi"
  | rbp => "rbp"
  | rsp => "rsp"
  | r8 => "r8"
  | r9 => "r9"
  | r10 => "r10"
  | r11 => "r11"
  | r12 => "r12"
  | r13 => "r13"
  | r14 => "r14"
  | r15 => "r15"
  | rip => "rip"
  | eflags => "eflags"
  | cs => "cs"
  | origRax => "orig_rax"
  | fsBase => "fs_base"
  | gsBase => "gs_base"
  | fs => "fs"
  | gs => "gs"
  | ss => "ss"
  | ds => "ds"
  | es => "es"

/-- The register with a name. -/
def ofName? (s : String) : Option Register :=
  all.find? (·.name == s)

@[simp] theorem ofName?_name (r : Register) : ofName? r.name = some r := by
  cases r <;> decide

end Register

/-- The registers of a thread. -/
structure RegisterFile where
  value : Register → UInt64

namespace RegisterFile

/-- The register file of zeros. -/
def zero : RegisterFile := ⟨fun _ => 0⟩

instance : Inhabited RegisterFile := ⟨zero⟩

/-- Writes one register. -/
def set (regs : RegisterFile) (r : Register) (v : UInt64) : RegisterFile :=
  ⟨fun s => if s = r then v else regs.value s⟩

@[simp] theorem value_set_self (regs : RegisterFile) (r : Register) (v : UInt64) :
    (regs.set r v).value r = v := by
  simp [set]

theorem value_set_ne (regs : RegisterFile) {r s : Register} (h : s ≠ r) (v : UInt64) :
    (regs.set r v).value s = regs.value s := by
  simp [set, h]

/-- Every register with its value, in the order of the register block. -/
def toList (regs : RegisterFile) : List (Register × UInt64) :=
  Register.all.map fun r => (r, regs.value r)

/-- The program counter. -/
def pc (regs : RegisterFile) : UInt64 := regs.value .rip

/-- The stack pointer. -/
def sp (regs : RegisterFile) : UInt64 := regs.value .rsp

/-- The registers whose value differs from the one in another register file, with their values. -/
def changesFrom (regs before : RegisterFile) : List (Register × UInt64) :=
  regs.toList.filter fun (r, v) => before.value r != v

end RegisterFile

end DebugAdapter.Machine
