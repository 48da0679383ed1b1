import DebugAdapter.Debuggee.Module
import DebugAdapter.Linux.Memory

/-!
# Breakpoints of a process

A breakpoint is a trap instruction that replaces the first byte at its address. The table keeps one
entry for each patched address, in the order of the addresses, with the byte that belongs there. An
entry stands for a breakpoint of the user, which has an id, for the breakpoint of a step plan, or
for both; it leaves the table with the last of them.

The operations are the steps of a machine whose state is the kernel and the table, since a patch
that fails half way leaves both changed. `mask` shows memory without the patches; `rewrite` changes
the memory under them.

Main statements: `length_mask` (masking keeps the length) and `find?_insert` (an added entry is
found at its address).
-/

namespace DebugAdapter.Tracer

open Debuggee (BreakpointInfo saturatingAdd)
open Linux

/-- An entry of the breakpoint table. -/
structure Breakpoint where
  address : UInt64
  /-- The byte that belongs at the address. -/
  saved : UInt8
  /-- The trap instruction is in place. -/
  enabled : Bool
  /-- The id of the breakpoint of the user. -/
  userId : Option Nat
  /-- A step plan uses it. -/
  planned : Bool
  deriving Repr, DecidableEq

namespace Breakpoint

/-- The trap instruction. -/
def trapByte : UInt8 := 0xCC

/-- An entry before its patch. -/
def new (address : UInt64) : Breakpoint := ⟨address, 0, false, none, false⟩

/-- The entry stands for a breakpoint of the user. -/
def isUser (b : Breakpoint) : Bool := b.userId.isSome

/-- The entry stands for nothing any more. -/
def isIdle (b : Breakpoint) : Bool := !b.isUser && !b.planned

end Breakpoint

/-- A word with another lowest byte. -/
def withLowByte (word : UInt64) (b : UInt8) : UInt64 :=
  (word &&& ~~~0xFF) ||| b.toUInt64

/-- The breakpoints of a process. -/
structure BreakpointTable where
  /-- In the order of the addresses. -/
  entries : List Breakpoint
  /-- The last id that was given out. -/
  lastId : Nat
  deriving Repr, DecidableEq

namespace BreakpointTable

/-- A table without breakpoints. -/
def empty : BreakpointTable := ⟨[], 0⟩

/-- The entry at an address. -/
def find? (t : BreakpointTable) (address : UInt64) : Option Breakpoint :=
  t.entries.find? (·.address == address)

/-- The trap instruction is in place at an address. -/
def isEnabledAt (t : BreakpointTable) (address : UInt64) : Bool :=
  (t.find? address).any (·.enabled)

/-- There is a breakpoint of the user at an address. -/
def isUserAt (t : BreakpointTable) (address : UInt64) : Bool :=
  (t.find? address).any (·.isUser)

/-- Adds an entry for an address, in its place, unless there is one. -/
def insertEntry (address : UInt64) : List Breakpoint → List Breakpoint
  | [] => [.new address]
  | b :: r =>
    if address = b.address then b :: r
    else if address < b.address then .new address :: b :: r
    else b :: insertEntry address r

/-- Adds an entry for an address unless there is one. -/
def insert (t : BreakpointTable) (address : UInt64) : BreakpointTable :=
  { t with entries := insertEntry address t.entries }

/-- Changes the entry at an address. -/
def modify (t : BreakpointTable) (address : UInt64) (f : Breakpoint → Breakpoint) :
    BreakpointTable :=
  { t with entries := t.entries.map fun b => if b.address = address then f b else b }

/-- Removes the entry at an address. -/
def erase (t : BreakpointTable) (address : UInt64) : BreakpointTable :=
  { t with entries := t.entries.filter (·.address ≠ address) }

/-- The entry of the breakpoint with an id. -/
def findUser? (t : BreakpointTable) (id : Nat) : Option Breakpoint :=
  t.entries.find? (·.userId == some id)

/-- The breakpoints of the user with their ids, in the order of the addresses. -/
def userBreakpoints (t : BreakpointTable) : List (Nat × UInt64) :=
  t.entries.filterMap fun b => b.userId.map (·, b.address)

/-- The entries whose patch is in place among the `length` bytes from an address on. -/
def patchesIn (t : BreakpointTable) (address : UInt64) (length : Nat) : List Breakpoint :=
  let stop := saturatingAdd address (UInt64.ofNat length)
  t.entries.filter fun b => b.enabled && address ≤ b.address && b.address < stop

/-- Memory from an address on with the bytes that belong under the patches. -/
def mask (t : BreakpointTable) (address : UInt64) (data : Bytes) : Bytes :=
  (t.patchesIn address data.length).foldl
    (fun bs b => bs.set (b.address - address).toNat b.saved) data

/-- An entry that was added is found at its address. -/
theorem find?_insert (t : BreakpointTable) (address : UInt64) :
    ((t.insert address).find? address).isSome = true := by
  obtain ⟨entries, _⟩ := t
  simp only [insert, find?]
  induction entries with
  | nil => simp [insertEntry, Breakpoint.new]
  | cons b r ih =>
    simp only [insertEntry]
    split
    · simp_all
    · split
      · simp [Breakpoint.new]
      · rename_i h _
        have : (b.address == address) = false := by simp; exact fun e => h e.symm
        simp [this, ih]

/-- Masking changes bytes only, not their number. -/
theorem length_mask (t : BreakpointTable) (address : UInt64) (data : Bytes) :
    (t.mask address data).length = data.length := by
  have h : ∀ (bs : List Breakpoint) (d : Bytes),
      (bs.foldl (fun d b => d.set (b.address - address).toNat b.saved) d).length = d.length := by
    intro bs
    induction bs with
    | nil => intro d; rfl
    | cons b r ih => intro d; simp [ih]
  exact h _ _

end BreakpointTable

/-- A kernel and the breakpoints of a process. -/
structure Patched (κ : Type) where
  kernel : κ
  table : BreakpointTable

/-- Operations on breakpoints, up to the first system call that fails. -/
abbrev Patching (κ : Type) := ExceptT OsError (StateM (Patched κ))

namespace Patching

variable {κ : Type} [Kernel κ]

/-- Makes system calls. -/
def calls {α : Type} (c : Calls κ α) : Patching κ α :=
  ExceptT.mk (StateT.mk fun s =>
    let (r, kernel) := c.run.run s.kernel
    (r, { s with kernel }))

/-- Changes the table. -/
def modifyTable (f : BreakpointTable → BreakpointTable) : Patching κ Unit :=
  modify fun s => { s with table := f s.table }

/-- Puts the trap instruction in place at an address with an entry. -/
def enable (tid : Nat) (address : UInt64) : Patching κ Unit := do
  match (← get).table.find? address with
  | none => return ()
  | some b =>
    if b.enabled then return ()
    let word ← calls (call (.peek tid address))
    modifyTable (·.modify address fun b => { b with saved := word.toUInt8 })
    calls (call (.poke tid address (withLowByte word Breakpoint.trapByte)))
    modifyTable (·.modify address fun b => { b with enabled := true })

/-- Puts the byte back that belongs at an address with an entry. -/
def disable (tid : Nat) (address : UInt64) : Patching κ Unit := do
  match (← get).table.find? address with
  | none => return ()
  | some b =>
    if !b.enabled then return ()
    let word ← calls (call (.peek tid address))
    calls (call (.poke tid address (withLowByte word b.saved)))
    modifyTable (·.modify address fun b => { b with enabled := false })

/-- Sets a breakpoint of the user. Ids are given out in sequence from one; a second breakpoint at an
address is the first one again. -/
def addUser (tid : Nat) (address : UInt64) : Patching κ BreakpointInfo := do
  modifyTable (·.insert address)
  enable tid address
  let table := (← get).table
  match (table.find? address).bind (·.userId) with
  | some id => return ⟨id, address⟩
  | none =>
    let id := table.lastId + 1
    modifyTable fun t =>
      { t.modify address fun b => { b with userId := some id } with lastId := id }
    return ⟨id, address⟩

/-- Ends one use of an entry, and removes it with its patch if it was the last use. -/
def release (tid : Nat) (address : UInt64) (unset : Breakpoint → Breakpoint) :
    Patching κ Unit := do
  modifyTable (·.modify address unset)
  match (← get).table.find? address with
  | none => return ()
  | some b =>
    if b.isIdle then
      disable tid address
      modifyTable (·.erase address)

/-- Removes the breakpoint of the user with an id; `false` if there is none. -/
def removeUser (tid id : Nat) : Patching κ Bool := do
  match (← get).table.findUser? id with
  | none => return false
  | some b =>
    release tid b.address fun b => { b with userId := none }
    return true

/-- Removes every breakpoint of the user. -/
def removeAllUser (tid : Nat) : Patching κ Unit := do
  let addresses := (← get).table.userBreakpoints.map (·.2)
  addresses.forM fun address => release tid address fun b => { b with userId := none }

/-- Sets the breakpoint of a step plan. -/
def addPlanned (tid : Nat) (address : UInt64) : Patching κ Unit := do
  modifyTable (·.insert address)
  modifyTable (·.modify address fun b => { b with planned := true })
  enable tid address

/-- Removes the breakpoint of a step plan. -/
def removePlanned (tid : Nat) (address : UInt64) : Patching κ Unit :=
  release tid address fun b => { b with planned := false }

/-- Removes every patch, and then every entry. -/
def disableAll (tid : Nat) : Patching κ Unit := do
  let addresses := (← get).table.entries.map (·.address)
  addresses.forM (disable tid)
  modifyTable fun t => { t with entries := [] }

/-- Reads memory without patches. -/
def readMasked (tid : Nat) (address : UInt64) (length : Nat) : Patching κ Bytes := do
  let data ← calls (Memory.read tid address length)
  return (← get).table.mask address data

/-- Writes memory under the patches. -/
def rewrite (tid : Nat) (address : UInt64) (data : Bytes) : Patching κ Nat := do
  let patched := ((← get).table.patchesIn address data.length).map (·.address)
  patched.forM (disable tid)
  let written ← calls (Memory.write tid address data)
  patched.forM (enable tid)
  return written

end Patching

end DebugAdapter.Tracer
