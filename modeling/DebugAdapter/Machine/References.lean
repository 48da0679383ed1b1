import DebugAdapter.Cache
import DebugAdapter.Debuggee.Error
import DebugAdapter.Machine.Decode
import DebugAdapter.Text.Path

/-!
# Reading machine code

Disassembly, the kinds of instructions that matter for the layout of a frame, and the search for
instructions that refer to an address. The results of searches are cached by image, slide and
address; failures are not.

`searchWith` leaves to its caller how instructions are decoded and where the sections come from.

Main statement: `searchWith_miss` (a search that is not in the cache is a scan of its sections).
-/

namespace DebugAdapter.Machine

open Debuggee (DebugError Instruction)

/-- Disassembles at most `count` instructions of code at an address. -/
def disassemble (code : Bytes) (address : UInt64) (count : Nat) : List Instruction :=
  (sweep (min count code.length) code address).map (·.toInstruction)

/-- The kinds of instructions that matter for the layout of a frame. -/
inductive InstructionKind where
  | call
  | ret
  /-- Pushes the frame pointer: the frame is not set up. -/
  | pushFramePointer
  /-- Sets the frame pointer, which is pushed. -/
  | setFramePointer
  | other
  deriving Repr, DecidableEq

/-- The kind of an instruction. -/
def InstructionKind.of (d : Decoded) : InstructionKind :=
  match d.mnemonic with
  | "call" => .call
  | "ret" | "retf" => .ret
  | "push" => if d.operandText == "rbp" then .pushFramePointer else .other
  | "mov" => if d.operandText == "rbp, rsp" then .setFramePointer else .other
  | _ => .other

/-- The kind and the length of the first instruction of code at an address. -/
def classify (code : Bytes) (address : UInt64) : Except DebugError (InstructionKind × Nat) :=
  match decode? code address with
  | some (d, n) => .ok (.of d, n)
  | none => .error (.memoryAccess address)

/-- What a search for references depends on. -/
structure ReferenceKey where
  image : List Text.Path.Component
  slide : UInt64
  target : UInt64
  deriving Repr, DecidableEq

/-- The results of searches for references. -/
abbrev ReferenceCache := Cache ReferenceKey (List Instruction)

namespace ReferenceCache

/-- No results; at most 32 are kept. -/
def empty : ReferenceCache := Cache.empty 32

end ReferenceCache

/-- How the instructions of code at an address are decoded. -/
abbrev Decoder := (code : Bytes) → (address : UInt64) → Except DebugError (List Located)

/-- Decodes instructions in a row as far as there are decodings. -/
def Decoder.sweeping : Decoder := fun code address => .ok (sweepAll code address)

/-- The instructions in sections of code that refer to an address. -/
def scan (decode : Decoder) (target : UInt64) :
    List (UInt64 × Bytes) → Except DebugError (List Instruction)
  | [] => .ok []
  | (address, code) :: sections => do
    let found := referencesIn target (← decode code address)
    return found ++ (← scan decode target sections)

/-- The key of a search in an image. -/
def ReferenceKey.new (image : String) (slide target : UInt64) : ReferenceKey :=
  ⟨Text.Path.components image, slide, target⟩

/-- A result that was searched for; failures are not kept. -/
def ReferenceCache.keep (cache : ReferenceCache) (key : ReferenceKey) :
    Except DebugError (List Instruction) → Except DebugError (List Instruction) × ReferenceCache
  | .error e => (.error e, cache)
  | .ok found => (.ok found, cache.insert key found)

/-- Searches the code of an image for references to an address. The sections are asked for only if
the result is not in the cache. -/
def searchWith {m : Type → Type} [Monad m] (decode : Decoder) (cache : ReferenceCache)
    (key : ReferenceKey) (sections : Unit → m (Except DebugError (List (UInt64 × Bytes)))) :
    m (Except DebugError (List Instruction) × ReferenceCache) :=
  match cache.find? key with
  | some (found, cache) => return (.ok found, cache)
  | none => do
    let sections ← sections ()
    return cache.keep key (sections >>= scan decode key.target)

/-- Searches the code of an image for references to an address. -/
def findReferences (cache : ReferenceCache) (key : ReferenceKey)
    (sections : Unit → Except DebugError (List (UInt64 × Bytes))) :
    Except DebugError (List Instruction) × ReferenceCache :=
  (searchWith (m := Id) .sweeping cache key sections).run

section

variable {m : Type → Type} [Monad m] {cache : ReferenceCache} {key : ReferenceKey}
variable (decode : Decoder) (sections : Unit → m (Except DebugError (List (UInt64 × Bytes))))

/-- What is in the cache is not searched for. -/
theorem searchWith_hit {found : List Instruction} {next : ReferenceCache}
    (h : cache.find? key = some (found, next)) :
    searchWith decode cache key sections = pure (.ok found, next) := by
  rw [searchWith, h]

/-- A search that is not in the cache is a scan of its sections. -/
theorem searchWith_miss (h : cache.find? key = none) :
    searchWith decode cache key sections = do
      let sections ← sections ()
      return cache.keep key (sections >>= scan decode key.target) := by
  rw [searchWith, h]

end

end DebugAdapter.Machine
