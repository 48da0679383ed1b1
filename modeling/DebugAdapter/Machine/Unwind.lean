import DebugAdapter.Bytes

/-!
# Stack unwinding

The frames of a call stack are found through saved frame pointers. A frame is known by three
registers; the layout of its function's stack at the program counter says where the registers of
its caller are. Memory is read through a reader that may refuse an address, in any monad, so the
order of the reads is part of the meaning.

Main statements: `head?_unwind` and `length_unwind_le` (the list starts with the innermost frame
and has at most `maxFrames` frames).
-/

namespace DebugAdapter.Machine

/-- The registers that identify a frame. -/
structure Frame where
  pc : UInt64
  sp : UInt64
  bp : UInt64
  deriving Repr, DecidableEq

/-- Where a function keeps the return address at a program counter. -/
inductive FrameLayout where
  /-- Nothing is pushed yet: at the stack pointer. -/
  | entry
  /-- The frame pointer of the caller is pushed: above it on the stack. -/
  | bpPushed
  /-- The frame is set up: above the frame pointer. -/
  | established
  deriving Repr, DecidableEq

/-- The longest call stack. -/
def maxFrames : Nat := 128

/-- The sum of an address and an offset, `none` past the end of the address space. -/
def checkedAdd (a : UInt64) (n : Nat) : Option UInt64 :=
  if a.toNat + n < wordLimit then some (a + UInt64.ofNat n) else none

variable {m : Type → Type} [Monad m]

/-- The frame of the caller, if the layout and the memory give one. -/
def FrameLayout.caller (read : UInt64 → m (Option UInt64)) (layout : FrameLayout) (f : Frame) :
    OptionT m Frame :=
  match layout with
  | .entry => do
    let pc ← OptionT.mk (read f.sp)
    let sp ← OptionT.mk (pure (checkedAdd f.sp 8))
    return ⟨pc, sp, f.bp⟩
  | .bpPushed => do
    let slot ← OptionT.mk (pure (checkedAdd f.sp 8))
    let pc ← OptionT.mk (read slot)
    let sp ← OptionT.mk (pure (checkedAdd f.sp 16))
    let bp ← OptionT.mk (read f.sp)
    return ⟨pc, sp, bp⟩
  | .established => do
    if f.bp = 0 then OptionT.fail
    let slot ← OptionT.mk (pure (checkedAdd f.bp 8))
    let pc ← OptionT.mk (read slot)
    let sp ← OptionT.mk (pure (checkedAdd f.bp 16))
    let bp ← OptionT.mk (read f.bp)
    return ⟨pc, sp, bp⟩

/-- Whether a frame can be the caller of another one: it has a program counter, and it lies above
the other one, since the stack grows downwards. -/
def Frame.isCallerOf (f callee : Frame) : Bool :=
  f.pc != 0 && callee.sp < f.sp

/-- The frames from a candidate outwards, at most `room` of them, after the frame `inner`. Every one
of them is set up. -/
def callers (read : UInt64 → m (Option UInt64)) :
    (room : Nat) → (inner : Frame) → (candidate : Option Frame) → m (List Frame)
  | _, _, none => pure []
  | 0, _, some _ => pure []
  | room + 1, inner, some f =>
    if f.isCallerOf inner then do
      let next ← (FrameLayout.established.caller read f).run
      let outer ← callers read room f next
      return f :: outer
    else pure []

/-- The frames of a call stack, innermost first, from the innermost frame and its layout. -/
def unwind (read : UInt64 → m (Option UInt64)) (layout : FrameLayout) (top : Frame) :
    m (List Frame) := do
  let next ← (layout.caller read top).run
  let outer ← callers read (maxFrames - 1) top next
  return top :: outer

theorem length_callers_le (read : UInt64 → Id (Option UInt64)) (room : Nat) (inner : Frame)
    (candidate : Option Frame) : (callers read room inner candidate).run.length ≤ room := by
  induction room generalizing inner candidate with
  | zero => cases candidate <;> simp [callers]
  | succ n ih =>
    cases candidate with
    | none => simp [callers]
    | some f =>
      simp only [callers]
      split
      · simpa using ih f _
      · simp

/-- The list of frames is never longer than `maxFrames`. -/
theorem length_unwind_le (read : UInt64 → Id (Option UInt64)) (layout : FrameLayout)
    (top : Frame) : (unwind read layout top).run.length ≤ maxFrames := by
  have h := length_callers_le read (maxFrames - 1) top (layout.caller read top).run.run
  have hmax : maxFrames = 128 := rfl
  simp only [unwind, Id.run_bind, Id.run_pure, List.length_cons]
  omega

/-- The list of frames starts with the innermost frame. -/
theorem head?_unwind (read : UInt64 → Id (Option UInt64)) (layout : FrameLayout) (top : Frame) :
    (unwind read layout top).run.head? = some top := by
  simp [unwind]

end DebugAdapter.Machine
