import DebugAdapter.Machine.Unwind
import Mathlib.Data.List.Chain

/-!
# Call chains

A memory that is read word by word holds a chain of calls: each frame has a caller, whose registers
are restored from the stack (`Restores`), up to a frame where this ends (`Outermost`). A `Walk` along
a chain goes on for as long as it may, and there is only one from each frame. Unwinding is this walk.

Main statement: `unwind_spec`.
-/

namespace DebugAdapter.Machine

/-- The words that can be read. -/
abbrev WordReader := UInt64 → Option UInt64

namespace FrameLayout

/-- The address from which the registers of the caller are found. -/
def base : FrameLayout → Frame → UInt64
  | entry, f | bpPushed, f => f.sp
  | established, f => f.bp

/-- How far from the base the return address is. -/
def returnOffset : FrameLayout → Nat
  | entry => 0
  | bpPushed | established => 8

/-- How far from the base the frame of the caller begins. -/
def span : FrameLayout → Nat
  | entry => 8
  | bpPushed | established => 16

/-- The layouts along a call chain: only the innermost frame may be about to be set up. -/
def outwards (layout : FrameLayout) : (depth : Nat) → FrameLayout
  | 0 => layout
  | _ + 1 => established

end FrameLayout

/-- A frame is restored as the caller of another one. -/
structure Restores (read : WordReader) (layout : FrameLayout) (f g : Frame) : Prop where
  framed : layout = .established → f.bp ≠ 0
  pc : ∃ slot : UInt64, slot.toNat = (layout.base f).toNat + layout.returnOffset ∧
    read slot = some g.pc
  sp : g.sp.toNat = (layout.base f).toNat + layout.span
  /-- At the entry of a function the frame pointer is that of the caller. -/
  kept : layout = .entry → g.bp = f.bp
  saved : layout ≠ .entry → read (layout.base f) = some g.bp

/-- Why no caller of a frame can be restored. -/
inductive Lost (read : WordReader) (layout : FrameLayout) (f : Frame) : Prop
  | unframed : layout = .established → f.bp = 0 → Lost read layout f
  /-- The frame reaches past the end of the address space. -/
  | beyond : wordLimit ≤ (layout.base f).toNat + layout.span → Lost read layout f
  | noReturnAddress (slot : UInt64) :
      slot.toNat = (layout.base f).toNat + layout.returnOffset → read slot = none →
      Lost read layout f
  | noFramePointer : layout ≠ .entry → read (layout.base f) = none → Lost read layout f

/-- Why a call chain ends with a frame. -/
inductive Outermost (read : WordReader) (layout : FrameLayout) (f : Frame) : Prop
  | lost : Lost read layout f → Outermost read layout f
  | noReturn {g : Frame} : Restores read layout f g → g.pc = 0 → Outermost read layout f
  /-- The stack grows downwards, so no caller is below. -/
  | notAbove {g : Frame} : Restores read layout f g → g.sp ≤ f.sp → Outermost read layout f

/-- A call chain, innermost frame first, that goes on for at most `room` callers. -/
inductive Walk (read : WordReader) : FrameLayout → (room : Nat) → List Frame → Prop
  | full {layout : FrameLayout} {f : Frame} : Walk read layout 0 [f]
  | outermost {layout : FrameLayout} {room : Nat} {f : Frame} : Outermost read layout f →
      Walk read layout room [f]
  | call {layout : FrameLayout} {room : Nat} {f g : Frame} {rest : List Frame} :
      Restores read layout f g → g.pc ≠ 0 → f.sp < g.sp →
      Walk read .established room (g :: rest) → Walk read layout (room + 1) (f :: g :: rest)

/-- A call chain that is laid out in memory, its frames one above the other, and closed by a return
address of zero. -/
inductive LaidOut (read : WordReader) : FrameLayout → List Frame → Prop
  | closed {layout : FrameLayout} {f : Frame} (slot : UInt64) :
      slot.toNat = (layout.base f).toNat + layout.returnOffset → read slot = some 0 →
      LaidOut read layout [f]
  | call {layout : FrameLayout} {f g : Frame} {rest : List Frame} :
      Restores read layout f g → g.pc ≠ 0 → f.sp < g.sp →
      LaidOut read .established (g :: rest) → LaidOut read layout (f :: g :: rest)

/-! ### Callers -/

variable {read : WordReader} {layout : FrameLayout} {f g : Frame}

theorem checkedAdd_eq_some_iff {a s : UInt64} {n : Nat} :
    checkedAdd a n = some s ↔ s.toNat = a.toNat + n := by
  have hs := s.toNat_lt
  unfold checkedAdd
  split
  · rename_i hfits
    have hsum : (a + UInt64.ofNat n).toNat = a.toNat + n := by
      simp only [wordLimit] at hfits
      rw [UInt64.toNat_add, UInt64.toNat_ofNat']
      omega
    rw [Option.some_inj, ← UInt64.toNat_inj, hsum]
    exact eq_comm
  · rename_i hbeyond
    simp only [wordLimit] at hbeyond
    exact iff_of_false nofun (by omega)

theorem checkedAdd_eq_none_iff {a : UInt64} {n : Nat} :
    checkedAdd a n = none ↔ wordLimit ≤ a.toNat + n := by
  unfold checkedAdd
  split
  · rename_i hfits
    exact iff_of_false nofun (Nat.not_le.mpr hfits)
  · rename_i hbeyond
    exact iff_of_true rfl (Nat.le_of_not_lt hbeyond)

theorem run_bind_eq_some_iff {α β : Type} {x : OptionT Id α} {k : α → OptionT Id β} {b : β} :
    (x >>= k).run.run = some b ↔ ∃ a, x.run.run = some a ∧ (k a).run.run = some b := by
  have hbind : (x >>= k).run.run = x.run.run.bind fun a => (k a).run.run := by
    rw [OptionT.run_bind, Option.elimM, Id.run_bind]
    cases x.run.run <;> rfl
  rw [hbind, Option.bind_eq_some_iff]

/-- A frame whose registers are read from two words at an address and lie above them. -/
theorem exists_pair_iff {a : UInt64} :
    (∃ slot : UInt64, slot.toNat = a.toNat + 8 ∧ ∃ pc, read slot = some pc ∧
      ∃ sp : UInt64, sp.toNat = a.toNat + 16 ∧ ∃ bp, read a = some bp ∧ Frame.mk pc sp bp = g) ↔
    (∃ slot : UInt64, slot.toNat = a.toNat + 8 ∧ read slot = some g.pc) ∧
      g.sp.toNat = a.toNat + 16 ∧ read a = some g.bp := by
  constructor
  · rintro ⟨slot, hslot, pc, hpc, sp, hsp, bp, hbp, rfl⟩
    exact ⟨⟨slot, hslot, hpc⟩, hsp, hbp⟩
  · rintro ⟨⟨slot, hslot, hpc⟩, hsp, hbp⟩
    exact ⟨slot, hslot, g.pc, hpc, g.sp, hsp, g.bp, hbp, rfl⟩

/-- The caller that is computed is the frame that is restored. -/
theorem caller_eq_some_iff :
    (layout.caller (m := Id) read f).run.run = some g ↔ Restores read layout f g := by
  cases layout with
  | entry =>
    simp only [FrameLayout.caller, run_bind_eq_some_iff, OptionT.run_mk, OptionT.run_pure,
      Id.run_pure, Option.some_inj, checkedAdd_eq_some_iff]
    constructor
    · rintro ⟨pc, hpc, sp, hsp, rfl⟩
      exact ⟨nofun, ⟨f.sp, rfl, hpc⟩, hsp, fun _ => rfl, fun h => absurd rfl h⟩
    · rintro ⟨-, ⟨slot, hslot, hpc⟩, hsp, hkept, -⟩
      cases UInt64.toNat_inj.mp hslot
      exact ⟨g.pc, hpc, g.sp, hsp, hkept rfl ▸ rfl⟩
  | bpPushed =>
    simp only [FrameLayout.caller, run_bind_eq_some_iff, OptionT.run_mk, OptionT.run_pure,
      Id.run_pure, Option.some_inj, checkedAdd_eq_some_iff]
    refine exists_pair_iff.trans ⟨?_, ?_⟩
    · rintro ⟨hpc, hsp, hbp⟩
      exact ⟨nofun, hpc, hsp, nofun, fun _ => hbp⟩
    · rintro ⟨-, hpc, hsp, -, hbp⟩
      exact ⟨hpc, hsp, hbp nofun⟩
  | established =>
    by_cases hframed : f.bp = 0
    · refine iff_of_false ?_ fun h => h.framed rfl hframed
      rw [FrameLayout.caller, if_pos hframed]
      exact nofun
    · simp only [FrameLayout.caller, if_neg hframed, run_bind_eq_some_iff, OptionT.run_mk,
        OptionT.run_pure, Id.run_pure, Option.some_inj, checkedAdd_eq_some_iff]
      refine exists_pair_iff.trans ⟨?_, ?_⟩
      · rintro ⟨hpc, hsp, hbp⟩
        exact ⟨fun _ => hframed, hpc, hsp, nofun, fun _ => hbp⟩
      · rintro ⟨-, hpc, hsp, -, hbp⟩
        exact ⟨hpc, hsp, hbp nofun⟩

/-- Only one frame is restored. -/
theorem Restores.unique {g' : Frame} (h : Restores read layout f g)
    (h' : Restores read layout f g') : g = g' :=
  Option.some_inj.mp ((caller_eq_some_iff.mpr h).symm.trans (caller_eq_some_iff.mpr h'))

/-- The return address of a frame is where its caller goes on. -/
theorem Restores.pc_eq (h : Restores read layout f g) {slot w : UInt64}
    (hslot : slot.toNat = (layout.base f).toNat + layout.returnOffset) (hw : read slot = some w) :
    g.pc = w := by
  obtain ⟨slot', hslot', hpc⟩ := h.pc
  cases UInt64.toNat_inj.mp (hslot.trans hslot'.symm)
  exact Option.some_inj.mp (hpc.symm.trans hw)

theorem Lost.not_restores (h : Lost read layout f) : ¬Restores read layout f g := by
  intro hg
  cases h with
  | unframed hlayout hzero => exact hg.framed hlayout hzero
  | beyond hbeyond =>
    have := g.sp.toNat_lt
    have := hg.sp
    simp only [wordLimit] at hbeyond
    omega
  | noReturnAddress slot hslot hnone =>
    obtain ⟨slot', hslot', hpc⟩ := hg.pc
    cases UInt64.toNat_inj.mp (hslot.trans hslot'.symm)
    cases hnone.symm.trans hpc
  | noFramePointer hlayout hnone =>
    cases hnone.symm.trans (hg.saved hlayout)

/-- Without one of the reasons against it a caller is restored. -/
theorem exists_restores_or_lost (read : WordReader) (layout : FrameLayout) (f : Frame) :
    (∃ g, Restores read layout f g) ∨ Lost read layout f := by
  by_cases hbeyond : wordLimit ≤ (layout.base f).toNat + layout.span
  · exact Or.inr (.beyond hbeyond)
  have hslots : layout.returnOffset ≤ layout.span := by cases layout <;> decide
  obtain ⟨sp, hsp⟩ : ∃ sp : UInt64, sp.toNat = (layout.base f).toNat + layout.span :=
    ⟨.ofNat _, UInt64.toNat_ofNat_of_lt' (Nat.lt_of_not_le hbeyond)⟩
  obtain ⟨slot, hslot⟩ : ∃ slot : UInt64,
      slot.toNat = (layout.base f).toNat + layout.returnOffset :=
    ⟨.ofNat _, UInt64.toNat_ofNat_of_lt' (Nat.lt_of_le_of_lt (Nat.add_le_add_left hslots _)
      (Nat.lt_of_not_le hbeyond))⟩
  rcases hpc : read slot with _ | pc
  · exact Or.inr (.noReturnAddress slot hslot hpc)
  by_cases hentry : layout = .entry
  · subst hentry
    exact Or.inl ⟨⟨pc, sp, f.bp⟩, nofun, ⟨slot, hslot, hpc⟩, hsp, fun _ => rfl, fun h => absurd rfl h⟩
  rcases hbp : read (layout.base f) with _ | bp
  · exact Or.inr (.noFramePointer hentry hbp)
  by_cases hframed : layout = .established → f.bp ≠ 0
  · exact Or.inl ⟨⟨pc, sp, bp⟩, hframed, ⟨slot, hslot, hpc⟩, hsp, fun h => absurd h hentry,
      fun _ => hbp⟩
  · obtain ⟨hlayout, hzero⟩ := Classical.not_imp.mp hframed
    exact Or.inr (.unframed hlayout (Classical.not_not.mp hzero))

/-! ### Walks -/

/-- What goes outwards from the caller of a frame is a walk from the frame. -/
theorem walk_callers (room : Nat) : ∀ (layout : FrameLayout) (f : Frame),
    Walk read layout room
      (f :: (callers (m := Id) read room f (layout.caller (m := Id) read f).run.run).run) := by
  induction room with
  | zero =>
    intro layout f
    cases (layout.caller (m := Id) read f).run.run with
    | none => exact .full
    | some g => exact .full
  | succ room ih =>
    intro layout f
    rcases hg : (layout.caller (m := Id) read f).run.run with _ | g
    · rcases exists_restores_or_lost read layout f with ⟨g, h⟩ | h
      · cases hg.symm.trans (caller_eq_some_iff.mpr h)
      · exact .outermost (.lost h)
    · have hrestores := caller_eq_some_iff.mp hg
      simp only [callers]
      split
      · rename_i hcaller
        simp only [Frame.isCallerOf, Bool.and_eq_true, bne_iff_ne, decide_eq_true_eq] at hcaller
        exact .call hrestores hcaller.1 hcaller.2 (ih .established g)
      · rename_i hcaller
        simp only [Frame.isCallerOf, Bool.and_eq_true, bne_iff_ne, decide_eq_true_eq,
          not_and_or, Classical.not_not] at hcaller
        rcases hcaller with hzero | hbelow
        · exact .outermost (.noReturn hrestores hzero)
        · exact .outermost (.notAbove hrestores (UInt64.not_lt.mp hbelow))

namespace Walk

variable {room : Nat} {fs : List Frame}

theorem length_le (h : Walk read layout room fs) : fs.length ≤ room + 1 := by
  induction h with
  | full => exact Nat.le_refl 1
  | outermost => exact Nat.le_add_left 1 _
  | call _ _ _ _ ih => exact Nat.succ_le_succ ih

/-- Along a walk each frame has its caller next to it. -/
theorem next (h : Walk read layout room fs) : ∀ {i : Nat} {f g : Frame}, fs[i]? = some f →
    fs[i + 1]? = some g → f.sp < g.sp ∧ g.pc ≠ 0 ∧ Restores read (layout.outwards i) f g := by
  induction h with
  | full => exact fun _ hg => nomatch hg
  | outermost => exact fun _ hg => nomatch hg
  | call hrestores hpc hsp _ ih =>
    intro i f g hf hg
    cases i with
    | zero =>
      cases hf
      cases hg
      exact ⟨hsp, hpc, hrestores⟩
    | succ i =>
      obtain ⟨hsp, hpc, hrestores⟩ := ih hf hg
      exact ⟨hsp, hpc, by cases i <;> exact hrestores⟩

/-- A walk ends only where it must. -/
theorem last (h : Walk read layout room fs) : fs.length = room + 1 ∨
    ∃ f, fs.getLast? = some f ∧ Outermost read (layout.outwards (fs.length - 1)) f := by
  induction h with
  | full => exact Or.inl rfl
  | outermost h => exact Or.inr ⟨_, rfl, h⟩
  | @call layout room f g rest _ _ _ _ ih =>
    rcases ih with hfull | ⟨last, hlast, h⟩
    · exact Or.inl (congrArg (· + 1) hfull)
    · refine Or.inr ⟨last, hlast, ?_⟩
      have hlength : (f :: g :: rest).length - 1 = rest.length + 1 := rfl
      rw [hlength]
      cases hrest : rest.length with
      | zero => rwa [List.length_cons, hrest] at h
      | succ n => rwa [List.length_cons, hrest] at h

/-- The walk from the innermost frame of a chain that is laid out in memory is this chain. -/
theorem eq_of_laidOut (h : Walk read layout room fs) : ∀ {chain : List Frame},
    LaidOut read layout chain → chain.head? = fs.head? → chain.length ≤ room + 1 →
    fs = chain := by
  induction h with
  | full =>
    intro chain hchain hhead hroom
    cases hchain with
    | closed =>
      cases hhead
      rfl
    | call => exact absurd hroom (by simp)
  | outermost h =>
    intro chain hchain hhead hroom
    cases hchain with
    | closed =>
      cases hhead
      rfl
    | call hrestores hpc hsp =>
      cases hhead
      cases h with
      | lost h => exact absurd hrestores h.not_restores
      | noReturn h hzero => exact absurd (h.unique hrestores ▸ hzero) hpc
      | notAbove h hle =>
        exact absurd hsp (UInt64.not_lt.mpr (h.unique hrestores ▸ hle))
  | call hrestores hpc hsp _ ih =>
    intro chain hchain hhead hroom
    cases hchain with
    | closed slot hslot hzero =>
      cases hhead
      exact absurd (hrestores.pc_eq hslot hzero) hpc
    | call hrestores' _ _ hrest =>
      cases hhead
      cases hrestores.unique hrestores'
      exact congrArg _ (ih hrest rfl (Nat.le_of_succ_le_succ hroom))

end Walk

/-- **A call stack is the walk along its call chain.** Whatever can be read of memory, unwinding gives
1 to 128 frames from the innermost one outwards. Each of them but the first one is the caller of the one
before it, lies above it and has a program counter; and they end only where there are 128 of them, or
with a frame that has no caller, since it cannot be restored, has no program counter or does not lie
above. No caller can be restored exactly for one of the reasons of `Lost`. In particular, a chain of less
than 128 frames that is laid out in memory is given as it is. -/
theorem unwind_spec (read : WordReader) (layout : FrameLayout) (top : Frame) :
    let frames := (unwind (m := Id) read layout top).run
    frames.head? = some top ∧ 1 ≤ frames.length ∧ frames.length ≤ 128 ∧
    (∀ (i : Nat) (f g : Frame), frames[i]? = some f → frames[i + 1]? = some g →
      f.sp < g.sp ∧ g.pc ≠ 0 ∧ Restores read (layout.outwards i) f g) ∧
    (frames.length = 128 ∨ ∃ f, frames.getLast? = some f ∧
      Outermost read (layout.outwards (frames.length - 1)) f) ∧
    (∀ f : Frame, Lost read layout f ↔ ∀ g, ¬Restores read layout f g) ∧
    ∀ chain : List Frame, LaidOut read layout chain → chain.head? = some top →
      chain.length < 128 → frames = chain := by
  have hwalk : Walk read layout 127 (unwind (m := Id) read layout top).run :=
    walk_callers 127 layout top
  refine ⟨rfl, Nat.succ_le_succ (Nat.zero_le _), hwalk.length_le, fun _ _ _ => hwalk.next,
    hwalk.last, fun f => ⟨fun h _ => h.not_restores, fun h => ?_⟩, fun chain hchain hhead hlength => ?_⟩
  · exact (exists_restores_or_lost read layout f).resolve_left fun ⟨g, hg⟩ => h g hg
  · exact hwalk.eq_of_laidOut hchain hhead (Nat.le_of_lt hlength)

/-! ### A stack of three calls -/

/-- The words of a stack: each frame pointer with the return address above it. -/
def threeCalls : WordReader := fun a =>
  [((0x7f00 : UInt64), (0x7f40 : UInt64)), (0x7f08, 0x1210), (0x7f40, 0x7f80), (0x7f48, 0x1110),
    (0x7f80, 0), (0x7f88, 0)].lookup a

/-- The frames of three calls that are laid out in memory are found from the innermost one. -/
theorem unwind_threeCalls :
    LaidOut threeCalls .established
      [⟨0x1305, 0x7ef0, 0x7f00⟩, ⟨0x1210, 0x7f10, 0x7f40⟩, ⟨0x1110, 0x7f50, 0x7f80⟩] ∧
    (unwind (m := Id) threeCalls .established ⟨0x1305, 0x7ef0, 0x7f00⟩).run =
      [⟨0x1305, 0x7ef0, 0x7f00⟩, ⟨0x1210, 0x7f10, 0x7f40⟩, ⟨0x1110, 0x7f50, 0x7f80⟩] := by
  have hlaid : LaidOut threeCalls .established
      [⟨0x1305, 0x7ef0, 0x7f00⟩, ⟨0x1210, 0x7f10, 0x7f40⟩, ⟨0x1110, 0x7f50, 0x7f80⟩] :=
    .call (caller_eq_some_iff.mp rfl) (by decide) (by decide)
      (.call (caller_eq_some_iff.mp rfl) (by decide) (by decide) (.closed 0x7f88 rfl rfl))
  exact ⟨hlaid, (unwind_spec threeCalls .established _).2.2.2.2.2.2 _ hlaid rfl (by decide)⟩

end DebugAdapter.Machine
