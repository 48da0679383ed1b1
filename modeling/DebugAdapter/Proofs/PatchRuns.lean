import DebugAdapter.Proofs.PatchTransparency
import DebugAdapter.Proofs.TracerRules

/-!
# Runs of operations on breakpoints

`Reached s m` says that operations on breakpoints, in any order and through any threads, led from a
process without breakpoints to `s`, and that `m` is the memory that the process is meant to have:
what it had at the start, with the data of the writes. The main result, `transparent_of_reached`, is
that breakpoints are then transparent: memory differs from `m` in the patches only, `m` is the
original view, masked reads show it, and removing every patch brings it back.

The writes of a run must be harmless, which is all that can go wrong: a step of a run keeps patches
transparent exactly if it is no write that loses an overlooked patch. A write to a window that ends
before the last address overlooks nothing.
-/

namespace DebugAdapter.Tracer

open Linux
open Operation (Ends ends_bind)
open WordMemory (memory)

/-- An operation on the breakpoints of a process. -/
inductive PatchStep where
  | addUser (a : UInt64)
  | addPlanned (a : UInt64)
  | removeUser (id : Nat)
  | removeAllUser
  | removePlanned (a : UInt64)
  /-- Lift the breakpoint under a thread that steps. -/
  | disable (a : UInt64)
  /-- Plant it again after the step. -/
  | enable (a : UInt64)
  /-- Write memory under the patches; no data is longer than memory. -/
  | rewrite (a : UInt64) (data : Bytes) (fits : data.length < wordLimit)
  | disableAll

namespace PatchStep

/-- The operation, through a thread. -/
def perform {κ : Type} [Kernel κ] (tid : Nat) : PatchStep → Patching κ Unit
  | addUser a => do let _ ← Patching.addUser tid a
  | addPlanned a => Patching.addPlanned tid a
  | removeUser id => do let _ ← Patching.removeUser tid id
  | removeAllUser => Patching.removeAllUser tid
  | removePlanned a => Patching.removePlanned tid a
  | disable a => Patching.disable tid a
  | enable a => Patching.enable tid a
  | rewrite a data _ => do let _ ← Patching.rewrite tid a data
  | disableAll => Patching.disableAll tid

/-- The memory that the process is meant to have after the operation. -/
def meant (m : AddressSpace) : PatchStep → AddressSpace
  | rewrite a data _ => m.overwrite a data
  | _ => m

/-- The operation loses nothing of a patch that it overlooks. -/
def Spares {κ : Type} [Kernel κ] [WordMemory κ] (s : Patched κ) : PatchStep → Prop
  | rewrite a data _ => Harmless s a data
  | _ => True

end PatchStep

variable {κ : Type} [Kernel κ] [WordMemory κ]

/-- What runs of operations on breakpoints lead to, with the memory that the process is meant to
have. -/
inductive Reached : Patched κ → AddressSpace → Prop
  | start (k : κ) : Reached ⟨k, .empty⟩ (memory k)
  | step {s : Patched κ} {m : AddressSpace} (tid : Nat) (op : PatchStep) :
      Reached s m → op.Spares s → Reached ((op.perform tid).run.run s).2 (op.meant m)

/-- Patches are in place, and memory under them is as it is meant to be. -/
structure Transparent (s : Patched κ) (m : AddressSpace) : Prop where
  sound : s.Sound
  original : s.original = m

/-! ### Steps of a run -/

/-- The conclusion about an operation that does not write. -/
theorem Hides.transparent {s s' : Patched κ} {m : AddressSpace} (h : Hides s s')
    (hs : Transparent s m) : Transparent s' m :=
  ⟨h.sound hs.sound, h.original.trans hs.original⟩

/-- Every operation succeeds, and keeps patches transparent exactly if it spares them. -/
theorem ends_perform (tid : Nat) (op : PatchStep) {s : Patched κ} {m : AddressSpace}
    (hsorted : s.table.Sorted) (hs : Transparent s m) :
    Ends (op.perform tid) s fun r s' =>
      r = .ok () ∧ s'.table.Sorted ∧ (Transparent s' (op.meant m) ↔ op.Spares s) := by
  have hhides : ∀ {p : Patching κ Unit}, Ends p s (fun r s' => r = .ok () ∧ Hides s s') →
      Ends p s fun r s' => r = .ok () ∧ s'.table.Sorted ∧ (Transparent s' m ↔ True) :=
    fun h => h.mono fun _ _ h =>
      ⟨h.1, h.2.sorted, iff_of_true (h.2.transparent hs) trivial⟩
  cases op with
  | addUser a =>
    refine hhides ((Patching.hides_addUser tid a hsorted).bind ?_ ?_)
    · exact fun _ _ h => ⟨rfl, h.2⟩
    · rintro e s' ⟨⟨id, hr⟩, -⟩
      cases hr
  | addPlanned a => exact hhides (Patching.hides_addPlanned tid a hsorted)
  | removeUser id =>
    refine hhides ((Patching.hides_removeUser tid id hsorted).bind ?_ ?_)
    · exact fun _ _ h => ⟨rfl, h.2⟩
    · rintro e s' ⟨⟨found, hr⟩, -⟩
      cases hr
  | removeAllUser => exact hhides (Patching.hides_removeAllUser tid hsorted)
  | removePlanned a => exact hhides (Patching.hides_removePlanned tid a hsorted)
  | disable a => exact hhides (Patching.hides_disable tid a hsorted)
  | enable a => exact hhides (Patching.hides_enable tid a hsorted)
  | rewrite a data fits =>
    refine (Patching.ends_rewrite tid a (Nat.le_of_lt fits) hsorted).bind_eq fun s' h => ?_
    refine ⟨rfl, h.sorted, ?_⟩
    rw [PatchStep.meant, PatchStep.Spares, ← h.rewrite_iff hsorted hs.sound, ← hs.original]
    exact ⟨fun ht => ⟨ht.sound, ht.original⟩, fun ht => ⟨ht.1, ht.2⟩⟩
  | disableAll =>
    exact hhides ((Patching.ends_disableAll tid hsorted).mono fun _ _ h => ⟨h.1, h.2.2.2⟩)

/-- A process without breakpoints has nothing to hide. -/
theorem transparent_start (k : κ) : Transparent ⟨k, .empty⟩ (memory k) :=
  ⟨fun _ => Cell.sound_of_not_trapped rfl, rfl⟩

/-- The invariant of runs. -/
theorem Reached.invariant {s : Patched κ} {m : AddressSpace} (h : Reached s m) :
    s.table.Sorted ∧ Transparent s m := by
  induction h with
  | start k => exact ⟨BreakpointTable.sorted_empty, transparent_start k⟩
  | step tid op _ hspares ih =>
    obtain ⟨-, hsorted, hiff⟩ := ends_perform tid op ih.1 ih.2
    exact ⟨hsorted, hiff.mpr hspares⟩

/-! ### Memory as a tracer shows it -/

namespace Tracing

theorem ends_writeMemory {x : System κ} {p : Process} {tid : Nat} (h : Stopped x p tid)
    (hsorted : (breakpointsOf x).table.Sorted) (a : UInt64) {data : Bytes}
    (fits : data.length < wordLimit) :
    Ends (writeMemory a data) x fun r x' =>
      r = .ok data.length ∧ ∃ t, x' = withBreakpoints x t ∧
        Acts (Patching.rewritten (breakpointsOf x) a data) (breakpointsOf x) t := by
  rw [writeMemory, ends_stoppedProcess_bind h, ends_memoryThread_bind h, ends_patching]
  refine (Patching.ends_rewrite tid a (Nat.le_of_lt fits) hsorted).mono fun r t ht => ?_
  refine ⟨?_, t, rfl, ht.2⟩
  rw [ht.1]
  rfl

/-- The bytes that a run of a read gives are those of memory. -/
theorem ends_readAvailable (tid : Nat) (a : UInt64) (length : Nat) (x : System κ) :
    Ends (ExceptT.lift (StateT.mk fun s =>
        let (data, kernel) := (Memory.readAvailable tid a length).run s.kernel
        (data, { s with kernel })) : Tracing κ Bytes) x fun r x' =>
      r = .ok ((memory x.kernel).window a length) ∧ x'.tracer = x.tracer :=
  ⟨congrArg Except.ok (WordMemory.readAvailable_spec tid a length x.kernel).1, rfl⟩

theorem ends_readMemory {x : System κ} {p : Process} {tid : Nat} (h : Stopped x p tid)
    (a : UInt64) (length : Nat) :
    Ends (readMemory a length) x fun r _ =>
      r = .ok (x.tracer.breakpoints.mask a ((memory x.kernel).window a length)) := by
  rw [readMemory, ends_stoppedProcess_bind h, readCode, ends_memoryThread_bind h]
  refine (ends_readAvailable tid a length x).bind_eq fun x' hx' => ?_
  have hfull : (((memory x.kernel).window a length).isEmpty && decide (0 < length)) = false := by
    cases length with
    | zero => rfl
    | succ n => rfl
  rw [hfull]
  show Ends (tracer >>= fun t => pure (t.breakpoints.mask a ((memory x.kernel).window a length)))
    x' _
  rw [ends_tracer_bind, hx']
  rfl

end Tracing

/-- A write and then a read of a stopped process: the read shows the data and its old neighbours,
except where it overlooks a patch. -/
theorem ends_write_read {x : System κ} {p : Process} {tid : Nat} (h : Tracing.Stopped x p tid)
    {m : AddressSpace} (hsorted : (Tracing.breakpointsOf x).table.Sorted)
    (hs : Transparent (Tracing.breakpointsOf x) m) (a : UInt64) {data : Bytes}
    (fits : data.length < wordLimit) (hspares : Harmless (Tracing.breakpointsOf x) a data)
    (a' : UInt64) {length : Nat} (hlen : length < wordLimit) :
    Ends (do
      let _ ← Tracing.writeMemory a data
      Tracing.readMemory a' length) x fun r _ =>
        ∃ bs, r = .ok bs ∧ (bs = (m.overwrite a data).window a' length
          ↔ ∀ y, Overlooked (Tracing.breakpointsOf x) a' length y →
              m.overwrite a data y = Breakpoint.trapByte) := by
  refine (Tracing.ends_writeMemory h hsorted a fits).bind_eq fun x' h' => ?_
  obtain ⟨t, rfl, ht⟩ := h'
  have hstopped : Tracing.Stopped (Tracing.withBreakpoints x t) p tid :=
    ⟨h.process, h.halted, h.thread⟩
  refine (Tracing.ends_readMemory hstopped a' length).mono fun r _ hr => ⟨_, hr, ?_⟩
  obtain ⟨hsound, horiginal⟩ := (ht.rewrite_iff hsorted hs.sound).mpr hspares
  rw [hs.original] at horiginal
  rw [← horiginal]
  refine (mask_window_iff ht.sorted hsound a' hlen).trans ?_
  refine forall_congr' fun y => ?_
  rw [ht.overlooked_rewrite_iff hsorted]

/-- **Patches are transparent.** After every run of operations on breakpoints: enabled breakpoints
have their trap instruction in memory, and all other bytes are those that the process is meant to
have; these are the original view. Every operation succeeds and keeps it so exactly if it is not a
write that loses an overlooked patch. A masked window is the original view, exactly if no patch that
it overlooks hides another byte than a trap instruction; so is what a tracer reads after a write.
Removing every patch leaves the original view in memory. Windows that end before the last address
overlook nothing. -/
theorem transparent_of_reached {s : Patched κ} {m : AddressSpace} (h : Reached s m) :
    (∀ b ∈ s.table.entries, b.enabled = true →
      memory s.kernel b.address = Breakpoint.trapByte) ∧
    (∀ x, (∀ b ∈ s.table.entries, b.enabled = true → b.address ≠ x) →
      memory s.kernel x = m x) ∧
    s.original = m ∧
    (∀ (tid : Nat) (op : PatchStep), Ends (op.perform tid) s fun r s' =>
      r = .ok () ∧ (Transparent s' (op.meant m) ↔ op.Spares s)) ∧
    (∀ (tid : Nat) (a : UInt64) (length : Nat), length < wordLimit →
      Ends (Patching.readMasked tid a length) s fun r s' =>
        ∃ bs, r = .ok bs ∧ memory s'.kernel = memory s.kernel ∧ s'.table = s.table ∧
          (bs = m.window a length
            ↔ ∀ x, Overlooked s a length x → m x = Breakpoint.trapByte)) ∧
    (∀ (x : System κ) (p : Process) (tid : Nat) (a a' : UInt64) (data : Bytes) (length : Nat),
      Tracing.breakpointsOf x = s → Tracing.Stopped x p tid → data.length < wordLimit →
      Harmless s a data → length < wordLimit →
      Ends (do
        let _ ← Tracing.writeMemory a data
        Tracing.readMemory a' length) x fun r _ =>
          ∃ bs, r = .ok bs ∧ (bs = (m.overwrite a data).window a' length
            ↔ ∀ y, Overlooked s a' length y → m.overwrite a data y = Breakpoint.trapByte)) ∧
    (∀ tid : Nat, Ends (Patching.disableAll tid) s fun r s' =>
      r = .ok () ∧ s'.table.entries = [] ∧ memory s'.kernel = m) ∧
    (∀ (a : UInt64) (length : Nat), a.toNat + length < wordLimit →
      ∀ x, ¬Overlooked s a length x) := by
  obtain ⟨hsorted, hs⟩ := h.invariant
  refine ⟨?_, ?_, hs.original, ?_, ?_, ?_, ?_, ?_⟩
  · intro b hb hen
    apply hs.sound b.address
    rw [Cell.trapped, Patched.cell, BreakpointTable.find?_of_mem hsorted hb]
    exact hen
  · intro x hx
    have htrapped : (s.cell x).trapped = false := by
      rw [Cell.trapped, Patched.cell]
      cases hb : s.table.find? x with
      | none => rfl
      | some b =>
        cases hen : b.enabled with
        | false => exact hen
        | true =>
          exact absurd (BreakpointTable.address_of_find? hb)
            (hx b (BreakpointTable.mem_of_find? hb) hen)
    rw [← hs.original]
    exact (Cell.original_of_not_trapped htrapped).symm
  · intro tid op
    exact (ends_perform tid op hsorted hs).mono fun _ _ h => ⟨h.1, h.2.2⟩
  · intro tid a length hlen
    refine (Patching.ends_readMasked tid a length s).mono fun r s' h => ⟨_, h.1, h.2.1, h.2.2, ?_⟩
    rw [← hs.original]
    exact mask_window_iff hsorted hs.sound a hlen
  · rintro x p tid a a' data length rfl hstopped fits hspares hlen
    exact ends_write_read hstopped hsorted hs a fits hspares a' hlen
  · intro tid
    refine (Patching.ends_disableAll tid hsorted).mono fun r s' h => ⟨h.1, h.2.1, ?_⟩
    rw [h.2.2.1, hs.original]
  · intro a length hlen x hover
    exact hover.2.2 (searched_of_inWindow hlen hover.2.1)

/-! ### A kernel that is nothing but memory -/

/-- A kernel that has a memory and no process. -/
structure FlatMemory where
  bytes : AddressSpace

namespace FlatMemory

instance : Kernel FlatMemory where
  perform c k :=
    match c with
    | .peek _ a => (.ok (k.bytes.word a), k)
    | .poke _ a w => (.ok (), ⟨k.bytes.overwrite a (Bytes.ofWord w)⟩)
    | _ => (.error .noProcess, k)
  file _ _ := .error .noEntry
  linkTarget? _ _ := none
  process? _ _ := none
  lookUp? _ _ := none
  outstanding _ := 0

instance : WordMemory FlatMemory where
  memory := FlatMemory.bytes
  peek_answer _ _ _ := rfl
  memory_peek _ _ _ := rfl
  poke_answer _ _ _ _ := rfl
  memory_poke _ _ _ _ := rfl

/-- Memory of zeros with one breakpoint. -/
def withBreakpointAt (a : UInt64) : Patched FlatMemory :=
  (((PatchStep.addUser a).perform 1).run.run ⟨⟨fun _ => 0⟩, .empty⟩).2

theorem reached_withBreakpointAt (a : UInt64) : Reached (withBreakpointAt a) fun _ => 0 :=
  .step 1 (.addUser a) (.start (FlatMemory.mk fun _ => 0)) trivial

end FlatMemory

/-- With a breakpoint in the middle of memory the original view is what was there before. -/
theorem original_with_breakpoint :
    Reached (FlatMemory.withBreakpointAt 0x1000) (fun _ => 0) ∧
      (FlatMemory.withBreakpointAt 0x1000).original = fun _ => 0 :=
  ⟨FlatMemory.reached_withBreakpointAt 0x1000,
    (transparent_of_reached (FlatMemory.reached_withBreakpointAt 0x1000)).2.2.1⟩

/-- A patch at the last address shows in a masked window, and a write over it loses the trap. -/
theorem last_address_overlooked :
    (FlatMemory.withBreakpointAt 0xFFFFFFFFFFFFFFFF).table.mask 0xFFFFFFFFFFFFFFFC
        ((memory (FlatMemory.withBreakpointAt 0xFFFFFFFFFFFFFFFF).kernel).window
          0xFFFFFFFFFFFFFFFC 4) = [0, 0, 0, Breakpoint.trapByte] ∧
      (FlatMemory.withBreakpointAt 0xFFFFFFFFFFFFFFFF).original.window 0xFFFFFFFFFFFFFFFC 4
        = [0, 0, 0, 0] ∧
      ¬(PatchStep.rewrite 0xFFFFFFFFFFFFFFFF [0xAA] (by decide)).Spares
        (FlatMemory.withBreakpointAt 0xFFFFFFFFFFFFFFFF) := by
  refine ⟨by decide +kernel, by decide +kernel, ?_⟩
  intro h
  have hover : Overlooked (FlatMemory.withBreakpointAt 0xFFFFFFFFFFFFFFFF) 0xFFFFFFFFFFFFFFFF 1
      0xFFFFFFFFFFFFFFFF := ⟨by decide +kernel, by decide +kernel, by decide +kernel⟩
  have hreceived := (h _ hover).1
  revert hreceived
  decide +kernel

end DebugAdapter.Tracer
