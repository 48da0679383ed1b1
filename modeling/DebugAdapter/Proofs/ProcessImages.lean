import DebugAdapter.Proofs.PatchRelations

/-!
# Process images

A breakpoint table lives as long as the image of its process. A new image is announced by a status
of the kernel, so how often that happened is a number that every kernel determines, `execs`. `Along T`
says of two states of a system that the breakpoint tables are related by `T` if the process is still
there with the same image. With `Extends` for `T` it is a relation that no request leaves which
starts no process.
-/

namespace DebugAdapter

open Debuggee
open Linux
open Operation

namespace Linux

/-- A kernel of which one can tell how many new images it has announced. -/
class ExecCount (κ : Type) [Kernel κ] where
  execs : κ → Nat
  execs_le_perform : ∀ (c : SystemCall) (k : κ), execs k ≤ execs (Kernel.perform c k).2
  execs_lt_poll : ∀ (k : κ) (tid : Nat),
    (Kernel.perform .poll k).1 = .ok (some (.event tid WaitStatus.execEvent)) →
      execs k < execs (Kernel.perform .poll k).2

/-- A kernel with the number of images that it has announced; every kernel can be given one. -/
structure Counted (κ : Type) where
  kernel : κ
  announced : Nat

/-- How many images an answer announces. -/
def announced : (c : SystemCall) → Except OsError c.Answer → Nat
  | .poll, .ok (some (.event _ n)) => if n = WaitStatus.execEvent then 1 else 0
  | _, _ => 0

instance {κ : Type} [Kernel κ] : Kernel (Counted κ) where
  perform c k :=
    let (answer, kernel) := Kernel.perform c k.kernel
    (answer, ⟨kernel, k.announced + announced c answer⟩)
  file k := Kernel.file k.kernel
  linkTarget? k := Kernel.linkTarget? k.kernel
  process? k := Kernel.process? k.kernel
  lookUp? k := Kernel.lookUp? k.kernel
  outstanding k := Kernel.outstanding k.kernel

instance {κ : Type} [Kernel κ] : ExecCount (Counted κ) where
  execs := Counted.announced
  execs_le_perform _ _ := Nat.le_add_right _ _
  execs_lt_poll k tid h := by
    show k.announced < k.announced + announced .poll (Kernel.perform .poll k).1
    rw [h]
    exact Nat.lt_succ_self _

instance {κ : Type} [Kernel κ] [WordMemory κ] : WordMemory (Counted κ) where
  memory k := WordMemory.memory k.kernel
  peek_answer tid a k := WordMemory.peek_answer tid a k.kernel
  memory_peek tid a k := WordMemory.memory_peek tid a k.kernel
  poke_answer tid a w k := WordMemory.poke_answer tid a w k.kernel
  memory_poke tid a w k := WordMemory.memory_poke tid a w k.kernel

end Linux

namespace Tracer

variable {κ : Type} [Kernel κ] [ExecCount κ] {T : BreakpointTable → BreakpointTable → Prop}

/-! ### Operations on breakpoints -/

/-- What work on breakpoints does to a well-formed table. -/
structure Patches (T : BreakpointTable → BreakpointTable → Prop) (p p' : Patched κ) : Prop where
  execs : ExecCount.execs p.kernel ≤ ExecCount.execs p'.kernel
  table : p.table.WellFormed → p'.table.WellFormed ∧ T p.table p'.table

instance [StepRelation T] : StepRelation (Patches T : Patched κ → Patched κ → Prop) where
  refl _ := ⟨Nat.le_refl _, fun h => ⟨h, StepRelation.refl _⟩⟩
  trans h h' :=
    { execs := Nat.le_trans h.execs h'.execs
      table := fun hp =>
        have hq := h.table hp
        have hr := h'.table hq.1
        ⟨hr.1, StepRelation.trans hq.2 hr.2⟩ }

instance : PatchRelation (Patches BreakpointTable.Extends : Patched κ → Patched κ → Prop) where
  peek _ _ p := ⟨ExecCount.execs_le_perform _ p.kernel, fun hp => ⟨hp, StepRelation.refl _⟩⟩
  poke _ _ _ p := ⟨ExecCount.execs_le_perform _ p.kernel, fun hp => ⟨hp, StepRelation.refl _⟩⟩
  table p t h := by
    refine ⟨Nat.le_refl _, fun hp => ?_⟩
    cases h with
    | insert a => exact hp.insert a
    | modify a haddress hid => exact hp.modify a haddress hid
    | assign a => exact hp.assign a
    | erase a => exact hp.erase a
    | clear =>
      have hempty : BreakpointTable.WellFormed { p.table with entries := [] } :=
        BreakpointTable.wellFormed_of_entries rfl
      exact hp.of_userAt hempty.sorted rfl nofun

/-! ### Systems -/

/-- What a tracer does to its table while the process keeps its image. -/
structure Along (T : BreakpointTable → BreakpointTable → Prop) (s s' : System κ) : Prop where
  execs : ExecCount.execs s.kernel ≤ ExecCount.execs s'.kernel
  /-- No process appears. -/
  process : s.tracer.process = none → s'.tracer.process = none
  wellFormed : s.tracer.breakpoints.WellFormed → s'.tracer.breakpoints.WellFormed
  table : s.tracer.breakpoints.WellFormed →
    ExecCount.execs s'.kernel = ExecCount.execs s.kernel → s'.tracer.process ≠ none →
    T s.tracer.breakpoints s'.tracer.breakpoints

instance [StepRelation T] : StepRelation (Along T : System κ → System κ → Prop) where
  refl _ := ⟨Nat.le_refl _, id, id, fun _ _ _ => StepRelation.refl _⟩
  trans {s t u} h h' :=
    { execs := Nat.le_trans h.execs h'.execs
      process := fun hs => h'.process (h.process hs)
      wellFormed := fun hs => h'.wellFormed (h.wellFormed hs)
      table := by
        intro hs hexecs hu
        -- Nothing was announced in either part, and the process was there in the middle.
        have ht : ExecCount.execs t.kernel = ExecCount.execs s.kernel :=
          Nat.le_antisymm (hexecs ▸ h'.execs) h.execs
        have hprocess : t.tracer.process ≠ none := fun hnone => hu (h'.process hnone)
        exact StepRelation.trans (h.table hs ht hprocess)
          (h'.table (h.wellFormed hs) (hexecs.trans ht.symm) hu) }

/-- Work on breakpoints leaves the rest of a system alone. -/
theorem Patches.along {s : System κ} {p : Patched κ} (h : Patches T (Tracing.breakpointsOf s) p) :
    Along T s (Tracing.withBreakpoints s p) :=
  ⟨h.execs, id, fun hs => (h.table hs).1, fun hs _ _ => (h.table hs).2⟩

theorem along_of_moves {α : Type} {m : Patching κ α} (h : Moves (Patches T) m) (s : System κ) :
    Ends m (Tracing.breakpointsOf s) fun _ p => Along T s (Tracing.withBreakpoints s p) :=
  (h (Tracing.breakpointsOf s)).mono fun _ _ hp => hp.along

instance [StepRelation T] : ThreadRelation (Along T : System κ → System κ → Prop) where
  call c s _ := ⟨ExecCount.execs_le_perform c s.kernel, id, id, fun _ _ _ => StepRelation.refl _⟩
  tracer s t hbreakpoints hprocess _ :=
    { execs := Nat.le_refl _
      process := hprocess
      wellFormed := fun hs => (congrArg BreakpointTable.WellFormed hbreakpoints).mpr hs
      table := fun _ _ _ => by
        show T _ t.breakpoints
        rw [hbreakpoints]
        exact StepRelation.refl _ }
  exit s t hprocess hbreakpoints _ :=
    { execs := Nat.le_refl _
      process := fun _ => hprocess
      wellFormed := fun _ => by
        show t.breakpoints.WellFormed
        rw [hbreakpoints]
        exact BreakpointTable.wellFormed_of_entries rfl
      table := fun _ _ hsome => absurd hprocess hsome }

/-- A relation between tables is one between systems if the end of a step plan moves along it. -/
theorem tracerRelation_along [StepRelation T] (hunplan : ∀ (tid : Nat) (a : UInt64),
    Moves (Patches T) (Patching.removePlanned tid a : Patching κ Unit)) :
    TracerRelation (Along T : System κ → System κ → Prop) where
  poll s _ :=
    ⟨ExecCount.execs_le_perform .poll s.kernel, id, id, fun _ _ _ => StepRelation.refl _⟩
  image s t tid hpoll hprocess hbreakpoints _ :=
    { execs := ExecCount.execs_le_perform .poll s.kernel
      process := hprocess
      wellFormed := fun _ => by
        show t.breakpoints.WellFormed
        rw [hbreakpoints]
        exact BreakpointTable.wellFormed_of_entries rfl
      table := fun _ hexecs _ =>
        absurd hexecs (Nat.ne_of_gt (ExecCount.execs_lt_poll s.kernel tid hpoll)) }
  unplan tid a := along_of_moves (hunplan tid a)

instance : TogglingRelation (Along BreakpointTable.Extends : System κ → System κ → Prop) where
  toTracerRelation := tracerRelation_along Patching.moves_removePlanned
  enable tid a := along_of_moves (Patching.moves_enable tid a)
  disable tid a := along_of_moves (Patching.moves_disable tid a)

instance : RequestRelation (Along BreakpointTable.Extends : System κ → System κ → Prop) where
  work h := along_of_moves h.moves

/-! ### Tables without entries -/

section Empty

variable {κ : Type} [Kernel κ]

namespace Patching

theorem find?_of_entries {t : BreakpointTable} (h : t.entries = []) (a : UInt64) :
    t.find? a = none := by
  rw [BreakpointTable.find?, h]
  rfl

theorem blank_enable (tid : Nat) (a : UInt64) {p : Patched κ} (h : p.table.entries = []) :
    Ends (enable tid a) p fun _ p' => p'.table.entries = [] := by
  rw [enable, ends_get_bind, find?_of_entries h]
  exact h

theorem blank_disable (tid : Nat) (a : UInt64) {p : Patched κ} (h : p.table.entries = []) :
    Ends (disable tid a) p fun _ p' => p'.table.entries = [] := by
  rw [disable, ends_get_bind, find?_of_entries h]
  exact h

theorem blank_removePlanned (tid : Nat) (a : UInt64) {p : Patched κ} (h : p.table.entries = []) :
    Ends (removePlanned tid a) p fun _ p' => p'.table.entries = [] := by
  have hmodify : (p.table.modify a fun b => { b with planned := false }).entries = [] := by
    rw [BreakpointTable.modify, h]
    rfl
  rw [removePlanned, release, ends_modifyTable_bind, ends_get_bind, find?_of_entries hmodify]
  exact hmodify

end Patching

/-- A table without entries stays so. -/
structure Barren (s s' : System κ) : Prop where
  entries : s.tracer.breakpoints.entries = [] → s'.tracer.breakpoints.entries = []

instance : TogglingRelation (Barren : System κ → System κ → Prop) where
  refl _ := ⟨id⟩
  trans h h' := ⟨fun hs => h'.entries (h.entries hs)⟩
  call _ _ _ := ⟨id⟩
  poll _ _ := ⟨id⟩
  tracer _ _ hbreakpoints _ _ :=
    ⟨fun hs => (congrArg BreakpointTable.entries hbreakpoints).trans hs⟩
  exit _ _ _ hbreakpoints _ := ⟨fun _ => congrArg BreakpointTable.entries hbreakpoints⟩
  image _ _ _ _ _ hbreakpoints _ := ⟨fun _ => congrArg BreakpointTable.entries hbreakpoints⟩
  unplan tid a s := ⟨Patching.blank_removePlanned tid a (p := Tracing.breakpointsOf s)⟩
  enable tid a s := ⟨Patching.blank_enable tid a (p := Tracing.breakpointsOf s)⟩
  disable tid a s := ⟨Patching.blank_disable tid a (p := Tracing.breakpointsOf s)⟩

end Empty

/-- Nothing sets a breakpoint. -/
structure Blank (s s' : System κ) : Prop extends Barren s s' where
  execs : ExecCount.execs s.kernel ≤ ExecCount.execs s'.kernel

instance : StepRelation (Blank : System κ → System κ → Prop) where
  refl s := ⟨StepRelation.refl s, Nat.le_refl _⟩
  trans h h' := ⟨StepRelation.trans h.toBarren h'.toBarren, Nat.le_trans h.execs h'.execs⟩

/-- Work on breakpoints that leaves a table without entries alone. -/
theorem blank_of_moves {α : Type} {m : Patching κ α} {s : System κ}
    (hempty : Ends m (Tracing.breakpointsOf s) fun _ p => Barren s (Tracing.withBreakpoints s p))
    (h : Moves (Patches BreakpointTable.Extends) m) :
    Ends m (Tracing.breakpointsOf s) fun _ p => Blank s (Tracing.withBreakpoints s p) :=
  ⟨hempty, (h (Tracing.breakpointsOf s) : Patches BreakpointTable.Extends _ _).execs⟩

instance : TogglingRelation (Blank : System κ → System κ → Prop) where
  call c s hc := ⟨CallRelation.call c s hc, ExecCount.execs_le_perform c s.kernel⟩
  poll s h := ⟨TracerRelation.poll s h, ExecCount.execs_le_perform .poll s.kernel⟩
  tracer s t hbreakpoints hprocess houtput :=
    ⟨ThreadRelation.tracer s t hbreakpoints hprocess houtput, Nat.le_refl _⟩
  exit s t hprocess hbreakpoints houtput :=
    ⟨ThreadRelation.exit s t hprocess hbreakpoints houtput, Nat.le_refl _⟩
  image s t tid hpoll hprocess hbreakpoints houtput :=
    ⟨TracerRelation.image s t tid hpoll hprocess hbreakpoints houtput,
      ExecCount.execs_le_perform .poll s.kernel⟩
  unplan tid a s := blank_of_moves (TracerRelation.unplan tid a s) (Patching.moves_removePlanned tid a)
  enable tid a s := blank_of_moves (ToggleRelation.enable tid a s) (Patching.moves_enable tid a)
  disable tid a s := blank_of_moves (ToggleRelation.disable tid a s) (Patching.moves_disable tid a)

namespace Tracing

theorem moves_adopt (p : Process) : Moves Blank (adopt p : Tracing κ Unit) := by
  have hadopt : Moves Blank (modifyTracer fun t =>
      { t with process := some p, breakpoints := .empty, modules := t.modules.clear } :
      Tracing κ Unit) :=
    Moves.modify fun s => ⟨⟨fun _ => rfl⟩, Nat.le_refl _⟩
  exact hadopt.bind fun _ => moves_modifySnapshot _

end Tracing

end Tracer

end DebugAdapter
