import DebugAdapter.Proofs.InstalledBreakpoints
import DebugAdapter.Proofs.Puppet
import DebugAdapter.Proofs.TracerActs

/-!
# Runs and steps that fail

A resume, a step or the handling of a status may fail half way. What it leaves of the breakpoints of
the user is an outcome of operations that report (`Guards`): they stay in place, but a failure may
leave one of them lifted, which a thread was to step over. What it leaves of the step plan is another
outcome: a failure does not end the plan (`Unended`), and neither the one that a failed step started
(`Begins`). The handling of statuses steps over breakpoints of step plans only, so it loses none of the
user's.

Main statement: `breakpoints_of_steps`.
-/

namespace DebugAdapter

open Debuggee
open Linux
open Operation

/-- A kernel that keeps the program counter that was set for a thread while it is asked for it. -/
class Linux.HoldsRegisters (κ : Type) [Kernel κ] where
  pc : κ → Nat → UInt64
  getRegisters_answer : ∀ (k : κ) (tid : Nat) (regs : Machine.RegisterFile),
    (Kernel.perform (.getRegisters tid) k).1 = .ok regs → regs.pc = pc k tid
  pc_getRegisters : ∀ (k : κ) (tid u : Nat), pc (Kernel.perform (.getRegisters tid) k).2 u = pc k u
  pc_setRegisters : ∀ (k : κ) (tid : Nat) (regs : Machine.RegisterFile),
    (Kernel.perform (.setRegisters tid regs) k).1 = .ok () →
      pc (Kernel.perform (.setRegisters tid regs) k).2 tid = regs.pc

namespace Tracer

variable {κ : Type} [Kernel κ] {A : UInt64 → Prop} {s t s' : System κ}

/-! ### Breakpoints of the user -/

section Guarding

variable [WordMemory κ]

/-- Breakpoints of the user stay in place, unless a failure leaves one of them lifted. -/
inductive Guards (A : UInt64 → Prop) (s : System κ) : Except DebugError Unit → System κ → Prop
  | spared {r : Except DebugError Unit} {s' : System κ} : Spares A s s' → Guards A s r s'
  | mislaid {a : UInt64} {e : DebugError} {s' : System κ} : Mislays A a s s' →
      Guards A s (.error e) s'

variable [Untouched κ A]

instance : OutcomeRelation (Spares A : System κ → System κ → Prop) (Guards A) where
  quiet _ h := .spared h
  after h h' := by
    cases h' with
    | spared h' => exact .spared (StepRelation.trans h h')
    | mislaid h' => exact .mislaid (h'.after h)
  report stop s := (Tracing.moves_reportStop stop s).mono fun _ _ h => .spared h

namespace Tracing

theorem guards_stepThread (tid : Nat) :
    Precedes (Spares A) (Guards A) (stepThread tid : Tracing κ Stepped) := by
  refine fun s => (spares_stepThread (A := A) tid s).mono fun r s' h => ?_
  cases r with
  | ok stepped => exact h.resolve_right fun ⟨_, _, hr, _⟩ => nomatch hr
  | error e => exact h.elim .spared fun ⟨_, _, _, _, h⟩ => .mislaid h

theorem guards_resume : Comes (Guards A) (resume : Tracing κ Unit) :=
  comes_resume guards_stepThread fun s _ => moves_publish (R := Spares A) _ s

theorem guards_runPlan (plan : StepPlan) : Comes (Guards A) (runPlan plan : Tracing κ Unit) := by
  intro s
  refine ends_runPlan plan s (fun _ => .spared (StepRelation.refl s)) fun access p hp => ?_
  have hadd := spares_patching (A := A) (Patching.moves_addPlanned access plan.address) fun hs =>
    (Patching.preserves_addPlanned access plan.address (p := breakpointsOf s) hs).mono
      fun _ _ h => h.2
  refine hadd.mono fun r q hspares => ?_
  cases r with
  | error e => exact .spared hspares
  | ok _ =>
    have hplanning : Spares A (withBreakpoints s q) (planning (withBreakpoints s q) p plan) := by
      refine ShownRelation.shown _ _ rfl ?_ id
      rw [process_withBreakpoints, hp]
      rfl
    have hresume : Ends (resumeAs .stepping) (planning (withBreakpoints s q) p plan)
        (Guards A (planning (withBreakpoints s q) p plan)) :=
      comes_resumeAs guards_stepThread (fun s _ => moves_publish (R := Spares A) _ s)
        (by exact nofun)
    exact hresume.mono fun _ _ => OutcomeRelation.after (StepRelation.trans hspares hplanning)

theorem guards_step (tid : Nat) (kind : StepKind) :
    Comes (Guards A) (step tid kind : Tracing κ Unit) :=
  comes_step guards_runPlan (fun tid reason s _ =>
    comes_stepInstruction guards_stepThread tid reason (moves_publish (R := Spares A) _ s)) tid kind

/-! ### Statuses -/

section Registers

variable [HoldsRegisters κ]

omit [WordMemory κ] [Untouched κ A] in
theorem pc_registersOf (tid : Nat) (s : System κ) : Ends (registersOf tid) s fun r s' =>
    (∀ regs, r = .ok regs → regs.pc = HoldsRegisters.pc s.kernel tid) ∧
      ∀ u, HoldsRegisters.pc s'.kernel u = HoldsRegisters.pc s.kernel u := by
  rw [registersOf, ends_require]
  refine ⟨fun regs hregs => ?_, HoldsRegisters.pc_getRegisters s.kernel tid⟩
  rcases hanswer : (Kernel.perform (.getRegisters tid) s.kernel).1 with e | regs'
  · rw [hanswer] at hregs
    cases hregs
  · rw [hanswer] at hregs
    cases hregs
    exact HoldsRegisters.getRegisters_answer s.kernel tid regs hanswer

omit [WordMemory κ] [Untouched κ A] in
/-- A thread stands where it was moved to. -/
theorem pc_setPc (tid : Nat) (address : UInt64) (s : System κ) :
    Ends (setPc tid address) s fun r s' =>
      r = .ok () → HoldsRegisters.pc s'.kernel tid = address := by
  have hany : Ends (registersOf tid) s fun _ _ => True := True.intro
  refine hany.bind (fun regs t _ => ?_) fun _ _ _ => nofun
  rw [ends_require]
  intro hok
  let call : SystemCall := .setRegisters tid (regs.set .rip address)
  rcases hanswer : (Kernel.perform call t.kernel).1 with e | _
  · rw [hanswer] at hok
    cases hok
  · exact HoldsRegisters.pc_setRegisters t.kernel tid _ hanswer

omit [WordMemory κ] [Untouched κ A] in
/-- Whether a step plan ends is found out without moving a thread. -/
theorem pc_completesPlan (tid : Nat) (address : UInt64) (s : System κ) :
    Ends (completesPlan tid address) s fun _ s' =>
      ∀ u, HoldsRegisters.pc s'.kernel u = HoldsRegisters.pc s.kernel u := by
  rcases hp : s.tracer.process with _ | p
  · rw [completesPlan, ends_process_bind_none hp]
    exact fun _ => rfl
  · rw [completesPlan, ends_process_bind hp]
    split
    · exact fun _ => rfl
    · split
      · have hsp : Ends (spOf tid) s fun _ s' =>
            ∀ u, HoldsRegisters.pc s'.kernel u = HoldsRegisters.pc s.kernel u :=
          (pc_registersOf tid s).bind (fun _ _ h => h.2) fun _ _ h => h.2
        exact hsp.bind (fun _ _ h => h) fun _ _ h => h
      · exact fun _ => rfl

omit [WordMemory κ] [Untouched κ A] in
theorem pc_pcOf (tid : Nat) (s : System κ) :
    Ends (pcOf tid) s fun r _ => ∀ a, r = .ok a → a = HoldsRegisters.pc s.kernel tid := by
  refine (pc_registersOf tid s).bind ?_ fun _ _ _ => nofun
  rintro regs _ h _ ⟨⟩
  exact h.1 regs rfl

/-- A thread that stands on no breakpoint of the user steps without harm to them. -/
theorem spares_stepThread_of_pc (tid : Nat)
    (huser : s.tracer.breakpoints.isUserAt (HoldsRegisters.pc s.kernel tid) ≠ true) :
    Ends (stepThread tid) s fun _ s' => Spares A s s' := by
  refine (spares_stepThread (A := A) tid s).mono ?_
  rintro r s' (h | ⟨pc, e, -, hread, h⟩)
  · exact h
  · have hpc : pc = HoldsRegisters.pc s.kernel tid := (pc_pcOf tid s) pc hread
    exact h.spares fun id v hcell => huser (hpc ▸ hcell.isUserAt)

/-- A breakpoint of a step plan is passed without harm to those of the user. -/
theorem spares_breakpointMet (tid : Nat) (address : UInt64) :
    Moves (Spares A) (breakpointMet tid address : Tracing κ Unit) := by
  intro s
  refine ((moves_setPc (R := Spares A) tid address s).and (pc_setPc tid address s)).bind ?_
    fun _ _ h => h.1
  rintro _ t ⟨ht, hpc⟩
  refine ((moves_completesPlan (R := Spares A) tid address t).and
    (pc_completesPlan tid address t)).bind ?_ fun _ _ h => StepRelation.trans ht h.1
  rintro completes u ⟨hu, hkept⟩
  refine Ends.mono (P := fun _ s' => Spares A u s') ?_ fun _ _ h =>
    StepRelation.trans (StepRelation.trans ht hu) h
  split
  · exact moves_reportStop _ u
  · rw [ends_tracer_bind]
    split
    · exact moves_reportStop _ u
    · rename_i huser
      -- The thread stands at the address still, where there is no breakpoint of the user.
      have hat : HoldsRegisters.pc u.kernel tid = address := (hkept tid).trans (hpc rfl)
      refine (spares_stepThread_of_pc (A := A) tid (hat ▸ huser)).bind (fun stepped v h => ?_)
        fun _ _ h => h
      refine Ends.mono (P := fun _ s' => Spares A v s') ?_ fun _ _ => StepRelation.trans h
      cases stepped with
      | done => exact moves_continueThread tid v
      | signal signal => exact moves_reportStop _ v
      | gone => exact StepRelation.refl v

theorem spares_handle {status : WaitStatus}
    (himage : ∀ tid, status ≠ .event tid WaitStatus.execEvent) :
    Moves (Spares A) (handle status : Tracing κ Unit) :=
  comes_handle (O := Always (Spares A)) (fun tid _ =>
    comes_trapSeen (O := Always (Spares A)) spares_breakpointMet tid)
    fun tid heq => absurd heq (himage tid)

end Registers

end Tracing

end Guarding

/-! ### Step plans -/

/-- A step plan uses the breakpoint at an address. -/
def BreakpointTable.PlannedAt (t : BreakpointTable) (x : UInt64) : Prop :=
  ∃ b, t.find? x = some b ∧ b.planned = true

omit [Kernel κ] in
/-- A patch that comes or goes is used by step plans as before. -/
theorem Toggles.plannedAt {a : UInt64} {p p' : Patched κ} (h : Toggles a p p') (x : UInt64) :
    p'.table.PlannedAt x ↔ p.table.PlannedAt x := by
  obtain ⟨f, hf, hmodify⟩ := h.modify
  rw [hmodify, BreakpointTable.PlannedAt, BreakpointTable.find?_modify fun b => (hf b).1]
  split
  · constructor
    · rintro ⟨_, hfb, hplanned⟩
      obtain ⟨b, hb, rfl⟩ := Option.map_eq_some_iff.mp hfb
      exact ⟨b, hb, (hf b).2.2.symm.trans hplanned⟩
    · rintro ⟨b, hb, hplanned⟩
      exact ⟨f b, Option.map_eq_some_iff.mpr ⟨b, hb, rfl⟩, (hf b).2.2.trans hplanned⟩
  · exact Iff.rfl

theorem Patching.plannedAt_addPlanned (tid : Nat) (a : UInt64) {p : Patched κ}
    (hp : p.table.Sorted) : Ends (addPlanned tid a) p fun _ p' =>
      ∀ x, p'.table.PlannedAt x ↔ p.table.PlannedAt x ∨ a = x := by
  rw [addPlanned, ends_modifyTable_bind, ends_modifyTable_bind]
  refine (toggles_enable a tid _).mono fun _ p' h x => (h.plannedAt x).trans ?_
  dsimp only
  by_cases hx : a = x
  · subst hx
    refine ⟨fun _ => Or.inr rfl, fun _ => ?_⟩
    rw [BreakpointTable.PlannedAt,
      BreakpointTable.find?_modify_self (f := fun b => { b with planned := true }) fun _ => rfl,
      BreakpointTable.find?_insert_self hp]
    exact ⟨_, rfl, rfl⟩
  · rw [BreakpointTable.PlannedAt, or_iff_left hx,
      BreakpointTable.find?_modify_of_ne (f := fun b => { b with planned := true }) (fun _ => rfl) _
        (Ne.symm hx), BreakpointTable.find?_insert_of_ne _ (Ne.symm hx)]
    exact Iff.rfl

/-- While there is a process its step plan stays, and so do the breakpoints that step plans use. -/
structure SamePlan (s s' : System κ) : Prop extends Sorts s s' where
  process : s.tracer.process = none → s'.tracer.process = none
  plan : s'.tracer.process ≠ none → s'.plan? = s.plan?
  planned : s'.tracer.process ≠ none → ∀ x,
    s'.tracer.breakpoints.PlannedAt x ↔ s.tracer.breakpoints.PlannedAt x

omit [Kernel κ] in
theorem SamePlan.of_rests (hcalm : Calm s s') (hrests : Rests s s') (hsorts : Sorts s s') :
    SamePlan s s' :=
  ⟨hsorts, hcalm.process, hcalm.plan, fun hs' x => by rw [hrests.breakpoints hs']⟩

instance : StepRelation (SamePlan : System κ → System κ → Prop) where
  refl s := .of_rests (StepRelation.refl s) (StepRelation.refl s) (StepRelation.refl s)
  trans {s t u} h h' := by
    have ht : u.tracer.process ≠ none → t.tracer.process ≠ none :=
      fun hu hnone => hu (h'.process hnone)
    exact ⟨StepRelation.trans h.toSorts h'.toSorts, fun hs => h'.process (h.process hs),
      fun hu => (h'.plan hu).trans (h.plan (ht hu)),
      fun hu x => (h'.planned hu x).trans (h.planned (ht hu) x)⟩

instance : ProbeRelation (SamePlan : System κ → System κ → Prop) where
  probe c s hc :=
    .of_rests (ProbeRelation.probe c s hc) (ProbeRelation.probe c s hc) (ProbeRelation.probe c s hc)

instance : StepCallRelation (SamePlan : System κ → System κ → Prop) where
  stepCall tid signal s :=
    .of_rests (StepCallRelation.stepCall tid signal s) (StepCallRelation.stepCall tid signal s)
      (StepCallRelation.stepCall tid signal s)

instance : ModulesRelation (SamePlan : System κ → System κ → Prop) where
  modules s t hprocess hsnapshot hbreakpoints houtput hevents :=
    have hcalm : ModulesRelation (Calm : System κ → System κ → Prop) := inferInstance
    .of_rests (hcalm.modules s t hprocess hsnapshot hbreakpoints houtput hevents)
      (ModulesRelation.modules s t hprocess hsnapshot hbreakpoints houtput hevents)
      (ModulesRelation.modules s t hprocess hsnapshot hbreakpoints houtput hevents)

instance : QuietRelation (SamePlan : System κ → System κ → Prop) where
  process s p p' hp hplan :=
    have hcalm : QuietRelation (Calm : System κ → System κ → Prop) := inferInstance
    .of_rests (hcalm.process s p p' hp hplan) (QuietRelation.process s p p' hp hplan)
      (QuietRelation.process s p p' hp hplan)
  exited s status hs :=
    have hcalm : QuietRelation (Calm : System κ → System κ → Prop) := inferInstance
    .of_rests (hcalm.exited s status hs) (QuietRelation.exited s status hs)
      (QuietRelation.exited s status hs)

omit [Kernel κ] in
theorem samePlan_of_toggles {a : UInt64} {m : Patching κ Unit} (htoggles : Moves (Toggles a) m)
    (htidies : Moves Tidies m) (s : System κ) :
    Ends m (Tracing.breakpointsOf s) fun _ p => SamePlan s (Tracing.withBreakpoints s p) :=
  ((htoggles _).and (sorts_of_moves htidies s)).mono fun _ _ h =>
    ⟨h.2, id, fun _ => rfl, fun _ x => h.1.plannedAt x⟩

instance : ToggleRelation (SamePlan : System κ → System κ → Prop) where
  enable tid a :=
    samePlan_of_toggles (Patching.toggles_enable a tid) (Patching.moves_enable tid a)
  disable tid a :=
    samePlan_of_toggles (Patching.toggles_disable a tid) (Patching.moves_disable tid a)

/-- A failure does not end the step plan. -/
def Unended (s : System κ) (r : Except DebugError Unit) (s' : System κ) : Prop :=
  ∀ e, r = .error e → SamePlan s s'

instance : OutcomeRelation (SamePlan : System κ → System κ → Prop) Unended where
  quiet _ h _ _ := h
  after h h' e he := StepRelation.trans h (h' e he)
  report stop s := by
    refine ((Tracing.ends_reportStop stop s).and
      (Tracing.moves_reportStop (R := Sorts) stop s)).mono ?_
    rintro r s' ⟨⟨hcalm, hrests⟩ | ⟨rfl, -⟩, hsorts⟩ e he
    · exact .of_rests hcalm hrests hsorts
    · cases he

/-- The step plan is the old one, or else a new one with its breakpoint, if there may be a new one. -/
structure Began (mayPlan : Bool) (s s' : System κ) : Prop where
  process : s.tracer.process = none → s'.tracer.process = none
  plan : s'.tracer.process ≠ none → s.tracer.breakpoints.Sorted → ∃ plan : Option StepPlan,
    (plan.isSome = true → mayPlan = true) ∧ s'.plan? = plan.or s.plan? ∧
      ∀ x, s'.tracer.breakpoints.PlannedAt x ↔
        s.tracer.breakpoints.PlannedAt x ∨ plan.map (·.address) = some x

/-- A failure leaves the old step plan or a new one. -/
def Begins (mayPlan : Bool) (s : System κ) (r : Except DebugError Unit) (s' : System κ) : Prop :=
  ∀ e, r = .error e → Began mayPlan s s'

section Begins

variable {mayPlan : Bool}

omit [Kernel κ] in
theorem SamePlan.began (h : SamePlan s s') : Began mayPlan s s' := by
  refine ⟨h.process, fun hs' _ => ⟨none, nofun, ?_, fun x => ?_⟩⟩
  · rw [Option.none_or]
    exact h.plan hs'
  · rw [Option.map_none, or_iff_left nofun]
    exact h.planned hs' x

omit [Kernel κ] in
theorem Unended.begins {r : Except DebugError Unit} (h : Unended s r s') : Begins mayPlan s r s' :=
  fun e he => (h e he).began

omit [Kernel κ] in
theorem Began.after (h : SamePlan s t) (h' : Began mayPlan t s') : Began mayPlan s s' := by
  refine ⟨fun hs => h'.process (h.process hs), fun hs' hsorted => ?_⟩
  have ht : t.tracer.process ≠ none := fun hnone => hs' (h'.process hnone)
  obtain ⟨plan, hmay, hplan, hplanned⟩ := h'.plan hs' (h.sorted hsorted)
  refine ⟨plan, hmay, hplan.trans (by rw [h.plan ht]), fun x => (hplanned x).trans ?_⟩
  rw [h.planned ht x]

instance : OutcomeRelation (SamePlan : System κ → System κ → Prop) (Begins mayPlan) where
  quiet r h := (OutcomeRelation.quiet r h : Unended _ _ _).begins
  after h h' e he := .after h (h' e he)
  report stop s := (Tracing.comes_reportStop (O := Unended) stop s).mono fun _ _ h => h.begins

end Begins

namespace Tracing

omit [Kernel κ] in
theorem samePlan_publish (state : ProcessState) (s : System κ) :
    Ends (publish state) s fun _ s' => SamePlan s s' :=
  ⟨⟨id⟩, id, fun _ => rfl, fun _ _ => Iff.rfl⟩

theorem unended_stepThread (tid : Nat) :
    Precedes SamePlan Unended (stepThread tid : Tracing κ Stepped) :=
  .of_moves (moves_stepThread tid)

theorem unended_resume : Comes Unended (resume : Tracing κ Unit) :=
  comes_resume unended_stepThread fun s _ => samePlan_publish _ s

theorem unended_handle {status : WaitStatus}
    (himage : ∀ tid, status ≠ .event tid WaitStatus.execEvent) :
    Comes Unended (handle status : Tracing κ Unit) :=
  comes_handle (fun tid _ => comes_trapSeen (comes_breakpointMet unended_stepThread) tid)
    fun tid heq => absurd heq (himage tid)

theorem begins_runPlan [WordMemory κ] (plan : StepPlan) :
    Comes (Begins true) (runPlan plan : Tracing κ Unit) := by
  intro s
  refine ends_runPlan plan s (fun _ => OutcomeRelation.quiet _ (StepRelation.refl s))
    fun access p hp => ?_
  have hpresent : s.tracer.process ≠ none := by
    rw [hp]
    exact Option.some_ne_none p
  have hadd : Ends (Patching.addPlanned access plan.address) (breakpointsOf s) fun r q =>
      s.tracer.breakpoints.Sorted → r = .ok () ∧
        ∀ x, q.table.PlannedAt x ↔ s.tracer.breakpoints.PlannedAt x ∨ plan.address = x :=
    fun hs => ((Patching.preserves_addPlanned access plan.address (p := breakpointsOf s) hs).mono
      fun _ _ h => h.1).and (Patching.plannedAt_addPlanned access plan.address hs)
  refine hadd.mono fun r q hq => ?_
  cases r with
  | error e =>
    exact fun _ _ => ⟨fun hnone => absurd hnone hpresent, fun _ hs => by cases (hq hs).1⟩
  | ok _ =>
    have hresume : Ends (resumeAs .stepping) (planning (withBreakpoints s q) p plan)
        (Unended (planning (withBreakpoints s q) p plan)) :=
      comes_resumeAs unended_stepThread (fun s _ => samePlan_publish _ s) (by rintro ⟨⟩)
    refine hresume.mono fun r s' h e he => ?_
    have hsame : SamePlan (planning (withBreakpoints s q) p plan) s' := h e he
    refine ⟨fun hnone => absurd hnone hpresent, fun hs' hs => ?_⟩
    refine ⟨some plan, fun _ => rfl, hsame.plan hs', fun x => ?_⟩
    -- The run keeps the marks that there were when the plan was noted.
    rw [Option.map_some, Option.some_inj]
    exact (hsame.planned hs' x).trans ((hq hs).2 x)

theorem begins_step [WordMemory κ] (tid : Nat) (kind : StepKind) :
    Comes (Begins true) (step tid kind : Tracing κ Unit) := by
  refine comes_step begins_runPlan (fun tid reason s _ => ?_) tid kind
  exact (comes_stepInstruction unended_stepThread tid reason (samePlan_publish _ s)).mono
    fun _ _ h => h.begins

theorem sorts_adopt (p : Process) : Moves Sorts (adopt p : Tracing κ Unit) := by
  have hadopt : Moves Sorts (modifyTracer fun t =>
      { t with process := some p, breakpoints := .empty, modules := t.modules.clear } :
      Tracing κ Unit) :=
    Moves.modify fun _ => ⟨fun _ => BreakpointTable.sorted_empty⟩
  exact hadopt.bind fun _ => moves_modifySnapshot _

end Tracing

theorem Steps.sorts (h : Steps s t) : Sorts s t := by
  induction h with
  | refl => exact StepRelation.refl s
  | act a _ ih => exact StepRelation.trans ih (a.moves Tracing.sorts_adopt _)
  | collect _ ih => exact ⟨ih.sorted⟩
  | elapse _ _ ih => exact ⟨ih.sorted⟩

/-! ### Errands -/

/-- What lets threads run: two requests, and the handling of a status. -/
inductive Errand where
  | resume
  | step (tid : Nat) (kind : StepKind)
  | handle (status : WaitStatus)
  deriving DecidableEq

namespace Errand

/-- What an errand does. -/
def operation : Errand → Tracing κ Unit
  | resume => Tracing.resume
  | step tid kind => Tracing.step tid kind
  | handle status => Tracing.handle status

/-- Whether an errand may start a step plan. -/
def mayPlan : Errand → Bool
  | step .. => true
  | _ => false

/-- Whether an errand is about a status only. -/
def isHandling : Errand → Bool
  | handle _ => true
  | _ => false

variable [WordMemory κ]

/-- What an errand leaves of breakpoints and step plans. -/
structure Leaves (A : UInt64 → Prop) (e : Errand) (s : System κ) (r : Except DebugError Unit)
    (s' : System κ) : Prop where
  /-- Breakpoints of the user stay in place by success, and by the handling of a status. -/
  installed : r = .ok () ∨ e.isHandling = true → ∀ x id v, A x → (s.cell x).Installed id v →
    (s'.cell x).Installed id v
  /-- At most one of them is lifted otherwise. -/
  mislaid : ∃ a, ∀ x id v, A x → (s.cell x).Installed id v →
    (s'.cell x).Installed id v ∨ x = a ∧ (s'.cell x).Lifted id v
  /-- A failure ends no step plan, and takes no breakpoint of one away. -/
  plan : ∀ error, r = .error error → ∃ plan : Option StepPlan,
    (plan.isSome = true → e.mayPlan = true) ∧ s'.plan? = plan.or s.plan? ∧
      ∀ x, s'.tracer.breakpoints.PlannedAt x ↔
        s.tracer.breakpoints.PlannedAt x ∨ plan.map (·.address) = some x

end Errand

section Errands

variable [WordMemory κ]

theorem Guards.exists_mislaid {r : Except DebugError Unit} (h : Guards A s r s')
    (hs : s.tracer.breakpoints.Sorted) (hs' : s'.tracer.process ≠ none) :
    ∃ a, ∀ x id v, A x → (s.cell x).Installed id v →
      (s'.cell x).Installed id v ∨ x = a ∧ (s'.cell x).Lifted id v := by
  cases h with
  | spared h => exact ⟨0, fun x id v hx hcell => Or.inl (h.installed hs' hs x id v hx hcell)⟩
  | @mislaid a _ _ h =>
    refine ⟨a, fun x id v hx hcell => ?_⟩
    by_cases ha : x = a
    · subst ha
      exact Or.inr ⟨rfl, h.lifted hs' hs hx id v hcell⟩
    · exact Or.inl (h.installed hs' hs x id v ⟨hx, ha⟩ hcell)

namespace Errand

variable {e : Errand}

/-- An errand leaves what its outcomes say, from a table in order. -/
theorem leaves_of_guards {r : Except DebugError Unit} (hs : s.tracer.breakpoints.Sorted)
    (hs' : s'.tracer.process ≠ none) (hguards : Guards A s r s')
    (hhandling : e.isHandling = true → Spares A s s') (hbegins : Begins e.mayPlan s r s') :
    e.Leaves A s r s' := by
  refine ⟨fun hr => ?_, hguards.exists_mislaid hs hs', fun error hr => ?_⟩
  · have hspares : Spares A s s' := by
      rcases hr with rfl | hr
      · cases hguards with
        | spared h => exact h
      · exact hhandling hr
    exact hspares.installed hs' hs
  · exact (hbegins error hr).plan hs' hs

variable [Untouched κ A] [HoldsRegisters κ]

theorem ends_leaves (he : ∀ tid, e ≠ .handle (.event tid WaitStatus.execEvent))
    (hs : s.tracer.breakpoints.Sorted) : Ends e.operation s fun r s' =>
      s'.tracer.process ≠ none → e.Leaves A s r s' := by
  cases e with
  | resume =>
    refine ((Tracing.guards_resume (A := A) s).and
      (Tracing.unended_resume s)).mono fun r s' h hs' => ?_
    exact leaves_of_guards hs hs' h.1 nofun h.2.begins
  | step tid kind =>
    refine ((Tracing.guards_step (A := A) tid kind s).and
      (Tracing.begins_step tid kind s)).mono fun r s' h hs' => ?_
    exact leaves_of_guards hs hs' h.1 nofun h.2
  | handle status =>
    have himage : ∀ tid, status ≠ .event tid WaitStatus.execEvent :=
      fun tid heq => he tid (congrArg handle heq)
    refine ((Tracing.spares_handle (A := A) himage s).and
      (Tracing.unended_handle himage s)).mono fun r s' h hs' => ?_
    exact leaves_of_guards hs hs' (.spared h.1) (fun _ => h.1) h.2.begins

end Errand

end Errands

/-! ### Threads that cannot step -/

/-- The puppet on a machine where no step succeeds. -/
structure Jammed where
  puppet : Puppet

namespace Jammed

instance : Kernel Jammed where
  perform c k :=
    match c with
    | .step .. => (.error .inputOutput, k)
    | c => ((Kernel.perform c k.puppet).1, ⟨(Kernel.perform c k.puppet).2⟩)
  file k := Kernel.file k.puppet
  linkTarget? k := Kernel.linkTarget? k.puppet
  process? k := Kernel.process? k.puppet
  lookUp? k := Kernel.lookUp? k.puppet
  outstanding k := Kernel.outstanding k.puppet

instance : WordMemory Jammed where
  memory k := k.puppet.bytes
  peek_answer _ _ _ := rfl
  memory_peek _ _ _ := rfl
  poke_answer _ _ _ _ := rfl
  memory_poke _ _ _ _ := rfl

instance : Untouched Jammed fun _ => True where
  memory_perform c k x hc _ := by
    obtain ⟨bytes, statuses⟩ := k
    cases c with
    | poke tid a w => cases hc
    | poll => cases statuses <;> rfl
    | _ => rfl

instance : HoldsRegisters Jammed where
  pc _ _ := 0
  getRegisters_answer := by
    rintro k tid _ ⟨⟩
    rfl
  pc_getRegisters _ _ _ := rfl
  pc_setRegisters _ _ _ h := nomatch h

/-- A program was launched and a breakpoint set at its first instruction. -/
def armed : System Jammed :=
  ((Act.perform (.setBreakpoint 0)).operation.run.run
    ((Act.perform (.launch ⟨[], none, true, true⟩)).operation.run.run
      ⟨⟨fun _ => 0, []⟩, .new (some "/app")⟩).2).2

theorem steps_armed : Steps ⟨⟨fun _ => 0, []⟩, .new (some "/app")⟩ armed :=
  ((Steps.refl _).act _).act _

end Jammed

/-! ### Failures -/

/-- A resume or a step loses no breakpoint of the user unless it fails, and then it loses one at most;
the handling of a status loses none. A failure keeps the step plan with its breakpoint, also the one
that a failed step started. This holds wherever the acts of a tracer have led, as long as the process
is there and keeps its image and nobody else writes at the addresses of the breakpoints. -/
theorem breakpoints_of_steps [WordMemory κ] [Untouched κ A] [HoldsRegisters κ]
    {program : Option String} {k : κ} (h : Steps ⟨k, .new program⟩ s) (e : Errand)
    (he : ∀ tid, e ≠ .handle (.event tid WaitStatus.execEvent)) :
    Ends e.operation s fun r s' => s'.tracer.process ≠ none → e.Leaves A s r s' :=
  Errand.ends_leaves he (h.sorts.sorted BreakpointTable.sorted_empty)

/-- A resume that fails at the first instruction, where there is a breakpoint. -/
theorem breakpoints_jammed :
    Steps ⟨⟨fun _ => 0, []⟩, .new (some "/app")⟩ Jammed.armed ∧
    (∀ tid, Errand.resume ≠ .handle (.event tid WaitStatus.execEvent)) ∧
    Ends Errand.resume.operation Jammed.armed fun r s' =>
      s'.tracer.process ≠ none ∧ Errand.resume.Leaves (fun _ => True) Jammed.armed r s' := by
  have hpresent : Ends (Errand.resume.operation : Tracing Jammed Unit) Jammed.armed fun _ s' =>
      s'.tracer.process ≠ none := by
    rw [Ends]
    decide +kernel
  have hleaves := breakpoints_of_steps (A := fun _ => True) Jammed.steps_armed .resume (by rintro _ ⟨⟩)
  exact ⟨Jammed.steps_armed, by rintro _ ⟨⟩, (hpresent.and hleaves).mono fun _ _ h => ⟨h.1, h.2 h.1⟩⟩

/-- The breakpoint at the first instruction is lost by a resume that fails there: the process is still
there, but the breakpoint is not in place any more. -/
theorem breakpoint_mislaid : Steps ⟨⟨fun _ => 0, []⟩, .new (some "/app")⟩ Jammed.armed ∧
    (Jammed.armed.cell 0).Installed 1 0 ∧
    Ends (Tracing.resume : Tracing Jammed Unit) Jammed.armed fun r s' =>
      r.isOk = false ∧ s'.tracer.process ≠ none ∧ ∀ id v, ¬(s'.cell 0).Installed id v := by
  have hentry : (Jammed.armed.cell 0).entry = some ⟨0, 0, true, some 1, false⟩ := by decide +kernel
  have hresume : Ends (Tracing.resume : Tracing Jammed Unit) Jammed.armed fun r s' =>
      r.isOk = false ∧ s'.tracer.process ≠ none ∧ (s'.cell 0).byte ≠ Breakpoint.trapByte := by
    rw [Ends]
    decide +kernel
  refine ⟨Jammed.steps_armed, ⟨by decide +kernel, _, hentry, rfl, rfl, rfl⟩, ?_⟩
  exact hresume.mono fun _ _ h => ⟨h.1, h.2.1, fun _ _ hcell => h.2.2 hcell.byte⟩

end Tracer

end DebugAdapter
