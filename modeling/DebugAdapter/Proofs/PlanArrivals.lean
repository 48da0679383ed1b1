import DebugAdapter.Proofs.PassedBreakpoints

/-!
# Arrivals at breakpoints

A thread that met a breakpoint is moved back to its address. The step plan ends there if it is the plan
of this thread, leads to this address, and the stack pointer is above its bound (`StepPlan.EndsAt`). Else
a breakpoint of the user is published, and one that is there only for the plan is passed. `Arrives` lists
how the arrival ends where no call is refused, with the calls that are made for it.

Main statement: `serves_trapSeen`.
-/

namespace DebugAdapter.Tracer

open Debuggee
open Linux
open Linux.KeepsRegisters (standing)
open Machine (RegisterFile)
open Operation
open Tracing (Trap)

variable {κ : Type} [Kernel κ]

/-- A step plan ends with the arrival of a thread at an address with a stack pointer. -/
structure StepPlan.EndsAt (plan : StepPlan) (tid : Nat) (a sp : UInt64) : Prop where
  tid : plan.tid = tid
  address : plan.address = a
  above : plan.spAbove < sp

/-- The calls by which a thread with some registers is moved to an address. -/
def moveCalls (tid : Nat) (a : UInt64) (regs : RegisterFile) : List Answered :=
  [⟨.getRegisters tid, .ok regs⟩, ⟨.setRegisters tid (regs.set .rip a), .ok ()⟩]

/-- The calls by which it is found that a thread with some registers met a breakpoint. -/
def diagnosisCalls (tid : Nat) (code : Int) (regs : RegisterFile) : List Answered :=
  [⟨.signalCode tid, .ok code⟩, ⟨.getRegisters tid, .ok regs⟩]

/-- Nothing was published. -/
structure Unreported (s s' : System κ) : Prop where
  snapshot : s'.tracer.snapshot = s.tracer.snapshot
  events : s'.tracer.events = s.tracer.events

/-- A thread is at a breakpoint that is there only for a plan, and no plan ends with its arrival. -/
structure OnlyPlanned (tid : Nat) (a sp : UInt64) (s : System κ) (p : Process) (b : Breakpoint) :
    Prop where
  goes : ∀ plan, p.plan = some plan → ¬plan.EndsAt tid a sp
  user : s.tracer.breakpoints.isUserAt a = false
  entry : s.tracer.breakpoints.find? a = some b

/-- How the arrival of a thread at a breakpoint ends, where no call is refused. The process is `p` when
the thread counts as stopped, and `before` are the calls that are made before its step. -/
inductive Arrives (tid : Nat) (a sp : UInt64) (before : List Answered) (s : System (Logged κ))
    (p : Process) : Except DebugError Unit → System (Logged κ) → Prop
  /-- The plan ends. -/
  | completes {s' : System (Logged κ)} {plan : StepPlan} (hplan : p.plan = some plan)
      (hends : plan.EndsAt tid a sp) (hshows : Shows ⟨tid, a, .planComplete⟩ s s') :
      Arrives tid a sp before s p (.ok ()) s'
  /-- The breakpoint is the user's. -/
  | meets {s' : System (Logged κ)} (hgoes : ∀ plan, p.plan = some plan → ¬plan.EndsAt tid a sp)
      (huser : s.tracer.breakpoints.isUserAt a = true) (hshows : Shows ⟨tid, a, .breakpoint⟩ s s') :
      Arrives tid a sp before s p (.ok ()) s'
  /-- The thread steps over the breakpoint, which is put in place again, and goes on. -/
  | passes {s' : System (Logged κ)} {b : Breakpoint} {regs : RegisterFile} {u : Nat} {word word' : UInt64}
      {steps : List Answered} {p' : Process}
      (hhere : OnlyPlanned tid a sp s p b)
      (hsteps : StepsOff tid p steps .done p')
      (hlog : s'.kernel.log = s.kernel.log ++ (before ++ (⟨.getRegisters tid, .ok regs⟩ ::
        (liftCalls tid a word b.saved ++ (steps ++ plantCalls u a word')))) ++
          [⟨.resume tid (p'.signalFor tid), .ok ()⟩])
      (hplan : s'.plan? = p.plan) (henabled : s'.tracer.breakpoints.isEnabledAt a = true)
      (hunreported : Unreported s s') : Arrives tid a sp before s p (.ok ()) s'
  /-- A signal comes instead of the step. It is published after the breakpoint was put in place again. -/
  | interrupted {s' : System (Logged κ)} {b : Breakpoint} {regs : RegisterFile} {u : Nat}
      {word word' pc : UInt64} {steps : List Answered} {signal : Signal} {p' : Process}
      (hhere : OnlyPlanned tid a sp s p b)
      (hsteps : StepsOff tid p steps (.signal signal) p')
      (hlog : s.kernel.log ++ (before ++ (⟨.getRegisters tid, .ok regs⟩ ::
        (liftCalls tid a word b.saved ++ (steps ++ plantCalls u a word')))) <+: s'.kernel.log)
      (hshows : Shows ⟨tid, pc, Tracing.signalReason signal⟩ s s') :
      Arrives tid a sp before s p (.ok ()) s'
  /-- The thread is gone before its step is done. -/
  | gone {r : Except DebugError Unit} {s' : System (Logged κ)} {b : Breakpoint} {regs : RegisterFile}
      {word : UInt64} {steps : List Answered} {p' : Process}
      (hhere : OnlyPlanned tid a sp s p b)
      (hsteps : StepsOff tid p steps .gone p')
      (hlog : s.kernel.log ++ (before ++ (⟨.getRegisters tid, .ok regs⟩ ::
        (liftCalls tid a word b.saved ++ steps))) <+: s'.kernel.log)
      (hunreported : Unreported s s') : Arrives tid a sp before s p r s'
  /-- The step was interrupted too often. -/
  | tires {s' : System (Logged κ)} {b : Breakpoint} {regs : RegisterFile} {word : UInt64}
      {steps : List Answered} {p' : Process}
      (hhere : OnlyPlanned tid a sp s p b)
      (htires : TiresOut tid Tracing.maxSteps p steps p')
      (hlog : s'.kernel.log = s.kernel.log ++ (before ++ (⟨.getRegisters tid, .ok regs⟩ ::
        (liftCalls tid a word b.saved ++ steps))))
      (hunreported : Unreported s s') :
      Arrives tid a sp before s p (.error (.stepNotCompleted Tracing.maxSteps)) s'

omit [Kernel κ] in
theorem Unreported.of_tracer {s t : System (Logged κ)} {p : Process} {table : BreakpointTable}
    (h : t.tracer = { s.tracer with process := some p, breakpoints := table }) : Unreported s t := by
  constructor
  · rw [h]
  · rw [h]

omit [Kernel κ] in
theorem Unreported.since {s t u : System κ} (h : Unreported t u) (ht : Unreported s t) : Unreported s u :=
  ⟨h.snapshot.trans ht.snapshot, h.events.trans ht.events⟩

omit [Kernel κ] in
/-- Nothing was published before the stop. -/
theorem Shows.since {stop : StopInfo} {s t s' : System κ} (h : Shows stop t s') (ht : Unreported s t) :
    Shows stop s s' :=
  ⟨h.stop, h.state, by rw [← ht.events]; exact h.events⟩

omit [Kernel κ] in
theorem Goes.and_ok {α : Type} {s t : System (Logged κ)} {P : α → List Answered → Process → Prop}
    {C : α → Prop} {r : Except DebugError α} (h : Goes s P r t) (hr : ∀ x, r = .ok x → C x) :
    Goes s (fun x new p' => C x ∧ P x new p') r t := by
  cases h with
  | gone hgone hlog => exact .gone hgone hlog
  | rough hlog hx hrough => exact .rough hlog hx hrough
  | done hlog htracer h => exact .done hlog htracer ⟨hr _ rfl, h⟩

theorem Poised.mem_threadIds {tid : Nat} {plan : Option StepPlan} {p : Process} (h : Poised tid plan p) :
    tid ∈ p.threadIds := by
  obtain ⟨t, ht, hid⟩ := List.any_eq_true.mp h.known
  exact List.mem_map.mpr ⟨t, ht, eq_of_beq hid⟩

section Since

variable {tid : Nat} {a sp : UInt64} {pre before : List Answered} {s t s' : System (Logged κ)}
  {p : Process} {b : Breakpoint} {r : Except DebugError Unit}

omit [Kernel κ] in
theorem OnlyPlanned.since (h : OnlyPlanned tid a sp t p b)
    (htable : t.tracer.breakpoints = s.tracer.breakpoints) : OnlyPlanned tid a sp s p b :=
  ⟨h.goes, htable ▸ h.user, htable ▸ h.entry⟩

omit [Kernel κ] in
/-- An arrival that begins with some calls more. -/
theorem Arrives.since (h : Arrives tid a sp before t p r s') (hlog : t.kernel.log = s.kernel.log ++ pre)
    (htable : t.tracer.breakpoints = s.tracer.breakpoints) (ht : Unreported s t) :
    Arrives tid a sp (pre ++ before) s p r s' := by
  have hlogs : ∀ calls : List Answered, t.kernel.log ++ (before ++ calls) =
      s.kernel.log ++ (pre ++ before ++ calls) := by
    intro calls
    rw [hlog]
    simp only [List.append_assoc]
  cases h with
  | completes hplan hends hshows => exact .completes hplan hends (hshows.since ht)
  | meets hgoes huser hshows => exact .meets hgoes (htable ▸ huser) (hshows.since ht)
  | passes hhere hsteps hlog' hplan henabled hunreported =>
    rw [hlogs] at hlog'
    exact .passes (hhere.since htable) hsteps hlog' hplan henabled (hunreported.since ht)
  | interrupted hhere hsteps hlog' hshows =>
    rw [hlogs] at hlog'
    exact .interrupted (hhere.since htable) hsteps hlog' (hshows.since ht)
  | gone hhere hsteps hlog' hunreported =>
    rw [hlogs] at hlog'
    exact .gone (hhere.since htable) hsteps hlog' (hunreported.since ht)
  | tires hhere htires hlog' hunreported =>
    rw [hlogs] at hlog'
    exact .tires (hhere.since htable) htires hlog' (hunreported.since ht)

end Since

/-- A thread that is known and was stopped. -/
theorem Poised.of_halted {p : Process} {tid : Nat} (hknown : p.hasThread tid = true) :
    Poised tid p.plan (p.modifyThread tid Thread.halted) := by
  refine ⟨?_, fun hmem => ?_, rfl⟩
  · obtain ⟨t, ht, hid⟩ := List.any_eq_true.mp hknown
    refine List.any_eq_true.mpr ⟨_, List.mem_map_of_mem ht, ?_⟩
    split
    · exact hid
    · exact hid
  · obtain ⟨t', ht', hrunning, hid⟩ := Process.mem_runningThreads.mp hmem
    obtain ⟨t, ht, rfl⟩ := List.mem_map.mp ht'
    split at hrunning
    · cases hrunning
    · rename_i hne
      rw [if_neg hne] at hid
      exact hne hid

namespace Tracing

variable {s : System (Logged κ)} {p : Process} {tid : Nat} {a : UInt64}

theorem goes_spOf (hp : s.tracer.process = some p) (tid : Nat) :
    Ends (spOf tid) s (Goes s fun _ new p' => (∀ x ∈ new, x.call = .getRegisters tid) ∧ p' = p) := by
  refine Goes.bind (goes_registersOf hp tid) (fun _ => Moves.pure _) ?_
  rintro read _ _ t ⟨rfl, rfl⟩ ht
  exact goes_pure (by rw [ht]; rfl) ⟨fun x hx => List.eq_of_mem_singleton hx ▸ rfl, rfl⟩

theorem goes_completesPlan (hp : s.tracer.process = some p) (tid : Nat) (a : UInt64) :
    Ends (completesPlan tid a) s
      (Goes s fun _ new p' => (∀ x ∈ new, x.call = .getRegisters tid) ∧ p' = p) := by
  have hnone : ∀ x ∈ ([] : List Answered), x.call = .getRegisters tid := List.forall_mem_nil _
  rw [completesPlan, ends_process_bind hp]
  split
  · exact goes_pure hp ⟨hnone, rfl⟩
  · split
    · refine Goes.bind (goes_spOf hp tid) (fun _ => Moves.pure _) ?_
      rintro _ new _ t ⟨hlooks, rfl⟩ ht
      refine goes_pure (by rw [ht]; rfl) ⟨?_, rfl⟩
      rwa [List.append_nil]
    · exact goes_pure hp ⟨hnone, rfl⟩

variable [KeepsRegisters κ] {regs : RegisterFile}

/-- Whether the step plan ends is found from the stack pointer that the thread has. -/
theorem sees_completesPlan (hp : s.tracer.process = some p) (hregs : standing s.kernel tid = some regs)
    (a : UInt64) : Ends (completesPlan tid a) s fun r t => standing t.kernel tid = some regs ∧
      ∀ ends, r = .ok ends → (ends = true ↔ ∃ plan, p.plan = some plan ∧ plan.EndsAt tid a regs.sp) := by
  rw [completesPlan, ends_process_bind hp]
  split
  · rename_i hnone
    refine ⟨hregs, ?_⟩
    rintro _ ⟨⟩
    refine ⟨fun h => Bool.noConfusion h, ?_⟩
    rintro ⟨plan, hplan, -⟩
    cases hnone.symm.trans hplan
  · rename_i plan hplan
    split
    · rename_i hhere
      refine (sees_spOf hregs).bind ?_ fun e t h => ⟨h.kept, by rintro _ ⟨⟩⟩
      rintro sp t ⟨hsp, hkept⟩
      cases hsp sp rfl
      refine ⟨hkept, ?_⟩
      rintro _ ⟨⟩
      refine decide_eq_true_iff.trans ⟨fun habove => ⟨plan, hplan, hhere.2, hhere.1, habove⟩, ?_⟩
      rintro ⟨plan', hplan', hends⟩
      cases hplan.symm.trans hplan'
      exact hends.above
    · rename_i haway
      refine ⟨hregs, ?_⟩
      rintro _ ⟨⟩
      refine ⟨fun h => Bool.noConfusion h, ?_⟩
      rintro ⟨plan', hplan', hends⟩
      cases hplan.symm.trans hplan'
      exact absurd ⟨hends.address, hends.tid⟩ haway

theorem goes_standing (hp : s.tracer.process = some p) (hregs : standing s.kernel tid = some regs) :
    Ends (registersOf tid) s (Goes s fun read new p' =>
      read = regs ∧ new = [⟨.getRegisters tid, .ok read⟩] ∧ p' = p) :=
  ((goes_registersOf hp tid).and (sees_registersOf hregs)).mono fun _ _ h => h.1.and_ok h.2.answer

/-- A thread that stands still is moved from where it stands. -/
theorem goes_moveTo (hp : s.tracer.process = some p) (hregs : standing s.kernel tid = some regs)
    (a : UInt64) : Ends (setPc tid a) s (Goes s fun _ new p' => new = moveCalls tid a regs ∧ p' = p) := by
  refine Goes.bind (goes_standing hp hregs) (fun _ => moves_require_of_attempt _ (moves_probe rfl)) ?_
  rintro _ _ _ t ⟨rfl, rfl, rfl⟩ ht
  refine (goes_require (by rw [ht]; rfl) .ptrace rfl).mono fun r s' h => h.mono ?_
  rintro _ _ _ ⟨rfl, rfl⟩
  exact ⟨rfl, rfl⟩

variable [Kernel.Lawful κ] {b : Breakpoint}

/-- What follows the step of a thread over a breakpoint. -/
def afterStep (tid : Nat) : Stepped → Tracing (Logged κ) Unit
  | .done => continueThread tid
  | .signal signal => reportStop ⟨tid, signalReason signal⟩
  | .gone => return ()

/-- A thread passes the breakpoint that it stands at. -/
def pass (tid : Nat) : Tracing (Logged κ) Unit := do
  afterStep tid (← stepThread tid)

/-- What is done about a breakpoint, as soon as it is known whether the step plan ends there. -/
def arrive (tid : Nat) (a : UInt64) (ends : Bool) : Tracing (Logged κ) Unit := do
  if ends then reportStop ⟨tid, .planComplete⟩
  else if (← tracer).breakpoints.isUserAt a then reportStop ⟨tid, .breakpoint⟩
  else pass tid

omit [KeepsRegisters κ] [Kernel.Lawful κ] in
theorem breakpointMet_arrive (tid : Nat) (a : UInt64) :
    (breakpointMet tid a : Tracing (Logged κ) Unit) = (do
      setPc tid a
      arrive tid a (← completesPlan tid a)) := rfl

omit [KeepsRegisters κ] [Kernel.Lawful κ] in
theorem moves_afterStep (tid : Nat) (stepped : Stepped) :
    Moves Lengthens (afterStep tid stepped : Tracing (Logged κ) Unit) := by
  cases stepped with
  | done => exact moves_continueThread tid
  | signal signal => exact moves_reportStop _
  | gone => exact Moves.pure _

omit [KeepsRegisters κ] [Kernel.Lawful κ] in
theorem moves_arrive (tid : Nat) (a : UInt64) (ends : Bool) :
    Moves Lengthens (arrive tid a ends : Tracing (Logged κ) Unit) := by
  rw [arrive]
  split
  · exact moves_reportStop _
  · refine moves_tracer.bind fun t => ?_
    split
    · exact moves_reportStop _
    · exact (moves_stepThread tid).bind (moves_afterStep tid)

theorem serves_pass {plan : Option StepPlan} {sp : UInt64} (hp : s.tracer.process = some p)
    (hpoised : Poised tid plan p) (hhere : OnlyPlanned tid a sp s p b) (hon : b.enabled = true)
    (hregs : standing s.kernel tid = some regs) (ha : regs.pc = a) :
    Ends (pass tid) s fun r s' => Serves s s' → Arrives tid a sp [] s p r s' := by
  refine serves_bind (P := Oversteps tid a b.saved s p) ?_ (moves_afterStep tid) ?_ ?_
  · exact ((moves_stepThread (R := Lengthens) tid s).and
      (serves_stepThread hp hpoised hregs ha hhere.entry hon)).mono fun r t h => ⟨h.1.log, h.2⟩
  · rintro stepped t hstepped
    cases hstepped with
    | @planted _ read u word word' steps _ p' hsteps hpresent hlog htracer henabled =>
      have hp' : t.tracer.process = some p' := by rw [htracer]
      have hpoised' := hsteps.poised hpresent hpoised
      cases stepped with
      | done =>
        refine (goes_continueThread hp' (Process.isSome_thread? hpoised'.mem_threadIds)).mono ?_
        intro r s' h hserves
        obtain ⟨_, _, _, rfl, hlog', hs', rfl, rfl⟩ := h.done_of_serves hserves
        rw [hlog] at hlog'
        refine .passes hhere hsteps hlog' ?_ ?_ ?_
        · rw [System.plan?, hs']
          exact hpoised'.plan.trans hpoised.plan.symm
        · rw [hs']
          exact henabled
        · exact .of_tracer (by rw [hs', htracer]; rfl)
      | signal signal =>
        refine ((serves_reportStop ⟨tid, signalReason signal⟩ hp' hpoised').and
          (moves_reportStop (R := Lengthens) _ t)).mono ?_
        rintro r s' ⟨h, hlengthens⟩ hserves
        obtain ⟨rfl, pc, hshows, -⟩ := h hserves
        exact .interrupted hhere hsteps (hlog ▸ hlengthens.log)
          (hshows.since (Unreported.of_tracer htracer))
      | gone => exact absurd rfl hpresent
    | gone hsteps hr hlog htracer =>
      cases hr stepped rfl
      exact fun _ => .gone hhere hsteps hlog (.of_tracer htracer)
  · rintro e t hfailed
    cases hfailed with
    | gone hsteps hr hlog htracer => exact .gone hhere hsteps hlog (.of_tracer htracer)
    | tired htires hlog htracer => exact .tires hhere htires hlog (.of_tracer htracer)

/-- A thread stands at a breakpoint that it met, and it is known whether the step plan ends there. -/
theorem serves_arrive {plan : Option StepPlan} {ends : Bool} (hp : s.tracer.process = some p)
    (hpoised : Poised tid plan p) (hregs : standing s.kernel tid = some regs) (ha : regs.pc = a)
    (henabled : s.tracer.breakpoints.isEnabledAt a = true)
    (hends : ends = true ↔ ∃ plan, p.plan = some plan ∧ plan.EndsAt tid a regs.sp) :
    Ends (arrive tid a ends) s fun r s' => Serves s s' → Arrives tid a regs.sp [] s p r s' := by
  have hat : ∀ reason, Ends (reportStop ⟨tid, reason⟩) s fun r s' => Serves s s' →
      r = .ok () ∧ Shows ⟨tid, a, reason⟩ s s' := by
    refine fun reason => (serves_reportStop ⟨tid, reason⟩ hp hpoised).mono fun r s' h hserves => ?_
    obtain ⟨hr, pc, hshows, hpc⟩ := h hserves
    cases (hpc regs hregs).trans ha
    exact ⟨hr, hshows⟩
  rw [arrive]
  cases ends with
  | true =>
    obtain ⟨plan, hplan, hends⟩ := hends.mp rfl
    refine (hat .planComplete).mono fun r s' h hserves => ?_
    obtain ⟨rfl, hshows⟩ := h hserves
    exact .completes hplan hends hshows
  | false =>
    have hgoes : ∀ plan, p.plan = some plan → ¬plan.EndsAt tid a regs.sp :=
      fun plan hplan hhere => Bool.noConfusion (hends.mpr ⟨plan, hplan, hhere⟩)
    rw [if_neg Bool.false_ne_true, ends_tracer_bind]
    split
    · rename_i huser
      refine (hat .breakpoint).mono fun r s' h hserves => ?_
      obtain ⟨rfl, hshows⟩ := h hserves
      exact .meets hgoes huser hshows
    · rename_i huser
      obtain ⟨b, hentry, hon⟩ := Option.any_eq_true _ _ |>.mp henabled
      exact serves_pass hp hpoised ⟨hgoes, eq_false_of_ne_true huser, hentry⟩ hon hregs ha

/-- A thread met a breakpoint that is in place. -/
theorem serves_breakpointMet {plan : Option StepPlan} (hp : s.tracer.process = some p)
    (hpoised : Poised tid plan p) (hregs : standing s.kernel tid = some regs)
    (henabled : s.tracer.breakpoints.isEnabledAt a = true) :
    Ends (breakpointMet tid a) s fun r s' => Serves s s' → ∃ looks,
      (∀ x ∈ looks, x.call = .getRegisters tid) ∧
        Arrives tid a regs.sp (moveCalls tid a regs ++ looks) s p r s' := by
  rw [breakpointMet_arrive]
  refine Goes.serve_and ((goes_moveTo hp hregs a).and (standing_setPc hregs a))
    (fun _ => (moves_completesPlan tid a).bind (moves_arrive tid a)) ?_
  rintro _ _ p t ⟨rfl, rfl⟩ hlog ht hstanding
  have hp' : t.tracer.process = some p := by rw [ht]; rfl
  refine Goes.serve_and ((goes_completesPlan hp' tid a).and (sees_completesPlan hp' (hstanding rfl) a))
    (moves_arrive tid a) ?_
  rintro ends looks p u ⟨hlooks, rfl⟩ hlog' hu ⟨hmoved, hends⟩
  have htracer : u.tracer = s.tracer := by
    rw [hu, ht, State.withProcess_withProcess]
    exact State.withProcess_eq_self hp
  have hlogs : u.kernel.log = s.kernel.log ++ (moveCalls tid a regs ++ looks) := by
    rw [hlog', hlog, List.append_assoc]
  have hpc : (regs.set .rip a).pc = a := RegisterFile.value_set_self regs .rip a
  have hsp : (regs.set .rip a).sp = regs.sp := RegisterFile.value_set_ne regs (by decide) a
  refine (serves_arrive (htracer ▸ hp) hpoised hmoved hpc (htracer ▸ henabled) (hends ends rfl)).mono
    fun r s' h hserves => ⟨looks, hlooks, ?_⟩
  have harrives := (h hserves).since hlogs (congrArg State.breakpoints htracer)
    ⟨congrArg State.snapshot htracer, congrArg State.events htracer⟩
  rwa [List.append_nil, hsp] at harrives

omit [Kernel.Lawful κ] in
/-- A thread that stands just behind the trap instruction of a breakpoint has met it. -/
theorem goes_trapOf_standing (hp : s.tracer.process = some p) (hregs : standing s.kernel tid = some regs)
    {code : Int} (hcode : (Kernel.perform (.signalCode tid) s.kernel).1 = .ok code)
    (htrap : code = 1 ∨ code = 0x80) (henabled : s.tracer.breakpoints.isEnabledAt (regs.pc - 1) = true) :
    Ends (trapOf tid) s (Goes s fun trap new p' =>
      trap = .breakpoint (regs.pc - 1) ∧ new = diagnosisCalls tid code regs ∧ p' = p) := by
  rw [trapOf, ends_attempt_bind]
  generalize ht : (⟨(Kernel.perform (.signalCode tid) s.kernel).2, s.tracer⟩ : System (Logged κ)) = t
  have hlog : t.kernel.log = s.kernel.log ++ [⟨.signalCode tid, .ok code⟩] := by
    rw [← ht, ← hcode]
    exact log_perform _ _
  have htracer : t.tracer = s.tracer.withProcess p := by
    rw [State.withProcess_eq_self hp, ← ht]
  have hkept : standing t.kernel tid = some regs := by
    rw [← ht]
    exact KeepsRegisters.standing_perform (.signalCode tid) s.kernel tid regs hregs rfl
  have hp' : t.tracer.process = some p := by rw [htracer]; rfl
  rw [hcode]
  dsimp only
  rw [if_pos htrap]
  have hpc : Ends (pcOf tid) t (Goes t fun pc new p' =>
      pc = regs.pc ∧ new = [⟨.getRegisters tid, .ok regs⟩] ∧ p' = p) := by
    refine Goes.bind (goes_standing hp' hkept) (fun _ => Moves.pure _) ?_
    rintro _ _ _ u ⟨rfl, rfl, rfl⟩ hu
    exact goes_pure (by rw [hu]; rfl) ⟨rfl, rfl, rfl⟩
  refine Ends.mono ?_ fun r s' => Goes.after hlog htracer
  refine Goes.bind hpc (fun pc => moves_tracer.bind fun _ => ?_) ?_
  · split
    · exact Moves.pure _
    · exact Moves.pure _
  · rintro _ _ _ u ⟨rfl, rfl, rfl⟩ hu
    have htable : u.tracer.breakpoints = s.tracer.breakpoints := by
      rw [hu, htracer]
      rfl
    rw [ends_tracer_bind, htable, if_pos henabled]
    exact goes_pure (by rw [hu]; rfl) ⟨rfl, rfl, rfl⟩

/-- A thread that is known met a breakpoint, and stands still. -/
theorem serves_trapSeen (hp : s.tracer.process = some p) (hknown : p.hasThread tid = true)
    (hregs : standing s.kernel tid = some regs) {code : Int}
    (hcode : (Kernel.perform (.signalCode tid) s.kernel).1 = .ok code) (htrap : code = 1 ∨ code = 0x80)
    (henabled : s.tracer.breakpoints.isEnabledAt (regs.pc - 1) = true) :
    Ends (trapSeen tid) s fun r s' => Serves s s' → ∃ looks, (∀ x ∈ looks, x.call = .getRegisters tid) ∧
      Arrives tid (regs.pc - 1) regs.sp
        (diagnosisCalls tid code regs ++ (moveCalls tid (regs.pc - 1) regs ++ looks)) s
        (p.modifyThread tid Thread.halted) r s' := by
  have hmark : Ends (markStopped tid) s fun r t => r = .ok () ∧ t.kernel = s.kernel ∧
      t.tracer = s.tracer.withProcess (p.modifyThread tid Thread.halted) :=
    ⟨rfl, rfl, State.map_process hp (·.modifyThread tid Thread.halted)⟩
  refine hmark.bind_eq fun t ⟨hkernel, htracer⟩ => ?_
  have hp' : t.tracer.process = some (p.modifyThread tid Thread.halted) := by rw [htracer]; rfl
  have htable : t.tracer.breakpoints = s.tracer.breakpoints := by rw [htracer]; rfl
  refine Ends.mono (P := fun r s' => Serves t s' → ∃ looks, (∀ x ∈ looks, x.call = .getRegisters tid) ∧
    Arrives tid (regs.pc - 1) regs.sp
      (diagnosisCalls tid code regs ++ (moveCalls tid (regs.pc - 1) regs ++ looks)) s
      (p.modifyThread tid Thread.halted) r s') ?_
    fun r s' h hserves => h ⟨hserves.survives, hkernel ▸ hserves.granted⟩
  have hmet := goes_trapOf_standing hp' (hkernel ▸ hregs) (hkernel ▸ hcode) htrap (htable ▸ henabled)
  refine Goes.serve_and (hmet.and (moves_trapOf (R := Traces) tid t)) (fun trap => ?_) ?_
  · cases trap with
    | breakpoint a => exact moves_breakpointMet tid a
    | step => exact moves_reportStop _
    | programTrap => exact moves_reportStop _
    | signal => exact (moves_keepSignal tid _).bind fun _ => moves_reportStop _
  rintro _ _ _ u ⟨rfl, rfl, rfl⟩ hlog hu htraces
  have htable' : u.tracer.breakpoints = s.tracer.breakpoints := by rw [hu]; exact htable
  have hapart : Apart tid (diagnosisCalls tid code regs) := .cons rfl (.cons rfl (.nil tid))
  have hkept : standing u.kernel tid = some regs := htraces.stands hlog hapart (hkernel ▸ hregs)
  refine (serves_breakpointMet (by rw [hu]; rfl) (Poised.of_halted hknown) hkept
    (htable' ▸ henabled)).mono fun r s' h hserves => ?_
  obtain ⟨looks, hlooks, harrives⟩ := h hserves
  refine ⟨looks, hlooks, harrives.since (by rw [hlog, hkernel]) htable' ?_⟩
  constructor
  · rw [hu, htracer]
    rfl
  · rw [hu, htracer]
    rfl

end Tracing

end DebugAdapter.Tracer
