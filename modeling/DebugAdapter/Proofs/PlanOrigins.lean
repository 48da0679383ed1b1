import DebugAdapter.Proofs.AllStop
import DebugAdapter.Proofs.PlanArrivals

/-!
# Origins of step plans

A step plan is started by a step over a call or out of a function, and every report of a stop drops it.
So a plan that is active was started by a step request of the history (`History.plan_origin`), and the
bound of its stack pointer is the one of that step: at least the stack pointer before the call, or above
the one at the start.

Main statement: `arrival_of_history`.
-/

namespace DebugAdapter.Tracer

open Debuggee
open Engine.Traced (Engine)
open Linux
open Linux.KeepsRegisters (standing)
open Machine (RegisterFile)
open Operation

variable {κ : Type} [Kernel κ]

/-- A step plan that is active at the end was active before, or is one of those that may be started. -/
structure Plans (A : StepPlan → Prop) (s : System κ) (_ : Except DebugError Unit) (s' : System κ) :
    Prop where
  plan : ∀ plan, s'.plan? = some plan → s.plan? = some plan ∨ A plan

variable {A B : StepPlan → Prop}

omit [Kernel κ] in
theorem Plans.mono {s s' : System κ} {r : Except DebugError Unit} (h : Plans A s r s')
    (hAB : ∀ plan, A plan → B plan) : Plans B s r s' :=
  ⟨fun plan hplan => (h.plan plan hplan).imp_right (hAB plan)⟩

omit [Kernel κ] in
theorem Plans.of_none {s s' : System κ} (r : Except DebugError Unit) (h : s'.plan? = none) :
    Plans A s r s' :=
  ⟨fun _ hplan => by cases h.symm.trans hplan⟩

omit [Kernel κ] in
theorem System.process_of_plan {s : System κ} {plan : StepPlan} (h : s.plan? = some plan) :
    s.tracer.process ≠ none := by
  intro hnone
  rw [plan?, hnone] at h
  cases h

omit [Kernel κ] in
theorem Plans.of_calm {s t s' : System κ} {r : Except DebugError Unit} (h : Calm s t)
    (h' : Plans A t r s') : Plans A s r s' := by
  refine ⟨fun plan hplan => (h'.plan plan hplan).imp_left fun ht => ?_⟩
  rw [← h.plan (System.process_of_plan ht)]
  exact ht

namespace Tracing

/-! ### Operations that start no plan -/

theorem plans_reportStop (stop : Stop) (s : System κ) : Ends (reportStop stop) s (Plans A s) := by
  refine (ends_reportStop stop s).mono fun r s' h => ?_
  rcases h with ⟨hcalm, -⟩ | ⟨-, p, hreported⟩
  · exact .of_calm hcalm ⟨fun _ => Or.inl⟩
  · exact .of_none r (by rw [System.plan?, hreported.process]; exact hreported.plan)

instance : OutcomeRelation (Calm : System κ → System κ → Prop) (Plans A) where
  quiet _ h := .of_calm h ⟨fun _ => Or.inl⟩
  after := .of_calm
  report := plans_reportStop

theorem precedes_stepThreadPlans (tid : Nat) :
    Precedes Calm (Plans A) (stepThread tid : Tracing κ Stepped) :=
  .of_moves (moves_stepThread tid)

theorem plans_resumeAs {state : ProcessState} (hstate : state = .running ∨ state = .stepping)
    {s : System κ} (hs : s.tracer.process ≠ none) : Ends (resumeAs state) s (Plans A s) :=
  comes_resumeAs precedes_stepThreadPlans (fun _ => calm_publish hstate) hs

theorem plans_stepInstruction (tid : Nat) (reason : StopReason) {s : System κ}
    (hs : s.tracer.process ≠ none) : Ends (stepInstruction tid reason) s (Plans A s) :=
  comes_stepInstruction precedes_stepThreadPlans tid reason (calm_publish (Or.inr rfl) hs)

theorem plans_resume : Comes (Plans A) (resume : Tracing κ Unit) :=
  comes_resume precedes_stepThreadPlans fun _ => calm_publish (Or.inl rfl)

theorem plans_imageReplaced (tid : Nat) : Comes (Plans A) (imageReplaced tid : Tracing κ Unit) := by
  intro s
  rcases hp : s.tracer.process with _ | p
  · rw [imageReplaced, ends_process_bind_none hp]
    exact .of_none _ (by rw [System.plan?, hp]; rfl)
  · refine ends_imageReplaced_of hp fun p' hplan => ?_
    rw [markStopped, modifyThread, modifyProcess, ends_modifyTracer_bind]
    refine (plans_reportStop (A := A) _ _).mono fun r s' h => ⟨fun plan hs' => Or.inr ?_⟩
    refine (h.plan plan hs').resolve_left fun hbefore => ?_
    cases hplan.symm.trans hbefore

theorem plans_handle (status : WaitStatus) : Comes (Plans A) (handle status : Tracing κ Unit) :=
  comes_handle (fun tid _ => comes_trapSeen (comes_breakpointMet precedes_stepThreadPlans) tid)
    fun tid _ => plans_imageReplaced tid

/-! ### Letting go of a process -/

/-- No plan is started. -/
structure Sheds (s s' : System κ) : Prop where
  plan : ∀ plan, s'.plan? = some plan → s.plan? = some plan

instance : StepRelation (Sheds : System κ → System κ → Prop) where
  refl _ := ⟨fun _ => id⟩
  trans h h' := ⟨fun plan hplan => h.plan plan (h'.plan plan hplan)⟩

omit [Kernel κ] in
theorem sheds_of_calm {α : Type} {m : Tracing κ α} (h : Moves Calm m) : Moves Sheds m :=
  h.mono fun _ _ h => ⟨fun _ hplan => h.plan (System.process_of_plan hplan) ▸ hplan⟩

omit [Kernel κ] in
theorem Sheds.of_none {s s' : System κ} (h : s'.plan? = none) : Sheds s s' :=
  ⟨fun _ hplan => by cases h.symm.trans hplan⟩

theorem sheds_cancelPlan : Moves Sheds (cancelPlan : Tracing κ Unit) := by
  intro s
  rcases hp : s.tracer.process with _ | p
  · rw [cancelPlan, ends_tracer_bind, hp]
    exact StepRelation.refl s
  · exact (ends_cancelPlan hp).mono fun r s' h => .of_none (by rw [System.plan?, h.2.1]; rfl)

theorem sheds_letGo : Moves Sheds (letGo : Tracing κ Unit) :=
  fun s => (ends_letGo s).mono fun _ _ h => .of_none (by rw [System.plan?, h.2]; rfl)

theorem sheds_detach : Moves Sheds (detach : Tracing κ Unit) := by
  have htakeBack : Moves Sheds (takeBack : Tracing κ Bool) := by
    refine moves_process.bind fun _ => (sheds_of_calm moves_stopAll).bind fun _ => ?_
    refine moves_hasProcess.bind fun present => ?_
    split
    · refine sheds_cancelPlan.bind fun _ => moves_memoryThread.bind fun tid => ?_
      refine (sheds_of_calm (moves_work _ (.disableAll tid))).bind fun _ => ?_
      exact (sheds_of_calm moves_drainStops).bind fun _ => Moves.pure _
    · exact Moves.pure _
  rw [detach_eq]
  refine htakeBack.bind fun going => ?_
  split
  · exact sheds_letGo
  · exact Moves.pure _

theorem sheds_destroy : Moves Sheds (destroy : Tracing κ Unit) := by
  refine moves_tracer.bind fun t => ?_
  split
  · exact Moves.pure _
  · split
    · exact sheds_of_calm moves_kill
    · exact sheds_detach

/-! ### Acts -/

omit [Kernel κ] in
theorem plans_of_sheds {α : Type} {m : Tracing κ α} (h : Moves Sheds m) (s : System κ) :
    Ends (do let _ ← m : Tracing κ Unit) s (Plans A s) :=
  (h.bind fun _ => Moves.pure _ : Moves Sheds (do let _ ← m : Tracing κ Unit)) s |>.mono
    fun _ _ h => ⟨fun plan hplan => Or.inl (h.plan plan hplan)⟩

theorem plans_beginning {state : ProcessState} (s : System κ) : Beginning state s (Plans A s) := by
  refine ⟨fun e => ⟨fun _ => Or.inl⟩, fun hs e k => .of_none _ ?_,
    fun hs p stop program k hhalted hplan => ?_⟩
  · rw [System.plan?]
    exact congrArg (Option.bind · _) hs
  · refine (plans_reportStop (A := A) _ _).mono fun r s' h => ⟨fun plan hs' => Or.inr ?_⟩
    refine (h.plan plan hs').resolve_left fun hbefore => ?_
    cases hplan.symm.trans hbefore

theorem plans_look (s : System κ) : Ends (do let _ ← look : Tracing κ Unit) s (Plans A s) := by
  refine ((ends_discard look s (Plans A s (.ok ()))).mpr (ends_look ?_ ?_ ?_ ?_)).mono
    fun r s' h => ⟨h.plan⟩
  · exact fun _ => ⟨fun _ => Or.inl⟩
  · exact fun _ _ => ⟨fun _ => Or.inl⟩
  · exact fun _ _ => .of_none _ rfl
  · exact fun _ status _ => (plans_handle status _).mono fun r s' h => ⟨h.plan⟩

end Tracing

/-! ### Plans that steps start -/

/-- A stack pointer that is at least the one before the call that a step goes over, or above the one at
the start of a step out. -/
def Clears (kind : StepKind) (start sp : UInt64) : Prop :=
  (kind = .over ∧ start ≤ sp) ∨ (kind = .out ∧ start < sp)

variable [KeepsRegisters κ]

/-- The plan of a step of a thread, which is started where the thread stands still. -/
structure StepPlan.IsOf (plan : StepPlan) (kind : StepKind) (tid : Nat) (k : κ) : Prop where
  thread : plan.tid = tid
  clears : ∀ regs, standing k tid = some regs → ∀ sp, plan.spAbove < sp → Clears kind regs.sp sp

/-- The process stays as it is, and so do the registers of threads that stand still. -/
structure StandsStill (s s' : System κ) : Prop where
  process : s'.tracer.process = s.tracer.process
  standing : ∀ tid regs, standing s.kernel tid = some regs → standing s'.kernel tid = some regs

instance : StepRelation (StandsStill : System κ → System κ → Prop) where
  refl _ := ⟨rfl, fun _ _ => id⟩
  trans h h' := ⟨h'.process.trans h.process,
    fun tid regs hregs => h'.standing tid regs (h.standing tid regs hregs)⟩

omit [Kernel κ] [KeepsRegisters κ] in
theorem Plans.of_process {s t s' : System κ} {r : Except DebugError Unit}
    (h : t.tracer.process = s.tracer.process) (h' : Plans A t r s') : Plans A s r s' := by
  refine ⟨fun plan hplan => (h'.plan plan hplan).imp_left fun ht => ?_⟩
  rwa [System.plan?, ← h]

namespace Tracing

theorem still_attempt {c : SystemCall} (hc : ∀ tid, c.moves tid = false) :
    Moves StandsStill (attempt c : Tracing κ (Except OsError c.Answer)) :=
  fun s => ⟨rfl, fun tid regs hregs => KeepsRegisters.standing_perform c s.kernel tid regs hregs (hc tid)⟩

theorem still_registersOf (tid : Nat) : Moves StandsStill (registersOf tid : Tracing κ RegisterFile) :=
  moves_require_of_attempt _ (still_attempt fun _ => rfl)

theorem still_kindAt (a : UInt64) :
    Moves StandsStill (kindAt a : Tracing κ (Machine.InstructionKind × Nat)) := by
  refine Moves.bind (moves_memoryThread.bind fun access => Moves.bind (fun s => ?_) fun data => ?_)
    fun _ => moves_ofOutcome _
  · refine ⟨rfl, fun tid regs => ?_⟩
    exact readSomeWords_of_peeks (P := fun k => standing k tid = some regs) access
      (fun a k hk => KeepsRegisters.standing_perform (.peek access a) k tid regs hk rfl)
      (Memory.wordsFor Machine.maxLength) a s.kernel
  · dsimp only
    split
    · exact Moves.throw _
    · exact moves_tracer.bind fun _ => Moves.pure _

omit [KeepsRegisters κ] in
theorem plans_runPlan (plan : StepPlan) : Comes (Plans (· = plan)) (runPlan plan : Tracing κ Unit) := by
  intro s
  refine ends_runPlan plan s (fun _ => ⟨fun _ => Or.inl⟩) fun access p hp => ?_
  have hany : Ends (Patching.addPlanned access plan.address) (breakpointsOf s) fun _ _ => True :=
    True.intro
  refine hany.mono fun r q _ => ?_
  cases r with
  | error e => exact ⟨fun _ => Or.inl⟩
  | ok _ =>
    refine (plans_resumeAs (A := (· = plan)) (Or.inr rfl) (by rintro ⟨⟩)).mono fun r s' h => ?_
    refine ⟨fun plan' hplan' => Or.inr ?_⟩
    rcases h.plan plan' hplan' with hstarted | rfl
    · cases hstarted
      rfl
    · rfl

/-- After the call the stack pointer is what it was before. -/
theorem le_of_before_lt {start sp : UInt64} (h : (if start = 0 then 0 else start - 1) < sp) :
    start ≤ sp := by
  split at h
  · rename_i hzero
    rw [hzero]
    exact UInt64.zero_le
  · grind

/-- The plan that a step starts, if it starts one. -/
theorem plans_step (n : Nat) (kind : StepKind) (s : System κ) :
    Ends (step n kind) s (Plans (·.IsOf kind (n % halfLimit) s.kernel) s) := by
  generalize htid : n % halfLimit = tid
  have hthread : Ends (stoppedThread n) s fun r t => s = t ∧
      ∀ u, r = .ok u → tid = u ∧ s.tracer.process ≠ none := by
    refine (ends_stoppedProcess s).bind ?_ fun _ _ h => ⟨h.1, by rintro _ ⟨⟩⟩
    rintro p _ ⟨rfl, hp⟩
    dsimp only
    split
    · refine ⟨rfl, ?_⟩
      rintro _ ⟨⟩
      rw [hp p rfl]
      exact ⟨htid.symm, Option.some_ne_none p⟩
    · exact ⟨rfl, by rintro _ ⟨⟩⟩
  have hsame : ∀ {t : System κ}, StandsStill s t → ∀ e : DebugError,
      Plans (·.IsOf kind tid s.kernel) s (.error e : Except DebugError Unit) t :=
    fun h e => .of_process (r := .error e) h.process ⟨fun _ => Or.inl⟩
  refine hthread.bind ?_ ?_
  · rintro u t ⟨rfl, hu⟩
    obtain ⟨rfl, hpresent⟩ := hu u rfl
    match kind with
    | .instruction => exact plans_stepInstruction _ _ hpresent
    | .over =>
      have hpc : Moves StandsStill (pcOf tid : Tracing κ UInt64) :=
        (still_registersOf tid).bind fun _ => Moves.pure _
      refine (hpc s).bind ?_ fun e t h => hsame h e
      intro pc t ht
      refine (still_kindAt pc t).bind ?_ fun e u h => hsame (StepRelation.trans ht h) e
      intro found u hu
      have hsu : StandsStill s u := StepRelation.trans ht hu
      split
      · have hsp : Ends (spOf tid) u fun r v => StandsStill u v ∧
            ∀ regs, standing u.kernel tid = some regs → ∀ sp, r = .ok sp → sp = regs.sp :=
          Ends.and ((still_registersOf tid).bind (fun _ => Moves.pure _) u)
            (fun regs hregs => (sees_spOf hregs).answer)
        refine hsp.bind ?_ fun e v h => hsame (StepRelation.trans hsu h.1) e
        rintro sp v ⟨hv, hsp⟩
        refine (plans_runPlan _ v).mono fun r s' h => ?_
        refine .of_process (StepRelation.trans hsu hv).process (h.mono ?_)
        rintro _ rfl
        refine ⟨rfl, fun regs hregs sp' habove => Or.inl ⟨rfl, ?_⟩⟩
        rw [← hsp regs (hsu.standing tid regs hregs) sp rfl]
        exact le_of_before_lt habove
      · refine (plans_stepInstruction tid _ ?_).mono fun r s' h => .of_process hsu.process h
        rw [hsu.process]
        exact hpresent
    | .out =>
      have htop : Ends (topFrame tid) s fun r t => StandsStill s t ∧
          ∀ regs, standing s.kernel tid = some regs → ∀ top, r = .ok top → top.sp = regs.sp :=
        Ends.and ((still_registersOf tid).bind (fun _ => Moves.pure _) s) (fun regs hregs top htop =>
          congrArg Machine.Frame.sp ((sees_register (fun read => (⟨read.pc, read.sp, read.value .rbp⟩ :
            Machine.Frame)) hregs).answer top htop))
      refine htop.bind ?_ fun e t h => hsame h.1 e
      rintro top t ⟨ht, hsp⟩
      refine Ends.mono (P := fun r s' => Plans (·.IsOf .out tid s.kernel) t r s') ?_
        fun r s' h => .of_process ht.process h
      refine Comes.bind (moves_layoutAt _) (fun layout => ?_) t
      refine Comes.bind (moves_caller layout top) fun caller => ?_
      split
      · refine fun u => (plans_runPlan _ u).mono fun r s' h => h.mono ?_
        rintro _ rfl
        refine ⟨rfl, fun regs hregs sp' habove => Or.inr ⟨rfl, ?_⟩⟩
        rw [← hsp regs hregs top rfl]
        exact habove
      · exact .of_moves (Moves.throw _)
  · rintro e _ ⟨rfl, -⟩
    exact ⟨fun _ => Or.inl⟩

/-- A plan is started by a step request only. -/
theorem plans_act (a : Act) (s : System κ) : Ends a.operation s (Plans (fun plan => ∃ n kind,
    a = .perform (.step n kind) ∧ plan.IsOf kind (n % halfLimit) s.kernel) s) := by
  cases a with
  | look => exact plans_look s
  | perform r =>
    cases r with
    | launch info => exact ends_launchToEntry info (plans_beginning s)
    | attach pid => exact (ends_dropped _ s _).mpr (ends_attach pid (plans_beginning s))
    | resume => exact (ends_dropped _ s _).mpr (plans_resume s)
    | step n kind =>
      refine (ends_dropped _ s _).mpr ((plans_step n kind s).mono fun r s' h => h.mono ?_)
      exact fun plan hof => ⟨n, kind, rfl, hof⟩
    | interrupt => exact plans_of_sheds (sheds_of_calm moves_interrupt) s
    | kill => exact plans_of_sheds (sheds_of_calm moves_kill) s
    | detach => exact plans_of_sheds sheds_detach s
    | destroy => exact plans_of_sheds sheds_destroy s
    | _ => exact plans_of_sheds (sheds_of_calm (moves_operation_of_isAside rfl)) s

end Tracing

/-- A step request of a history that started a step plan, and after which the history goes on. -/
structure StartedIn (drift : κ → κ → Prop) (s₀ s : System κ) (plan : StepPlan) (kind : StepKind)
    (t : System κ) : Prop where
  before : ∃ es, History drift s₀ es t
  step : ∃ n, plan.IsOf kind (n % halfLimit) t.kernel ∧
    Ends (Act.perform (.step n kind)).operation t fun _ u =>
      u.plan? = some plan ∧ ∃ es, History drift u es s

/-- A step plan that is active was started by a step. -/
theorem History.plan_origin {drift : κ → κ → Prop} {program : Option String} {k : κ} {es : List Event}
    {s : System κ} (h : History drift ⟨k, .new program⟩ es s) {plan : StepPlan}
    (hplan : s.plan? = some plan) : ∃ kind t, StartedIn drift ⟨k, .new program⟩ s plan kind t := by
  induction h with
  | start => cases hplan
  | @act es s a h ih =>
    rcases (Tracing.plans_act a s).plan plan hplan with hbefore | ⟨n, kind, rfl, hof⟩
    · obtain ⟨kind, t, hbefore, n, hof, hstarted, es, hsince⟩ := ih hbefore
      exact ⟨kind, t, hbefore, n, hof, hstarted, es, hsince.act a⟩
    · exact ⟨kind, s, ⟨es, h⟩, n, hof, hplan, [], .start⟩
  | @collect es s h ih =>
    obtain ⟨kind, t, hbefore, n, hof, hstarted, es, hsince⟩ := ih hplan
    exact ⟨kind, t, hbefore, n, hof, hstarted, _, hsince.collect⟩
  | @elapse es s k hdrift h ih =>
    obtain ⟨kind, t, hbefore, n, hof, hstarted, es, hsince⟩ := ih hplan
    exact ⟨kind, t, hbefore, n, hof, hstarted, es, hsince.elapse hdrift⟩

/-! ### Arrivals in histories -/

/-- A look finds that a thread with some registers, which stands still, met a breakpoint. -/
structure FindsMet (tid : Nat) (code : Int) (regs : RegisterFile) (s : System κ) : Prop where
  poll : (Kernel.perform .poll s.kernel).1 = .ok (some (.stopped tid .trap))
  standing : standing (Kernel.perform .poll s.kernel).2 tid = some regs
  answer : (Kernel.perform (.signalCode tid) (Kernel.perform .poll s.kernel).2).1 = .ok code
  code : code = 1 ∨ code = 0x80
  enabled : s.tracer.breakpoints.isEnabledAt (regs.pc - 1) = true

/-- The calls by which a thread with some registers is found and moved back to the breakpoint that it
met. -/
def metCalls (tid : Nat) (code : Int) (regs : RegisterFile) : List Answered :=
  ⟨.poll, .ok (some (.stopped tid .trap))⟩ ::
    (diagnosisCalls tid code regs ++ moveCalls tid (regs.pc - 1) regs)

/-- Wherever a tracer has come to, a look finds that a thread met a breakpoint. The thread is moved back
and arrives there. A step plan that ends with the arrival was started by a step of this thread: its stack
pointer is at least the one before a call that was stepped over, and above the one at the start of a step
out. -/
theorem arrival_of_history [Kernel.Lawful κ] {drift : Logged κ → Logged κ → Prop}
    {program : Option String} {k : Logged κ} {es : List Event} {s : System (Logged κ)}
    (h : History drift ⟨k, .new program⟩ es s) {p : Process} (hp : s.tracer.process = some p) {tid : Nat} (hknown : p.hasThread tid = true)
    {code : Int} {regs : RegisterFile} (hmet : FindsMet tid code regs s) :
    (∀ plan, p.plan = some plan → plan.EndsAt tid (regs.pc - 1) regs.sp →
      ∃ kind t, StartedIn drift ⟨k, .new program⟩ s plan kind t ∧
        ∀ start, standing t.kernel tid = some start → Clears kind start.sp regs.sp) ∧
    Ends (Tracing.handle (.stopped tid .trap)) { s with kernel := (Kernel.perform .poll s.kernel).2 }
      fun r s' => Ends Act.look.operation s (fun _ u => u = s') ∧ (Serves s s' →
        ∃ looks, (∀ x ∈ looks, x.call = .getRegisters tid) ∧
          Arrives tid (regs.pc - 1) regs.sp (metCalls tid code regs ++ looks) s
            (p.modifyThread tid Thread.halted) r s') := by
  refine ⟨fun plan hplan hends => ?_, ?_⟩
  · have hactive : s.plan? = some plan := by rw [System.plan?, hp]; exact hplan
    obtain ⟨kind, t, hstarted⟩ := h.plan_origin hactive
    refine ⟨kind, t, hstarted, fun start hstart => ?_⟩
    obtain ⟨n, hof, -⟩ := hstarted.step
    refine hof.clears start ?_ regs.sp hends.above
    rwa [← hof.thread, hends.tid]
  generalize ht : ({ s with kernel := (Kernel.perform .poll s.kernel).2 } : System (Logged κ)) = t
  have hpt : t.tracer.process = some p := by rw [← ht]; exact hp
  have hkernel : t.kernel = (Kernel.perform .poll s.kernel).2 := by rw [← ht]
  have htracer : t.tracer = s.tracer := by rw [← ht]
  have hlog : t.kernel.log = s.kernel.log ++ [⟨.poll, .ok (some (.stopped tid .trap))⟩] := by
    rw [hkernel, log_perform, hmet.poll]
  have hlook : Ends (Tracing.handle (.stopped tid .trap)) t fun _ s' =>
      Ends Act.look.operation s (fun _ u => u = s') := by
    rw [Ends]
    refine (Tracing.ends_discard Tracing.look s (· = _)).mpr (Tracing.ends_look ?_ ?_ ?_ ?_)
    · exact fun hnone => by cases hp.symm.trans hnone
    · exact fun _ hquiet => absurd hmet.poll (hquiet _)
    · exact fun _ hgone => by cases hmet.poll.symm.trans hgone
    · intro _ status hstatus
      cases hmet.poll.symm.trans hstatus
      rw [ht]
      exact rfl
  have htrap := Tracing.serves_trapSeen hpt hknown (hkernel ▸ hmet.standing) (hkernel ▸ hmet.answer)
    hmet.code (htracer ▸ hmet.enabled)
  refine hlook.and ((htrap.and
    (Tracing.comes_trapSeen (O := Always Lengthens) Tracing.moves_breakpointMet tid t)).mono ?_)
  rintro r s' ⟨htrap, hlengthens⟩ hserves
  obtain ⟨looks, hlooks, harrives⟩ := htrap (hserves.split ⟨_, hlog.symm⟩ hlengthens).2
  have hsince := harrives.since hlog (congrArg State.breakpoints htracer)
    ⟨congrArg State.snapshot htracer, congrArg State.events htracer⟩
  refine ⟨looks, hlooks, ?_⟩
  rw [metCalls, List.cons_append, List.append_assoc]
  exact hsince

/-- A kernel that goes on while it is asked nothing. -/
def Unasked (k k' : Logged Stage) : Prop := k'.log = k.log

/-- A stage that is about to be used. -/
def Stage.opened (k : Stage) : System (Logged Stage) := ⟨⟨k, []⟩, .new (some "/app")⟩

/-- What goes on behind a tracer. -/
def System.moved (f : Stage → Stage) (s : System (Logged Stage)) : System (Logged Stage) :=
  { s with kernel := { s.kernel with kernel := f s.kernel.kernel } }

theorem History.moved {s₀ s : System (Logged Stage)} {es : List Event} (h : History Unasked s₀ es s)
    (f : Stage → Stage) : History Unasked s₀ es (s.moved f) :=
  .elapse (k := { s.kernel with kernel := f s.kernel.kernel }) rfl h

/-- The registers of a thread that stands at an address. -/
def standingAt (pc : UInt64) : RegisterFile := (RegisterFile.zero.set .rsp 0x8000).set .rip pc

/-- A stage with a call at its first address, where the threads stand. -/
def callStage : Stage :=
  { Stage.bare [.stopped 1 .trap] [] with
    bytes := fun a => if a = 0 then 0xe8 else 0
    registers := fun _ => standingAt 0 }

/-- A thread that returned from the call that it steps over. -/
def returned : System (Logged Stage) :=
  ((Stage.opened callStage).through [.perform (.launch ⟨[], none, true, true⟩),
    .perform (.step 1 .over)]).moved fun k =>
      { k with registers := fun _ => standingAt 6, polls := [.stopped 1 .trap] }

/-- The step plan of a thread that returned ends. -/
theorem arrival_returned : ∃ p, returned.tracer.process = some p ∧ p.hasThread 1 = true ∧
    FindsMet 1 1 (standingAt 6) returned ∧
    Ends (Tracing.handle (.stopped 1 .trap))
      { returned with kernel := (Kernel.perform .poll returned.kernel).2 } fun r s' =>
        Serves returned s' ∧ ∃ looks, (∀ x ∈ looks, x.call = .getRegisters 1) ∧
          Arrives 1 5 0x8000 (metCalls 1 1 (standingAt 6) ++ looks) returned
            (p.modifyThread 1 Thread.halted) r s' := by
  have hprocess : returned.tracer.process.any (·.hasThread 1) = true := by decide +kernel
  obtain ⟨p, hp, hknown⟩ := Option.any_eq_true _ _ |>.mp hprocess
  have hmet : FindsMet 1 1 (standingAt 6) returned := by
    refine ⟨rfl, rfl, rfl, Or.inl rfl, ?_⟩
    decide +kernel
  have hgranted : Ends (Tracing.handle (.stopped 1 .trap))
      { returned with kernel := (Kernel.perform .poll returned.kernel).2 } fun _ s' =>
        s'.tracer.process ≠ none ∧ ∀ x ∈ s'.kernel.log, x.answer.isOk = true := by
    rw [Ends]
    decide +kernel
  have hhistory : History Unasked (Stage.opened callStage) [] returned :=
    (History.start.through _).moved _
  refine ⟨p, hp, hknown, hmet, ?_⟩
  refine ((arrival_of_history hhistory hp hknown hmet).2.and (hgranted.and
    (Tracing.comes_trapSeen (O := Always Lengthens) Tracing.moves_breakpointMet 1 _))).mono ?_
  rintro r s' ⟨⟨-, harrives⟩, ⟨hsurvives, hok⟩, hlengthens⟩
  have hserves : Serves returned s' := by
    obtain ⟨new, hnew⟩ := List.IsPrefix.trans (List.prefix_append _ _) hlengthens.log
    refine ⟨hsurvives, new, hnew.symm, fun x hx => hok x ?_⟩
    rw [← hnew]
    exact List.mem_append_right _ hx
  exact ⟨hserves, harrives hserves⟩

/-- Another thread meets the breakpoint of a step plan, and its step is interrupted again and again. -/
def passing : System (Logged Stage) :=
  let planned := ((Stage.opened callStage).through
    [.perform (.launch ⟨[], none, true, true⟩), .perform (.step 1 .over)]).moved fun k =>
      { k with waits := [.stopped 2 .stop], polls := [.event 1 WaitStatus.cloneEvent] }
  (planned.through [.look]).moved fun k =>
    { k with
      registers := fun _ => standingAt 6
      waits := List.replicate Tracing.maxSteps (.event 2 5)
      polls := [.stopped 2 .trap] }

/-- A thread meets a breakpoint of the user while another thread gets a signal. -/
def colliding : System (Logged Stage) :=
  let running := ((Stage.opened callStage).through [.perform (.launch ⟨[], none, true, true⟩),
    .perform (.setBreakpoint 0x1000), .perform .resume]).moved fun k =>
      { k with waits := [.stopped 2 .stop], polls := [.event 1 WaitStatus.cloneEvent] }
  (running.through [.look]).moved fun k =>
    { k with
      registers := fun tid => if tid = 2 then standingAt 0x1001 else standingAt 0
      waits := [.stopped 2 .trap, .stopped 1 .stop, .stopped 2 .trap]
      polls := [.stopped 1 .usr1, .stopped 2 .stop] }

/-- What is done after the collision: the signal is published, the process runs, it is interrupted, the
stop of the thread that met the breakpoint is published, and the process runs again. -/
def collision : List Act :=
  [.look, .perform .resume, .perform .interrupt, .look, .perform .resume]

/-- A call that lets a thread step. -/
def isStepOf (tid : Nat) : SystemCall → Bool
  | .step u _ => u == tid
  | _ => false

/-- A call that lets a thread run. -/
def isRunOf (tid : Nat) : SystemCall → Bool
  | .resume u _ => u == tid
  | _ => false

/-- How many calls of a kind were made. -/
def System.asked (kind : SystemCall → Bool) (s : System (Logged Stage)) : Nat :=
  s.kernel.log.countP fun x => kind x.call

/-- Arrivals that are neither published nor passed. A thread that meets the breakpoint of the plan of
another one is left where it is when its step was started too often: the breakpoint stays lifted, and the
thread does not go on. And a thread that meets a breakpoint of the user while the process is being stopped
is moved back; if it gets a stop signal before it goes on, it steps off the breakpoint later, and its
arrival is not published. -/
theorem arrivals_missed :
    (History Unasked (Stage.opened callStage) [] passing ∧ FindsMet 2 1 (standingAt 6) passing ∧
      passing.plan? = some ⟨1, 5, 0x7fff⟩ ∧ passing.tracer.breakpoints.isUserAt 5 = false ∧
      Ends (Tracing.handle (.stopped 2 .trap))
        { passing with kernel := (Kernel.perform .poll passing.kernel).2 } fun r s' =>
          r.isOk = false ∧ s'.tracer.process ≠ none ∧
          (∀ x ∈ s'.kernel.log, x.answer.isOk = true) ∧ s'.asked (isRunOf 2) = passing.asked (isRunOf 2) ∧
          s'.tracer.breakpoints.isEnabledAt 5 = false) ∧
    (History Unasked (Stage.opened callStage) [] colliding ∧
      colliding.tracer.breakpoints.isUserAt 0x1000 = true ∧
      standing colliding.kernel 2 = some (standingAt 0x1001) ∧
      (Kernel.perform (.wait (some 2)) colliding.kernel).1 = .ok (.stopped 2 .trap) ∧
      (∀ x ∈ (colliding.through collision).kernel.log, x.answer.isOk = true) ∧
      (∀ n ≤ 5, ∀ stop ∈ (colliding.through (collision.take n)).tracer.snapshot.stop,
        stop.reason ≠ .breakpoint) ∧
      (colliding.through collision).tracer.process ≠ none ∧
      (colliding.through collision).asked (isStepOf 2) = colliding.asked (isStepOf 2) + 1 ∧
      (colliding.through collision).asked (isRunOf 2) = colliding.asked (isRunOf 2) + 2) := by
  have hpassing : History Unasked (Stage.opened callStage) [] passing := by
    unfold passing
    exact ((History.start.through _).moved _ |>.through _).moved _
  have hcolliding : History Unasked (Stage.opened callStage) [] colliding := by
    unfold colliding
    exact ((History.start.through _).moved _ |>.through _).moved _
  refine ⟨⟨hpassing, ?_, ?_, ?_, ?_⟩, hcolliding,
    ?_, rfl, rfl, ?_, ?_, ?_, ?_, ?_⟩
  · refine ⟨rfl, rfl, rfl, Or.inl rfl, ?_⟩
    decide +kernel
  · decide +kernel
  · decide +kernel
  · rw [Ends]
    decide +kernel
  · decide +kernel
  · decide +kernel
  · decide +kernel
  · decide +kernel
  · decide +kernel
  · decide +kernel

end DebugAdapter.Tracer
