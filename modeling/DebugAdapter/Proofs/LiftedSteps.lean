import DebugAdapter.Proofs.ArmedRuns
import DebugAdapter.Proofs.Puppet
import DebugAdapter.Proofs.TruthfulTracers

/-!
# Steps with lifted breakpoints

A thread at a breakpoint steps with the breakpoint lifted. Meanwhile no other thread may be loose: it
could get past the address unseen, and a step over or out of a call would miss its end. A request to run
or to step is refused while a thread runs, so it starts with no thread loose, and what it does before its
report or its end lets none go on (`Firm`). All other acts step no thread (`Unstepped`), but for one: a
look that finds a thread at a breakpoint which is only there for a plan steps that thread, and the others
go on meanwhile.

Main statement: `steps_of_history`.
-/

namespace DebugAdapter

open Debuggee
open Engine.Traced (Engine)
open Linux
open Operation

namespace Linux.Watched

variable {κ : Type} {k : Watched κ}

theorem strays_note {c : SystemCall} (hc : ∀ tid signal, c ≠ .step tid signal)
    {answer : Except OsError c.Answer} : (k.note c answer).strays = k.strays := by
  have hreport : ∀ (tid : Nat) (status : WaitStatus), (k.report tid status).strays = k.strays := by
    intro tid status
    cases status <;> rfl
  cases c with
  | step tid signal => exact absurd rfl (hc tid signal)
  | wait who =>
    cases answer with
    | ok status => exact hreport _ status
    | error e => rfl
  | poll =>
    rcases answer with e | _ | status
    · rfl
    · rfl
    · exact hreport _ status
  | resume tid signal =>
    cases answer with
    | ok _ =>
      rw [note]
      split
      · rfl
      · rfl
    | error e => rfl
  | poke tid a word => cases answer <;> rfl
  | _ => rfl

/-- With no thread loose a step is none that is kept. -/
theorem strays_step (h : k.loose = []) (tid : Nat) : (k.step tid).strays = k.strays := by
  rw [step, if_pos]
  rw [h]
  rfl

end Linux.Watched

namespace Tracer

variable {κ α : Type} {tid : Nat} {s s' : System (Watched κ)}

/-! ### No steps -/

/-- No thread steps while another is loose. -/
structure Unstepped (s s' : System (Watched κ)) : Prop where
  strays : s'.kernel.strays = s.kernel.strays

theorem unstepped_patching {p : Patching (Watched κ) α} (h : Moves SameWatch p)
    (s : System (Watched κ)) :
    Ends p (Tracing.breakpointsOf s) fun _ t => Unstepped s (Tracing.withBreakpoints s t) :=
  (h _).mono fun _ _ hp => ⟨hp.strays⟩

variable [Kernel κ]

theorem unstepped_perform {c : SystemCall} (hc : ∀ tid signal, c ≠ .step tid signal)
    (s : System (Watched κ)) : Unstepped s { s with kernel := (Kernel.perform c s.kernel).2 } :=
  ⟨Watched.strays_note hc⟩

instance : ModulesRelation (Unstepped : System (Watched κ) → System (Watched κ) → Prop) where
  refl _ := ⟨rfl⟩
  trans h h' := ⟨h'.strays.trans h.strays⟩
  look c s hc := by
    refine unstepped_perform ?_ s
    rintro tid signal rfl
    cases hc
  modules _ _ _ _ _ _ _ := ⟨rfl⟩

instance : QuietRelation (Unstepped : System (Watched κ) → System (Watched κ) → Prop) where
  probe c s hc := by
    refine unstepped_perform ?_ s
    rintro tid signal rfl
    cases hc
  process _ _ _ _ _ := ⟨rfl⟩
  exited _ _ _ := ⟨rfl⟩

instance : ReportRelation (Unstepped : System (Watched κ) → System (Watched κ) → Prop) where
  shown _ _ _ _ _ := ⟨rfl⟩
  unplan tid a := unstepped_patching (Patching.moves_removePlanned tid a)

instance : WorkRelation (Unstepped : System (Watched κ) → System (Watched κ) → Prop) where
  enable tid a := unstepped_patching (Patching.moves_enable tid a)
  disable tid a := unstepped_patching (Patching.moves_disable tid a)
  work h := unstepped_patching h.moves

/-! ### Steps with no thread loose -/

/-- No thread gets loose, and if none is, no thread steps while another is. -/
structure Firm (s s' : System (Watched κ)) : Prop extends Holds s s' where
  strays : s.kernel.loose = [] → s'.kernel.strays = s.kernel.strays

omit [Kernel κ] in
theorem Holds.loose_eq_nil (h : Holds s s') (hs : s.kernel.loose = []) : s'.kernel.loose = [] :=
  List.eq_nil_iff_forall_not_mem.mpr fun u hu => List.not_mem_nil (hs ▸ h.loose u hu)

omit [Kernel κ] in
theorem Unstepped.firm (h : Unstepped s s') (hs : Holds s s') : Firm s s' :=
  ⟨hs, fun _ => h.strays⟩

omit [Kernel κ] in
theorem firm_of_unstepped {m : Tracing (Watched κ) α} (hm : Ends m s fun _ s' => Unstepped s s')
    (hs : Ends m s fun _ s' => Holds s s') : Ends m s fun _ s' => Firm s s' :=
  (hm.and hs).mono fun _ _ h => h.1.firm h.2

omit [Kernel κ] in
/-- The tracer may note all that threads do not matter to. -/
theorem firm_tracer {t : State} (h : Holds s { s with tracer := t }) : Firm s { s with tracer := t } :=
  ⟨h, fun _ => rfl⟩

instance : ModulesRelation (Firm : System (Watched κ) → System (Watched κ) → Prop) where
  refl s := (StepRelation.refl s : Unstepped s s).firm (StepRelation.refl s)
  trans h h' := ⟨StepRelation.trans h.toHolds h'.toHolds, fun hs =>
    (h'.strays (h.loose_eq_nil hs)).trans (h.strays hs)⟩
  look c s hc := (LookRelation.look c s hc : Unstepped s _).firm (LookRelation.look c s hc)
  modules s t hprocess hsnapshot hbreakpoints houtput hevents :=
    firm_tracer (ModulesRelation.modules s t hprocess hsnapshot hbreakpoints houtput hevents)

instance : NoteRelation (Firm : System (Watched κ) → System (Watched κ) → Prop) where
  note tid f htid hrunning s :=
    firm_of_unstepped (NoteRelation.note tid f htid hrunning s) (NoteRelation.note tid f htid hrunning s)

instance : ShownRelation (Firm : System (Watched κ) → System (Watched κ) → Prop) where
  shown s t hbreakpoints hprocess houtput :=
    firm_tracer (ShownRelation.shown s t hbreakpoints hprocess houtput)

instance : WorkRelation (Firm : System (Watched κ) → System (Watched κ) → Prop) where
  enable tid a s := ((ToggleRelation.enable (R := Unstepped) tid a s).and
    (ToggleRelation.enable (R := Holds) tid a s)).mono fun _ _ h => h.1.firm h.2
  disable tid a s := ((ToggleRelation.disable (R := Unstepped) tid a s).and
    (ToggleRelation.disable (R := Holds) tid a s)).mono fun _ _ h => h.1.firm h.2
  work h s := ((WorkRelation.work (R := Unstepped) h s).and
    (WorkRelation.work (R := Holds) h s)).mono fun _ _ h => h.1.firm h.2

/-- A step is awaited before anything else happens. -/
instance : SteppingRelation (Firm : System (Watched κ) → System (Watched κ) → Prop) where
  singleStep tid := by
    refine Tracing.moves_stepFrom_of (fun signal s => ?_) (fun s => ?_) (fun s => ?_) Tracing.maxSteps
    · refine ⟨Tracing.holds_attempt (c := .step tid signal) nofun s, fun hs => ?_⟩
      show (Kernel.perform (.step tid signal) s.kernel).2.strays = _
      rcases hstep : (Kernel.perform (.step tid signal) s.kernel).1 with e | _
      · rw [Watched.perform_eq hstep]
        rfl
      · rw [Watched.perform_eq hstep]
        exact Watched.strays_step hs tid
    · refine firm_of_unstepped (Tracing.moves_await _ (Tracing.moves_judgeStep tid) s) ?_
      exact (Tracing.holds_await (fun _ => rfl) (fun _ _ => Tracing.holds_judgeStep) s).mono
        fun _ _ h => h.1
    · exact firm_of_unstepped (Tracing.moves_threadGone tid none s)
        (Tracing.holds_threadGone tid none s)

/-! ### Runs and steps -/

/-- What starts with no thread loose does not step a thread while another is. -/
def Unstrayed (s : System (Watched κ)) (_ : Except DebugError Unit) (s' : System (Watched κ)) : Prop :=
  s.kernel.loose = [] → s'.kernel.strays = s.kernel.strays

namespace Tracing

omit [Kernel κ] in
theorem unstrayed_of_moves {m : Tracing (Watched κ) Unit} (h : Moves Unstepped m) :
    Comes Unstrayed m :=
  fun s => (h s).mono fun _ _ hs _ => hs.strays

end Tracing

instance : RunRelation (Firm : System (Watched κ) → System (Watched κ) → Prop) Unstrayed where
  quiet _ h := h.strays
  after h h' hs := (h' (h.loose_eq_nil hs)).trans (h.strays hs)
  report stop := Tracing.unstrayed_of_moves (Tracing.moves_reportStop stop)
  goOn tids := Tracing.unstrayed_of_moves (Tracing.moves_continueThreads tids)

namespace Tracing

theorem precedes_stepThreadFirm (tid : Nat) :
    Precedes Firm Unstrayed (stepThread tid : Tracing (Watched κ) Stepped) :=
  .of_moves (moves_stepThread tid)

theorem unstrayed_resume : Comes Unstrayed (resume : Tracing (Watched κ) Unit) :=
  comes_resume precedes_stepThreadFirm fun s _ => moves_publish .running s

theorem unstrayed_runPlan (plan : StepPlan) :
    Comes Unstrayed (runPlan plan : Tracing (Watched κ) Unit) := by
  intro s
  refine ends_runPlan plan s (fun _ _ => rfl) fun access p hp => ?_
  refine (WorkRelation.work (R := Firm) (.addPlanned access plan.address) s).mono fun r q hq => ?_
  cases r with
  | error e => exact hq.strays
  | ok _ =>
    have hplanning : Firm s (planning (withBreakpoints s q) p plan) := by
      refine StepRelation.trans hq (ShownRelation.shown _ _ rfl ?_ id)
      rw [process_withBreakpoints, hp]
      rfl
    refine (comes_resumeAs precedes_stepThreadFirm (fun s _ => moves_publish .stepping s) ?_).mono
      fun _ _ => OutcomeRelation.after hplanning
    rintro ⟨⟩

theorem unstrayed_step (tid : Nat) (kind : StepKind) :
    Comes Unstrayed (step tid kind : Tracing (Watched κ) Unit) :=
  comes_step unstrayed_runPlan (fun tid reason s _ =>
    comes_stepInstruction precedes_stepThreadFirm tid reason (moves_publish .stepping s)) tid kind

/-! ### Statuses -/

theorem unstepped_imageReplaced (tid : Nat) :
    Moves Unstepped (imageReplaced tid : Tracing (Watched κ) Unit) := by
  refine moves_process.bind fun p => (moves_programOf _).bind fun executable => ?_
  refine Moves.bind (Moves.modify fun _ => ⟨rfl⟩) fun _ => ?_
  refine Moves.bind (Moves.modify fun _ => ⟨rfl⟩) fun _ => ?_
  exact (moves_markStopped _).bind fun _ => moves_reportStop _

/-- At a breakpoint of the user every thread stops. -/
theorem unstepped_breakpointMet (tid : Nat) {a : UInt64}
    (h : s.tracer.breakpoints.isUserAt a = true) :
    Ends (breakpointMet tid a) s fun _ s' => Unstepped s s' := by
  rw [breakpointMet_eq]
  refine ((moves_meeting (R := Unstepped) tid a s).and (moves_meeting (R := SameTracer) tid a s)).bind
    ?_ fun _ _ h => h.1
  rintro ends t ⟨ht, hsame⟩
  have hreport : ∀ stop, Ends (reportStop stop) t fun _ s' => Unstepped s s' := fun stop =>
    (moves_reportStop stop t).mono fun _ _ => StepRelation.trans ht
  split
  · exact hreport _
  · rw [ends_tracer_bind, hsame.tracer, h, if_pos rfl]
    exact hreport _


theorem unstepped_trapSeen (tid : Nat) (h : ∀ a, s.tracer.breakpoints.isEnabledAt a = true →
    s.tracer.breakpoints.isUserAt a = true) :
    Ends (trapSeen tid) s fun _ s' => Unstepped s s' := by
  have hmark : Ends (markStopped tid) s fun _ t =>
      Unstepped s t ∧ t.tracer.breakpoints = s.tracer.breakpoints := ⟨⟨rfl⟩, rfl⟩
  rw [trapSeen]
  refine hmark.bind ?_ fun _ _ h => h.1
  rintro _ t ⟨ht, htable⟩
  have htrap := (enabled_of_trapOf tid t).and
    ((moves_trapOf (R := Unstepped) tid t).and (moves_trapOf (R := SameTracer) tid t))
  refine htrap.bind ?_ fun _ _ h => StepRelation.trans ht h.2.1
  rintro trap u ⟨henabled, hu, hsame⟩
  have hthen : ∀ {m : Tracing (Watched κ) Unit}, Ends m u (fun _ v => Unstepped u v) →
      Ends m u fun _ v => Unstepped s v :=
    fun h => h.mono fun _ _ => StepRelation.trans (StepRelation.trans ht hu)
  cases trap with
  | breakpoint a =>
    have htable : u.tracer.breakpoints = s.tracer.breakpoints := by rw [hsame.tracer, htable]
    refine hthen (unstepped_breakpointMet tid ?_)
    rw [htable]
    exact h a (htable ▸ henabled a rfl)
  | step => exact hthen (moves_reportStop _ u)
  | programTrap => exact hthen (moves_reportStop _ u)
  | signal => exact hthen (((moves_keepSignal tid _).bind fun _ => moves_reportStop _) u)

/-- A look steps no thread while another is loose, unless a thread may have met a breakpoint that is none
of the user. -/
theorem unstepped_look (h : ∀ tid, (Kernel.perform .poll s.kernel).1 = .ok (some (.stopped tid .trap)) →
    ∀ a, s.tracer.breakpoints.isEnabledAt a = true → s.tracer.breakpoints.isUserAt a = true) :
    Ends look s fun _ s' => Unstepped s s' := by
  have hcall : Unstepped s { s with kernel := (Kernel.perform .poll s.kernel).2 } :=
    unstepped_perform (c := .poll) nofun s
  refine ends_look (fun _ => StepRelation.refl s) (fun _ _ => hcall) (fun _ _ => ⟨hcall.strays⟩)
    fun _ status hpoll => ?_
  by_cases htrap : ∃ tid, status = .stopped tid .trap
  · obtain ⟨tid, rfl⟩ := htrap
    let t : System (Watched κ) := { s with kernel := (Kernel.perform .poll s.kernel).2 }
    have hseen : Ends (trapSeen tid) t fun _ s' => Unstepped t s' :=
      unstepped_trapSeen tid (h tid hpoll)
    exact hseen.mono fun _ _ => StepRelation.trans hcall
  · have hhandle : Moves Unstepped (handle status : Tracing (Watched κ) Unit) :=
      comes_handle (O := Always Unstepped) (fun tid heq => absurd ⟨tid, heq⟩ htrap)
        fun tid _ => unstepped_imageReplaced tid
    exact (hhandle _).mono fun _ _ => StepRelation.trans hcall

end Tracing

/-! ### Acts -/

omit [Kernel κ] in
/-- Of threads only those of the process are kept as loose. -/
def System.minded (s : System (Watched κ)) : System (Watched κ) :=
  { s with kernel := { s.kernel with
      loose := s.kernel.loose.filter fun u => s.threads.any (·.tid = u) } }

omit [Kernel κ] in
/-- While a thread of the process is loose the process is taken for running. -/
theorem Truthful.isRunning (h : Truthful s) (hs : s.minded.kernel.loose ≠ []) :
    ∃ p, s.tracer.process = some p ∧ p.isRunning = true := by
  obtain ⟨u, hu⟩ := List.exists_mem_of_ne_nil _ hs
  obtain ⟨hloose, hany⟩ := List.mem_filter.mp hu
  obtain ⟨t, ht, htid⟩ := List.any_eq_true.mp hany
  have hrunning : t.running = true := by
    by_contra hstopped
    refine h.held t ht (Bool.eq_false_iff.mpr hstopped) ?_
    rw [of_decide_eq_true htid]
    exact hloose
  rcases hp : s.tracer.process with _ | p
  · rw [threads_of_gone hp] at ht
    exact absurd ht List.not_mem_nil
  · rw [threads_of_present hp] at ht
    exact ⟨p, rfl, List.any_eq_true.mpr ⟨t, ht, hrunning⟩⟩

namespace Tracing

omit [Kernel κ] in
/-- What a process has to be stopped for does not step a thread while another is loose. -/
theorem strays_of_stopped {f : Process → Tracing (Watched κ) Unit}
    (hf : Comes Unstrayed (stoppedProcess >>= f)) (h : Truthful s) :
    Ends (stoppedProcess >>= f) s.minded fun _ s' => s'.kernel.strays = s.kernel.strays := by
  by_cases hloose : s.minded.kernel.loose = []
  · exact (hf s.minded).mono fun _ _ hs => hs hloose
  · obtain ⟨p, hp, hrunning⟩ := h.isRunning hloose
    exact (ends_stoppedProcess_bind_running (s := s.minded) hp hrunning f _).mpr rfl

omit [Kernel κ] in
theorem unstepped_adopt (p : Process) : Moves Unstepped (adopt p : Tracing (Watched κ) Unit) :=
  fun _ => ⟨rfl⟩

omit [Kernel κ] in
theorem unstepped_forget : Moves Unstepped (modifyTracer fun t => { t with process := none } :
    Tracing (Watched κ) Unit) :=
  fun _ => ⟨rfl⟩

/-- An act that is no look steps no thread while another one of the process is loose. -/
theorem strays_perform (r : Request) (h : Truthful s) : Ends (Act.perform r).operation s.minded
    fun _ s' => s'.kernel.strays = s.kernel.strays := by
  have hdiscard : ∀ {α : Type} {m : Tracing (Watched κ) α},
      Ends m s.minded (fun _ s' => s'.kernel.strays = s.kernel.strays) →
      Ends (do let _ ← m : Tracing (Watched κ) Unit) s.minded fun _ s' =>
        s'.kernel.strays = s.kernel.strays :=
    (ends_discard _ s.minded fun s' => s'.kernel.strays = s.kernel.strays).mpr
  have hmoves : ∀ {α : Type} {m : Tracing (Watched κ) α}, Moves Unstepped m →
      Ends m s.minded fun _ s' => s'.kernel.strays = s.kernel.strays :=
    fun hm => (hm s.minded).mono fun _ _ hs => hs.strays
  cases r with
  | launch info => exact hmoves (moves_launchToEntry unstepped_adopt info)
  | attach pid => exact hdiscard (hmoves (moves_attach unstepped_adopt pid))
  | resume => exact hdiscard (strays_of_stopped unstrayed_resume h)
  | step tid kind =>
    have hstep := unstrayed_step (κ := κ) tid kind
    show Ends (do let _ ← step tid kind : Tracing (Watched κ) Unit) s.minded _
    refine hdiscard ?_
    rw [step, stoppedThread, bind_assoc] at hstep ⊢
    exact strays_of_stopped hstep h
  | interrupt => exact hdiscard (hmoves moves_interrupt)
  | kill => exact hdiscard (hmoves moves_kill)
  | detach => exact hdiscard (hmoves (moves_detach unstepped_forget))
  | destroy => exact hdiscard (hmoves (moves_destroy unstepped_forget))
  | _ => exact hdiscard (hmoves (moves_operation_of_isAside rfl))

end Tracing

/-! ### Histories -/

theorem truthful_of_history {program : Option String} {k : κ} {es : List Event}
    (h : History Watched.Drifts ⟨.new k, .new program⟩ es s) : Truthful s := by
  have hnew : Truthful (⟨.new k, .new program⟩ : System (Watched κ)) := truthful_of_gone rfl
  generalize (⟨.new k, .new program⟩ : System (Watched κ)) = s₀ at h hnew
  induction h with
  | start => exact hnew
  | act a _ ih => exact Tracing.truthful_act a ih
  | collect _ ih => exact ⟨ih.held⟩
  | elapse hdrift _ ih => exact ⟨fun t ht hstopped => hdrift.loose ▸ ih.held t ht hstopped⟩

/-- Along a history no thread that is taken for stopped is loose. So no request steps a thread while
another one of the process is loose, with or without a lifted breakpoint, and a look does not either
unless it finds a thread stopped by a trap while a breakpoint is in place that is none of the user. -/
theorem steps_of_history {program : Option String} {k : κ} {es : List Event}
    (h : History Watched.Drifts ⟨.new k, .new program⟩ es s) :
    (∀ t ∈ s.threads, t.running = false → t.tid ∉ s.kernel.loose) ∧
    (∀ r : Request, Ends (Act.perform r).operation s.minded fun _ s' =>
      s'.kernel.strays = s.kernel.strays) ∧
    ((∀ tid, (Kernel.perform .poll s.kernel).1 = .ok (some (.stopped tid .trap)) →
        ∀ a, s.tracer.breakpoints.isEnabledAt a = true → s.tracer.breakpoints.isUserAt a = true) →
      Ends Act.look.operation s fun _ s' => s'.kernel.strays = s.kernel.strays) ∧
    (∀ r : Request, Ends (Engine.operation r) s fun _ s' =>
      History Watched.Drifts ⟨.new k, .new program⟩ es s') ∧
    Ends Tracing.poll s fun _ s' => History Watched.Drifts ⟨.new k, .new program⟩ es s' := by
  have htruthful := truthful_of_history h
  refine ⟨htruthful.held, fun r => Tracing.strays_perform r htruthful, fun huser => ?_, h.request, h.poll⟩
  exact (Tracing.ends_discard _ s fun s' => s'.kernel.strays = s.kernel.strays).mpr
    ((Tracing.unstepped_look huser).mono fun _ _ hs => hs.strays)

/-- A stage with two threads: the first one is before a call, the second one after the trap which a step
over the call puts in place. -/
def crossroads : System (Watched Stage) :=
  ⟨.new {
    Stage.bare [.stopped 1 .stop, .stopped 2 .stop, .stopped 2 .stop, .stopped 2 .trap]
      [.event 1 WaitStatus.cloneEvent, .stopped 1 .stop, .stopped 2 .trap] with
    bytes := fun a => if a = 0x1000 then 0xe8 else 0
    registers := fun tid => Machine.RegisterFile.zero.set .rip (if tid = 1 then 0x1000 else 0x1006) },
  .new none⟩

/-- The first thread runs up to the return of the call. -/
def steppingOver : System (Watched Stage) :=
  crossroads.through [.perform (.attach 1), .perform .resume, .look, .look, .perform (.step 1 .over)]

theorem steps_crossed :
    History Watched.Drifts crossroads [] steppingOver ∧ steppingOver.kernel.loose = [2, 1] ∧
    (Ends (Act.perform .resume).operation steppingOver.minded fun _ s' => s'.kernel.strays = []) := by
  have h : History Watched.Drifts crossroads [] steppingOver := .through _ .start
  have hstrays : steppingOver.kernel.strays = [] := by decide +kernel
  refine ⟨h, by decide +kernel, ?_⟩
  rw [← hstrays]
  exact (steps_of_history h).2.1 .resume

/-- A thread at the breakpoint of a step over a call steps with the breakpoint lifted, while the thread
that the plan is about is loose. -/
theorem steps_strayed : ∃ s : System (Watched Stage), History Watched.Drifts crossroads [] s ∧
    s.threads.map (fun t => (t.tid, t.running)) = [(1, true), (2, true)] ∧
    s.kernel.strays = [⟨2, [1], true⟩] :=
  ⟨steppingOver.through [.look], .through _ (.through _ .start), by decide +kernel, by decide +kernel⟩

end Tracer

end DebugAdapter
