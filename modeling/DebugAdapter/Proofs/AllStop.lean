import DebugAdapter.Proofs.ProcessStarts
import DebugAdapter.Proofs.Puppet
import DebugAdapter.Proofs.StopReports
import DebugAdapter.Proofs.TracerActs

/-!
# All-stop

Each act of a tracer publishes a stop at most once, as the last thing that it does, and the process
is stopped as a whole then (`Publishes`). `Told` is the outcome of operations that report which says
so. Between acts the published stop agrees with the published state.

Main statement: `allStop_of_steps`.
-/

namespace DebugAdapter.Tracer

open Debuggee
open Engine.Traced (Engine)
open Linux
open Operation

variable {κ : Type} [Kernel κ]

/-- A stop was published as the last thing from a state on, `t` on the way to the one where the process
is stopped. The plan that was active is that of the report, or else the one that went with the image
of the process. -/
structure Publishes (stop : Stop) (s t s' : System κ) : Prop where
  before : StopFree s t
  report : Ends (Tracing.reportStop stop) t fun r u => r = .ok () ∧ u = s'
  events : ∃ es, s'.tracer.events = t.tracer.events ++ es ++ [.stateChanged .stopped] ∧
    .stateChanged .stopped ∉ es
  stopped : ∃ p, AllStopped stop p s' ∧
    ∀ plan, t.plan?.or s.plan? = some plan → p.threads ≠ [] → Unplans plan.address t s'

/-- A way to the report of a stop: a plan that goes takes the breakpoints with it. -/
structure Leads (s t : System κ) : Prop extends StopFree s t where
  consistent : s.Consistent → t.Consistent
  process : s.tracer.process = none → t.tracer.process = none
  plan : t.tracer.process ≠ none → t.plan? = none →
    s.plan? = none ∨ t.tracer.breakpoints.entries = []

/-- How an operation ends that may report a stop, as the last thing it does. -/
inductive Told (s : System κ) : Except DebugError Unit → System κ → Prop
  | silent {r : Except DebugError Unit} {s' : System κ} : StopFree s s' →
      (s.Consistent → s'.Consistent) → Told s r s'
  | reported {stop : Stop} {t s' : System κ} : Leads s t →
      Ends (Tracing.reportStop stop) t (fun r u => r = .ok () ∧ u = s') → Told s (.ok ()) s'

omit [Kernel κ] in
theorem Calm.leads {s t : System κ} (h : Calm s t) : Leads s t :=
  ⟨h.toStopFree, h.consistent, h.process, fun hpresent hnone =>
    Or.inl ((h.plan hpresent).symm.trans hnone)⟩

omit [Kernel κ] in
theorem AllStopped.consistent {stop : Stop} {p : Process} {s : System κ} (h : AllStopped stop p s) :
    s.Consistent := by
  obtain ⟨pc, hpc⟩ := h.stop
  refine ⟨fun _ => by rw [hpc]; rfl, ?_⟩
  rw [hpc, h.state]
  exact ⟨fun _ => List.mem_cons_self, fun _ => rfl⟩

/-- What may come before a report: no stop is published, and a plan that was there is there still. -/
theorem Told.of_silent {s t s' : System κ} {r : Except DebugError Unit} (hsilent : StopFree s t)
    (hconsistent : s.Consistent → t.Consistent)
    (hprocess : s.tracer.process = none → t.tracer.process = none)
    (hplan : t.tracer.process ≠ none → t.plan? = none → s.plan? = none) (h : Told t r s') :
    Told s r s' := by
  cases h with
  | silent hsilent' hconsistent' =>
    exact .silent (StepRelation.trans hsilent hsilent') fun hs => hconsistent' (hconsistent hs)
  | @reported stop u _ hleads hreport =>
    refine .reported ⟨StepRelation.trans hsilent hleads.toStopFree,
      fun hs => hleads.consistent (hconsistent hs), fun hs => hleads.process (hprocess hs),
      fun hpresent hnone => ?_⟩ hreport
    exact (hleads.plan hpresent hnone).imp_left
      (hplan fun hgone => hpresent (hleads.process hgone))

theorem Told.of_calm {s t s' : System κ} {r : Except DebugError Unit} (h : Calm s t)
    (h' : Told t r s') : Told s r s' :=
  h'.of_silent h.toStopFree h.consistent h.process fun hpresent hnone =>
    (h.plan hpresent).symm.trans hnone

/-! ### From reports to publications -/

theorem Patching.table_removePlanned {tid : Nat} {a : UInt64} {p : Patched κ}
    (h : p.table.entries = []) : Ends (removePlanned tid a) p fun _ p' => p'.table = p.table := by
  have hmodify : p.table.modify a (fun b => { b with planned := false }) = p.table := by
    rw [BreakpointTable.modify, h, List.map_nil, ← h]
  rw [removePlanned, release, ends_modifyTable_bind, ends_get_bind, hmodify, find?_of_entries h]
  rfl

/-- A report that succeeds publishes a stop, unless the process is gone. -/
theorem publishes_of_report {stop : Stop} {s t s' : System κ} (hsilent : StopFree s t)
    (hplan : t.tracer.process ≠ none → t.plan? = none →
      s.plan? = none ∨ t.tracer.breakpoints.entries = [])
    (hreport : Ends (Tracing.reportStop stop) t fun r u => r = .ok () ∧ u = s') :
    StopFree s s' ∨ Publishes stop s t s' := by
  obtain ⟨hspec, -, rfl⟩ := (Tracing.ends_reportStop stop t).and hreport
  rcases hspec with ⟨hcalm, -⟩ | ⟨-, p, hreported⟩
  · exact Or.inl (StepRelation.trans hsilent hcalm.toStopFree)
  · refine Or.inr ⟨hsilent, hreport, hreported.events, p, hreported.toAllStopped, ?_⟩
    intro plan hactive hthreads
    rcases ht : t.plan? with _ | plan'
    · rw [ht, Option.none_or] at hactive
      rcases hplan hreported.present ht with hnone | hentries
      · cases hnone.symm.trans hactive
      · -- The image was replaced, and the table is the empty one of the new image.
        refine ⟨0, ⟨t.kernel, t.tracer.breakpoints⟩, rfl, ?_⟩
        refine (Patching.table_removePlanned hentries).and
          (Patching.unplanned_removePlanned 0 plan.address _) |>.mono ?_
        rintro r p' ⟨htable, hunplanned⟩
        exact ⟨(hreported.breakpoints ht).trans htable.symm, hunplanned⟩
    · rw [ht, Option.some_or] at hactive
      cases hactive
      exact hreported.unplans plan ht hthreads

theorem Told.publishes {s s' : System κ} {r : Except DebugError Unit} (h : Told s r s') :
    StopFree s s' ∨ (r = .ok () ∧ ∃ stop t, Publishes stop s t s') := by
  cases h with
  | silent hsilent _ => exact Or.inl hsilent
  | reported hleads hreport =>
    exact (publishes_of_report hleads.toStopFree hleads.plan hreport).imp_right
      fun h => ⟨rfl, _, _, h⟩

theorem Told.consistent {s s' : System κ} {r : Except DebugError Unit} (h : Told s r s')
    (hs : s.Consistent) : s'.Consistent := by
  cases h with
  | silent _ hconsistent => exact hconsistent hs
  | @reported stop t _ hleads hreport =>
    obtain ⟨hspec, -, rfl⟩ := (Tracing.ends_reportStop stop t).and hreport
    rcases hspec with ⟨hcalm, -⟩ | ⟨-, p, hreported⟩
    · exact hcalm.consistent (hleads.consistent hs)
    · exact hreported.consistent

namespace Tracing

variable {α : Type}

/-! ### Operations that report -/

theorem told_reportStop (stop : Stop) {s t : System κ} (h : Leads s t) :
    Ends (reportStop stop) t (Told s) := by
  have hself : Ends (reportStop stop) t fun r u =>
      Ends (reportStop stop) t fun r' u' => r' = r ∧ u' = u := ⟨rfl, rfl⟩
  refine ((ends_reportStop stop t).and hself).mono ?_
  rintro r u ⟨⟨hcalm, -⟩ | ⟨rfl, -⟩, hreport⟩
  · exact .silent (StepRelation.trans h.toStopFree hcalm.toStopFree)
      fun hs => hcalm.consistent (h.consistent hs)
  · exact .reported h hreport

instance : OutcomeRelation (Calm : System κ → System κ → Prop) Told where
  quiet _ h := .silent h.toStopFree h.consistent
  after := Told.of_calm
  report stop s := told_reportStop stop (StepRelation.refl s : Calm s s).leads

theorem precedes_stepThread (tid : Nat) : Precedes Calm Told (stepThread tid : Tracing κ Stepped) :=
  .of_moves (moves_stepThread tid)

omit [Kernel κ] in
/-- The states of a process that has stopped once and goes on. -/
theorem calm_publish {state : ProcessState} (hstate : state = .running ∨ state = .stepping)
    {s : System κ} (hs : s.tracer.process ≠ none) :
    Ends (publish state) s fun _ s' => Calm s s' := by
  refine ⟨⟨[.stateChanged state], rfl, ?_⟩, fun h => ?_, id, fun _ => rfl⟩
  · rcases hstate with rfl | rfl
    · simp
    · simp
  · refine ⟨fun _ => h.stop_of_process hs, fun _ => ?_, fun _ => h.stop_of_process hs⟩
    rcases hstate with rfl | rfl
    · exact List.mem_cons_of_mem _ List.mem_cons_self
    · exact List.mem_cons_of_mem _ (List.mem_cons_of_mem _ List.mem_cons_self)

/-! ### Runs and steps -/

theorem told_resumeAs {state : ProcessState} (hstate : state = .running ∨ state = .stepping)
    {s : System κ} (hs : s.tracer.process ≠ none) : Ends (resumeAs state) s (Told s) :=
  comes_resumeAs precedes_stepThread (fun _ => calm_publish hstate) hs

theorem told_stepInstruction (tid : Nat) (reason : StopReason) {s : System κ}
    (hs : s.tracer.process ≠ none) : Ends (stepInstruction tid reason) s (Told s) :=
  comes_stepInstruction precedes_stepThread tid reason (calm_publish (Or.inr rfl) hs)

theorem tells_resume : Comes Told (resume : Tracing κ Unit) :=
  comes_resume precedes_stepThread fun _ => calm_publish (Or.inl rfl)

/-- The plan of a step is that of the report if the report comes before the end of the step. -/
theorem tells_runPlan (plan : StepPlan) : Comes Told (runPlan plan : Tracing κ Unit) := by
  intro s
  refine ends_runPlan plan s (fun _ => .silent (StepRelation.refl s) id) fun access p hp => ?_
  have hpresent : s.tracer.process ≠ none := by
    rw [hp]
    exact Option.some_ne_none p
  have hany : Ends (Patching.addPlanned access plan.address) (breakpointsOf s) fun _ _ => True :=
    True.intro
  refine hany.mono fun r q _ => ?_
  have hcalm : Calm s (withBreakpoints s q) := calm_withBreakpoints s q
  cases r with
  | error e => exact .silent hcalm.toStopFree hcalm.consistent
  | ok _ =>
    refine (told_resumeAs (Or.inr rfl) (by rintro ⟨⟩)).mono fun r s' h => h.of_silent ?_ ?_ ?_ ?_
    · exact StepRelation.trans hcalm.toStopFree (.of_events rfl)
    · exact fun hs => (hcalm.consistent hs).of_eq rfl fun _ => hpresent
    · exact fun hnone => absurd hnone hpresent
    · exact fun _ hnone => by cases hnone

theorem tells_step (tid : Nat) (kind : StepKind) : Comes Told (step tid kind : Tracing κ Unit) :=
  comes_step tells_runPlan (fun tid reason _ => told_stepInstruction tid reason) tid kind

/-! ### Statuses -/

theorem tells_imageReplaced (tid : Nat) : Comes Told (imageReplaced tid : Tracing κ Unit) := by
  intro s
  rcases hp : s.tracer.process with _ | p
  · rw [imageReplaced, ends_process_bind_none hp]
    exact .silent (StepRelation.refl s) id
  · refine ends_imageReplaced_of hp fun p' _ => ?_
    rw [markStopped, modifyThread, modifyProcess, ends_modifyTracer_bind]
    refine told_reportStop _ ⟨.of_events rfl, fun hs => hs.of_eq rfl fun _ => ?_, ?_, ?_⟩
    · rw [hp]
      exact Option.some_ne_none _
    · exact fun hnone => by cases hnone.symm.trans hp
    · exact fun _ _ => Or.inr rfl

theorem tells_handle (status : WaitStatus) : Comes Told (handle status : Tracing κ Unit) :=
  comes_handle (fun tid _ => comes_trapSeen (comes_breakpointMet precedes_stepThread) tid)
    fun tid _ => tells_imageReplaced tid

/-! ### Requests that report nothing -/

/-- No stop is published, and what is published stays consistent. -/
structure Hushed (s s' : System κ) : Prop extends StopFree s s' where
  consistent : s.Consistent → s'.Consistent

omit [Kernel κ] in
theorem hushed_of_calm {α : Type} {m : Tracing κ α} (h : Moves Calm m) : Moves Hushed m :=
  h.mono fun _ _ h => ⟨h.toStopFree, h.consistent⟩

instance : StepRelation (Hushed : System κ → System κ → Prop) where
  refl s := ⟨StepRelation.refl s, id⟩
  trans h h' :=
    ⟨StepRelation.trans h.toStopFree h'.toStopFree, fun hs => h'.consistent (h.consistent hs)⟩

theorem hushed_cancelPlan : Moves Hushed (cancelPlan : Tracing κ Unit) := by
  intro s
  rcases hp : s.tracer.process with _ | p
  · rw [cancelPlan, ends_tracer_bind, hp]
    exact StepRelation.refl s
  · refine (ends_cancelPlan hp).mono fun r s' h => ⟨.of_events h.2.2.1, fun hs => ?_⟩
    refine hs.of_eq h.2.2.2.1 fun _ => ?_
    rw [hp]
    exact Option.some_ne_none p

theorem hushed_letGo : Moves Hushed (letGo : Tracing κ Unit) := by
  refine fun s => (ends_letGo s).mono ?_
  rintro r ⟨k, t⟩ ⟨-, rfl⟩
  refine ⟨⟨[.stateChanged .detached], rfl, by simp⟩, fun _ => ⟨fun h => absurd rfl h, nofun, ?_⟩⟩
  exact fun h => absurd h (by decide : ProcessState.detached ∉ _)

theorem hushed_takeBack : Moves Hushed (takeBack : Tracing κ Bool) := by
  refine moves_process.bind fun _ => (hushed_of_calm moves_stopAll).bind fun _ => ?_
  refine moves_hasProcess.bind fun present => ?_
  split
  · refine hushed_cancelPlan.bind fun _ => moves_memoryThread.bind fun tid => ?_
    refine (hushed_of_calm (moves_work _ (.disableAll tid))).bind fun _ => ?_
    exact (hushed_of_calm moves_drainStops).bind fun _ => Moves.pure _
  · exact Moves.pure _

theorem hushed_detach : Moves Hushed (detach : Tracing κ Unit) := by
  rw [detach_eq]
  refine hushed_takeBack.bind fun going => ?_
  split
  · exact hushed_letGo
  · exact Moves.pure _

theorem hushed_destroy : Moves Hushed (destroy : Tracing κ Unit) := by
  refine moves_tracer.bind fun t => ?_
  split
  · exact Moves.pure _
  · split
    · exact hushed_of_calm moves_kill
    · exact hushed_detach

/-! ### Starting a process -/

/-- How an act goes: a stop is published as the last thing if at all, and what is published stays
consistent. -/
structure Concludes (s : System κ) (r : Except DebugError Unit) (s' : System κ) : Prop where
  publishes : StopFree s s' ∨ (r = .ok () ∧ ∃ stop t, Publishes stop s t s')
  consistent : s.Consistent → s'.Consistent

theorem concludes_of_hushed {m : Tracing κ Unit} (h : Moves Hushed m) (s : System κ) :
    Ends m s (Concludes s) :=
  (h s).mono fun _ _ h => ⟨Or.inl h.toStopFree, h.consistent⟩

theorem concludes_of_tells {m : Tracing κ Unit} (h : Comes Told m) (s : System κ) :
    Ends m s (Concludes s) :=
  (h s).mono fun _ _ h => ⟨h.publishes, h.consistent⟩

/-- A process is made, or it is not, and its first stop is published. -/
theorem concludes_beginning {state : ProcessState} (hstate : state.isTransitional = true)
    (s : System κ) : Beginning state s (Concludes s) := by
  have hne : state ≠ .stopped := by
    rintro rfl
    cases hstate
  refine ⟨fun _ => ⟨Or.inl (StepRelation.refl s), id⟩, fun hs e k => ?_, fun hs p stop program k => ?_⟩
  · refine ⟨Or.inl ⟨[.stateChanged state, .stateChanged .unloaded], ?_, ?_⟩, fun _ => ⟨?_, ?_⟩⟩
    · exact List.append_assoc _ _ _
    · simpa using hne.symm
    · exact fun hpresent => absurd hs hpresent
    · exact ⟨nofun, fun h => absurd h (by decide : ProcessState.unloaded ∉ _)⟩
  · intro hhalted hplan
    generalize hu : (⟨k, _⟩ : System κ) = u
    have hprocess : u.tracer.process = some p := by rw [← hu]; rfl
    have hnone : u.plan? = none := by rw [System.plan?, hprocess]; exact hplan
    have hbefore : StopFree s u := by
      rw [← hu]
      exact ⟨[.stateChanged state], rfl, by simpa using hne.symm⟩
    have hself : Ends (reportStop stop) u fun r s' =>
        Ends (reportStop stop) u fun r' u' => r' = r ∧ u' = s' := ⟨rfl, rfl⟩
    refine ((ends_reportStop_halted stop hprocess hhalted).and hself).mono ?_
    rintro r s' ⟨⟨rfl, p', hreported⟩, hreport⟩
    refine ⟨Or.inr ⟨rfl, stop, u, hbefore, hreport, hreported.events, p', hreported.toAllStopped, ?_⟩,
      fun _ => hreported.consistent⟩
    intro plan hactive
    rw [hnone, System.plan?, hs] at hactive
    cases hactive

/-! ### Acts -/

theorem concludes_look (s : System κ) : Ends (do let _ ← look : Tracing κ Unit) s (Concludes s) := by
  have hlook : Ends look s fun r s' => r.isOk = true ∧ Concludes s (.ok ()) s' := by
    rw [look, hasProcess, bind_assoc, ends_tracer_bind, pure_bind]
    split
    · rename_i hsome
      have hs : s.tracer.process ≠ none := Option.isSome_iff_ne_none.mp hsome
      rw [ends_attempt_bind]
      generalize hu : (⟨(Kernel.perform .poll s.kernel).2, s.tracer⟩ : System κ) = u
      have hcalm : Calm s u := by
        rw [← hu]
        exact .of_tracer rfl rfl rfl
      have hquiet : ∀ {v : System κ}, Calm u v → Concludes s (.ok ()) v := fun h =>
        ⟨Or.inl (StepRelation.trans hcalm.toStopFree h.toStopFree),
          fun hs => h.consistent (hcalm.consistent hs)⟩
      split
      · exact ⟨rfl, hquiet (StepRelation.refl u)⟩
      · rename_i status _
        have htold : Ends (handle status) u (Told u) := tells_handle status u
        refine Ends.bind_ok (P := fun r v => Told s r v) ?_ fun r v h => ⟨rfl, ?_, h.consistent⟩
        · exact ⟨_, rfl, htold.mono fun _ _ h => h.of_calm hcalm⟩
        · exact h.publishes.imp_right fun h => ⟨rfl, h.2⟩
      · have hpresent : u.tracer.process ≠ none := hu ▸ hs
        have hexited : Ends (processExited none) u fun _ v => Calm u v :=
          ends_processExited none hpresent
        exact ⟨rfl, hquiet hexited⟩
      · exact ⟨rfl, hquiet (StepRelation.refl u)⟩
    · exact ⟨rfl, Or.inl (StepRelation.refl s), id⟩
  refine hlook.bind (fun _ _ h => h.2) fun _ _ h => ?_
  cases h.1

omit [Kernel κ] in
theorem ends_dropped (m : Tracing κ Unit) (s : System κ)
    (Q : Except DebugError Unit → System κ → Prop) :
    Ends (do let _ ← m) s Q ↔ Ends m s Q := by
  rw [ends_bind]
  refine ends_congr fun r s' => ?_
  cases r with
  | ok a => exact Iff.rfl
  | error e => exact Iff.rfl

theorem concludes_of_calm {α : Type} {m : Tracing κ α} (h : Moves Calm m) (s : System κ) :
    Ends (do let _ ← m : Tracing κ Unit) s (Concludes s) :=
  concludes_of_hushed ((hushed_of_calm h).bind fun _ => Moves.pure _) s

theorem concludes_act (a : Act) (s : System κ) : Ends a.operation s (Concludes s) := by
  cases a with
  | look => exact concludes_look s
  | perform r =>
    cases r with
    | launch info => exact ends_launchToEntry info (concludes_beginning rfl s)
    | attach pid => exact (ends_dropped _ s _).mpr (ends_attach pid (concludes_beginning rfl s))
    | resume => exact (ends_dropped _ s _).mpr (concludes_of_tells tells_resume s)
    | step tid kind => exact (ends_dropped _ s _).mpr (concludes_of_tells (tells_step tid kind) s)
    | interrupt => exact concludes_of_calm moves_interrupt s
    | kill => exact concludes_of_calm moves_kill s
    | detach => exact (ends_dropped _ s _).mpr (concludes_of_hushed hushed_detach s)
    | destroy => exact (ends_dropped _ s _).mpr (concludes_of_hushed hushed_destroy s)
    | _ => exact concludes_of_calm (moves_operation_of_isAside rfl) s

end Tracing

/-- What is published agrees with itself between acts. -/
theorem consistent_of_steps {program : Option String} {k : κ} {s : System κ}
    (h : Steps ⟨k, .new program⟩ s) : s.Consistent := by
  have hnew : (⟨k, .new program⟩ : System κ).Consistent :=
    ⟨fun h => absurd rfl h, nofun, fun h => absurd h (by decide : ProcessState.unloaded ∉ _)⟩
  generalize (⟨k, .new program⟩ : System κ) = s₀ at h hnew
  induction h with
  | refl => exact hnew
  | act a _ ih => exact (Tracing.concludes_act a _).consistent ih
  | collect _ ih => exact ih.of_eq rfl id
  | elapse k _ ih => exact ih.of_eq rfl id

/-- All-stop: wherever the acts of a tracer have led, the last stop is published exactly while the
state tells of a process that has stopped once, and the next act publishes a stop at most once, as its
last deed, with the process stopped as a whole. Every request is made of such acts, and so is the
handling of statuses. -/
theorem allStop_of_steps {program : Option String} {k : κ} {s : System κ}
    (h : Steps ⟨k, .new program⟩ s) :
    (s.tracer.snapshot.stop.isSome = true ↔
      s.tracer.snapshot.state ∈ [.stopped, .running, .stepping]) ∧
    (∀ a : Act, Ends a.operation s fun r s' =>
      StopFree s s' ∨ (r = .ok () ∧ ∃ stop t, Publishes stop s t s')) ∧
    (∀ r : Request, Ends (Engine.operation r) s fun _ s' => Steps s s') ∧
    Ends Tracing.poll s fun _ s' => Steps s s' :=
  ⟨(consistent_of_steps h).stop_iff, fun a => (Tracing.concludes_act a s).publishes,
    fun r => Tracing.steps_operation r s, Tracing.steps_poll s⟩

/-- A launched process at its entry. -/
def entered : System Puppet :=
  ((Act.perform (.launch ⟨[], none, true, true⟩)).operation.run.run
    ⟨⟨fun _ => 0, []⟩, .new (some "/app")⟩).2

/-- The process of the puppet, which was stopped at its entry, is published as stopped after a step. -/
theorem allStop_entered : Steps ⟨⟨fun _ => 0, []⟩, .new (some "/app")⟩ entered ∧
    entered.tracer.snapshot.stop.isSome = true ∧
    Ends (Act.perform (.step 1 .instruction)).operation entered fun _ s' =>
      ∃ stop t, Publishes stop entered t s' := by
  have hsteps : Steps ⟨⟨fun _ => 0, []⟩, .new (some "/app")⟩ entered := (Steps.refl _).act _
  obtain ⟨hstop, hacts, -⟩ := allStop_of_steps hsteps
  have hevents : Ends (Act.perform (.step 1 .instruction)).operation entered fun _ s' =>
      s'.tracer.events = entered.tracer.events ++ [.stateChanged .stepping, .stateChanged .stopped] := by
    rw [Ends]
    decide +kernel
  refine ⟨hsteps, hstop.mpr (by decide +kernel), ((hacts _).and hevents).mono ?_⟩
  rintro r s' ⟨⟨es, hes, hnot⟩ | ⟨-, hpublishes⟩, hevents⟩
  · have hes : es = _ := List.append_cancel_left (hes.symm.trans hevents)
    rw [hes] at hnot
    exact absurd (by decide) hnot
  · exact hpublishes

end DebugAdapter.Tracer
