import DebugAdapter.Proofs.ProcessStarts
import DebugAdapter.Proofs.StopReports
import DebugAdapter.Proofs.TracerActs

/-!
# Relations about what is published

A client of a tracer sees its events, its modules and the state of its snapshot. Few steps of a tracer
change any of them: it looks at the modules again, its process is gone, or it publishes a state. An
`UnseenRelation` bears the first of these and all that a client does not see, a `PublicRelation` also the
exit of the process, and a `LiveRelation` also that the state of a process that is there is published.
Acts that neither make a process nor let go of one move along every `LiveRelation`.
-/

namespace DebugAdapter.Tracer

open Debuggee
open Engine.Traced (Engine)
open Linux
open Operation

variable {κ α : Type}

/-! ### What a client does not see -/

/-- What a client sees stays as it is, and a process is there as before. -/
structure Still (s s' : System κ) : Prop where
  process : s'.tracer.process = none ↔ s.tracer.process = none
  events : s'.tracer.events = s.tracer.events
  modules : s'.tracer.modules.modules = s.tracer.modules.modules
  state : s'.tracer.snapshot.state = s.tracer.snapshot.state

theorem Still.of_tracer {s s' : System κ} (h : s'.tracer = s.tracer) : Still s s' :=
  ⟨by rw [h], by rw [h], by rw [h], by rw [h]⟩

/-- Another process takes the place of the old one. -/
theorem Still.of_process {s : System κ} {p : Process} (hp : s.tracer.process = some p)
    (p' : Process) : Still s { s with tracer := { s.tracer with process := some p' } } :=
  ⟨iff_of_false (Option.some_ne_none p') (hp ▸ Option.some_ne_none p), rfl, rfl, rfl⟩

theorem Still.of_patches (s : System κ) (p : Patched κ) : Still s (Tracing.withBreakpoints s p) :=
  ⟨Iff.rfl, rfl, rfl, rfl⟩

/-- A process is there as before. -/
structure Attended (s s' : System κ) : Prop where
  process : s'.tracer.process = none ↔ s.tracer.process = none

/-- A relation between systems that bears what a client does not see, and the looks at modules. -/
class UnseenRelation {κ : Type} [Kernel κ] (R : System κ → System κ → Prop) : Prop extends
    StepRelation R where
  still : ∀ {s s' : System κ}, Still s s' → R s s'
  sync : Moves R (Tracing.syncModules : Tracing κ Unit)

/-- A relation between systems that also bears that the process exits. -/
class PublicRelation {κ : Type} [Kernel κ] (R : System κ → System κ → Prop) : Prop extends
    UnseenRelation R where
  exited : ∀ (s : System κ) (status : Option Int), s.tracer.process ≠ none →
    R s { s with tracer := s.tracer.exited status }

/-- A relation between systems that also bears the publishing of states while a process is there. -/
class LiveRelation {κ : Type} [Kernel κ] (R : System κ → System κ → Prop) : Prop extends
    PublicRelation R where
  publish : ∀ (s : System κ) (state : ProcessState), s.tracer.process ≠ none →
    state.isTerminal = false → Ends (Tracing.publish state) s fun _ s' => R s s'

/-- An act that neither makes a process nor lets go of one. -/
def Act.Keeps : Act → Prop
  | perform (.launch _) | perform (.attach _) | perform .detach | perform .destroy => False
  | _ => True

namespace Tracing

variable [Kernel κ] {R : System κ → System κ → Prop}

section Unseen

variable [UnseenRelation R]

instance : WorkRelation R where
  enable _ _ s := UnseenRelation.still (.of_patches s _)
  disable _ _ s := UnseenRelation.still (.of_patches s _)
  work _ s := UnseenRelation.still (.of_patches s _)

instance : AsideRelation R where
  look _ _ _ := UnseenRelation.still (.of_tracer rfl)
  aside s t hprocess hsnapshot _ _ hevents hmodules :=
    UnseenRelation.still ⟨by rw [hprocess], hevents, hmodules, congrArg Snapshot.state hsnapshot⟩
  sync := UnseenRelation.sync

/-- A change of the process, if one is there. -/
theorem moves_ofProcess (f : Process → Process) : Moves R (modifyProcess f : Tracing κ Unit) :=
  Moves.modify fun _ => UnseenRelation.still ⟨Option.map_eq_none_iff, rfl, rfl, rfl⟩

theorem moves_forgetPlan : Moves R (cancelPlan : Tracing κ Unit) := by
  refine moves_tracer.bind fun t => ?_
  split
  · exact Moves.pure _
  · refine (moves_ofProcess _).bind fun _ => ?_
    split
    · refine (moves_attemptPatching fun s => ?_).bind fun _ => Moves.pure _
      exact UnseenRelation.still (.of_patches s _)
    · exact Moves.pure _

theorem moves_noteUnseen (stop : Stop) : Moves R (noteStop stop : Tracing κ Unit) :=
  moves_noteStop stop moves_forgetPlan (moves_ofProcess _) fun _ =>
    Moves.modify fun _ => UnseenRelation.still ⟨Iff.rfl, rfl, rfl, rfl⟩

end Unseen

instance : ModulesRelation (Attended : System κ → System κ → Prop) where
  refl _ := ⟨Iff.rfl⟩
  trans h h' := ⟨h'.process.trans h.process⟩
  look _ _ _ := ⟨Iff.rfl⟩
  modules s t hprocess _ _ _ _ := ⟨by rw [hprocess]⟩

instance : UnseenRelation (Attended : System κ → System κ → Prop) where
  still h := ⟨h.process⟩
  sync := moves_syncModules

instance [PublicRelation R] : QuietRelation R where
  probe _ _ _ := UnseenRelation.still (.of_tracer rfl)
  process _ _ p' hp _ := UnseenRelation.still (.of_process hp p')
  exited := PublicRelation.exited

instance [UnseenRelation R] : StepCallRelation R where
  stepCall _ _ _ := UnseenRelation.still (.of_tracer rfl)

section Live

variable [LiveRelation R]

/-- A report publishes that the process is stopped, unless it is gone. -/
theorem moves_reportLive (stop : Stop) : Moves R (reportStop stop : Tracing κ Unit) := by
  rw [reportStop_eq]
  refine moves_stopAll.bind fun _ => ?_
  intro s
  rw [hasProcess, bind_assoc, ends_tracer_bind, pure_bind]
  split
  · rename_i hsome
    have hs : s.tracer.process ≠ none := Option.isSome_iff_ne_none.mp hsome
    refine ((moves_noteUnseen (R := R) stop s).and (moves_noteUnseen (R := Attended) stop s)).bind ?_ fun _ _ h => h.1
    rintro _ t ⟨h, ht⟩
    refine (LiveRelation.publish (R := R) t .stopped ?_ rfl).mono fun _ _ => StepRelation.trans h
    exact fun hnone => hs (ht.process.mp hnone)
  · exact StepRelation.refl s

instance : OutcomeRelation R (Always R) where
  quiet _ h := h
  after h h' := StepRelation.trans h h'
  report := moves_reportLive

theorem precedes_stepThreadLive (tid : Nat) :
    Precedes R (Always R) (stepThread tid : Tracing κ Stepped) :=
  .of_moves (moves_stepThread tid)

theorem moves_resumeLive : Moves R (resume : Tracing κ Unit) :=
  comes_resume (O := Always R) precedes_stepThreadLive fun s hs =>
    LiveRelation.publish s .running hs rfl

theorem moves_runPlanLive (plan : StepPlan) : Moves R (runPlan plan : Tracing κ Unit) := by
  intro s
  refine ends_runPlan plan s (fun _ => StepRelation.refl s) fun access p hp => ?_
  have hany : Ends (Patching.addPlanned access plan.address) (breakpointsOf s) fun _ _ => True :=
    True.intro
  refine hany.mono fun r q _ => ?_
  have hpatches : R s (withBreakpoints s q) := UnseenRelation.still (.of_patches s q)
  cases r with
  | error e => exact hpatches
  | ok _ =>
    have hplanning : R s (planning (withBreakpoints s q) p plan) :=
      StepRelation.trans hpatches (UnseenRelation.still (.of_process (s := withBreakpoints s q) hp _))
    refine (comes_resumeAs (O := Always R) precedes_stepThreadLive
      (fun s hs => LiveRelation.publish s .stepping hs rfl) ?_).mono
        fun _ _ h => StepRelation.trans hplanning h
    rintro ⟨⟩

theorem moves_stepLive (tid : Nat) (kind : StepKind) :
    Moves R (step tid kind : Tracing κ Unit) :=
  comes_step (O := Always R) moves_runPlanLive (fun tid reason s hs =>
    comes_stepInstruction precedes_stepThreadLive tid reason
      (LiveRelation.publish s .stepping hs rfl)) tid kind

theorem moves_imageLive (tid : Nat) : Moves R (imageReplaced tid : Tracing κ Unit) := by
  refine moves_process.bind fun p => (moves_programOf _).bind fun executable => ?_
  refine (moves_ofProcess _).bind fun _ => ?_
  refine Moves.bind (Moves.modify fun _ => UnseenRelation.still ⟨Iff.rfl, rfl, rfl, rfl⟩) fun _ => ?_
  exact (moves_markStopped _).bind fun _ => moves_reportLive _

theorem moves_handleLive (status : WaitStatus) : Moves R (handle status : Tracing κ Unit) :=
  comes_handle (O := Always R)
    (fun tid _ => comes_trapSeen (comes_breakpointMet precedes_stepThreadLive) tid)
    fun tid _ => moves_imageLive tid

theorem moves_lookLive : Moves R (look : Tracing κ Bool) := by
  intro s
  have hcall : R s { s with kernel := (Kernel.perform .poll s.kernel).2 } :=
    UnseenRelation.still (.of_tracer rfl)
  refine ends_look (fun _ => StepRelation.refl s) (fun _ _ => hcall)
    (fun hs _ => StepRelation.trans hcall (HaltRelation.exited ⟨_, s.tracer⟩ none hs))
    fun _ status _ => ?_
  exact (moves_handleLive status _).mono fun _ _ => StepRelation.trans hcall

/-- Acts that neither make a process nor let go of one. -/
theorem moves_act_of_keeps {a : Act} (ha : a.Keeps) : Moves R (a.operation : Tracing κ Unit) := by
  have hdiscard : ∀ {α : Type} {m : Tracing κ α}, Moves R m → Moves R (do
      let _ ← m : Tracing κ Unit) := fun h => h.bind fun _ => Moves.pure _
  cases a with
  | look => exact hdiscard moves_lookLive
  | perform r =>
    cases r with
    | launch info => exact ha.elim
    | attach pid => exact ha.elim
    | detach => exact ha.elim
    | destroy => exact ha.elim
    | resume => exact hdiscard moves_resumeLive
    | step tid kind => exact hdiscard (moves_stepLive tid kind)
    | interrupt => exact hdiscard moves_interrupt
    | kill => exact hdiscard moves_kill
    | _ => exact hdiscard (moves_operation_of_isAside rfl)

end Live

/-- A process that is there is let go of, or killed if it was launched. -/
theorem ends_destroy {s : System κ} {Q : Except DebugError Unit → System κ → Prop}
    (hnone : s.tracer.process = none → Q (.ok ()) s)
    (hkill : ∀ p, s.tracer.process = some p → p.launched = true → Ends kill s Q)
    (hdetach : ∀ p, s.tracer.process = some p → p.launched = false → Ends detach s Q) :
    Ends destroy s Q := by
  rw [destroy, ends_tracer_bind]
  split
  · rename_i hp
    exact hnone hp
  · rename_i p hp
    split
    · rename_i hlaunched
      exact hkill p hp hlaunched
    · rename_i hattached
      exact hdetach p hp (eq_false_of_ne_true hattached)

end Tracing

end DebugAdapter.Tracer
