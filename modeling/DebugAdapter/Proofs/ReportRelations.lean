import DebugAdapter.Proofs.TracerRelations

/-!
# Operations that report

To handle a status, to let a process run and to step a thread may all end with the report of a
stop, and nothing comes after the report. So what such an operation comes to is an outcome of the
report, or of what came before it. An `OutcomeRelation` bears this: its outcomes are those of a
report, and of all that moves along a relation, also in front of another outcome. `Comes` is shown
once for each operation and all such outcomes; that an operation moves along a relation whatever
happens is one of them.
-/

namespace DebugAdapter.Tracer

open Debuggee
open Linux
open Operation

/-- Outcomes of operations that may report a stop. What comes before the report moves along `R`. -/
class OutcomeRelation {κ : Type} [Kernel κ] (R : outParam (System κ → System κ → Prop))
    (O : System κ → Except DebugError Unit → System κ → Prop) : Prop where
  quiet : ∀ {s s' : System κ} (r : Except DebugError Unit), R s s' → O s r s'
  after : ∀ {s t s' : System κ} {r : Except DebugError Unit}, R s t → O t r s' → O s r s'
  report : ∀ (stop : Stop) (s : System κ), Ends (Tracing.reportStop stop) s (O s)

/-- Outcomes of operations that may report a stop, or let threads go on. -/
class RunRelation {κ : Type} [Kernel κ] (R : outParam (System κ → System κ → Prop))
    (O : System κ → Except DebugError Unit → System κ → Prop) : Prop extends
    OutcomeRelation R O where
  goOn : ∀ (tids : List Nat) (s : System κ), Ends (tids.forM Tracing.continueThread) s (O s)

/-- The outcomes of what moves along a relation. -/
def Always {κ : Type} (R : System κ → System κ → Prop) (s : System κ)
    (_ : Except DebugError Unit) (s' : System κ) : Prop := R s s'

namespace Tracing

variable {κ α : Type} [Kernel κ] {R : System κ → System κ → Prop}

/-! ### Reports -/

/-- What is noted of a stop before it is published. -/
def noteStop (stop : Stop) : Tracing κ Unit := do
  cancelPlan
  modifyProcess fun p => { p with interruptRequested := false }
  let pc : UInt64 ← match ← attempt (.getRegisters stop.tid) with
    | .ok regs => pure regs.pc
    | .error _ => pure 0
  modifySnapshot fun s => { s with stop := some ⟨stop.tid, pc, stop.reason⟩ }
  syncModules

theorem reportStop_eq (stop : Stop) : (reportStop stop : Tracing κ Unit) =
    stopAll >>= fun _ => hasProcess >>= fun present =>
      if present then noteStop stop >>= fun _ => publish .stopped else pure () := by
  rw [reportStop]
  refine bind_congr fun _ => bind_congr fun present => ?_
  split
  · simp only [noteStop, bind_assoc]
    refine bind_congr fun _ => bind_congr fun _ => bind_congr fun answer => ?_
    split
    · simp only [pure_bind, bind_assoc]
    · simp only [pure_bind, bind_assoc]
  · rfl

instance [TracerRelation R] : ReportRelation R where
  unplan := TracerRelation.unplan

instance [RequestRelation R] : DeedRelation R where

/-- What is noted of a stop moves along relations that bear what the tracer keeps of it. -/
theorem moves_noteStop [AsideRelation R] (stop : Stop)
    (hcancel : Moves R (cancelPlan : Tracing κ Unit))
    (hnote : Moves R (modifyProcess fun p => { p with interruptRequested := false } :
      Tracing κ Unit))
    (hshow : ∀ stop, Moves R (modifySnapshot fun s => { s with stop } : Tracing κ Unit)) :
    Moves R (noteStop stop : Tracing κ Unit) := by
  refine hcancel.bind fun _ => hnote.bind fun _ => (moves_attempt_of_isLook rfl).bind fun answer => ?_
  have hrest : ∀ pc : UInt64, Moves R (do
      modifySnapshot fun s => { s with stop := some ⟨stop.tid, pc, stop.reason⟩ }
      syncModules : Tracing κ Unit) := fun pc => (hshow _).bind fun _ => moves_syncModules
  split
  · exact (Moves.pure _).bind hrest
  · exact (Moves.pure _).bind hrest

section Reports

variable [ReportRelation R]

theorem moves_cancelPlan : Moves R (cancelPlan : Tracing κ Unit) := by
  refine moves_tracer.bind fun t => ?_
  split
  · exact Moves.pure _
  · refine Moves.bind (moves_noteProcess (fun _ => rfl) fun _ => rfl) fun _ => ?_
    split
    · exact (moves_attemptPatching (ReportRelation.unplan _ _)).bind fun _ => Moves.pure _
    · exact Moves.pure _

theorem moves_reportStop (stop : Stop) : Moves R (reportStop stop : Tracing κ Unit) := by
  rw [reportStop_eq]
  refine moves_stopAll.bind fun _ => moves_hasProcess.bind fun present => ?_
  split
  · refine (moves_noteStop stop moves_cancelPlan ?_ fun _ => moves_modifySnapshot _).bind ?_
    · exact moves_noteProcess (fun _ => rfl) fun _ => rfl
    · exact fun _ => moves_publish _
  · exact Moves.pure _

instance : OutcomeRelation R (Always R) where
  quiet _ h := h
  after h h' := StepRelation.trans h h'
  report := moves_reportStop

end Reports

/-! ### Outcomes -/

/-- From every state an operation has one of these outcomes. -/
def Comes (O : System κ → Except DebugError Unit → System κ → Prop) (m : Tracing κ Unit) : Prop :=
  ∀ s, Ends m s (O s)

/-- An operation that may come before a report; its failure is an outcome. -/
def Precedes (R : System κ → System κ → Prop)
    (O : System κ → Except DebugError Unit → System κ → Prop) (m : Tracing κ α) : Prop :=
  ∀ s, Ends m s fun r s' =>
    match r with
    | .ok _ => R s s'
    | .error e => O s (.error e) s'

section Outcomes

variable {O : System κ → Except DebugError Unit → System κ → Prop} [hout : OutcomeRelation R O]

include hout

theorem Comes.of_moves {m : Tracing κ Unit} (h : Moves R m) : Comes O m :=
  fun s => (h s).mono fun r _ h => OutcomeRelation.quiet r h

theorem comes_reportStop (stop : Stop) : Comes O (reportStop stop : Tracing κ Unit) :=
  OutcomeRelation.report stop

theorem Precedes.of_moves {m : Tracing κ α} (h : Moves R m) : Precedes R O m := by
  refine fun s => (h s).mono fun r s' h => ?_
  cases r with
  | ok a => exact h
  | error e => exact OutcomeRelation.quiet (.error e) h

theorem Precedes.bind {m : Tracing κ α} {f : α → Tracing κ Unit} (hm : Precedes R O m)
    (hf : ∀ a, Comes O (f a)) : Comes O (m >>= f) := fun s =>
  Ends.bind (hm s) (fun a s' h => (hf a s').mono fun _ _ => OutcomeRelation.after h) fun _ _ h => h

/-- What moves along the relation from a state may come before. -/
theorem comes_bind {m : Tracing κ α} {f : α → Tracing κ Unit} {s : System κ}
    (hm : Ends m s fun _ s' => R s s') (hf : ∀ a, Comes O (f a)) : Ends (m >>= f) s (O s) :=
  hm.bind (fun a s' h => (hf a s').mono fun _ _ => OutcomeRelation.after h)
    fun e _ h => OutcomeRelation.quiet (.error e) h

theorem Comes.bind {m : Tracing κ α} {f : α → Tracing κ Unit} (hm : Moves R m)
    (hf : ∀ a, Comes O (f a)) : Comes O (m >>= f) :=
  (Precedes.of_moves hm).bind hf

instance [ConductRelation R] : RunRelation R O where
  goOn tids := Comes.of_moves (moves_continueThreads tids)

/-! ### Statuses -/

section Met

variable [ConductRelation R]

/-- A breakpoint that is met, if a step over it may come before a report. -/
theorem comes_breakpointMet (hstep : ∀ tid, Precedes R O (stepThread tid : Tracing κ Stepped))
    (tid : Nat) (address : UInt64) : Comes O (breakpointMet tid address : Tracing κ Unit) := by
  refine Comes.bind (moves_setPc tid address) fun _ => ?_
  refine Comes.bind (moves_completesPlan tid address) fun ends => ?_
  split
  · exact comes_reportStop _
  · refine Comes.bind moves_tracer fun t => ?_
    split
    · exact comes_reportStop _
    · refine (hstep tid).bind fun stepped => ?_
      cases stepped with
      | done => exact .of_moves (ConductRelation.continueThread tid)
      | signal signal => exact comes_reportStop _
      | gone => exact .of_moves (Moves.pure _)

end Met

section Statuses

variable [QuietRelation R]

theorem comes_trapSeen
    (hmet : ∀ tid address, Comes O (breakpointMet tid address : Tracing κ Unit)) (tid : Nat) :
    Comes O (trapSeen tid : Tracing κ Unit) := by
  refine Comes.bind (moves_markStopped tid) fun _ => Comes.bind (moves_trapOf tid) fun trap => ?_
  cases trap with
  | breakpoint address => exact hmet tid address
  | step => exact comes_reportStop _
  | programTrap => exact comes_reportStop _
  | signal => exact Comes.bind (moves_keepSignal tid _) fun _ => comes_reportStop _

theorem comes_stopSignalSeen (tid : Nat) : Comes O (stopSignalSeen tid : Tracing κ Unit) := by
  refine Comes.bind moves_tracer fun t => ?_
  dsimp only
  split
  · exact .of_moves (moves_process.bind fun _ => moves_changeProcess fun _ => rfl)
  · refine Comes.bind (moves_markStopped tid) fun _ => Comes.bind moves_process fun p => ?_
    refine Comes.bind (moves_consumeStop tid) fun expected => ?_
    split
    · exact .of_moves (moves_continueThread tid)
    · exact comes_reportStop _

/-- Handling a status, if the handling of traps and of new images has these outcomes. -/
theorem comes_handle {status : WaitStatus}
    (htrap : ∀ tid, status = .stopped tid .trap → Comes O (trapSeen tid : Tracing κ Unit))
    (himage : ∀ tid, status = .event tid WaitStatus.execEvent →
      Comes O (imageReplaced tid : Tracing κ Unit)) : Comes O (handle status : Tracing κ Unit) := by
  rw [handle.eq_def]
  split
  · exact .of_moves (moves_threadGone _ _)
  · exact .of_moves (moves_threadGone _ _)
  · rename_i tid n
    split
    · exact .of_moves ((moves_threadCloned tid).bind fun new =>
        (moves_continueThread tid).bind fun _ => moves_continueThread new)
    · split
      · rename_i hexec
        exact himage tid (congrArg _ hexec)
      · exact .of_moves ((moves_markStopped tid).bind fun _ => moves_continueThread tid)
  · exact comes_stopSignalSeen _
  · exact htrap _ rfl
  · refine Comes.bind (moves_markStopped _) fun _ => Comes.bind (moves_keepSignal _ _) fun _ => ?_
    split
    · exact .of_moves (moves_continueThread _)
    · exact comes_reportStop _
  · exact .of_moves (Moves.pure _)

end Statuses

end Outcomes

/-! ### Polling -/

/-- Looks for a status and handles it; whether there may be another one. -/
def look : Tracing κ Bool := do
  if ← hasProcess then
    match ← attempt .poll with
    | .ok none => return false
    | .ok (some status) =>
      let _ ← outcome (handle status)
      return true
    | .error .noChild =>
      processExited none
      return false
    | .error _ => return false
  else return false

/-- What a look comes to, by what the kernel answers. -/
theorem ends_look {s : System κ} {Q : System κ → Prop} (hnone : s.tracer.process = none → Q s)
    (hquiet : s.tracer.process ≠ none →
      (∀ status, (Kernel.perform .poll s.kernel).1 ≠ .ok (some status)) →
      Q { s with kernel := (Kernel.perform .poll s.kernel).2 })
    (hgone : s.tracer.process ≠ none → (Kernel.perform .poll s.kernel).1 = .error .noChild →
      Q ⟨(Kernel.perform .poll s.kernel).2, s.tracer.exited none⟩)
    (hstatus : s.tracer.process ≠ none →
      ∀ status, (Kernel.perform .poll s.kernel).1 = .ok (some status) →
      Ends (handle status) { s with kernel := (Kernel.perform .poll s.kernel).2 } fun _ s' => Q s') :
    Ends look s fun _ s' => Q s' := by
  rw [look, hasProcess, bind_assoc, ends_tracer_bind, pure_bind]
  split
  · rename_i hsome
    have hs : s.tracer.process ≠ none := Option.isSome_iff_ne_none.mp hsome
    rw [ends_attempt_bind]
    rcases hpoll : (Kernel.perform .poll s.kernel).1 with e | _ | status
    · cases e with
      | noChild => exact hgone hs hpoll
      | _ => exact hquiet hs fun _ h => nomatch hpoll.symm.trans h
    · exact hquiet hs fun _ h => nomatch hpoll.symm.trans h
    · exact hstatus hs status hpoll
  · rename_i hnot
    exact hnone (Option.not_isSome_iff_eq_none.mp hnot)

/-- Polling is looking, again and again. -/
theorem pollFrom_succ (fuel : Nat) : (pollFrom (fuel + 1) : Tracing κ Unit) =
    look >>= fun more => if more then pollFrom fuel else pure () := by
  rw [pollFrom, look, bind_assoc]
  refine bind_congr fun present => ?_
  split
  · rw [bind_assoc]
    refine bind_congr fun answer => ?_
    rcases answer with e | _ | status
    · cases e with
      | noChild => rfl
      | _ => rfl
    · rfl
    · rfl
  · rfl

/-- A new image is noted, with no breakpoints and no step plan, before it is reported. -/
theorem ends_imageReplaced_of {tid : Nat} {s : System κ} {p : Process}
    (hp : s.tracer.process = some p) {Q : Except DebugError Unit → System κ → Prop}
    (h : ∀ p' : Process, p'.plan = none → Ends (do
      markStopped p.pid
      reportStop ⟨p.pid, .exec⟩) { s with tracer := { s.tracer with
        process := some p', breakpoints := .empty } } Q) :
    Ends (imageReplaced tid) s Q := by
  rw [imageReplaced, ends_process_bind hp]
  dsimp only
  rw [ends_programOf_bind, modifyProcess, ends_modifyTracer_bind, ends_modifyTracer_bind, hp]
  exact h _ rfl

section Images

variable [TracerRelation R]

/-- Handling the status that announces a new image, from before the status was there. -/
theorem ends_imageReplaced (tid : Nat) {s : System κ} (hs : s.tracer.process ≠ none)
    (hpoll : (Kernel.perform .poll s.kernel).1 = .ok (some (.event tid WaitStatus.execEvent))) :
    Ends (imageReplaced tid) { s with kernel := (Kernel.perform .poll s.kernel).2 } fun _ s' =>
      R s s' := by
  obtain ⟨p, hp⟩ := Option.ne_none_iff_exists'.mp hs
  let s₁ : System κ := { s with kernel := (Kernel.perform .poll s.kernel).2 }
  refine ends_imageReplaced_of (s := s₁) hp fun p' _ => ?_
  -- The table is empty now; what follows moves along the relation as everywhere.
  have hrest : Moves R (do
      markStopped p.pid
      reportStop ⟨p.pid, .exec⟩ : Tracing κ Unit) :=
    (moves_markStopped p.pid).bind fun _ => moves_reportStop _
  refine (hrest _).mono fun _ s' h => StepRelation.trans ?_ h
  refine TracerRelation.image s _ tid hpoll ?_ rfl rfl
  intro hnone
  cases hnone.symm.trans hp

theorem moves_look (htrap : ∀ tid, Moves R (trapSeen tid : Tracing κ Unit)) :
    Moves R (look : Tracing κ Bool) := by
  intro s
  refine ends_look (fun _ => StepRelation.refl s) (fun _ hquiet => ?_) (fun hs hgone => ?_)
    fun hs status hpoll => ?_
  · exact TracerRelation.poll s fun _ => hquiet _
  · have hcall : R s { s with kernel := (Kernel.perform .poll s.kernel).2 } :=
      TracerRelation.poll s fun _ h => nomatch hgone.symm.trans h
    exact StepRelation.trans hcall (HaltRelation.exited ⟨_, s.tracer⟩ none hs)
  · by_cases himage : ∃ tid, status = .event tid WaitStatus.execEvent
    · obtain ⟨tid, rfl⟩ := himage
      exact ends_imageReplaced tid hs hpoll
    · have hcall : R s { s with kernel := (Kernel.perform .poll s.kernel).2 } := by
        refine TracerRelation.poll s fun tid h => himage ⟨tid, ?_⟩
        cases hpoll.symm.trans h
        rfl
      have hmoves : Moves R (handle status : Tracing κ Unit) :=
        comes_handle (O := Always R) (fun tid _ => htrap tid) fun tid heq =>
          absurd ⟨tid, heq⟩ himage
      exact (hmoves _).mono fun _ _ => StepRelation.trans hcall

theorem moves_pollFrom (htrap : ∀ tid, Moves R (trapSeen tid : Tracing κ Unit)) (fuel : Nat) :
    Moves R (pollFrom fuel : Tracing κ Unit) := by
  induction fuel with
  | zero => exact Moves.pure _
  | succ fuel ih =>
    rw [pollFrom_succ]
    refine (moves_look htrap).bind fun more => ?_
    split
    · exact ih
    · exact Moves.pure _

theorem moves_poll (htrap : ∀ tid, Moves R (trapSeen tid : Tracing κ Unit)) :
    Moves R (poll : Tracing κ Unit) :=
  Moves.get.bind fun _ => moves_pollFrom htrap _

end Images

/-! ### Runs -/

/-- The first part of a run: the thread that reported the last stop steps off its breakpoint, and may
get a signal instead. -/
def stepOff : Option StopInfo → Tracing κ (Option Stop)
  | none => return none
  | some stop => do
    let tid := stop.thread % halfLimit
    if ← isAtBreakpoint tid then
      match ← stepThread tid with
      | .signal signal => return some ⟨tid, signalReason signal⟩
      | _ => return none
    else return none

/-- The second part of a run: all threads go on, unless the first part ended the run. -/
def runOn (state : ProcessState) (stepped : Bool) : Option Stop → Tracing κ Unit
  | some stop => reportStop stop
  | none => do
    if stepped && !(← hasProcess) then return ()
    publish state
    (← process).threadIds.forM continueThread

theorem resumeAs_eq (state : ProcessState) : (resumeAs state : Tracing κ Unit) =
    tracer >>= fun t => stepOff t.snapshot.stop >>= runOn state t.snapshot.stop.isSome := by
  rw [resumeAs]
  refine bind_congr fun t => ?_
  rcases t.snapshot.stop with _ | stop
  · rfl
  · simp only [stepOff, bind_assoc]
    refine bind_congr fun patched => ?_
    split
    · simp only [bind_assoc]
      refine bind_congr fun stepped => ?_
      cases stepped with
      | done => rfl
      | signal signal => rfl
      | gone => rfl
    · rfl

theorem moves_runOn [ReportRelation R] (state : ProcessState) (stepped : Bool)
    (interruption : Option Stop) : Moves R (runOn state stepped interruption : Tracing κ Unit) := by
  cases interruption with
  | some stop => exact moves_reportStop stop
  | none =>
    refine moves_hasProcess.bind fun present => ?_
    split
    · exact Moves.pure _
    · exact (moves_publish _).bind fun _ => moves_process.bind fun p => moves_continueThreads _

/-! ### Steps over patches -/

section Toggling

section Steps

variable [LookRelation R] [SteppingRelation R] [ToggleRelation R]

theorem moves_stepThread (tid : Nat) :
    Moves R (stepThread tid : Tracing κ Stepped) := by
  refine (moves_pcOf tid).bind fun pc => moves_tracer.bind fun t => ?_
  split
  · refine (moves_patching _ (ToggleRelation.disable tid pc)).bind fun _ => ?_
    refine (SteppingRelation.singleStep tid).bind fun stepped => moves_hasProcess.bind fun present => ?_
    split
    · refine moves_memoryThread.bind fun access => ?_
      exact (moves_patching _ (ToggleRelation.enable access pc)).bind fun _ => Moves.pure _
    · exact Moves.pure _
  · exact SteppingRelation.singleStep tid

theorem moves_stepOff (stopped : Option StopInfo) :
    Moves R (stepOff stopped : Tracing κ (Option Stop)) := by
  cases stopped with
  | none => exact Moves.pure _
  | some stop =>
    refine (moves_isAtBreakpoint _).bind fun patched => ?_
    split
    · refine (moves_stepThread _).bind fun stepped => ?_
      split
      · exact Moves.pure _
      · exact Moves.pure _
    · exact Moves.pure _

end Steps

section Reports

variable [ReportRelation R] [SteppingRelation R] [ToggleRelation R]

theorem moves_breakpointMet (tid : Nat) (address : UInt64) :
    Moves R (breakpointMet tid address : Tracing κ Unit) :=
  comes_breakpointMet (O := Always R) (fun tid => .of_moves (moves_stepThread tid)) tid address

theorem moves_resumeAs (state : ProcessState) : Moves R (resumeAs state : Tracing κ Unit) := by
  rw [resumeAs_eq]
  refine moves_tracer.bind fun t => ?_
  exact (moves_stepOff _).bind fun interruption => moves_runOn state _ interruption

theorem moves_resume : Moves R (resume : Tracing κ Unit) :=
  moves_stoppedProcess.bind fun _ => moves_resumeAs _

theorem moves_stepInstruction (tid : Nat) (reason : StopReason) :
    Moves R (stepInstruction tid reason : Tracing κ Unit) := by
  refine (moves_publish _).bind fun _ => (moves_stepThread tid).bind fun stepped => ?_
  refine moves_tracer.bind fun t => ?_
  split
  · exact Moves.pure _
  · exact moves_reportStop _

end Reports

theorem moves_trapSeen [TogglingRelation R] (tid : Nat) : Moves R (trapSeen tid : Tracing κ Unit) :=
  comes_trapSeen (O := Always R) moves_breakpointMet tid

end Toggling

/-! ### Outcomes of runs and steps -/

section Outcomes

variable {O : System κ → Except DebugError Unit → System κ → Prop} [hout : RunRelation R O]
  [LookRelation R] (hstep : ∀ tid, Precedes R O (stepThread tid : Tracing κ Stepped))

include hout hstep

theorem precedes_stepOff (stopped : Option StopInfo) :
    Precedes R O (stepOff stopped : Tracing κ (Option Stop)) := by
  intro s
  cases stopped with
  | none => exact StepRelation.refl s
  | some stop =>
    refine (moves_isAtBreakpoint (R := R) _ s).bind (fun patched s₁ h₁ => ?_)
      fun e s₁ h₁ => OutcomeRelation.quiet (.error e) h₁
    split
    · refine (hstep _ s₁).bind (fun stepped s₂ h₂ => ?_) fun _ _ h₂ => OutcomeRelation.after h₁ h₂
      have h := StepRelation.trans h₁ h₂
      cases stepped with
      | done => exact h
      | signal signal => exact h
      | gone => exact h
    · exact h₁

section Publish

variable {state : ProcessState}
  (hpublish : ∀ s : System κ, s.tracer.process ≠ none → Ends (publish state) s fun _ s' => R s s')

include hpublish

omit hstep in
theorem comes_runOn {stepped : Bool} (interruption : Option Stop) {s : System κ}
    (hs : stepped = true ∨ s.tracer.process ≠ none) :
    Ends (runOn state stepped interruption) s (O s) := by
  cases interruption with
  | some stop => exact comes_reportStop stop s
  | none =>
    rw [runOn, hasProcess, bind_assoc, ends_tracer_bind, pure_bind]
    rcases hp : s.tracer.process with _ | p
    · rw [hs.resolve_right fun hpresent => hpresent hp]
      exact OutcomeRelation.quiet (.ok ()) (StepRelation.refl s)
    · rw [Option.isSome_some, Bool.not_true, Bool.and_false]
      refine comes_bind (hpublish s (by rw [hp]; exact nofun)) fun _ => ?_
      exact Comes.bind moves_process fun p => RunRelation.goOn p.threadIds

theorem comes_resumeAs {s : System κ} (hs : s.tracer.process ≠ none) :
    Ends (resumeAs state) s (O s) := by
  rw [resumeAs_eq, ends_tracer_bind]
  rcases hstop : s.tracer.snapshot.stop with _ | stop
  · rw [stepOff, pure_bind]
    exact comes_runOn hpublish none (Or.inr hs)
  · exact Precedes.bind (precedes_stepOff hstep _)
      (fun interruption t => comes_runOn hpublish interruption (Or.inl rfl)) s

end Publish

theorem comes_resume (hpublish : ∀ s : System κ, s.tracer.process ≠ none →
    Ends (publish .running) s fun _ s' => R s s') : Comes O (resume : Tracing κ Unit) := by
  intro s
  refine (ends_stoppedProcess s).bind ?_ ?_
  · rintro p _ ⟨rfl, hp⟩
    refine comes_resumeAs hstep hpublish ?_
    rw [hp p rfl]
    exact nofun
  · rintro e _ ⟨rfl, -⟩
    exact OutcomeRelation.quiet (.error e) (StepRelation.refl _)

theorem comes_stepInstruction (tid : Nat) (reason : StopReason) {s : System κ}
    (hpublish : Ends (publish .stepping) s fun _ s' => R s s') :
    Ends (stepInstruction tid reason) s (O s) := by
  refine comes_bind hpublish fun _ => (hstep tid).bind fun stepped => ?_
  refine Comes.bind moves_tracer fun t => ?_
  split
  · exact .of_moves (Moves.pure _)
  · exact comes_reportStop _

end Outcomes

end Tracing

end DebugAdapter.Tracer
