import DebugAdapter.Proofs.Attendance

/-!
# Quiet commands

All commands but those that stage, start or let go of a process and those that change breakpoints
are quiet. Apart from `ping` they work on the process: they are refused without one and attend to
its target (`onProcess_execute`). So whatever the engine answers, the session stays in its state,
with the same breakpoints (`moves_execute`).
-/

namespace DebugAdapter.Session

open Debuggee
open Operation

variable {ε : Type} [DebugEngine ε]

section Commands

variable {W : Handle → Channel ε → Channel ε → Prop} [Attendance W]

/-! ### Running and stepping -/

theorem onProcess_resume : OnProcess W (resume : Action ε Wire.Response) :=
  onProcess_target_bind fun t => (attends_control t rfl).bind fun _ =>
    (moves_orRefuse _ _).bind fun _ => attends_resetFocus.bind fun _ => Moves.pure _

theorem onProcess_interrupt : OnProcess W (interrupt : Action ε Wire.Response) :=
  onProcess_target_bind fun t => (attends_control t rfl).bind fun _ =>
    (moves_orRefuse _ _).bind fun _ => Moves.pure _

theorem onProcess_kill : OnProcess W (kill : Action ε Wire.Response) :=
  onProcess_target_bind fun t => (attends_control t rfl).bind fun _ =>
    (moves_orRefuse _ _).bind fun _ => Moves.pure _

theorem attends_hasCome (t : Handle) : Attends W t (hasCome t : Action ε Bool) :=
  (attends_observe t .state).bind fun _ => Moves.pure _

theorem stoppedNotification_eq (stop : Option StopInfo) :
    ∃ reason thread pc, stoppedNotification stop = .stopped reason thread pc := by
  cases stop with
  | none => exact ⟨_, _, _, rfl⟩
  | some s => exact ⟨_, _, _, rfl⟩

theorem onProcess_forceStopAndReport :
    OnProcess W (forceStopAndReport : Action ε Wire.Response) := by
  refine onProcess_target_bind fun t => ?_
  refine (attends_control t rfl).bind fun _ => ?_
  refine Moves.get.bind fun s => ?_
  refine (moves_poll _ (attends_hasCome t)).bind fun _ => ?_
  rw [← bind_assoc]
  refine (attends_report t stoppedNotification_eq).bind fun _ => ?_
  exact moves_activeTarget.bind fun _ => attends_resetFocus.bind fun _ => Moves.pure _

theorem onProcess_currentThread : OnProcess W (currentThread : Action ε Nat) := by
  refine onProcess_activeTarget_bind fun a => ?_
  split
  · exact Moves.pure _
  · refine (attends_observe a.target .stopInfo).bind fun stop => ?_
    split
    · exact Moves.pure _
    · refine (attends_request a.target rfl _).bind fun list => ?_
      split
      · exact Moves.pure _
      · exact moves_refuse _

theorem attends_ensureStopped (t : Handle) : Attends W t (ensureStopped t : Action ε Bool) := by
  refine (attends_observe t .state).bind fun state => ?_
  split
  · refine (attends_control t rfl).bind fun _ => ?_
    refine Moves.get.bind fun s => ?_
    have hlook : Attends W t (do
        let state ← observe t .state
        return !state.isRunning : Action ε Bool) :=
      (attends_observe t .state).bind fun _ => Moves.pure _
    exact (moves_poll _ hlook).bind fun _ => Moves.pure _
  · exact Moves.pure _

theorem onProcess_boundedStep (kind : StepKind) :
    OnProcess W (boundedStep kind : Action ε StepOutcome) := by
  refine onProcess_target_bind fun t => ?_
  refine (attends_observe t .state).bind fun state => ?_
  extract_lets steps
  have hsteps : ∀ u, Attends W t (steps u) := by
    intro u
    refine (attends_ensureStopped t).bind fun halted => ?_
    refine (onProcess_currentThread.attends t).bind fun thread => ?_
    refine (attends_observe t .stopInfo).bind fun before => ?_
    extract_lets pcBefore report
    -- The step is over or was not made; what is left is the report.
    have hreport : ∀ completed, Attends W t (report completed) := by
      intro completed
      refine (attends_observe t .stopInfo).bind fun stop => ?_
      split
      split
      · exact moves_activeTarget.bind fun _ => attends_resetFocus.bind fun _ => Moves.pure _
      · rw [← bind_assoc]
        refine (attends_report t fun _ => ⟨_, _, _, rfl⟩).bind fun _ => ?_
        exact moves_activeTarget.bind fun _ => attends_resetFocus.bind fun _ => Moves.pure _
    split
    · refine (attends_control t rfl).bind fun _ => (moves_orRefuse _ _).bind fun _ => ?_
      refine Moves.get.bind fun s => (moves_poll _ (attends_hasCome t)).bind fun _ => ?_
      exact (Moves.pure _).bind hreport
    · exact (Moves.pure _).bind hreport
  split
  · exact moves_refuse_bind _ _
  · exact hsteps ()

theorem onProcess_step (kind : StepKind) : OnProcess W (step kind : Action ε Wire.Response) :=
  (onProcess_boundedStep kind).bind fun _ _ => Moves.pure _

theorem attends_hopWith (t : Handle) (arrived : UInt64 → Bool) (left : Nat) : ∀ h : Hops,
    Attends W t (hopWith arrived left h : Action ε Hops) := by
  induction left with
  | zero => exact fun h => Moves.pure _
  | succ left ih =>
    intro h
    rw [hopWith]
    split
    · exact Moves.pure _
    · refine ((onProcess_boundedStep .out).attends t).bind fun o => ?_
      dsimp only
      split
      · exact ih _
      · exact Moves.pure _

theorem onProcess_stepUntilUserCode :
    OnProcess W (stepUntilUserCode : Action ε Wire.Response) := by
  refine onProcess_target_bind fun t => ?_
  refine (attends_request t rfl _).bind fun main => ?_
  cases main with
  | none => exact moves_refuse_bind _ _
  | some m =>
    refine (Moves.pure m).bind fun main => (attends_observe t .stopInfo).bind fun stop => ?_
    refine (onProcess_currentThread.attends t).bind fun thread => Moves.get.bind fun s => ?_
    exact (attends_hopWith t _ _ _).bind fun _ => Moves.pure _

/-! ### Looking at the process -/

theorem onProcess_hasProcess : OnProcess W (hasProcess : Action ε Wire.Response) :=
  onProcess_activeTarget_bind fun _ => Moves.pure _

theorem onProcess_processState : OnProcess W (processState : Action ε Wire.Response) := by
  refine onProcess_target_bind fun t => ?_
  refine (attends_observe t .state).bind fun state => ?_
  refine (attends_observe t .exitStatus).bind fun exit => ?_
  split
  · exact Moves.pure _
  · exact Moves.pure _

/-- A request to the target and a reply made of its answer. -/
theorem onProcess_asked {r : Request} (hr : r.isGentle = true) (operation : String)
    (view : r.Answer → Wire.Response) :
    OnProcess W (do
      let answer ← request (← target) r operation
      return view answer : Action ε Wire.Response) :=
  onProcess_target_bind fun t => (attends_request t hr operation).bind fun _ => Moves.pure _

theorem onProcess_selectThread (tid : Nat) :
    OnProcess W (selectThread tid : Action ε Wire.Response) := by
  refine onProcess_target_bind fun t => (attends_request t rfl _).bind fun list => ?_
  split
  · refine Moves.bind (attends_modifyActive ?_) fun _ => Moves.pure _
    exact fun _ => rfl
  · exact moves_refuse _

theorem onProcess_callStack : OnProcess W (callStack : Action ε Wire.Response) :=
  onProcess_currentThread.bind fun t _ => attends_target_bind
    ((attends_request t rfl _).bind fun _ => Moves.pure _)

theorem onProcess_selectFrame (index : Nat) :
    OnProcess W (selectFrame index : Action ε Wire.Response) := by
  refine onProcess_currentThread.bind fun t tid => attends_target_bind ?_
  refine (attends_request t rfl _).bind fun frames => ?_
  split
  · refine Moves.bind (attends_modifyActive ?_) fun _ => Moves.pure _
    exact fun _ => rfl
  · exact moves_refuse _

theorem onProcess_registers : OnProcess W (registers : Action ε Wire.Response) := by
  refine onProcess_currentThread.bind fun t tid => attends_activeTarget_bind ?_
  rintro a rfl
  exact (attends_request a.target rfl _).bind fun _ => Moves.pure _

theorem onProcess_setRegister (name : String) (value : UInt64) :
    OnProcess W (setRegister name value : Action ε Wire.Response) := by
  refine onProcess_currentThread.bind fun t tid => attends_activeTarget_bind ?_
  rintro a rfl
  refine (attends_tryRequest a.target rfl).bind fun answer => ?_
  split
  · exact Moves.pure _
  · exact moves_refuse _
  · exact moves_refuse _

theorem onProcess_readMemory (addr : UInt64) (length : Nat) :
    OnProcess W (readMemory addr length : Action ε Wire.Response) := by
  refine OnProcess.get_bind fun s => ?_
  dsimp only
  split
  · exact onProcess_refuse_bind _ _
  · exact onProcess_asked rfl _ _

/-- Unlike the other commands this one tells a staged program from no program. -/
theorem onProcess_disassembly (addr : UInt64) (count : Nat) :
    OnProcess W (disassembly addr count : Action ε Wire.Response) where
  attends t := by
    refine attends_of_active fun s a hl ha => ?_
    rw [disassembly, ends_get_bind, hl]
    have hasked : Attends W t (do
        let list ← request t (.disassemble addr count) "disassembly failed"
        return .view .disassembly (Json.object [("lines", instructionLines list)]) :
          Action ε Wire.Response) :=
      (attends_request t rfl _).bind fun _ => Moves.pure _
    rw [← ha] at hasked ⊢
    refine (hasked s).mono fun _ s' h => h ?_
    rw [hl]
    rfl
  refused s hs := by
    rw [disassembly, ends_get_bind]
    rcases hl : s.lifecycle with _ | e | a
    · exact ⟨⟨_, rfl⟩, rfl⟩
    · exact ⟨⟨_, rfl⟩, rfl⟩
    · rw [hl] at hs
      cases hs

theorem onProcess_mainExecutableDisassembly (count : Nat) :
    OnProcess W (mainExecutableDisassembly count : Action ε Wire.Response) :=
  onProcess_target_bind fun t => (attends_request t rfl _).bind fun _ =>
    (attends_request t rfl _).bind fun _ => Moves.pure _

theorem onProcess_findStringReferences (addr : UInt64) :
    OnProcess W (findStringReferences addr : Action ε Wire.Response) := by
  refine onProcess_target_bind fun t => Moves.get.bind fun s => ?_
  dsimp only
  split
  · exact (attends_request t rfl _).bind fun _ => Moves.pure _
  · exact moves_refuse_bind _ _

theorem onProcess_moduleAtIndex (index : Int) :
    OnProcess W (moduleAtIndex index : Action ε Wire.Response) := by
  refine onProcess_target_bind fun t => (attends_request t rfl _).bind fun ms => ?_
  dsimp only
  split
  · exact Moves.pure _
  · exact moves_refuse _

theorem onProcess_moduleForFile (file : String) :
    OnProcess W (moduleForFile file : Action ε Wire.Response) := by
  refine onProcess_target_bind fun t => (attends_request t rfl _).bind fun ms => ?_
  split
  · exact Moves.pure _
  · exact moves_refuse _

/-! ### Raw commands -/

theorem onProcess_executeCommand (line : String) :
    OnProcess W (executeCommand line : Action ε Wire.Response) := by
  refine onProcess_activeTarget_bind fun a => Moves.get.bind fun s => ?_
  dsimp only
  split
  · refine (moves_attempt (onProcess_currentThread.attends a.target)).bind fun thread => ?_
    refine attends_rawCommand rfl line (fun i hi => ?_) fun e => ?_
    · exact (attends_runInquiry hi).bind fun _ => Moves.pure _
    · exact (Moves.pure _).bind fun _ => Moves.pure _
  · exact moves_refuse_bind _ _

theorem onProcess_completeCommand (line : String) (position : Nat) :
    OnProcess W (completeCommand line position : Action ε Wire.Response) := by
  refine onProcess_activeTarget_bind fun a => Moves.get.bind fun s => ?_
  dsimp only
  split
  · refine (attends_perform fun c => Attendance.complete a.target line position c).bind fun _ => ?_
    exact Moves.pure _
  · exact moves_refuse_bind _ _

/-! ### All quiet commands -/

/-- The commands that keep the state of a session and its breakpoints. -/
def Command.isQuiet : Command → Bool
  | .prepare .. | .launch | .attach .. | .connectRemote .. | .detach | .deleteProcess
  | .setBreakpoint .. | .removeBreakpoint .. | .removeAllBreakpoints => false
  | _ => true

theorem onProcess_execute {c : Command} (h : c.isQuiet = true) (hping : c ≠ .ping) :
    OnProcess W (execute c : Action ε Wire.Response) := by
  cases c with
  | ping => exact absurd rfl hping
  | prepare executable => cases h
  | launch => cases h
  | attach pid executable is64 => cases h
  | connectRemote is64 url plugin file => cases h
  | detach => cases h
  | deleteProcess => cases h
  | hasProcess => exact onProcess_hasProcess
  | processState => exact onProcess_processState
  | resume => exact onProcess_resume
  | kill => exact onProcess_kill
  | interrupt => exact onProcess_interrupt
  | forceStopAndReport => exact onProcess_forceStopAndReport
  | step kind => exact onProcess_step kind
  | stepUntilUserCode => exact onProcess_stepUntilUserCode
  | threads => exact onProcess_asked rfl _ _
  | selectThread tid => exact onProcess_selectThread tid
  | callStack => exact onProcess_callStack
  | selectFrame index => exact onProcess_selectFrame index
  | registers => exact onProcess_registers
  | setRegister name value => exact onProcess_setRegister name value
  | readMemory addr length => exact onProcess_readMemory addr length
  | writeByte addr value => exact onProcess_asked rfl _ _
  | sendToApplication data => exact onProcess_asked rfl _ _
  | setBreakpoint addr => cases h
  | removeBreakpoint id => cases h
  | removeAllBreakpoints => cases h
  | disassembly addr count => exact onProcess_disassembly addr count
  | mainExecutableDisassembly count => exact onProcess_mainExecutableDisassembly count
  | findStringReferences addr => exact onProcess_findStringReferences addr
  | moduleCount => exact onProcess_asked rfl _ _
  | moduleAtIndex index => exact onProcess_moduleAtIndex index
  | moduleForFile file => exact onProcess_moduleForFile file
  | executeCommand line => exact onProcess_executeCommand line
  | completeCommand line position => exact onProcess_completeCommand line position

end Commands

/-! ### What they leave of an engine -/

variable {E : ε → ε → Prop}

/-- The engine moves along a relation, whatever the target is. -/
def EngineOnly (E : ε → ε → Prop) (_ : Handle) : Channel ε → Channel ε → Prop := OnEngine E

omit [DebugEngine ε] in
/-- To attend to a target is quiet. -/
theorem Attended.quiet {t : Handle} {s s' : Session ε} (hs : s.lifecycle.target? = some t)
    (h : Attended (EngineOnly E) t s s') : Quiet E s s' := by
  refine ⟨h.channel, h.capabilities, h.settings, h.lastPrepared, h.breakpoints, ?_⟩
  obtain ⟨a, ha, rfl⟩ := active_of_target? hs
  obtain ⟨a', ha', htarget⟩ := active_of_target? h.target
  rw [ha, ha']
  exact .active htarget

variable [EngineRelation E]

instance : Attendance (EngineOnly E) where
  steps _ := inferInstanceAs (StepRelation (OnEngine E))
  request t r c hr := EngineRelation.perform (.request t r) c.engine (r.starts_of_isGentle hr)
  look t q c := EngineRelation.observe t q c.engine
  complete _ line position c := EngineRelation.perform (.complete line position) c.engine rfl
  rawCommand _ focus line c _ := EngineRelation.perform (.rawCommand focus line) c.engine rfl
  inquiry _ focus line e i _ hi c := EngineRelation.inquiry focus line e i hi c.engine
  report t reason thread pc c := by
    have hlook : OnEngine E c { c with engine := (DebugEngine.observe t .stopInfo c.engine).2 } :=
      EngineRelation.observe t .stopInfo c.engine
    exact onEngine_emit hlook _
  events := events_engine

theorem OnProcess.quiet {α : Type} {m : Action ε α} (h : OnProcess (EngineOnly E) m) :
    Moves (Quiet E) m := by
  intro s
  rcases target?_cases s.lifecycle with ⟨hnone, -⟩ | ⟨a, -, ha⟩
  · refine (h.refused s hnone).mono ?_
    rintro r s' ⟨-, rfl⟩
    exact StepRelation.refl s'
  · exact (h.attends a.target s).mono fun _ _ hs => (hs ha).quiet ha

theorem moves_execute {c : Command} (h : c.isQuiet = true) :
    Moves (Quiet E) (execute c : Action ε Wire.Response) := by
  by_cases hping : c = .ping
  · rw [hping]
    exact Moves.pure _
  · exact (onProcess_execute h hping).quiet

end DebugAdapter.Session
