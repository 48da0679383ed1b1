import DebugAdapter.Proofs.SessionOutcomes
import DebugAdapter.Proofs.TwinRules

/-!
# Commands on two sessions side by side

Each command has the same outcome on coupled sessions and leaves them coupled (`twins_execute`). So
payload by payload the replies are the same (`handleFrame_coupled`).
-/

namespace DebugAdapter

open Debuggee
open Operation
open Wire (Response)

namespace Session

variable {ε' ε α β : Type} {E : ε' → ε → Prop} {wired : Prop}

/-! ### Without the engine -/

theorem twins_breakpointTarget : Twins E wired breakpointTarget breakpointTarget := by
  refine Twins.get_bind fun s t h => ?_
  rcases h.stages with ⟨hs, ht⟩ | ⟨e, hs, ht⟩ | ⟨a, n, hs, ht⟩
  · rw [hs, ht]
    exact twins_refuse _
  · rw [hs, ht]
    exact .pure none
  · rw [hs, ht]
    exact .pure (some a.target)

theorem twins_addBreakpoint (addr : UInt64) (engineId : Option Nat) :
    Twins E wired (addBreakpoint addr engineId) (addBreakpoint addr engineId) := by
  refine Twins.get_bind fun s t h => ?_
  have hadded := h.withBreakpoints fun b => (b.add addr engineId).2
  rw [h.breakpoints] at hadded ⊢
  exact (Twins.set hadded).bind fun _ => .pure _

theorem twins_requireInactive : Twins E wired requireInactive requireInactive := by
  refine Twins.get_bind fun s t h => ?_
  rcases h.stages with ⟨hs, ht⟩ | ⟨e, hs, ht⟩ | ⟨a, n, hs, ht⟩
  · rw [hs, ht]
    exact .pure ()
  · rw [hs, ht]
    exact .pure ()
  · rw [hs, ht]
    exact twins_refuse _

theorem twins_prepare (e : Executable) : Twins E wired (prepare e) (prepare e) := by
  have hstage : ∀ (s : Session ε') (t : Session ε), Coupled E wired s t → Coupled E wired
      { s with lifecycle := .prepared e, lastPrepared := some e }
      { t with lifecycle := .prepared e, lastPrepared := some e } :=
    fun s t h => { h.enter (.prepared e) with lastPrepared := rfl }
  exact twins_requireInactive.bind fun _ => Twins.modify_bind hstage fun _ => .pure _

variable [DebugEngine ε'] [DebugEngine ε] [EnginesAgree E]

/-! ### Breakpoints -/

theorem twins_setBreakpoint (addr : UInt64) :
    Twins E wired (setBreakpoint addr) (setBreakpoint addr) := by
  refine twins_breakpointTarget.bind fun t? => ?_
  cases t? with
  | none => exact (twins_addBreakpoint addr none).bind fun _ => .pure _
  | some t =>
    refine (twins_request t rfl _).bind fun info => ?_
    exact (twins_addBreakpoint addr _).bind fun _ => .pure _

theorem twins_removeBreakpoint (id : Nat) :
    Twins E wired (removeBreakpoint id) (removeBreakpoint id) := by
  refine twins_breakpointTarget.bind fun t? => Twins.get_bind fun s₁ s₂ h => ?_
  rw [h.breakpoints]
  have herase : ∀ u : Unit, Twins E wired
      (do modify fun s => { s with breakpoints := s.breakpoints.erase id }; return Response.ok)
      (do modify fun s => { s with breakpoints := s.breakpoints.erase id }; return Response.ok) :=
    fun _ => Twins.modify_bind (fun _ _ h => h.withBreakpoints (·.erase id)) fun _ => .pure _
  rcases s₂.breakpoints.get? id with _ | entry
  · exact twins_refuse _
  · rcases t? with _ | t
    · exact (Twins.pure ()).bind herase
    · rcases hengine : entry.engineId with _ | engineId
      · dsimp only
        rw [hengine]
        exact (Twins.pure ()).bind herase
      · dsimp only
        rw [hengine]
        exact (twins_request t rfl _).bind herase

theorem twins_removeAllBreakpoints :
    Twins E wired removeAllBreakpoints removeAllBreakpoints := by
  refine twins_breakpointTarget.bind fun t? => ?_
  have hclear : ∀ u : Unit, Twins E wired
      (do modify fun s => { s with breakpoints := s.breakpoints.clear }; return Response.ok)
      (do modify fun s => { s with breakpoints := s.breakpoints.clear }; return Response.ok) :=
    fun _ => Twins.modify_bind (fun _ _ h => h.withBreakpoints Breakpoints.clear) fun _ => .pure _
  cases t? with
  | none => exact (Twins.pure ()).bind hclear
  | some t => exact (twins_request t rfl _).bind hclear

/-! ### The life of a session -/

theorem twins_installPending (t : Handle) (es : List BreakpointEntry) :
    Twins E wired (installPending t es) (installPending t es) := by
  induction es with
  | nil => exact .pure ()
  | cons e es ih =>
    refine (twins_tryRequest t rfl).bind fun answer => ?_
    cases answer with
    | ok info =>
      have hinstall : ∀ (s₁ : Session ε') (s₂ : Session ε), Coupled E wired s₁ s₂ → Coupled E wired
          { s₁ with breakpoints := s₁.breakpoints.install e.id info.id }
          { s₂ with breakpoints := s₂.breakpoints.install e.id info.id } :=
        fun _ _ h => h.withBreakpoints (·.install e.id info.id)
      exact Twins.modify_bind hinstall fun _ => ih
    | error f => exact (Twins.pure ()).bind fun _ => ih

theorem twins_activate (t : Handle) : Twins E wired (activate t) (activate t) := by
  refine Twins.get_bind fun s₁ s₂ h => ?_
  rw [h.breakpoints]
  refine (twins_installPending t _).bind fun _ => ?_
  exact Twins.modify fun _ _ h => h.enter (.active ⟨t, true, none, 0⟩)

theorem twins_createTarget (executable : Option String) (is64 : Bool) :
    Twins E wired (createTarget executable is64) (createTarget executable is64) := by
  refine (twins_perform rfl).bind fun answer => ?_
  cases answer with
  | error e => exact twins_refuse _
  | ok t =>
    refine (twins_observe t (by decide)).bind fun subscribed => ?_
    cases subscribed with
    | true => exact .pure t
    | false => exact twins_refuse _

theorem twins_startNotifier (t : Handle) (failed : DebugError → SessionError) :
    Twins E wired (startNotifier t failed) (startNotifier t failed) := by
  refine Twins.get_bind fun s₁ s₂ h => ?_
  rw [EnginesAgree.notifierError (E := E) h.engine]
  rcases DebugEngine.notifierError s₂.engine with _ | e
  · exact .pure ()
  · exact (twins_tryRequest t rfl).bind fun _ => twins_refuse _

theorem twins_startTarget (t : Handle) {r : Request} (hr : r.readsOutput = false)
    (failed : DebugError → SessionError) :
    Twins E wired (startTarget t r failed) (startTarget t r failed) := by
  refine (twins_tryRequest t hr).bind fun answer => ?_
  cases answer with
  | error e => exact (twins_tryRequest t rfl).bind fun _ => twins_refuse _
  | ok a =>
    refine Twins.get_bind fun s₁ s₂ h => ?_
    rw [h.settings]
    refine (twins_poll _ ?_).bind fun _ => twins_startNotifier t failed
    exact (twins_observe t (by decide)).bind fun _ => .pure _

theorem twins_deleteProcess : Twins E wired deleteProcess deleteProcess := by
  refine twins_activeTarget_bind fun a n => ?_
  refine Twins.modify_bind (fun _ _ h => h.enter .uninitialized) fun _ => ?_
  refine (twins_tryRequest a.target rfl).bind fun _ => ?_
  exact Twins.modify_bind (fun _ _ h => h.withBreakpoints Breakpoints.clear) fun _ => .pure _

theorem twins_begin (disableAslr : Bool) (e : Executable) : Twins E wired
    (do
      let t ← createTarget (some e.path) e.is64
      startTarget t (.launch ⟨e.args, e.cwd, disableAslr, true⟩) .launchFailed
      activate t
      return t)
    (do
      let t ← createTarget (some e.path) e.is64
      startTarget t (.launch ⟨e.args, e.cwd, disableAslr, true⟩) .launchFailed
      activate t
      return t) :=
  (twins_createTarget _ _).bind fun t => (twins_startTarget t rfl _).bind fun _ =>
    (twins_activate t).bind fun _ => .pure t

theorem twins_launchStopped : Twins E wired launchStopped launchStopped := by
  refine Twins.get_bind fun s₁ s₂ h => ?_
  rw [h.settings, h.lastPrepared]
  rcases h.stages with ⟨hs, ht⟩ | ⟨e, hs, ht⟩ | ⟨a, n, hs, ht⟩
  · rw [hs, ht]
    rcases s₂.lastPrepared with _ | e
    · exact twins_refuse_bind _ _ _
    · exact (Twins.pure e).bind (twins_begin _)
  · rw [hs, ht]
    exact (Twins.pure e).bind (twins_begin _)
  · rw [hs, ht]
    exact twins_refuse_bind _ _ _

/-- A query to a target and a reply made of its answer. -/
theorem twins_shown (t : Handle) {q : Query} (hq : q ≠ .events) (view : q.Answer → Response) :
    Twins E wired
    (do
      let answer ← observe t q
      return view answer)
    (do
      let answer ← observe t q
      return view answer) :=
  (twins_observe t hq).bind fun _ => .pure _

theorem twins_resumeLaunched [Delivers E wired] (stopAtEntry : Bool) (t : Handle) :
    Twins E wired (resumeLaunched stopAtEntry t) (resumeLaunched stopAtEntry t) := by
  cases stopAtEntry with
  | true => exact twins_shown t (by decide) _
  | false =>
    refine (twins_control t rfl).bind fun answer => ?_
    cases answer with
    | ok _ => exact twins_shown t (by decide) _
    | error e => exact twins_deleteProcess.bind fun _ => twins_refuse_bind _ _ _

theorem twins_launch [Delivers E wired] : Twins E wired launch launch := by
  intro s t h
  -- Both sessions have the same settings, so the second part of the launch is the same.
  have hparts : Twins E wired (launchStopped >>= resumeLaunched s.settings.launch.stopAtEntry)
      (launchStopped >>= resumeLaunched s.settings.launch.stopAtEntry) :=
    twins_launchStopped.bind (twins_resumeLaunched _)
  rw [ends_launch]
  refine (hparts s t h).mono fun r s' hends => ?_
  rw [ends_launch, ← h.settings]
  exact hends

theorem twins_attach (pid : Nat) (executable : Option String) (is64 : Bool) :
    Twins E wired (attach pid executable is64) (attach pid executable is64) := by
  refine twins_requireInactive.bind fun _ => (twins_createTarget executable is64).bind fun t => ?_
  refine (twins_startTarget t rfl _).bind fun _ => (twins_activate t).bind fun _ => ?_
  refine (twins_tryRequest t rfl).bind fun answer => ?_
  rcases answer with e | _ | main
  · exact .pure _
  · exact .pure _
  · exact .pure _

theorem twins_connectRemote (is64 : Bool) (url plugin : String) (file : Option String) :
    Twins E wired (connectRemote is64 url plugin file) (connectRemote is64 url plugin file) := by
  refine twins_requireInactive.bind fun _ => Twins.get_bind fun s₁ s₂ h => ?_
  rw [h.capabilities]
  rcases s₂.capabilities.remoteConnect with _ | _
  · exact twins_refuse_bind _ _ _
  · refine (twins_createTarget file is64).bind fun t => (twins_startTarget t rfl _).bind fun _ => ?_
    exact (twins_activate t).bind fun _ => .pure _

theorem twins_detach [Delivers E wired] : Twins E wired detach detach := by
  refine twins_target.bind fun t => (twins_control t rfl).bind fun _ => ?_
  have hrelease : ∀ (s₁ : Session ε') (s₂ : Session ε), Coupled E wired s₁ s₂ → Coupled E wired
      { s₁ with lifecycle := .uninitialized, breakpoints := s₁.breakpoints.clear }
      { s₂ with lifecycle := .uninitialized, breakpoints := s₂.breakpoints.clear } :=
    fun _ _ h => (h.enter .uninitialized).withBreakpoints Breakpoints.clear
  exact (twins_orRefuse _ _).bind fun _ => Twins.modify_bind hrelease fun _ => .pure _

theorem twins_shutdown : Twins E wired shutdown shutdown := by
  refine Twins.get_bind fun s₁ s₂ h => ?_
  rcases h.stages with ⟨hs, ht⟩ | ⟨e, hs, ht⟩ | ⟨a, n, hs, ht⟩
  · rw [hs, ht]
    exact .pure ()
  · rw [hs, ht]
    exact .pure ()
  · rw [hs, ht]
    exact twins_deleteProcess.bind fun _ => .pure ()

theorem twins_processState : Twins E wired processState processState := by
  refine twins_target.bind fun t => (twins_observe t (by decide)).bind fun state => ?_
  refine (twins_observe t (by decide)).bind fun exit => ?_
  cases exit with
  | none => exact .pure _
  | some code => exact .pure _

/-! ### The current thread -/

theorem twins_hasCome (t : Handle) : Twins E wired (hasCome t) (hasCome t) :=
  (twins_observe t (by decide)).bind fun _ => .pure _

theorem twins_currentThread : Twins E wired currentThread currentThread := by
  refine twins_activeTarget_bind fun a n => ?_
  dsimp only
  rcases a.selectedThread with _ | tid
  · refine (twins_observe a.target (by decide)).bind fun stop => ?_
    cases stop with
    | none =>
      refine (twins_request a.target rfl _).bind fun list => ?_
      cases list with
      | nil => exact twins_refuse _
      | cons th _ => exact .pure _
    | some stop => exact .pure _
  · exact .pure tid

/-! ### Running and stepping -/

section Running

omit [DebugEngine ε'] [DebugEngine ε] [EnginesAgree E] in
/-- The end of a step. -/
theorem twins_settle (o : StepOutcome) : Twins E wired
    (do
      let _ ← activeTarget
      resetFocus
      return o)
    (do
      let _ ← activeTarget
      resetFocus
      return o) :=
  twins_activeTarget_bind fun _ _ => twins_resetFocus.bind fun _ => .pure o

/-- The end of a step that the session reports itself. -/
theorem twins_report (t : Handle) (reason : Option StopInfo → String) (thread : Nat) (pc : UInt64)
    (o : StepOutcome) : Twins E wired
    (do
      let stop ← observe t .stopInfo
      notify (.stopped (reason stop) thread pc)
      let _ ← activeTarget
      resetFocus
      return o)
    (do
      let stop ← observe t .stopInfo
      notify (.stopped (reason stop) thread pc)
      let _ ← activeTarget
      resetFocus
      return o) :=
  (twins_observe t (by decide)).bind fun _ => (twins_notify _).bind fun _ => twins_settle o

variable [Delivers E wired]

/-- A request that lets the process run or ends it; a refusal is passed on. -/
theorem twins_ordered {r : Request} (hr : r.readsOutput = false) (operation : String)
    {next' : r.Answer → Action ε' α} {next : r.Answer → Action ε α}
    (hnext : ∀ answer, Twins E wired (next' answer) (next answer)) :
    Twins E wired
      (do
        let t ← target
        next' (← orRefuse operation (← control t r)))
      (do
        let t ← target
        next (← orRefuse operation (← control t r))) := by
  refine twins_target.bind fun t => (twins_control t hr).bind fun _ => ?_
  exact (twins_orRefuse operation _).bind hnext

theorem twins_resume : Twins E wired resume resume :=
  twins_ordered rfl _ fun _ => twins_resetFocus.bind fun _ => .pure _

theorem twins_interrupt : Twins E wired interrupt interrupt :=
  twins_ordered rfl _ fun _ => .pure _

theorem twins_kill : Twins E wired kill kill :=
  twins_ordered rfl _ fun _ => .pure _

theorem twins_forceStopAndReport : Twins E wired forceStopAndReport forceStopAndReport := by
  refine twins_target.bind fun t => (twins_control t rfl).bind fun _ => ?_
  refine Twins.get_bind fun s₁ s₂ h => ?_
  rw [h.settings]
  refine (twins_poll _ (twins_hasCome t)).bind fun _ => ?_
  refine (twins_observe t (by decide)).bind fun stop => (twins_notify _).bind fun _ => ?_
  exact twins_activeTarget_bind fun _ _ => twins_resetFocus.bind fun _ => .pure _

theorem twins_ensureStopped (t : Handle) :
    Twins E wired (ensureStopped t) (ensureStopped t) := by
  refine (twins_observe t (by decide)).bind fun state => ?_
  rcases state.isRunning with _ | _
  · exact .pure true
  · refine (twins_control t rfl).bind fun _ => Twins.get_bind fun s₁ s₂ h => ?_
    rw [h.settings]
    refine (twins_poll _ ?_).bind fun _ => .pure _
    exact (twins_observe t (by decide)).bind fun _ => .pure _

theorem twins_boundedStep (kind : StepKind) :
    Twins E wired (boundedStep kind) (boundedStep kind) := by
  refine twins_target.bind fun t => (twins_observe t (by decide)).bind fun state => ?_
  extract_lets steps' steps
  have hsteps : ∀ u, Twins E wired (steps' u) (steps u) := by
    intro u
    refine (twins_ensureStopped t).bind fun halted => twins_currentThread.bind fun thread => ?_
    refine (twins_observe t (by decide)).bind fun before => ?_
    -- The step is over or was not made; what is left is the report.
    extract_lets pcBefore report' report
    have hreport : ∀ completed, Twins E wired (report' completed) (report completed) := by
      intro completed
      refine (twins_observe t (by decide)).bind fun stop => ?_
      rcases stop with _ | stop
      all_goals
        rcases completed with _ | _
        · exact twins_report t _ _ _ _
        · exact twins_settle _
    rcases halted with _ | _
    · exact (Twins.pure false).bind hreport
    · refine (twins_control t rfl).bind fun _ => (twins_orRefuse _ _).bind fun _ => ?_
      refine Twins.get_bind fun s₁ s₂ h => ?_
      rw [h.settings]
      refine (twins_poll _ (twins_hasCome t)).bind fun outcome => ?_
      exact (Twins.pure outcome.isReady).bind hreport
  rcases ProcessState.isTerminal state with _ | _
  · exact hsteps ()
  · exact twins_refuse_bind _ _ _

theorem twins_step (kind : StepKind) : Twins E wired (step kind) (step kind) :=
  (twins_boundedStep kind).bind fun _ => .pure _

theorem twins_hopWith (arrived : UInt64 → Bool) (left : Nat) : ∀ h : Hops,
    Twins E wired (hopWith arrived left h) (hopWith arrived left h) := by
  induction left with
  | zero => exact fun h => .pure h
  | succ left ih =>
    intro h
    rw [hopWith, hopWith]
    rcases arrived h.pc with _ | _
    · refine (twins_boundedStep .out).bind fun o => ?_
      rcases o.completed with _ | _
      · exact .pure _
      · exact ih _
    · exact .pure h

theorem twins_stepUntilUserCode : Twins E wired stepUntilUserCode stepUntilUserCode := by
  refine twins_target.bind fun t => (twins_request t rfl _).bind fun main => ?_
  cases main with
  | none => exact twins_refuse_bind _ _ _
  | some m =>
    refine (Twins.pure m).bind fun main => (twins_observe t (by decide)).bind fun stop => ?_
    refine twins_currentThread.bind fun thread => Twins.get_bind fun s₁ s₂ h => ?_
    rw [h.settings]
    exact (twins_hopWith _ _ _).bind fun _ => .pure _

end Running

/-! ### Looking at the process -/

/-- A request to the target and a reply made of its answer. -/
theorem twins_asked {r : Request} (hr : r.readsOutput = false) (operation : String)
    (view : r.Answer → Response) :
    Twins E wired (do
      let answer ← request (← target) r operation
      return view answer) (do
      let answer ← request (← target) r operation
      return view answer) :=
  twins_target.bind fun t => (twins_request t hr operation).bind fun _ => .pure _

theorem twins_selectThread (tid : Nat) :
    Twins E wired (selectThread tid) (selectThread tid) := by
  refine twins_target.bind fun t => (twins_request t rfl _).bind fun list => ?_
  rcases list.any (·.tid == tid) with _ | _
  · exact twins_refuse _
  · exact (twins_modifyActive fun _ _ => rfl).bind fun _ => .pure _

theorem twins_callStack : Twins E wired callStack callStack :=
  twins_currentThread.bind fun _ => twins_target.bind fun t =>
    (twins_request t rfl _).bind fun _ => .pure _

theorem twins_selectFrame (index : Nat) :
    Twins E wired (selectFrame index) (selectFrame index) := by
  refine twins_currentThread.bind fun tid => twins_target.bind fun t => ?_
  refine (twins_request t rfl _).bind fun frames => ?_
  by_cases hindex : index < List.length frames
  · rw [if_pos hindex, if_pos hindex]
    exact (twins_modifyActive fun _ _ => rfl).bind fun _ => .pure _
  · rw [if_neg hindex, if_neg hindex]
    exact twins_refuse _

theorem twins_registers : Twins E wired registers registers :=
  twins_currentThread.bind fun _ => twins_activeTarget_bind fun a _ =>
    (twins_request a.target rfl _).bind fun _ => .pure _

theorem twins_setRegister (name : String) (value : UInt64) :
    Twins E wired (setRegister name value) (setRegister name value) := by
  refine twins_currentThread.bind fun tid => twins_activeTarget_bind fun a n => ?_
  refine (twins_tryRequest a.target rfl).bind fun answer => ?_
  cases answer with
  | ok _ => exact .pure _
  | error e =>
    cases e with
    | registerNotFound _ => exact twins_refuse _
    | _ => exact twins_refuse _

theorem twins_readMemory (addr : UInt64) (length : Nat) :
    Twins E wired (readMemory addr length) (readMemory addr length) := by
  refine Twins.get_bind fun s₁ s₂ h => ?_
  rw [h.settings]
  dsimp only
  by_cases hlimit : s₂.settings.transport.maxRead < length
  · rw [if_pos hlimit, if_pos hlimit]
    exact twins_refuse_bind _ _ _
  · rw [if_neg hlimit, if_neg hlimit]
    exact twins_asked rfl _ _

theorem twins_disassembly (addr : UInt64) (count : Nat) :
    Twins E wired (disassembly addr count) (disassembly addr count) := by
  refine Twins.get_bind fun s₁ s₂ h => ?_
  rcases h.stages with ⟨hs, ht⟩ | ⟨e, hs, ht⟩ | ⟨a, n, hs, ht⟩
  · rw [hs, ht]
    exact twins_refuse_bind _ _ _
  · rw [hs, ht]
    exact twins_refuse_bind _ _ _
  · rw [hs, ht]
    exact (Twins.pure a.target).bind fun t => (twins_request t rfl _).bind fun _ => .pure _

theorem twins_mainExecutableDisassembly (count : Nat) :
    Twins E wired (mainExecutableDisassembly count) (mainExecutableDisassembly count) :=
  twins_target.bind fun t => (twins_request t rfl _).bind fun _ =>
    (twins_request t rfl _).bind fun _ => .pure _

theorem twins_findStringReferences (addr : UInt64) :
    Twins E wired (findStringReferences addr) (findStringReferences addr) := by
  refine twins_target.bind fun t => Twins.get_bind fun s₁ s₂ h => ?_
  rw [h.capabilities]
  rcases s₂.capabilities.referenceScan with _ | _
  · exact twins_refuse_bind _ _ _
  · exact (twins_request t rfl _).bind fun _ => .pure _

theorem twins_moduleAtIndex (index : Int) :
    Twins E wired (moduleAtIndex index) (moduleAtIndex index) := by
  refine twins_target.bind fun t => (twins_request t rfl _).bind fun (ms : List Module) => ?_
  dsimp only
  rcases (if 0 ≤ index then ms[index.toNat]? else none) with _ | m
  · exact twins_refuse _
  · exact .pure _

theorem twins_moduleForFile (file : String) :
    Twins E wired (moduleForFile file) (moduleForFile file) := by
  refine twins_target.bind fun t => (twins_request t rfl _).bind fun ms => ?_
  split
  · exact .pure _
  · exact twins_refuse _

theorem twins_executeCommand (line : String) :
    Twins E wired (executeCommand line) (executeCommand line) := by
  refine twins_activeTarget_bind fun a n => Twins.get_bind fun s₁ s₂ h => ?_
  rw [h.capabilities]
  rcases s₂.capabilities.rawCommands with _ | _
  · exact twins_refuse_bind _ _ _
  · refine (twins_attempt twins_currentThread).bind fun thread => ?_
    exact twins_rawCommand (fun _ => rfl) (fun _ => rfl) (fun _ => rfl) (fun _ => rfl)
      (fun _ => .pure _) _ line

theorem twins_completeCommand (line : String) (position : Nat) :
    Twins E wired (completeCommand line position) (completeCommand line position) := by
  refine twins_activeTarget_bind fun a n => Twins.get_bind fun s₁ s₂ h => ?_
  rw [h.capabilities]
  rcases s₂.capabilities.rawCommands with _ | _
  · exact twins_refuse_bind _ _ _
  · exact (twins_perform rfl).bind fun _ => .pure _

/-! ### All commands -/

variable [Delivers E wired]

/-- **Coupled sessions do the same.** -/
theorem twins_execute (c : Command) : Twins E wired (execute c) (execute c) := by
  cases c with
  | ping => exact .pure _
  | prepare e => exact twins_prepare e
  | launch => exact twins_launch
  | attach pid executable is64 => exact twins_attach pid executable is64
  | connectRemote is64 url plugin file => exact twins_connectRemote is64 url plugin file
  | detach => exact twins_detach
  | deleteProcess => exact twins_deleteProcess
  | hasProcess => exact twins_activeTarget_bind fun _ _ => .pure _
  | processState => exact twins_processState
  | resume => exact twins_resume
  | kill => exact twins_kill
  | interrupt => exact twins_interrupt
  | forceStopAndReport => exact twins_forceStopAndReport
  | step kind => exact twins_step kind
  | stepUntilUserCode => exact twins_stepUntilUserCode
  | threads => exact twins_asked rfl _ _
  | selectThread tid => exact twins_selectThread tid
  | callStack => exact twins_callStack
  | selectFrame index => exact twins_selectFrame index
  | registers => exact twins_registers
  | setRegister name value => exact twins_setRegister name value
  | readMemory addr length => exact twins_readMemory addr length
  | writeByte addr value => exact twins_asked rfl _ _
  | sendToApplication data => exact twins_asked rfl _ _
  | setBreakpoint addr => exact twins_setBreakpoint addr
  | removeBreakpoint id => exact twins_removeBreakpoint id
  | removeAllBreakpoints => exact twins_removeAllBreakpoints
  | disassembly addr count => exact twins_disassembly addr count
  | mainExecutableDisassembly count => exact twins_mainExecutableDisassembly count
  | findStringReferences addr => exact twins_findStringReferences addr
  | moduleCount => exact twins_asked rfl _ _
  | moduleAtIndex index => exact twins_moduleAtIndex index
  | moduleForFile file => exact twins_moduleForFile file
  | executeCommand line => exact twins_executeCommand line
  | completeCommand line position => exact twins_completeCommand line position

variable {s : Session ε'} {t : Session ε}

theorem reply_coupled (h : Coupled E wired s t) (c : Command) :
    (reply c s).1 = (reply c t).1 ∧ Coupled E wired (reply c s).2 (reply c t).2 := by
  obtain ⟨hresult, hcoupled⟩ : ((execute c).run.run t).1 = ((execute c).run.run s).1 ∧
      Coupled E wired ((execute c).run.run s).2 ((execute c).run.run t).2 :=
    twins_execute c s t h
  rw [reply_eq, reply_eq, hresult]
  exact ⟨rfl, hcoupled⟩

/-- A payload is answered alike. -/
theorem handleFrame_coupled (h : Coupled E wired s t) (payload : Bytes) :
    (handleFrame payload s).1 = (handleFrame payload t).1 ∧
      Coupled E wired (handleFrame payload s).2 (handleFrame payload t).2 := by
  rw [handleFrame, handleFrame]
  dsimp only
  rcases (RequestDocument.read payload).command? with e | c
  · exact ⟨rfl, h⟩
  · obtain ⟨hreply, hafter⟩ := reply_coupled h c
    dsimp only
    rw [hreply]
    exact ⟨rfl, hafter⟩

end Session

end DebugAdapter
