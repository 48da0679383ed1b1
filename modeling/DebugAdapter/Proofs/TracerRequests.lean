import DebugAdapter.Proofs.ReportRelations

/-!
# Requests to a tracer

A tracer is asked to look at memory, registers, stacks and modules, to let the process run and to
stop it. Looking moves along every relation that bears what concerns no thread. What else it is asked
for needs more of a relation: that it bears dealings with threads, work on breakpoints, or that a
process is taken charge of.
-/

namespace DebugAdapter.Tracer.Tracing

open Debuggee
open Linux
open Machine (Frame FrameLayout InstructionKind)
open Operation

variable {κ α : Type} [Kernel κ] {R : System κ → System κ → Prop}

section Aside

variable [AsideRelation R]

/-! ### Memory and code -/

omit [AsideRelation R] in
/-- Reading words in a row only peeks at them. -/
theorem readSomeWords_of_peeks {P : κ → Prop} (tid : Nat)
    (hpeek : ∀ a k, P k → P (Kernel.perform (.peek tid a) k).2) (count : Nat) :
    ∀ (a : UInt64) (k : κ), P k → P ((Memory.readSomeWords tid a count).run k).2 := by
  induction count with
  | zero => exact fun a k h => h
  | succ count ih =>
    intro a k h
    have hcall := hpeek a k h
    rcases hperform : Kernel.perform (.peek tid a) k with ⟨r, k'⟩
    have hrun : ((call (.peek tid a) : Calls κ _).run).run k = (r, k') := hperform
    rw [hperform] at hcall
    rw [Memory.readSomeWords, StateT.run_bind, hrun]
    cases r with
    | error e => exact hcall
    | ok word => exact ih (a + 8) k' hcall

theorem moves_readSomeWords (tid : Nat) (count : Nat) (a : UInt64) (s : System κ) :
    R s { s with kernel := ((Memory.readSomeWords tid a count).run s.kernel).2 } :=
  readSomeWords_of_peeks (P := fun k => R s { s with kernel := k }) tid
    (fun _ k h => StepRelation.trans h (LookRelation.look _ { s with kernel := k } rfl)) count a s.kernel
    (StepRelation.refl s)

theorem moves_readCode (address : UInt64) (length : Nat) :
    Moves R (readCode address length : Tracing κ Bytes) := by
  refine moves_memoryThread.bind fun tid => ?_
  refine Moves.bind (fun s => moves_readSomeWords tid _ address s) fun data => ?_
  dsimp only
  split
  · exact Moves.throw _
  · exact moves_tracer.bind fun t => Moves.pure _

theorem moves_readMemory (address : UInt64) (length : Nat) :
    Moves R (readMemory address length : Tracing κ Bytes) :=
  moves_stoppedProcess.bind fun _ => moves_readCode _ _

theorem moves_disassemble (address : UInt64) (count : Nat) :
    Moves R (disassemble address count : Tracing κ (List Instruction)) := by
  refine moves_stoppedProcess.bind fun _ => ?_
  split
  · exact Moves.pure _
  · exact (moves_readCode _ _).bind fun _ => Moves.pure _

/-! ### Frames -/

theorem moves_readWord (address : UInt64) :
    Moves R (readWord address : Tracing κ (Option UInt64)) := by
  refine moves_tracer.bind fun t => ?_
  split
  · exact Moves.pure _
  · refine (moves_attempt_of_isLook rfl).bind fun answer => ?_
    split
    · exact Moves.pure _
    · exact Moves.pure _

theorem moves_topFrame (tid : Nat) : Moves R (topFrame tid : Tracing κ Frame) :=
  (moves_registersOf tid).bind fun _ => Moves.pure _

theorem moves_kindAt (address : UInt64) :
    Moves R (kindAt address : Tracing κ (InstructionKind × Nat)) :=
  (moves_readCode _ _).bind fun _ => moves_ofOutcome _

theorem moves_symbolize (address : UInt64) :
    Moves R (symbolize address : Tracing κ (Option (String × UInt64))) :=
  moves_files.bind fun _ => moves_onModules (ModuleRegistry.modules_symbolize _ address)

/-- The layout of a frame by the symbol that its program counter lies in. -/
theorem moves_layoutBySymbol (pc : UInt64) : Moves R (do
    match ← symbolize pc with
    | some (_, start) => return if start = pc then .entry else .established
    | none => return .established : Tracing κ FrameLayout) := by
  refine (moves_symbolize pc).bind fun found => ?_
  split
  · exact Moves.pure _
  · exact Moves.pure _

theorem moves_layoutAt (pc : UInt64) : Moves R (layoutAt pc : Tracing κ FrameLayout) := by
  have hkind : Moves R (tryCatch (return (← kindAt pc).1) fun _ => return .other :
      Tracing κ InstructionKind) :=
    Moves.tryCatch ((moves_kindAt pc).bind fun _ => Moves.pure _) fun _ => Moves.pure _
  refine hkind.bind fun kind => ?_
  cases kind with
  | pushFramePointer => exact Moves.pure _
  | ret => exact Moves.pure _
  | setFramePointer => exact Moves.pure _
  | call => exact moves_layoutBySymbol pc
  | other => exact moves_layoutBySymbol pc

/-- A sequence that ends without a result when its first part does. -/
theorem moves_optional_bind {β : Type} {x : OptionT (Tracing κ) α} {f : α → OptionT (Tracing κ) β}
    (hx : Moves R x.run) (hf : ∀ a, Moves R (f a).run) : Moves R (x >>= f).run := by
  rw [OptionT.run_bind]
  refine hx.bind fun result => ?_
  cases result with
  | none => exact Moves.pure _
  | some a => exact hf a

/-- The frame of a caller is found by reading words. -/
theorem moves_caller (layout : FrameLayout) (f : Frame) :
    Moves R ((layout.caller readWord f).run : Tracing κ (Option Frame)) := by
  have hread : ∀ a : UInt64, Moves R (OptionT.mk (readWord a) : OptionT (Tracing κ) UInt64).run :=
    moves_readWord
  have hadd : ∀ (a : UInt64) (n : Nat),
      Moves R (OptionT.mk (pure (Machine.checkedAdd a n)) : OptionT (Tracing κ) UInt64).run :=
    fun _ _ => Moves.pure _
  have hdone : ∀ g : Frame, Moves R (Pure.pure g : OptionT (Tracing κ) Frame).run :=
    fun _ => Moves.pure _
  have hpushed : ∀ slot a sp : UInt64, Moves R (do
      let pc ← OptionT.mk (readWord slot)
      let sp' ← OptionT.mk (pure (Machine.checkedAdd a 16))
      let bp ← OptionT.mk (readWord sp)
      return ⟨pc, sp', bp⟩ : OptionT (Tracing κ) Frame).run :=
    fun slot a sp => moves_optional_bind (hread slot) fun _ =>
      moves_optional_bind (hadd a 16) fun _ => moves_optional_bind (hread sp) fun _ => hdone _
  cases layout with
  | entry =>
    exact moves_optional_bind (hread _) fun _ => moves_optional_bind (hadd _ 8) fun _ => hdone _
  | bpPushed => exact moves_optional_bind (hadd _ 8) fun slot => hpushed slot f.sp f.sp
  | established =>
    rw [FrameLayout.caller]
    split
    · exact moves_optional_bind (Moves.pure none) fun _ =>
        moves_optional_bind (hadd _ 8) fun slot => hpushed slot f.bp f.bp
    · exact moves_optional_bind (hadd _ 8) fun slot => hpushed slot f.bp f.bp

theorem moves_callers (room : Nat) : ∀ (inner : Frame) (candidate : Option Frame),
    Moves R (Machine.callers readWord room inner candidate : Tracing κ (List Frame)) := by
  induction room with
  | zero =>
    intro inner candidate
    cases candidate <;> exact Moves.pure _
  | succ room ih =>
    intro inner candidate
    cases candidate with
    | none => exact Moves.pure _
    | some f =>
      rw [Machine.callers]
      split
      · refine (moves_caller _ f).bind fun next => ?_
        exact (ih f next).bind fun outer => Moves.pure _
      · exact Moves.pure _

theorem moves_framesOf (tid : Nat) : Moves R (framesOf tid : Tracing κ (List Frame)) := by
  refine (moves_topFrame tid).bind fun top => (moves_layoutAt _).bind fun layout => ?_
  refine (moves_caller layout top).bind fun next => ?_
  exact (moves_callers _ top next).bind fun outer => Moves.pure _

theorem moves_describeFrame (isInnermost : Bool) (frame : Frame) :
    Moves R (describeFrame isInnermost frame : Tracing κ StackFrame) :=
  (moves_symbolize _).bind fun _ => moves_tracer.bind fun _ => Moves.pure _

theorem moves_describeFrames (frames : List Frame) :
    Moves R (frames.mapM (describeFrame false) : Tracing κ (List StackFrame)) := by
  induction frames with
  | nil => exact Moves.pure _
  | cons frame rest ih =>
    rw [List.mapM_cons]
    exact (moves_describeFrame false frame).bind fun _ => ih.bind fun _ => Moves.pure _

/-- The frames of a thread with their names. -/
theorem moves_describedFrames (tid : Nat) : Moves R (do
    match ← framesOf tid with
    | [] => return []
    | top :: outer =>
      let innermost ← describeFrame true top
      let others ← outer.mapM (describeFrame false)
      return innermost :: others : Tracing κ (List StackFrame)) := by
  refine (moves_framesOf tid).bind fun frames => ?_
  cases frames with
  | nil => exact Moves.pure _
  | cons top outer =>
    refine (moves_describeFrame true top).bind fun innermost => ?_
    exact (moves_describeFrames outer).bind fun others => Moves.pure _

theorem moves_callStack (tid : Nat) : Moves R (callStack tid : Tracing κ (List StackFrame)) := by
  refine (moves_stoppedThread tid).bind fun tid => moves_tracer.bind fun t => ?_
  dsimp only
  split
  · exact moves_syncModules.bind fun _ => moves_describedFrames tid
  · exact moves_describedFrames tid

/-! ### Threads, registers and modules -/

theorem moves_threads : Moves R (threads : Tracing κ (List ThreadInfo)) :=
  moves_process.bind fun _ => moves_tracer.bind fun _ => Moves.pure _

theorem moves_registers (tid frame : Nat) :
    Moves R (registers tid frame : Tracing κ (List Register)) := by
  refine (moves_stoppedThread tid).bind fun tid => (moves_registersOf tid).bind fun regs => ?_
  dsimp only
  split
  · exact Moves.bind (Moves.pure regs) fun _ => Moves.pure _
  · refine (moves_framesOf tid).bind fun frames => ?_
    split
    · exact Moves.bind (Moves.pure _) fun _ => Moves.pure _
    · exact Moves.throw_bind _ _

theorem moves_setRegister (tid frame : Nat) (name : String) (value : UInt64) :
    Moves R (setRegister tid frame name value : Tracing κ Unit) := by
  refine (moves_stoppedThread tid).bind fun tid => ?_
  dsimp only
  split
  · exact Moves.throw_bind _ _
  · split
    · exact Moves.throw _
    · exact (moves_registersOf tid).bind fun _ => moves_require_of_attempt _ (moves_attempt_of_isLook rfl)

theorem moves_modules : Moves R (modules : Tracing κ (List Module)) :=
  moves_process.bind fun _ => moves_syncModules.bind fun _ => moves_tracer.bind fun _ =>
    Moves.pure _

theorem moves_mainModule : Moves R (mainModule : Tracing κ (Option Module)) :=
  moves_process.bind fun _ => moves_syncModules.bind fun _ => moves_tracer.bind fun _ =>
    Moves.pure _

theorem moves_requireMainModule : Moves R (requireMainModule : Tracing κ Module) := by
  refine moves_mainModule.bind fun main => ?_
  split
  · exact Moves.pure _
  · exact Moves.throw _

theorem moves_entryPoint : Moves R (entryPoint : Tracing κ UInt64) := by
  refine moves_requireMainModule.bind fun main => moves_files.bind fun files => ?_
  refine (moves_onModules (ModuleRegistry.modules_image files _)).bind fun image => ?_
  split
  · exact Moves.pure _
  · exact Moves.throw _

theorem moves_findReferences (address : UInt64) :
    Moves R (findReferences address : Tracing κ (List Instruction)) := by
  refine moves_requireMainModule.bind fun main => moves_files.bind fun files => ?_
  refine moves_tracer.bind fun t => ?_
  have hmodify : ∀ references, Moves R (modifyTracer fun t => { t with references }) :=
    fun _ => Moves.modify fun s => AsideRelation.aside s _ rfl rfl rfl id rfl rfl
  exact (hmodify _).bind fun _ => moves_ofOutcome _

/-! ### Output -/

/-- What is taken from no output leaves none. -/
theorem take_empty (stream : OutputStream) (limit : Nat) :
    (ProcessOutput.empty.take stream limit).2 = .empty := by
  cases stream with
  | stdout => exact congrArg (fun bs => (⟨⟨bs⟩, .empty⟩ : ProcessOutput)) List.drop_nil
  | stderr => exact congrArg (fun bs => (⟨.empty, ⟨bs⟩⟩ : ProcessOutput)) List.drop_nil

theorem moves_readOutput (stream : OutputStream) (limit : Nat) :
    Moves R (readOutput stream limit : Tracing κ Bytes) := by
  intro s
  refine AsideRelation.aside s { s.tracer with output := _ } rfl rfl rfl (fun h => ?_) rfl rfl
  rw [h]
  exact take_empty stream limit

end Aside

/-! ### Stopping and ending the process -/

section Probe

variable [ProbeRelation R]

theorem moves_judgeKill (pid : Nat) (status : WaitStatus) :
    Moves R (judgeKill pid status : Tracing κ (Option Int)) := by
  rw [judgeKill.eq_def]
  split
  · exact Moves.pure _
  · exact Moves.pure _
  · split
    · exact (moves_letExit _).bind fun _ => Moves.pure _
    · exact Moves.pure _
  · exact Moves.pure _

end Probe

section Quiet

variable [QuietRelation R]

theorem moves_interrupt : Moves R (interrupt : Tracing κ Unit) := by
  refine moves_process.bind fun p => ?_
  dsimp only
  split
  · exact Moves.pure _
  · exact Moves.bind (moves_require_of_attempt _ (moves_probe rfl)) fun _ =>
      (moves_expectStop _).bind fun _ => moves_changeProcess fun _ => rfl

end Quiet

section Halt

variable [HaltRelation R]

theorem moves_kill : Moves R (kill : Tracing κ Unit) := by
  intro s
  rcases hp : s.tracer.process with _ | p
  · rw [kill, ends_process_bind_none hp]
    exact StepRelation.refl s
  · rw [kill, ends_process_bind hp]
    dsimp only
    -- Until the process is gone it stays as it is.
    have hsignal : ∀ {Q : System κ → System κ → Prop} [ProbeRelation Q], Moves Q
        (require (.syscall "kill") (.kill p.pid .kill) : Tracing κ Unit) :=
      moves_require_of_attempt _ (moves_probe rfl)
    refine ((hsignal (Q := R) s).and (hsignal (Q := SameTracer) s)).bind ?_ fun _ _ h => h.1
    rintro _ t ⟨hst, ht⟩
    refine ((moves_await none (moves_judgeKill (R := R) p.pid) t).and
      (moves_await none (moves_judgeKill (R := SameTracer) p.pid) t)).bind ?_ ?_
    · rintro result u ⟨htu, hu⟩
      have hpresent : u.tracer.process ≠ none := by
        rw [hu.tracer, ht.tracer, hp]
        exact nofun
      have hexited : ∀ status, Ends (processExited status) u fun _ s' => R s s' := fun status =>
        (ends_processExited status hpresent).mono fun _ _ h =>
          StepRelation.trans (StepRelation.trans hst htu) h
      split
      · exact hexited _
      · exact hexited _
      · exact StepRelation.trans hst htu
    · exact fun _ _ h => StepRelation.trans hst h.1

end Halt

section Conduct

variable [ConductRelation R]

theorem moves_drainStops : Moves R (drainStops : Tracing κ Unit) :=
  moves_process.bind fun _ => Moves.forM fun tid _ => ConductRelation.drainThread tid _

theorem moves_sendInput (q : Option InputQueue) :
    Moves R (modifyProcess fun p => { p with input := q } : Tracing κ Unit) := by
  refine Moves.modify fun s => ?_
  show R s { s with tracer := { s.tracer with
    process := s.tracer.process.map fun p => { p with input := q } } }
  rcases hp : s.tracer.process with _ | p
  · rw [Option.map_none, ← hp]
    exact StepRelation.refl s
  · exact ConductRelation.input s p q hp

theorem moves_writeInput (data : Bytes) : Moves R (writeInput data : Tracing κ Nat) := by
  refine moves_process.bind fun p => ?_
  split
  · exact Moves.throw _
  · exact Moves.bind (moves_sendInput _) fun _ => Moves.pure _

end Conduct

/-! ### Starting a process -/

section Probe

variable [ProbeRelation R]

theorem moves_judgeLaunch (status : WaitStatus) :
    Moves R (judgeLaunch status : Tracing κ (Option Unit)) := by
  rw [judgeLaunch.eq_def]
  split
  · exact Moves.pure _
  · exact Moves.throw _
  · exact Moves.throw _
  · exact Moves.pure _

/-- A program is started, and the stop at its first instruction awaited. -/
theorem moves_spawn (program : String) (info : LaunchInfo) : Moves R (do
    let pid ← require .io (.spawn program info)
    match ← await (some pid) judgeLaunch with
    | .ok () =>
      require .ptrace (.setOptions pid launchOptions)
      return pid
    | .error e => throw (.waitpid e) : Tracing κ Nat) := by
  refine (moves_require_of_attempt _ (moves_probe rfl)).bind fun pid => ?_
  refine (moves_await _ moves_judgeLaunch).bind fun result => ?_
  split
  · exact (moves_require_of_attempt _ (moves_probe rfl)).bind fun _ => Moves.pure _
  · exact Moves.throw _

theorem moves_startProgram (program : String) (info : LaunchInfo) :
    Moves R (startProgram program info : Tracing κ Nat) := by
  rw [startProgram]
  split
  · exact Moves.throw _
  · exact moves_spawn program info

theorem moves_judgeAttach (tid : Nat) (status : WaitStatus) :
    Moves R (judgeAttach tid status : Tracing κ (Option (Option Thread))) := by
  rw [judgeAttach.eq_def]
  split
  · exact Moves.pure _
  · exact Moves.pure _
  · exact Moves.pure _
  · exact Moves.pure _
  · exact Moves.pure _

theorem moves_attachThread (pid tid : Nat) :
    Moves R (attachThread pid tid : Tracing κ (Option Thread)) := by
  refine (moves_probe rfl).bind fun answer => ?_
  split
  · split
    · exact Moves.throw _
    · exact Moves.pure _
  · exact Moves.throw _
  · refine (moves_await _ (moves_judgeAttach tid)).bind fun result => ?_
    split
    · exact Moves.throw _
    · exact Moves.pure _
    · exact (moves_require_of_attempt _ (moves_probe rfl)).bind fun _ => Moves.pure _

theorem moves_attachThreads (pid : Nat) (tids : List Nat) : ∀ attached : List Thread,
    Moves R (attachThreads pid tids attached : Tracing κ (List Thread)) := by
  induction tids with
  | nil => exact fun attached => Moves.pure _
  | cons tid r ih =>
    intro attached
    refine (moves_attachThread pid tid).bind fun thread => ?_
    split
    · exact ih _
    · exact ih _

theorem moves_attachRounds (pid rounds : Nat) : ∀ a : Attached,
    Moves R (attachRounds pid rounds a : Tracing κ Attached) := by
  induction rounds with
  | zero => exact fun a => Moves.pure _
  | succ rounds ih =>
    intro a
    refine Moves.get.bind fun s => ?_
    split
    · split
      · exact Moves.throw _
      · exact Moves.pure _
    · exact (moves_attachThreads pid _ _).bind fun threads => ih _

end Probe

section Starting

variable [ShownRelation R]

theorem moves_orUnload {m : Tracing κ α} (h : Moves R m) : Moves R (orUnload m) :=
  Moves.tryCatch h fun _ => (moves_publish _).bind fun _ => Moves.throw _

theorem moves_begin (state : ProcessState) : Moves R (begin state : Tracing κ Unit) :=
  (moves_modifySnapshot _).bind fun _ => moves_publish _

omit [Kernel κ] in
/-- What was published about an earlier process is forgotten. -/
theorem ends_begin_bind (state : ProcessState) (f : Unit → Tracing κ α) (s : System κ)
    (Q : Except DebugError α → System κ → Prop) :
    Ends (begin state >>= f) s Q
      ↔ Ends (f ()) { s with tracer := { s.tracer with
          snapshot := { Snapshot.unloaded with state }
          events := s.tracer.events ++ [.stateChanged state] } } Q :=
  ends_bind _ f s Q

end Starting

/-- Launches the program up to the stop at its entry. -/
def launchToEntry (info : LaunchInfo) : Tracing κ Unit := do
  if ← hasProcess then throw .alreadyRun
  match (← tracer).executable with
  | none => throw (.executableNotFound "executable is not set")
  | some program =>
    begin .launching
    let pid ← orUnload (startProgram program info)
    let executable ← programOf pid
    adopt ⟨pid, true, executable, [.new pid], some .empty, false, none⟩
    reportStop ⟨pid, .exec⟩

/-- A launch stops at the entry first. -/
theorem launch_eq (info : LaunchInfo) : (launch info : Tracing κ Unit) =
    launchToEntry info >>= fun _ => if info.stopAtEntry then pure () else resume := by
  have hrest : ∀ t : State, (match t.executable with
      | none => throw (.executableNotFound "executable is not set")
      | some program => do
        begin .launching
        let pid ← orUnload (startProgram program info)
        let executable ← programOf pid
        adopt ⟨pid, true, executable, [.new pid], some .empty, false, none⟩
        reportStop ⟨pid, .exec⟩
        if !info.stopAtEntry then resume : Tracing κ Unit)
      = (match t.executable with
      | none => throw (.executableNotFound "executable is not set")
      | some program => do
        begin .launching
        let pid ← orUnload (startProgram program info)
        let executable ← programOf pid
        adopt ⟨pid, true, executable, [.new pid], some .empty, false, none⟩
        reportStop ⟨pid, .exec⟩ : Tracing κ Unit) >>= fun _ =>
          if info.stopAtEntry then pure () else resume := by
    intro t
    rcases t.executable with _ | program
    · rfl
    · cases info.stopAtEntry with
      | true => simp only [bind_assoc, Bool.not_true, Bool.false_eq_true, if_false, if_true]
      | false => simp only [bind_assoc, Bool.not_false, Bool.false_eq_true, if_false, if_true]
  rw [launch, launchToEntry, bind_assoc]
  refine bind_congr fun present => ?_
  cases present with
  | true => rfl
  | false =>
    show _ = (tracer >>= _) >>= _
    rw [bind_assoc]
    exact bind_congr hrest

section Adopting

variable {R : System κ → System κ → Prop} [ProbeRelation R] [ReportRelation R]
  (hadopt : ∀ p : Process, Moves R (adopt p : Tracing κ Unit))

include hadopt

/-- A launch moves along a relation that bears a process to be taken charge of. -/
theorem moves_launchToEntry (info : LaunchInfo) :
    Moves R (launchToEntry info : Tracing κ Unit) := by
  refine moves_hasProcess.bind fun present => ?_
  dsimp only
  split
  · exact Moves.throw_bind _ _
  · refine moves_tracer.bind fun t => ?_
    split
    · exact Moves.throw _
    · refine (moves_begin _).bind fun _ => (moves_orUnload (moves_startProgram _ _)).bind fun pid => ?_
      refine (moves_programOf pid).bind fun executable => (hadopt _).bind fun _ => ?_
      exact moves_reportStop _

theorem moves_launch [SteppingRelation R] [ToggleRelation R] (info : LaunchInfo) :
    Moves R (launch info : Tracing κ Unit) := by
  rw [launch_eq]
  refine (moves_launchToEntry hadopt info).bind fun _ => ?_
  split
  · exact Moves.pure _
  · exact moves_resume

theorem moves_attach (pid : Nat) : Moves R (attach pid : Tracing κ Unit) := by
  refine moves_hasProcess.bind fun present => ?_
  dsimp only
  split
  · exact Moves.throw_bind _ _
  · refine (moves_begin _).bind fun _ => ?_
    refine (moves_orUnload (moves_attachRounds pid 2 _)).bind fun attached => ?_
    have hprogram : Moves R (modifyTracer fun t =>
        { t with executable := t.executable <|> attached.executable }) :=
      Moves.modify fun s => ShownRelation.shown s _ rfl rfl id
    refine hprogram.bind fun _ => (moves_programOf pid).bind fun executable => ?_
    exact (hadopt _).bind fun _ => moves_reportStop _

end Adopting

/-! ### Work on breakpoints -/

section Work

variable [WorkRelation R]

theorem moves_work (error : OsError → DebugError) {p : Patching κ α} (h : p.Requested) :
    Moves R (patching error p) :=
  moves_patching error (WorkRelation.work h)

theorem moves_writeMemory (address : UInt64) (data : Bytes) :
    Moves R (writeMemory address data : Tracing κ Nat) :=
  moves_stoppedProcess.bind fun _ => moves_memoryThread.bind fun tid =>
    moves_work _ (.rewrite tid address data)

variable [ConductRelation R]

theorem moves_setBreakpoint (address : UInt64) :
    Moves R (setBreakpoint address : Tracing κ BreakpointInfo) :=
  moves_withAllStopped fun tid => moves_work _ (.addUser tid address)

theorem moves_removeBreakpoint (id : Nat) : Moves R (removeBreakpoint id : Tracing κ Unit) := by
  refine moves_withAllStopped fun tid => (moves_work _ (.removeUser tid id)).bind fun removed => ?_
  split
  · exact Moves.throw _
  · exact Moves.pure _

theorem moves_removeAllBreakpoints : Moves R (removeAllBreakpoints : Tracing κ Unit) :=
  moves_withAllStopped fun tid => moves_work _ (.removeAllUser tid)

end Work

/-! ### Steps -/

/-- A process that is there starts a step plan. -/
def planning (s : System κ) (p : Process) (plan : StepPlan) : System κ :=
  { s with tracer := { s.tracer with process := some { p with plan := some plan } } }

/-- A run with a plan: the breakpoint of the plan is set and the plan noted, and then the process
runs. -/
theorem ends_runPlan (plan : StepPlan) (s : System κ) {Q : Except DebugError Unit → System κ → Prop}
    (hnone : ∀ e, Q (.error e) s)
    (hwork : ∀ (access : Nat) (p : Process), s.tracer.process = some p →
      Ends (Patching.addPlanned access plan.address) (breakpointsOf s) fun r q =>
        match r with
        | .ok _ => Ends (resumeAs .stepping) (planning (withBreakpoints s q) p plan) Q
        | .error _ => Q (.error (.memoryAccess plan.address)) (withBreakpoints s q)) :
    Ends (runPlan plan) s Q := by
  refine (ends_memoryThread s).bind ?_ ?_
  · rintro access _ ⟨rfl, hpresent⟩
    obtain ⟨p, hp⟩ := Option.ne_none_iff_exists'.mp (hpresent access rfl)
    rw [ends_bind, ends_patching]
    refine (hwork access p hp).mono fun r q h => ?_
    cases r with
    | error e => exact h
    | ok _ =>
      let note : Process → Process := fun p => { p with plan := some plan }
      have hmodify : (withBreakpoints s q).tracer.process.map note = some (note p) := by
        rw [process_withBreakpoints, hp]
        rfl
      show Ends (modifyProcess _ >>= _) (withBreakpoints s q) Q
      rw [modifyProcess, ends_modifyTracer_bind, hmodify]
      exact h
  · rintro e _ ⟨rfl, -⟩
    exact hnone e

section Deeds

variable [DeedRelation R]

theorem moves_runPlan (plan : StepPlan) : Moves R (runPlan plan : Tracing κ Unit) := by
  refine moves_memoryThread.bind fun tid => ?_
  refine (moves_work _ (.addPlanned tid plan.address)).bind fun _ => ?_
  exact Moves.bind (moves_noteProcess (fun _ => rfl) fun _ => rfl) fun _ => moves_resumeAs _

theorem moves_step (tid : Nat) (kind : StepKind) : Moves R (step tid kind : Tracing κ Unit) := by
  refine (moves_stoppedThread tid).bind fun tid => ?_
  match kind with
  | .instruction => exact moves_stepInstruction tid _
  | .over =>
    refine (moves_pcOf tid).bind fun pc => (moves_kindAt pc).bind fun found => ?_
    split
    · exact (moves_spOf tid).bind fun sp => moves_runPlan _
    · exact moves_stepInstruction tid _
  | .out =>
    refine (moves_topFrame tid).bind fun top => (moves_layoutAt _).bind fun layout => ?_
    refine (moves_caller layout top).bind fun caller => ?_
    split
    · exact moves_runPlan _
    · exact Moves.throw _

end Deeds

/-! ### Outcomes of steps -/

/-- The process stays as it is. -/
structure SameProcess (s s' : System κ) : Prop where
  process : s'.tracer.process = s.tracer.process

instance : ModulesRelation (SameProcess : System κ → System κ → Prop) where
  refl _ := ⟨rfl⟩
  trans h h' := ⟨h'.process.trans h.process⟩
  look _ _ _ := ⟨rfl⟩
  modules _ _ hprocess _ _ _ _ := ⟨hprocess⟩

/-- A step, if the runs and the steps that it consists of have these outcomes. -/
theorem comes_step {O : System κ → Except DebugError Unit → System κ → Prop} [AsideRelation R]
    [OutcomeRelation R O] (hplan : ∀ plan, Comes O (runPlan plan : Tracing κ Unit))
    (hstep : ∀ (tid : Nat) (reason : StopReason) (s : System κ), s.tracer.process ≠ none →
      Ends (stepInstruction tid reason) s (O s)) (tid : Nat) (kind : StepKind) :
    Comes O (step tid kind : Tracing κ Unit) := by
  intro s
  have hthread : Ends (stoppedThread tid) s fun r s' =>
      s = s' ∧ ∀ u, r = .ok u → s.tracer.process ≠ none := by
    refine (ends_stoppedProcess s).bind ?_ fun _ _ h => ⟨h.1, nofun⟩
    rintro p _ ⟨rfl, hp⟩
    have hpresent : s.tracer.process ≠ none := by
      rw [hp p rfl]
      exact nofun
    dsimp only
    split
    · exact ⟨rfl, fun _ _ => hpresent⟩
    · exact ⟨rfl, nofun⟩
  refine hthread.bind ?_ ?_
  · rintro tid _ ⟨rfl, hpresent⟩
    have hpresent := hpresent tid rfl
    match kind with
    | .instruction => exact hstep tid _ s hpresent
    | .over =>
      -- Looking at the instruction leaves the process where it is.
      have hpc : Ends (pcOf tid) s fun _ t => R s t ∧ SameProcess s t :=
        Ends.and (moves_pcOf tid s) (moves_pcOf tid s)
      refine hpc.bind ?_ fun e t h => OutcomeRelation.quiet (.error e) h.1
      rintro pc t ⟨ht, hsame⟩
      have hkind : Ends (kindAt pc) t fun _ u => R t u ∧ SameProcess t u :=
        Ends.and (moves_kindAt pc t) (moves_kindAt pc t)
      refine hkind.bind ?_ fun e u h => OutcomeRelation.quiet (.error e) (StepRelation.trans ht h.1)
      rintro found u ⟨hu, hsame'⟩
      refine Ends.mono (P := O u) ?_ fun _ _ => OutcomeRelation.after (StepRelation.trans ht hu)
      split
      · exact Comes.bind (moves_spOf tid) (fun sp => hplan _) u
      · refine hstep tid _ u ?_
        rw [hsame'.process, hsame.process]
        exact hpresent
    | .out =>
      refine Comes.bind (moves_topFrame tid) (fun top => ?_) s
      refine Comes.bind (moves_layoutAt _) fun layout => ?_
      refine Comes.bind (moves_caller layout top) fun caller => ?_
      split
      · exact hplan _
      · exact .of_moves (Moves.throw _)
  · rintro e _ ⟨rfl, -⟩
    exact OutcomeRelation.quiet (.error e) (StepRelation.refl _)

/-! ### Letting go of a process -/

/-- The first part of a detach: the process stops, and what the tracer put into it is taken back. The
result says whether the process is let go of then. -/
def takeBack : Tracing κ Bool := do
  let _ ← process
  stopAll
  if ← hasProcess then
    cancelPlan
    patching .ptrace (Patching.disableAll (← memoryThread))
    drainStops
    return true
  else return false

/-- The second part of a detach: the threads go on by themselves. -/
def letGo : Tracing κ Unit := do
  let threads := ((← tracer).process.map (·.threads)).getD []
  modifyTracer fun t => { t with process := none }
  threads.forM fun t => do
    let _ ← attempt (.detach t.tid t.pendingSignal)
  modifyTracer fun t => { t with modules := t.modules.clear }
  modifySnapshot fun s => { s with stop := none }
  publish .detached

theorem detach_eq : (detach : Tracing κ Unit)
    = takeBack >>= fun going => if going then letGo else pure () := by
  simp only [detach, takeBack, bind_assoc]
  refine bind_congr fun _ => bind_congr fun _ => bind_congr fun present => ?_
  cases present with
  | true => simp only [if_true, bind_assoc, pure_bind]; rfl
  | false => rfl

theorem moves_takeBack [ConductRelation R] [WorkRelation R]
    (hcancel : Moves R (cancelPlan : Tracing κ Unit)) : Moves R (takeBack : Tracing κ Bool) := by
  refine moves_process.bind fun _ => moves_stopAll.bind fun _ => moves_hasProcess.bind fun _ => ?_
  split
  · refine hcancel.bind fun _ => moves_memoryThread.bind fun tid => ?_
    exact (moves_work _ (.disableAll tid)).bind fun _ => moves_drainStops.bind fun _ => Moves.pure _
  · exact Moves.pure _

theorem moves_detachThreads [ProbeRelation R] (ts : List Thread) : Moves R (ts.forM fun t => do
    let _ ← attempt (.detach t.tid t.pendingSignal) : Tracing κ Unit) :=
  Moves.forM fun t _ =>
    (moves_probe (c := .detach t.tid t.pendingSignal) rfl).bind fun _ => Moves.pure _

/-- A process that is let go of is gone, and its modules with it. -/
theorem ends_letGo (s : System κ) : Ends letGo s fun r s' => r = .ok () ∧ s'.tracer =
    { s.tracer with
      process := none
      modules := s.tracer.modules.clear
      snapshot := { s.tracer.snapshot with stop := none, state := .detached }
      events := s.tracer.events ++ [.stateChanged .detached] } := by
  have hthreads : ∀ (ts : List Thread) (s : System κ), Ends (ts.forM fun t => do
      let _ ← attempt (.detach t.tid t.pendingSignal) : Tracing κ Unit) s fun r s' =>
        r = .ok () ∧ s'.tracer = s.tracer := by
    intro ts s
    refine Ends.and ?_ ((moves_detachThreads (R := SameTracer) ts s).mono fun _ _ h => h.tracer)
    induction ts generalizing s with
    | nil => rfl
    | cons t ts ih =>
      show Ends ((attempt (.detach t.tid t.pendingSignal) >>= fun _ => pure ()) >>= fun _ =>
        ts.forM _) s _
      rw [bind_assoc, ends_attempt_bind]
      exact ih _
  rw [letGo, ends_tracer_bind]
  dsimp only
  rw [ends_modifyTracer_bind]
  refine (hthreads _ _).bind_eq ?_
  intro t ht
  rw [ends_modifyTracer_bind, modifySnapshot, ends_modifyTracer_bind, ht]
  exact ⟨rfl, rfl⟩

theorem moves_forget [ThreadRelation R] :
    Moves R (modifyTracer fun t => { t with process := none } : Tracing κ Unit) :=
  moves_modifyTracer (fun _ => rfl) (fun _ _ => rfl) fun _ => rfl

section Leaving

variable [HaltRelation R] [ReportRelation R] [WorkRelation R]
  (hforget : Moves R (modifyTracer fun t => { t with process := none } : Tracing κ Unit))

include hforget

omit [HaltRelation R] [WorkRelation R] in
theorem moves_letGo [ProbeRelation R] : Moves R (letGo : Tracing κ Unit) := by
  refine moves_tracer.bind fun t => ?_
  have hclear : Moves R (modifyTracer fun t => { t with modules := t.modules.clear }) :=
    Moves.modify fun s => ShownRelation.shown s _ rfl rfl id
  exact hforget.bind fun _ => (moves_detachThreads _).bind fun _ => hclear.bind fun _ =>
    (moves_modifySnapshot _).bind fun _ => moves_publish _

theorem moves_detach : Moves R (detach : Tracing κ Unit) := by
  rw [detach_eq]
  refine (moves_takeBack moves_cancelPlan).bind fun going => ?_
  split
  · exact moves_letGo hforget
  · exact Moves.pure _

theorem moves_destroy : Moves R (destroy : Tracing κ Unit) := by
  refine moves_tracer.bind fun t => ?_
  split
  · exact Moves.pure _
  · split
    · exact moves_kill
    · exact moves_detach hforget

end Leaving

end DebugAdapter.Tracer.Tracing
