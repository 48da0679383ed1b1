import DebugAdapter.Tracer.Stopping

/-!
# Steps and runs

A thread steps by one instruction; a breakpoint under it is lifted for the step. Stop signals of the
tracer, quiet signals and events interrupt a step, which then starts again, at most `maxSteps` times
in all. A process runs by letting each of its threads run; the thread that reported the last stop
first steps off its breakpoint. Longer steps are plans: run until a thread arrives at an address in
the right frame.
-/

namespace DebugAdapter.Tracer

/-- How a step of a thread ended. -/
inductive Stepped where
  | done
  /-- A signal came instead; the instruction may not be executed. -/
  | signal (s : Linux.Signal)
  /-- The thread is gone. -/
  | gone
  deriving Repr, DecidableEq

namespace Tracing

open Debuggee
open Linux

variable {κ : Type} [Kernel κ]

/-- Lets a thread run with its pending signal. A thread that is about to exit cannot be run. -/
def continueThread (tid : Nat) : Tracing κ Unit := do
  let known := ((← tracer).process.bind (·.thread? tid)).isSome
  if known then
    let signal ← takeSignal tid
    match ← attempt (.resume tid signal) with
    | .ok () => modifyThread tid fun t => { t with running := true }
    | .error .noProcess => return ()
    | .error e => throw (.ptrace e)

/-- The most times that a step is started. -/
def maxSteps : Nat := 17

/-- What a status means for a thread that steps: `none` if the wait goes on, otherwise the end of
the step or, without one, that it has to be started again. -/
def judgeStep (tid : Nat) (status : WaitStatus) : Tracing κ (Option (Option Stepped)) := do
  match status with
  | .stopped _ .trap => return some (some .done)
  | .stopped _ .stop =>
    if ← consumeStop tid then return some none
    return some (some (.signal .stop))
  | .stopped _ signal =>
    keepSignal tid signal
    if signal.isQuiet then return some none
    return some (some (.signal signal))
  | .event _ n =>
    if n = WaitStatus.cloneEvent then
      let _ ← threadCloned tid
      return some none
    else if n = WaitStatus.exitEvent then
      letExit tid
      return none
    else return some none
  | .exited _ code =>
    threadGone tid (some code)
    return some (some .gone)
  | .signaled _ signal =>
    threadGone tid (some signal.number)
    return some (some .gone)
  | .continued _ => return none

/-- Starts a step of a thread with its pending signal, at most `count` times. -/
def stepFrom (tid : Nat) : (count : Nat) → Tracing κ Stepped
  | 0 => throw (.stepNotCompleted maxSteps)
  | count + 1 => do
    let signal ← takeSignal tid
    match ← attempt (.step tid signal) with
    | .error .noProcess => return .gone
    | .error e => throw (.ptrace e)
    | .ok () =>
      match ← await (some tid) (judgeStep tid) with
      | .ok (some stepped) => return stepped
      | .ok none => stepFrom tid count
      | .error .noChild =>
        threadGone tid none
        return .gone
      | .error e => throw (.waitpid e)

/-- Lets a thread execute one instruction. -/
def singleStep (tid : Nat) : Tracing κ Stepped :=
  stepFrom tid maxSteps

/-- Lets a thread execute one instruction; a breakpoint under it is lifted meanwhile. -/
def stepThread (tid : Nat) : Tracing κ Stepped := do
  let pc ← pcOf tid
  if (← tracer).breakpoints.isEnabledAt pc then
    patching .ptrace (Patching.disable tid pc)
    let stepped ← singleStep tid
    if ← hasProcess then
      patching .ptrace (Patching.enable (← memoryThread) pc)
    return stepped
  else singleStep tid

/-- Lets the process run in a published state. Only the thread that reported the last stop steps off
its breakpoint: the others were moved back and must meet theirs again. -/
def resumeAs (state : ProcessState) : Tracing κ Unit := do
  let stopped := (← tracer).snapshot.stop
  let interruption : Option Stop ← match stopped with
    | none => pure none
    | some stop =>
      let tid := stop.thread % halfLimit
      if ← isAtBreakpoint tid then
        match ← stepThread tid with
        | .signal signal => pure (some ⟨tid, signalReason signal⟩)
        | _ => pure none
      else pure none
  match interruption with
  | some stop => reportStop stop
  | none =>
    if stopped.isSome && !(← hasProcess) then return ()
    publish state
    (← process).threadIds.forM continueThread

/-- Lets the process run. -/
def resume : Tracing κ Unit := do
  let _ ← stoppedProcess
  resumeAs .running

/-- Steps a thread by one instruction and publishes the stop. -/
def stepInstruction (tid : Nat) (reason : StopReason) : Tracing κ Unit := do
  publish .stepping
  let stepped ← stepThread tid
  match (← tracer).process with
  | none => return ()
  | some p =>
    reportStop <| match stepped with
      | .done => ⟨tid, reason⟩
      | .signal signal => ⟨tid, signalReason signal⟩
      | .gone => ⟨p.pid, .threadExiting⟩

/-- Runs until a thread arrives at an address with its stack above a bound. -/
def runPlan (plan : StepPlan) : Tracing κ Unit := do
  patching (fun _ => .memoryAccess plan.address)
    (Patching.addPlanned (← memoryThread) plan.address)
  modifyProcess fun p => { p with plan := some plan }
  resumeAs .stepping

end Tracing

end DebugAdapter.Tracer
