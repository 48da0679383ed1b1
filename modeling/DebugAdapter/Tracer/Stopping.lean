import DebugAdapter.Tracer.Basic

/-!
# Stopping a process

A process stops as a whole: when one thread stops, every thread that runs is sent a stop signal and
awaited before the stop is published. What a thread reports instead of the stop signal is kept: a
signal waits for the next run of the thread, and a breakpoint is undone so that the thread meets it
again.
-/

namespace DebugAdapter.Tracer.Tracing

open Debuggee
open Linux

variable {κ : Type} [Kernel κ]

/-- Takes note of a status of an awaited thread; `none` if the wait goes on. The result says whether
the thread is still there. -/
def settle (tid : Nat) (status : WaitStatus) : Tracing κ (Option Bool) := do
  match status with
  | .stopped _ .stop =>
    let _ ← consumeStop tid
    return some true
  | .stopped _ .trap =>
    match ← trapOf tid with
    | .breakpoint address => setPc tid address
    | .step | .programTrap => return some true
    | .signal => keepSignal tid .trap
    return some true
  | .stopped _ signal =>
    keepSignal tid signal
    return some true
  | .event _ n =>
    if n = WaitStatus.cloneEvent then
      let _ ← threadCloned tid
      return some true
    else if n = WaitStatus.exitEvent then
      letExit tid
      return none
    else return some true
  | .exited _ code =>
    threadGone tid (some code)
    return some false
  | .signaled _ signal =>
    threadGone tid (some signal.number)
    return some false
  | .continued _ => return none

/-- Waits until a thread stops for any reason. -/
def awaitStop (tid : Nat) : Tracing κ Unit := do
  match ← await (some tid) (settle tid) with
  | .ok true => markStopped tid
  | .ok false => return ()
  | .error .noChild => threadGone tid none
  | .error e => throw (.waitpid e)

/-- Stops a thread that runs. -/
def stopThread (tid : Nat) : Tracing κ Unit := do
  let pid := (← process).pid
  match ← attempt (.killThread pid tid .stop) with
  | .ok () =>
    expectStop tid
    awaitStop tid
  | .error .noProcess => threadGone tid none
  | .error e => throw (.syscall "tgkill" e)

/-- Stops some threads, while there is a process. -/
def stopThreads : List Nat → Tracing κ Unit
  | [] => return ()
  | tid :: r => do
    stopThread tid
    if ← hasProcess then stopThreads r

/-- Stops every thread that runs. -/
def stopAll : Tracing κ Unit := do
  match (← tracer).process with
  | none => return ()
  | some p => stopThreads p.runningThreads

/-- Drops the step plan with its breakpoint. -/
def cancelPlan : Tracing κ Unit := do
  match (← tracer).process with
  | none => return ()
  | some p =>
    modifyProcess fun p => { p with plan := none }
    match p.plan, p.memoryThread? with
    | some plan, some tid =>
      let _ ← attemptPatching (Patching.removePlanned tid plan.address)
    | _, _ => return ()

/-- Publishes a stop, after all threads were stopped. -/
def reportStop (stop : Stop) : Tracing κ Unit := do
  stopAll
  if ← hasProcess then
    cancelPlan
    modifyProcess fun p => { p with interruptRequested := false }
    let pc : UInt64 ← match ← attempt (.getRegisters stop.tid) with
      | .ok regs => pure regs.pc
      | .error _ => pure 0
    modifySnapshot fun s => { s with stop := some ⟨stop.tid, pc, stop.reason⟩ }
    syncModules
    publish .stopped

/-- The reason of a stop by a signal. -/
def signalReason (signal : Signal) : StopReason :=
  if signal.isFault then .exception else .signal

end DebugAdapter.Tracer.Tracing
