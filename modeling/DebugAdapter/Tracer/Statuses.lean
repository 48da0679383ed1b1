import DebugAdapter.Tracer.Stepping

/-!
# Statuses of a running process

While a process runs, the tracer looks for statuses without waiting and handles each: stops are
published, quiet signals are handed on, new threads run on, and the breakpoint of a step plan is
passed by threads that the plan is not about.
-/

namespace DebugAdapter.Tracer.Tracing

open Debuggee
open Linux

variable {κ : Type} [Kernel κ]

/-- The program image was replaced: other threads are gone, and the patches with the memory that
held them. -/
def imageReplaced (tid : Nat) : Tracing κ Unit := do
  let pid := (← process).pid
  let executable ← programOf pid
  modifyProcess fun p =>
    let kept := (p.threads.filter fun t => t.tid = pid ∨ t.tid = tid).map fun t =>
      { t with expectedStops := 0 }
    Process.addThread { p with threads := kept, plan := none, executable } pid
  modifyTracer fun t => { t with breakpoints := .empty }
  markStopped pid
  reportStop ⟨pid, .exec⟩

/-- Whether the step plan ends with the arrival of a thread at an address. -/
def completesPlan (tid : Nat) (address : UInt64) : Tracing κ Bool := do
  match (← process).plan with
  | none => return false
  | some plan =>
    if plan.address = address ∧ plan.tid = tid then return plan.spAbove < (← spOf tid)
    return false

/-- A thread met a breakpoint. One that is there only for a step plan is passed by threads that the
plan is not about, and by calls further in. -/
def breakpointMet (tid : Nat) (address : UInt64) : Tracing κ Unit := do
  setPc tid address
  if ← completesPlan tid address then reportStop ⟨tid, .planComplete⟩
  else if (← tracer).breakpoints.isUserAt address then reportStop ⟨tid, .breakpoint⟩
  else match ← stepThread tid with
    | .done => continueThread tid
    | .signal signal => reportStop ⟨tid, signalReason signal⟩
    | .gone => return ()

/-- A thread stopped by a stop signal. The stop of a new thread may come before the event that
announces it; a late stop signal of the tracer is passed over. -/
def stopSignalSeen (tid : Nat) : Tracing κ Unit := do
  let known := ((← tracer).process.any (·.hasThread tid))
  if !known then
    let _ ← process
    modifyProcess (·.addThread tid)
  else
    markStopped tid
    let requested := (← process).interruptRequested
    let expected ← consumeStop tid
    if expected && !requested then continueThread tid
    else reportStop ⟨tid, .signal⟩

/-- A thread stopped by a trap. -/
def trapSeen (tid : Nat) : Tracing κ Unit := do
  markStopped tid
  match ← trapOf tid with
  | .breakpoint address => breakpointMet tid address
  | .step => reportStop ⟨tid, .trace⟩
  | .programTrap => reportStop ⟨tid, .signal⟩
  | .signal =>
    keepSignal tid .trap
    reportStop ⟨tid, .signal⟩

/-- Handles a status. -/
def handle (status : WaitStatus) : Tracing κ Unit := do
  match status with
  | .exited tid code => threadGone tid (some code)
  | .signaled tid signal => threadGone tid (some signal.number)
  | .event tid n =>
    if n = WaitStatus.cloneEvent then
      let new ← threadCloned tid
      continueThread tid
      continueThread new
    else if n = WaitStatus.execEvent then imageReplaced tid
    else
      markStopped tid
      continueThread tid
  | .stopped tid .stop => stopSignalSeen tid
  | .stopped tid .trap => trapSeen tid
  | .stopped tid signal =>
    markStopped tid
    keepSignal tid signal
    if signal.isQuiet then continueThread tid
    else reportStop ⟨tid, signalReason signal⟩
  | .continued _ => return ()

/-- Handles the statuses that are there, while there is a process; `fuel` bounds their number. An
error in handling one is passed over. -/
def pollFrom : (fuel : Nat) → Tracing κ Unit
  | 0 => return ()
  | fuel + 1 => do
    if ← hasProcess then
      match ← attempt .poll with
      | .ok none => return ()
      | .ok (some status) =>
        let _ ← outcome (handle status)
        pollFrom fuel
      | .error .noChild => processExited none
      | .error _ => return ()

/-- Handles every status that is there. -/
def poll : Tracing κ Unit := do
  pollFrom (Kernel.outstanding (← get).kernel + 1)

end DebugAdapter.Tracer.Tracing
