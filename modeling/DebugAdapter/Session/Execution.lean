import DebugAdapter.Session.Basic

/-!
# Running and stepping

Commands that let the process run, halt it, or execute a piece of it. Whether a halt or a step came
to its end is only watched for a bounded time; when it did not, the reply says so and the session
itself reports the last known place.
-/

namespace DebugAdapter.Session

open Debuggee (DebugEngine DebugError Handle StepKind StopInfo)
open Wire (Notification Response)

variable {ε : Type} [DebugEngine ε]

/-- Lets the process run. -/
def resume : Action ε Response := do
  let t ← target
  orRefuse "continue" (← control t .resume)
  resetFocus
  return .ok

/-- Asks for a halt and does not wait for it. -/
def interrupt : Action ε Response := do
  let t ← target
  orRefuse "interrupt" (← control t .interrupt)
  return .ok

/-- Ends the process. -/
def kill : Action ε Response := do
  let t ← target
  orRefuse "kill" (← control t .kill)
  return .ok

/-- Whether the process is halted or gone. -/
def hasCome (t : Handle) : Action ε Bool := do
  let state ← observe t .state
  return state.isStopped || state.isTerminal

/-- Asks for a halt, waits a bit for it, and reports a stop in any case. -/
def forceStopAndReport : Action ε Response := do
  let t ← target
  let _ ← control t .interrupt
  let _ ← (← get).settings.interrupt.poll (hasCome t)
  notify (stoppedNotification (← observe t .stopInfo))
  let _ ← activeTarget
  resetFocus
  return .ok

/-- The selected thread, or the thread of the last stop, or the first thread. -/
def currentThread : Action ε Nat := do
  let a ← activeTarget
  match a.selectedThread with
  | some tid => return tid
  | none =>
    match ← observe a.target .stopInfo with
    | some stop => return stop.thread
    | none =>
      let threads ← request a.target .threads "threads"
      match threads with
      | th :: _ => return th.tid
      | [] => refuse .noThreadSelected

/-- Halts a running process before a step; `false` if it still runs. -/
def ensureStopped (t : Handle) : Action ε Bool := do
  let state ← observe t .state
  if state.isRunning then
    let _ ← control t .interrupt
    let look : Action ε Bool := do
      let state ← observe t .state
      return !state.isRunning
    return (← (← get).settings.interrupt.poll look).isReady
  else return true

/-- The result of a bounded step. -/
structure StepOutcome where
  thread : Nat
  pc : UInt64
  completed : Bool
  deriving Repr, DecidableEq

/-- The program counter of the last stop, zero if there was none. -/
def lastPc (stop : Option StopInfo) : UInt64 :=
  match stop with
  | some s => s.pc
  | none => 0

/-- Steps the current thread and waits a bounded time for the end of the step. -/
def boundedStep (kind : StepKind) : Action ε StepOutcome := do
  let t ← target
  if (← observe t .state).isTerminal then refuse .noProcess
  let halted ← ensureStopped t
  let thread ← currentThread
  let pcBefore := lastPc (← observe t .stopInfo)
  let completed ←
    if halted then
      orRefuse "step" (← control t (.step thread kind))
      pure (← (← get).settings.step.policy.poll (hasCome t)).isReady
    else pure false
  let (thread, pc) := match ← observe t .stopInfo with
    | some stop => if completed then (stop.thread, stop.pc) else (thread, pcBefore)
    | none => (thread, pcBefore)
  unless completed do
    let reason := match ← observe t .stopInfo with
      | some stop => stop.reason.name
      | none => "Trace"
    notify (.stopped reason thread pc)
  let _ ← activeTarget
  resetFocus
  return ⟨thread, pc, completed⟩

/-- A bounded step; that it did not end in time is no error. -/
def step (kind : StepKind) : Action ε Response := do
  let o ← boundedStep kind
  return ((Response.ok.withMember "threadId" (Json.ofNat o.thread)).withMember "pc"
    (Json.ofWord o.pc)).withMember "completed" (.bool o.completed)

/-- How far a search for user code came. -/
structure Hops where
  thread : Nat
  pc : UInt64
  hops : Nat
  deriving Repr, DecidableEq

/-- Steps out at most `left` times, until the program counter satisfies `arrived` or a step does not
end in time. -/
def hopWith (arrived : UInt64 → Bool) : (left : Nat) → Hops → Action ε Hops
  | 0, h => return h
  | left + 1, h => do
    if arrived h.pc then return h
    else
      let o ← boundedStep .out
      let h : Hops := ⟨o.thread, o.pc, h.hops + 1⟩
      if o.completed then hopWith arrived left h else return h

/-- Steps out until the program counter lies in the main executable. -/
def stepUntilUserCode : Action ε Response := do
  let t ← target
  let main ← match ← request t .mainModule "main module" with
    | some m => pure m
    | none => refuse (.engine "main module" .noMainModule)
  let pc := lastPc (← observe t .stopInfo)
  let thread ← currentThread
  let h ← hopWith main.contains (← get).settings.step.maxHops ⟨thread, pc, 0⟩
  return (((Response.ok.withMember "reached" (.bool (main.contains h.pc))).withMember "threadId"
    (Json.ofNat h.thread)).withMember "pc" (Json.ofWord h.pc)).withMember "hops"
    (Json.ofNat h.hops)

end DebugAdapter.Session
