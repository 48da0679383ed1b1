import DebugAdapter.Tracer.Stepping

/-!
# The life of a traced process

A process is launched by the tracer, or was there before and is attached to. It ends by being
killed, or by being detached from, which takes every patch out of its memory first.
-/

namespace DebugAdapter.Tracer.Tracing

open Debuggee
open Linux

variable {κ : Type} [Kernel κ]

/-- Clones, new images and exits of threads are reported as events. -/
def eventOptions : Nat := 0x58

/-- Launched processes die with the tracer; attached ones live on. -/
def launchOptions : Nat := 0x100000 + eventOptions

/-- Whether a program has started, by a status of its process; it may also have ended. -/
def judgeLaunch (status : WaitStatus) : Tracing κ (Option Unit) := do
  match status with
  | .stopped _ .trap => return some ()
  | .exited _ code => throw (.processExit code)
  | .signaled _ signal => throw (.processExit signal.number)
  | _ => return none

/-- Whether a text holds the character that ends texts of the system. -/
def holdsEndMark (s : String) : Bool :=
  s.toList.contains (Char.ofNat 0)

/-- Starts a program and waits until it is loaded. -/
def startProgram (program : String) (info : LaunchInfo) : Tracing κ Nat := do
  if (program :: info.args ++ info.cwd.toList).any holdsEndMark then
    throw (.data .holdsEndMark)
  let pid ← require .io (.spawn program info)
  match ← await (some pid) judgeLaunch with
  | .ok () =>
    require .ptrace (.setOptions pid launchOptions)
    return pid
  | .error e => throw (.waitpid e)

/-- Tries an operation that makes a process; without one the state is the initial one again. -/
def orUnload {α : Type} (m : Tracing κ α) : Tracing κ α :=
  tryCatch m fun e => do
    publish .unloaded
    throw e

/-- Takes charge of a process. -/
def adopt (p : Process) : Tracing κ Unit := do
  modifyTracer fun t =>
    { t with process := some p, breakpoints := .empty, modules := t.modules.clear }
  modifySnapshot fun s => { s with pid := some p.pid }

/-- Forgets what was published about an earlier process; there must be none now. -/
def begin (state : ProcessState) : Tracing κ Unit := do
  modifySnapshot fun _ => .unloaded
  publish state

/-- Launches the program. -/
def launch (info : LaunchInfo) : Tracing κ Unit := do
  if ← hasProcess then throw .alreadyRun
  match (← tracer).executable with
  | none => throw (.executableNotFound "executable is not set")
  | some program =>
    begin .launching
    let pid ← orUnload (startProgram program info)
    let executable ← programOf pid
    adopt ⟨pid, true, executable, [.new pid], some .empty, false, none⟩
    reportStop ⟨pid, .exec⟩
    if !info.stopAtEntry then resume

/-- What is known of a process while it is attached to. -/
structure Attached where
  /-- The threads that are stopped, in the order of their numbers. -/
  threads : List Thread
  executable : Option String

/-- The thread after the stop that its attach led to; `none` if it is gone. A signal that came first
is kept, and the stop is still to come. -/
def judgeAttach (tid : Nat) (status : WaitStatus) : Tracing κ (Option (Option Thread)) := do
  match status with
  | .stopped _ .stop => return some (some (.new tid))
  | .stopped _ signal => return some (some ⟨tid, false, some signal, 1⟩)
  | .exited .. | .signaled .. => return some none
  | _ => return none

/-- Attaches to a thread of a process. A thread that is not the main one may be gone by now. -/
def attachThread (pid tid : Nat) : Tracing κ (Option Thread) := do
  match ← attempt (.attach tid) with
  | .error .noProcess => if tid = pid then throw (.processNotFound pid) else return none
  | .error e => throw (.attach e)
  | .ok () =>
    match ← await (some tid) (judgeAttach tid) with
    | .error e => throw (.attach e)
    | .ok none => return none
    | .ok (some thread) =>
      require .ptrace (.setOptions tid eventOptions)
      return some thread

/-- Attaches to threads of a process, besides those attached to before. -/
def attachThreads (pid : Nat) : List Nat → List Thread → Tracing κ (List Thread)
  | [], attached => return attached
  | tid :: r, attached => do
    match ← attachThread pid tid with
    | some thread => attachThreads pid r (Process.insertThread thread attached)
    | none => attachThreads pid r attached

/-- The numbers of a list in increasing order, each once. -/
def ascending (xs : List Nat) : List Nat :=
  xs.foldr (fun x acc => insert x acc) []
where
  /-- Adds a number in its place unless it is there. -/
  insert (x : Nat) : List Nat → List Nat
    | [] => [x]
    | y :: r => if x = y then y :: r else if x < y then x :: y :: r else y :: insert x r

/-- Attaches to the threads of a process in rounds: threads that appear during a round are found by
the next one. -/
def attachRounds (pid : Nat) : (rounds : Nat) → Attached → Tracing κ Attached
  | 0, a => return a
  | rounds + 1, a => do
    match Kernel.process? (← get).kernel pid with
    | none => if a.threads.isEmpty then throw (.processNotFound pid) else return a
    | some entry =>
      let known := a.threads.map (·.tid)
      let new := (ascending (pid :: entry.threads)).filter (!known.contains ·)
      let threads ← attachThreads pid new a.threads
      attachRounds pid rounds ⟨threads, entry.executable⟩

/-- Attaches to a process. -/
def attach (pid : Nat) : Tracing κ Unit := do
  if ← hasProcess then throw .alreadyRun
  begin .attaching
  let attached ← orUnload (attachRounds pid 2 ⟨[], none⟩)
  modifyTracer fun t => { t with executable := t.executable <|> attached.executable }
  let executable ← programOf pid
  adopt ⟨pid, false, executable, attached.threads, none, false, none⟩
  reportStop ⟨pid, .signal⟩

/-- Asks the process to stop, by a stop signal to its main thread if that runs, otherwise to another
one. The stop is published when it comes. -/
def interrupt : Tracing κ Unit := do
  let p ← process
  let running := p.runningThreads
  let target := if running.contains p.pid then some p.pid else running.head?
  match target with
  | none => return ()
  | some tid =>
    require (.syscall "tgkill") (.killThread p.pid tid .stop)
    expectStop tid
    modifyProcess fun p => { p with interruptRequested := true }

/-- The exit status of a process that is being killed, by a status of any thread. -/
def judgeKill (pid : Nat) (status : WaitStatus) : Tracing κ (Option Int) := do
  match status with
  | .exited tid code => return if tid = pid then some code else none
  | .signaled tid signal => return if tid = pid then some signal.number else none
  | .event tid n =>
    if n = WaitStatus.exitEvent then letExit tid
    return none
  | _ => return none

/-- Kills the process. -/
def kill : Tracing κ Unit := do
  let pid := (← process).pid
  require (.syscall "kill") (.kill pid .kill)
  match ← await none (judgeKill pid) with
  | .ok status => processExited (some status)
  | .error .noChild => processExited (some Signal.kill.number)
  | .error e => throw (.waitpid e)

/-- The most times that a thread is run to receive a stop signal. -/
def maxDrains : Nat := 3

/-- Lets a thread receive the stop signals that the tracer sent to it. -/
def drainThread (tid : Nat) : (count : Nat) → Tracing κ Unit
  | 0 => return ()
  | count + 1 => do
    if (← expectedStops tid) = 0 then return ()
    continueThread tid
    awaitStop tid
    drainThread tid count

/-- Lets every thread receive the stop signals that the tracer sent: they would stop a process that
is not traced any more. -/
def drainStops : Tracing κ Unit := do
  let waiting := (← process).threads.filter fun t => 0 < t.expectedStops
  (waiting.map (·.tid)).forM (drainThread · maxDrains)

/-- Leaves the process to itself. -/
def detach : Tracing κ Unit := do
  let _ ← process
  stopAll
  if ← hasProcess then
    cancelPlan
    patching .ptrace (Patching.disableAll (← memoryThread))
    drainStops
    let threads := ((← tracer).process.map (·.threads)).getD []
    modifyTracer fun t => { t with process := none }
    threads.forM fun t => do
      let _ ← attempt (.detach t.tid t.pendingSignal)
    modifyTracer fun t => { t with modules := t.modules.clear }
    modifySnapshot fun s => { s with stop := none }
    publish .detached

/-- Ends tracing: a launched process is killed, an attached one is left to itself. -/
def destroy : Tracing κ Unit := do
  match (← tracer).process with
  | none => return ()
  | some p => if p.launched then kill else detach

end DebugAdapter.Tracer.Tracing
