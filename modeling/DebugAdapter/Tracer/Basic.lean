import DebugAdapter.Debuggee.Output
import DebugAdapter.Machine.References
import DebugAdapter.Tracer.Breakpoints
import DebugAdapter.Tracer.Modules

/-!
# The state of a tracer

A tracer controls one process through the kernel. It knows the threads of the process, whether each
runs, the signal that each gets when it runs next, and how many stop signals that the tracer sent
to it were not seen yet. It publishes a snapshot and a queue of events, which are all that others
see of the process between requests.

An operation of a tracer is a step of the machine whose state is the kernel and the tracer. An
operation that fails keeps what it changed.

All-stop: while the published state says that the process is stopped, no thread runs.
-/

namespace DebugAdapter.Tracer

open Debuggee
open Linux
open Machine (ReferenceCache)

/-- A thread of a traced process. -/
structure Thread where
  tid : Nat
  running : Bool
  /-- The signal that the thread gets when it runs next. -/
  pendingSignal : Option Signal
  /-- The stop signals that the tracer sent and has not seen yet. -/
  expectedStops : Nat
  deriving Repr, DecidableEq

/-- A stopped thread that the tracer did not touch yet. -/
def Thread.new (tid : Nat) : Thread := ⟨tid, false, none, 0⟩

/-- A step that runs to an address, where the stack must be above a bound. -/
structure StepPlan where
  tid : Nat
  address : UInt64
  spAbove : UInt64
  deriving Repr, DecidableEq

/-- A traced process. -/
structure Process where
  pid : Nat
  /-- Started by the tracer; otherwise attached. -/
  launched : Bool
  /-- The path of its program. -/
  executable : Option String
  /-- In the order of their numbers. -/
  threads : List Thread
  /-- What was sent to it, if its input is connected. -/
  input : Option InputQueue
  interruptRequested : Bool
  plan : Option StepPlan
  deriving Repr, DecidableEq

namespace Process

/-- The thread with a number. -/
def thread? (p : Process) (tid : Nat) : Option Thread :=
  p.threads.find? (·.tid == tid)

/-- Whether a thread is known. -/
def hasThread (p : Process) (tid : Nat) : Bool :=
  p.threads.any (·.tid == tid)

/-- Adds a thread in its place, unless it is known. -/
def insertThread (t : Thread) : List Thread → List Thread
  | [] => [t]
  | u :: r =>
    if t.tid = u.tid then u :: r
    else if t.tid < u.tid then t :: u :: r
    else u :: insertThread t r

/-- Adds a stopped thread, unless it is known. -/
def addThread (p : Process) (tid : Nat) : Process :=
  { p with threads := insertThread (.new tid) p.threads }

/-- Changes a thread. -/
def modifyThread (p : Process) (tid : Nat) (f : Thread → Thread) : Process :=
  { p with threads := p.threads.map fun t => if t.tid = tid then f t else t }

/-- Forgets a thread. -/
def removeThread (p : Process) (tid : Nat) : Process :=
  { p with threads := p.threads.filter (·.tid ≠ tid) }

/-- The numbers of the threads. -/
def threadIds (p : Process) : List Nat := p.threads.map (·.tid)

/-- The numbers of the threads that run. -/
def runningThreads (p : Process) : List Nat :=
  (p.threads.filter (·.running)).map (·.tid)

/-- Whether a thread runs. -/
def isRunning (p : Process) : Bool := p.threads.any (·.running)

/-- A stopped thread for access to memory; the main thread if it is stopped. -/
def memoryThread? (p : Process) : Option Nat :=
  match p.threads.find? fun t => t.tid == p.pid && !t.running with
  | some t => some t.tid
  | none => (p.threads.find? fun t => !t.running).map (·.tid)

end Process

/-- The state of a tracer. -/
structure State where
  /-- The program to launch. -/
  executable : Option String
  snapshot : Snapshot
  output : ProcessOutput
  /-- Events that nobody took yet, in order. -/
  events : List Event
  modules : ModuleRegistry
  breakpoints : BreakpointTable
  references : ReferenceCache
  process : Option Process

/-- A tracer without a process. -/
def State.new (executable : Option String) : State :=
  ⟨executable, .unloaded, .empty, [], .empty, .empty, .empty, none⟩

/-- A kernel and a tracer that uses it. -/
structure System (κ : Type) where
  kernel : κ
  tracer : State

/-- Operations of a tracer, up to the first error. -/
abbrev Tracing (κ : Type) := ExceptT DebugError (StateM (System κ))

/-- What stopped a process: a thread and a reason. -/
structure Stop where
  tid : Nat
  reason : StopReason
  deriving Repr, DecidableEq

namespace Tracing

variable {κ : Type} [Kernel κ]

/-! ### Access to the state -/

/-- The state of the tracer. -/
def tracer : Tracing κ State :=
  return (← get).tracer

/-- Changes the state of the tracer. -/
def modifyTracer (f : State → State) : Tracing κ Unit :=
  modify fun s => { s with tracer := f s.tracer }

/-- An outcome as an operation. -/
def ofOutcome {α : Type} (r : Except DebugError α) : Tracing κ α :=
  ExceptT.mk (pure r)

/-- The outcome of an operation that may fail. -/
def outcome {α : Type} (m : Tracing κ α) : Tracing κ (Except DebugError α) :=
  ExceptT.lift m.run

/-- Makes a system call that may fail. -/
def attempt (c : SystemCall) : Tracing κ (Except OsError c.Answer) :=
  ExceptT.lift (StateT.mk fun s =>
    let (r, kernel) := Kernel.perform c s.kernel
    (r, { s with kernel }))

/-- Makes a system call whose failure is an error. -/
def require (error : OsError → DebugError) (c : SystemCall) : Tracing κ c.Answer := do
  match ← attempt c with
  | .ok a => return a
  | .error e => throw (error e)

/-- Reads files through the kernel. -/
def files : Tracing κ Files := do
  let k := (← get).kernel
  return fun path => Kernel.file k path

/-- Works on the modules. -/
def onModules {α : Type} (m : StateM ModuleRegistry α) : Tracing κ α := do
  let (a, modules) := m.run (← tracer).modules
  modifyTracer fun t => { t with modules }
  return a

/-- Works on the breakpoints; a system call may fail. -/
def attemptPatching {α : Type} (p : Patching κ α) : Tracing κ (Except OsError α) :=
  ExceptT.lift (StateT.mk fun s =>
    let (r, patched) := p.run.run ⟨s.kernel, s.tracer.breakpoints⟩
    (r, ⟨patched.kernel, { s.tracer with breakpoints := patched.table }⟩))

/-- Works on the breakpoints; the failure of a system call is an error. -/
def patching {α : Type} (error : OsError → DebugError) (p : Patching κ α) : Tracing κ α := do
  match ← attemptPatching p with
  | .ok a => return a
  | .error e => throw (error e)

/-- The process, which must be there. -/
def process : Tracing κ Process := do
  match (← tracer).process with
  | some p => return p
  | none => throw .notStarted

/-- Whether there is a process. -/
def hasProcess : Tracing κ Bool :=
  return (← tracer).process.isSome

/-- Changes the process if there is one. -/
def modifyProcess (f : Process → Process) : Tracing κ Unit :=
  modifyTracer fun t => { t with process := t.process.map f }

/-- Changes a thread if it is known. -/
def modifyThread (tid : Nat) (f : Thread → Thread) : Tracing κ Unit :=
  modifyProcess fun p => p.modifyThread tid f

/-- The process, which must not run. -/
def stoppedProcess : Tracing κ Process := do
  let p ← process
  if p.isRunning then throw .processRunning
  return p

/-- A stopped thread for access to memory. -/
def memoryThread : Tracing κ Nat := do
  match (← process).memoryThread? with
  | some tid => return tid
  | none => throw .processRunning

/-- The thread that a number from outside names: thread numbers have 32 bits. The process must not
run. -/
def stoppedThread (tid : Nat) : Tracing κ Nat := do
  let p ← stoppedProcess
  let known := tid % halfLimit
  if p.hasThread known then return known
  throw (.threadNotFound tid)

/-! ### Publishing -/

/-- Sends an event. -/
def emit (e : Event) : Tracing κ Unit :=
  modifyTracer fun t => { t with events := t.events ++ [e] }

/-- Changes the snapshot. -/
def modifySnapshot (f : Snapshot → Snapshot) : Tracing κ Unit :=
  modifyTracer fun t => { t with snapshot := f t.snapshot }

/-- Publishes a state. -/
def publish (s : ProcessState) : Tracing κ Unit := do
  modifySnapshot fun snapshot => { snapshot with state := s }
  emit (.stateChanged s)

/-! ### Threads -/

/-- A thread does not run any more. -/
def markStopped (tid : Nat) : Tracing κ Unit :=
  modifyThread tid fun t => { t with running := false }

/-- Keeps a signal for the next run of a thread. -/
def keepSignal (tid : Nat) (signal : Signal) : Tracing κ Unit :=
  modifyThread tid fun t => { t with pendingSignal := some signal }

/-- Takes the signal that a thread gets when it runs next. -/
def takeSignal (tid : Nat) : Tracing κ (Option Signal) := do
  let signal := ((← tracer).process.bind (·.thread? tid)).bind (·.pendingSignal)
  modifyThread tid fun t => { t with pendingSignal := none }
  return signal

/-- Counts a stop signal that the tracer sent to a thread. -/
def expectStop (tid : Nat) : Tracing κ Unit :=
  modifyThread tid fun t => { t with expectedStops := t.expectedStops + 1 }

/-- The stop signals to a thread that were not seen yet. -/
def expectedStops (tid : Nat) : Tracing κ Nat :=
  return (((← tracer).process.bind (·.thread? tid)).map (·.expectedStops)).getD 0

/-- Counts a stop signal that was seen; `true` if the tracer sent it. -/
def consumeStop (tid : Nat) : Tracing κ Bool := do
  if (← expectedStops tid) = 0 then return false
  modifyThread tid fun t => { t with expectedStops := t.expectedStops - 1 }
  return true

/-- The process is gone, with an exit status if it is known. -/
def processExited (status : Option Int) : Tracing κ Unit := do
  modifyTracer fun t =>
    { t with process := none, breakpoints := .empty, modules := t.modules.clear }
  modifySnapshot fun snapshot => { snapshot with stop := none, exit := status }
  publish .exited

/-- A thread is gone; with the main thread the process is. -/
def threadGone (tid : Nat) (status : Option Int) : Tracing κ Unit := do
  match (← tracer).process with
  | none => return ()
  | some p =>
    modifyProcess (·.removeThread tid)
    if tid = p.pid then processExited status

/-! ### Registers -/

/-- The registers of a thread. -/
def registersOf (tid : Nat) : Tracing κ Machine.RegisterFile :=
  require .ptrace (.getRegisters tid)

/-- The program counter of a thread. -/
def pcOf (tid : Nat) : Tracing κ UInt64 :=
  return (← registersOf tid).pc

/-- The stack pointer of a thread. -/
def spOf (tid : Nat) : Tracing κ UInt64 :=
  return (← registersOf tid).sp

/-- Moves a thread to an address. -/
def setPc (tid : Nat) (pc : UInt64) : Tracing κ Unit := do
  let regs ← registersOf tid
  require .ptrace (.setRegisters tid (regs.set .rip pc))

/-- Whether a breakpoint is in place where a thread stands. -/
def isAtBreakpoint (tid : Nat) : Tracing κ Bool := do
  match ← attempt (.getRegisters tid) with
  | .ok regs => return (← tracer).breakpoints.isEnabledAt regs.pc
  | .error _ => return false

/-! ### Modules -/

/-- The path of the entry of a process in the file system. -/
def processPath (pid : Nat) (name : String) : String :=
  "/proc/" ++ Text.decimal pid ++ "/" ++ name

/-- The program of a process. -/
def programOf (pid : Nat) : Tracing κ (Option String) :=
  return Kernel.linkTarget? (← get).kernel (processPath pid "exe")

/-- Looks at the modules again and sends events about changes. -/
def syncModules : Tracing κ Unit := do
  match (← tracer).process with
  | none => return ()
  | some p =>
    let files ← files
    let map := files (processPath p.pid "maps")
    match ← onModules (ModuleRegistry.refresh files p.executable map).run with
    | .error _ => return ()
    | .ok changes =>
      if !changes.unloaded.isEmpty then emit (.modulesUnloaded changes.unloaded)
      if !changes.loaded.isEmpty then emit (.modulesLoaded changes.loaded)

/-! ### Waiting -/

/-- Waits for statuses of a thread, or of any, until one gives a result; `fuel` bounds their
number. -/
def awaitFrom {α : Type} (tid : Option Nat) (judge : WaitStatus → Tracing κ (Option α)) :
    (fuel : Nat) → Tracing κ (Except OsError α)
  | 0 => return .error .noChild
  | fuel + 1 => do
    match ← attempt (.wait tid) with
    | .error e => return .error e
    | .ok status =>
      match ← judge status with
      | some a => return .ok a
      | none => awaitFrom tid judge fuel

/-- Waits for statuses of a thread, or of any, until one gives a result. -/
def await {α : Type} (tid : Option Nat) (judge : WaitStatus → Tracing κ (Option α)) :
    Tracing κ (Except OsError α) := do
  awaitFrom tid judge (Kernel.outstanding (← get).kernel + 1)

/-- Lets a thread go on that is about to exit. -/
def letExit (tid : Nat) : Tracing κ Unit := do
  let _ ← attempt (.resume tid none)

/-- Takes note of the new thread that a clone event of a thread announces; it stays stopped. The
stop that it starts with may have been seen already. -/
def threadCloned (tid : Nat) : Tracing κ Nat := do
  let new ← require .ptrace (.eventMessage tid)
  if !(← process).hasThread new then
    let started ← await (some new) fun status => match status with
      | .stopped .. | .event .. => return some ()
      | _ => return none
    match started with
    | .ok () => modifyProcess (·.addThread new)
    | .error e => throw (.waitpid e)
  markStopped tid
  return new

/-- The cause of a trap. -/
inductive Trap where
  | breakpoint (address : UInt64)
  | step
  /-- A trap instruction of the program. -/
  | programTrap
  | signal
  deriving Repr, DecidableEq

/-- The cause of the trap that stopped a thread, by the code of its signal: one and 128 for a trap
instruction, two for a step. -/
def trapOf (tid : Nat) : Tracing κ Trap := do
  match ← attempt (.signalCode tid) with
  | .error .noProcess => return .signal
  | .error e => throw (.ptrace e)
  | .ok code =>
    if code = 1 ∨ code = 0x80 then
      let address := (← pcOf tid) - 1
      if (← tracer).breakpoints.isEnabledAt address then return .breakpoint address
      return .programTrap
    else if code = 2 then return .step
    else return .signal

end Tracing

end DebugAdapter.Tracer
