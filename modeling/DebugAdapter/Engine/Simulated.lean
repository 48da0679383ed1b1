import DebugAdapter.Console
import DebugAdapter.Debuggee.Engine
import DebugAdapter.Text.Words

/-!
# The simulated engine

An engine without processes: each target has a few kilobytes of memory, one thread, three registers
and a call stack of two frames, and changes its state at once. Its knobs make it refuse or ignore
requests, so that a session can be tried in every situation.
-/

namespace DebugAdapter.Engine.Simulated

open Debuggee

/-- Switches of behaviour, shared by all targets of an engine. -/
structure Knobs where
  failCreate : Bool
  failLaunch : Bool
  /-- Steps never complete. -/
  hangSteps : Bool
  /-- Interrupts never stop a running process. -/
  ignoreInterrupt : Bool
  /-- The engine breaks down when asked for a call stack. -/
  crashOnCallStack : Bool
  failResume : Bool
  /-- The process starts outside the main executable. -/
  startInLibrary : Bool
  deriving Repr, DecidableEq

/-- All switches off. -/
def Knobs.off : Knobs := ⟨false, false, false, false, false, false, false⟩

/-- The id of every simulated process and of its thread. -/
def processId : Nat := 4242

/-- Where the main executable is loaded. -/
def mainBase : UInt64 := 0x400000

/-- The size of the main executable. -/
def mainSize : Nat := 0x2000

/-- The entry point of the main executable. -/
def entry : UInt64 := 0x401000

/-- A program counter outside the main executable. -/
def libraryPc : UInt64 := 0x7ffff7a01000

/-- The build id of the main executable. -/
def buildId : String := "0011223344556677"

/-- A simulated target. -/
structure Target where
  executable : Option String
  /-- Nobody took the event queue yet. -/
  unsubscribed : Bool
  events : List Event
  state : ProcessState
  pid : Option Nat
  stop : Option StopInfo
  exit : Option Int
  memory : Bytes
  rsp : UInt64
  rax : UInt64
  /-- Installed breakpoints in order of their ids. -/
  breakpoints : List (Nat × UInt64)
  lastBreakpoint : Nat
  stdout : Bytes
  stdin : Bytes
  destroyed : Bool
  deriving Repr

namespace Target

/-- A target without a process. -/
def create (executable : Option String) : Target where
  executable := executable
  unsubscribed := true
  events := []
  state := .unloaded
  pid := none
  stop := none
  exit := none
  memory := List.replicate mainSize 0x90
  rsp := 0x7fffffffe000
  rax := 0
  breakpoints := []
  lastBreakpoint := 0
  stdout := []
  stdin := []
  destroyed := false

/-- The program counter. -/
def pc (t : Target) : UInt64 :=
  match t.stop with
  | some s => s.pc
  | none => entry

/-- Queues an event. -/
def emit (t : Target) (e : Event) : Target :=
  { t with events := t.events ++ [e] }

/-- Changes the state and reports it. -/
def setState (t : Target) (s : ProcessState) : Target :=
  { t with state := s }.emit (.stateChanged s)

/-- Stops with the given details. -/
def stopWith (t : Target) (pc : UInt64) (thread : Nat) (reason : StopReason) : Target :=
  { t with stop := some ⟨thread, pc, reason⟩ }.setState .stopped

/-- The main executable. -/
def mainModule (t : Target) : Module where
  path := t.executable.getD "/bin/mock"
  uuid := some buildId
  loadAddress := mainBase
  fileAddress := mainBase
  size := UInt64.ofNat mainSize
  sections := [⟨".text", entry, some entry, 0x800, 0x800⟩]

/-- Starts the process, stopped for a reason or running. -/
def start (knobs : Knobs) (reason : Option StopReason) (t : Target) : Target :=
  let t := { t.setState .launching with pid := some processId }
  let t := t.emit (.modulesLoaded [t.mainModule])
  match reason with
  | some r => t.stopWith (if knobs.startInLibrary then libraryPc else entry) processId r
  | none => t.setState .running

/-- Whether there is a process. -/
def hasProcess (t : Target) : Bool :=
  t.pid.isSome && !t.state.isTerminal

/-- Why a request to a stopped process is refused, if it is. -/
def stoppedError? (t : Target) : Option DebugError :=
  if !t.hasProcess then some .notStarted
  else if !t.state.isStopped then some .processRunning
  else none

/-- The position of a block of memory, if it lies within the main executable. -/
def memoryAt? (addr : UInt64) (length : Nat) : Option Nat :=
  let start := addr.toNat - mainBase.toNat
  if mainBase ≤ addr ∧ start + length ≤ mainSize then some start else none

/-- The place after a step. -/
def stepTarget (kind : StepKind) (pc : UInt64) : UInt64 × StopReason :=
  match kind with
  | .instruction => (pc + 1, .trace)
  | .over => (pc + 5, .planComplete)
  | .out =>
    if mainBase ≤ pc ∧ pc < mainBase + UInt64.ofNat mainSize then (pc + 0x10, .planComplete)
    else (entry + 0x20, .planComplete)

/-- The outcome of a request together with the target after it. -/
abbrev Outcome (α : Type) := Except Fault α × Target

/-- A request that succeeds. -/
def done {α : Type} (t : Target) (a : α) : Outcome α := (.ok a, t)

/-- A request that is refused. -/
def refused {α : Type} (t : Target) (e : DebugError) : Outcome α := (.error (.error e), t)

/-- A request that needs a stopped process. -/
def whileStopped {α : Type} (t : Target) (f : Outcome α) : Outcome α :=
  match t.stoppedError? with
  | some e => t.refused e
  | none => f

/-- A request that needs a process. -/
def withProcess {α : Type} (t : Target) (f : Outcome α) : Outcome α :=
  if t.hasProcess then f else t.refused .notStarted

/-- A request for a block of memory. -/
def withMemory {α : Type} (t : Target) (addr : UInt64) (length : Nat)
    (f : Nat → Outcome α) : Outcome α :=
  match memoryAt? addr length with
  | some start => f start
  | none => t.refused (.memoryAccess addr)

/-- The frame that calls the current one. -/
def callerPc : UInt64 := entry + 0x100

/-- Answers a request. -/
def answer (knobs : Knobs) (t : Target) : (r : Request) → Outcome r.Answer
  | .launch info =>
    if knobs.failLaunch then t.refused (.failure "launch refused")
    else (t.start knobs (if info.stopAtEntry then some .exec else none)).done ()
  | .attach pid =>
    if pid = 0 then t.refused (.processNotFound pid) else (t.start knobs (some .signal)).done ()
  | .connectRemote .. => t.refused (.unsupported "remote connection")
  | .resume =>
    t.whileStopped
      (if knobs.failResume then t.refused (.failure "resume refused")
        else (t.setState .running).done ())
  | .interrupt =>
    if t.pid.isNone then t.refused .notStarted
    else if t.state.isRunning && !knobs.ignoreInterrupt then
      (t.stopWith t.pc processId .signal).done ()
    else t.done ()
  | .kill => t.withProcess (({ t with exit := some 9 }.setState .exited).done ())
  | .detach => t.withProcess ((t.setState .detached).done ())
  | .destroy =>
    let hadProcess := t.hasProcess
    let t := { t with destroyed := true }
    if hadProcess then (t.setState .exited).done () else t.done ()
  | .step tid kind =>
    t.whileStopped
      (if tid ≠ processId then t.refused (.threadNotFound tid)
        else
          let t := t.setState .stepping
          if knobs.hangSteps then t.done ()
          else
            let (pc, reason) := stepTarget kind t.pc
            (t.stopWith pc tid reason).done ())
  | .threads =>
    match t.pid with
    | none => t.refused .notStarted
    | some pid => t.done [⟨pid, (t.stop.map (·.reason)).getD .none⟩]
  | .setBreakpoint addr =>
    let id := t.lastBreakpoint + 1
    { t with lastBreakpoint := id, breakpoints := t.breakpoints ++ [(id, addr)] }.done ⟨id, addr⟩
  | .removeBreakpoint id =>
    if t.breakpoints.any (·.1 == id) then
      { t with breakpoints := t.breakpoints.filter (·.1 != id) }.done ()
    else t.refused (.breakpointNotFound id)
  | .removeAllBreakpoints => { t with breakpoints := [] }.done ()
  | .readMemory addr length =>
    t.withMemory addr length fun start => t.done ((t.memory.drop start).take length)
  | .writeMemory addr data =>
    t.withMemory addr data.length fun start =>
      { t with
        memory := t.memory.take start ++ data ++ t.memory.drop (start + data.length) }.done
        data.length
  | .registers _ frame =>
    t.whileStopped
      (if frame = 0 then t.done [⟨"rax", t.rax⟩, ⟨"rsp", t.rsp⟩, ⟨"rip", t.pc⟩]
        else if frame = 1 then t.done [⟨"rax", t.rax⟩, ⟨"rsp", t.rsp⟩, ⟨"rip", callerPc⟩]
        else t.refused (.frameNotFound frame))
  | .setRegister tid _ name value =>
    t.whileStopped
      (if name = "rax" then { t with rax := value }.done ()
        else if name = "rsp" then { t with rsp := value }.done ()
        else if name = "rip" then
          let reason := (t.stop.map (·.reason)).getD .none
          { t with stop := some ⟨tid, value, reason⟩ }.done ()
        else t.refused (.registerNotFound name))
  | .callStack _ =>
    if knobs.crashOnCallStack then (.error (.crash (some "corrupted stack")), t)
    else
      t.whileStopped (t.done [⟨t.pc, some "main", some "mock", some buildId⟩,
        ⟨callerPc, some "_start", some "mock", some buildId⟩])
  | .disassemble addr count =>
    t.withMemory addr count fun start =>
      t.done (((t.memory.drop start).take count).zipIdx.map fun (b, i) =>
        ⟨addr + UInt64.ofNat i, [b], if b == 0x90 then "nop" else "(bad)", ""⟩)
  | .modules => t.done (if t.pid.isNone then [] else [t.mainModule])
  | .mainModule => t.done (if t.pid.isNone then none else some t.mainModule)
  | .entryPoint => t.done entry
  | .findReferences addr =>
    if (memoryAt? addr 1).isNone then t.done []
    else
      let at_ := entry + 0x10
      t.done [⟨at_, [0x48, 0x8d, 0x3d, 0, 0, 0, 0], "lea",
        "rdi, [rip + " ++ Text.hexNumber (addr - (at_ + 7)).toNat ++ "]"⟩]
  | .writeStdin data =>
    if t.pid.isNone then t.refused .notStarted
    else { t with stdin := t.stdin ++ data }.done data.length
  | .readStdout limit => { t with stdout := t.stdout.drop limit }.done (t.stdout.take limit)
  | .readStderr _ => t.done []

/-- Answers a query. -/
def observe (t : Target) : (q : Query) → q.Answer × Target
  | .subscribe => (t.unsubscribed, { t with unsubscribed := false })
  | .events => (t.events, { t with events := [] })
  | .processId => (t.pid, t)
  | .state => (t.state, t)
  | .stopInfo => (t.stop, t)
  | .exitStatus => (t.exit, t)

/-- The process writes to its standard output. -/
def pushStdout (t : Target) (data : Bytes) : Target :=
  { t with stdout := t.stdout ++ data }.emit .stdout

/-- The process ends on its own. -/
def exitWith (t : Target) (code : Int) : Target :=
  { t with exit := some code }.setState .exited

end Target

/-- The simulated engine. -/
structure Engine where
  knobs : Knobs
  capabilities : Capabilities
  /-- Raw commands go to the inspection console instead of the interpreter of this engine. -/
  inspects : Bool
  targets : List Target
  deriving Repr

namespace Engine

/-- The features of the engine. -/
def standardCapabilities : Capabilities := ⟨false, true, true⟩

/-- The path of an executable as an error shows it. -/
def pathText : Option String → String
  | some p => "Some(" ++ Text.quoted p ++ ")"
  | none => "None"

/-- The interpreter of raw commands: `echo` and `registers`. -/
def interpret (focus : Focus) (line : String) : Inquiry CommandOutput :=
  if "echo ".toList.isPrefixOf line.toList then
    .done (.success (String.ofList (line.toList.drop 5)))
  else if line = "registers" then
    match focus.target with
    | none => .done (.failure "no process")
    | some t =>
      .request t (.registers (focus.thread.getD 0) focus.frame) fun answer =>
        let rs : List Register := match answer with
          | .ok rs => rs
          | .error _ => []
        .done (.success (String.intercalate "\n"
          (rs.map fun r => r.name ++ " " ++ Text.hexNumber r.value.toNat)))
  else .done (.failure ("unknown command: " ++ line))

/-- The commands that are completed, in alphabetical order. -/
def commands : List String := ["backtrace", "breakpoints", "echo", "registers"]

/-- Answers a call. A request to a target that does not exist breaks the engine down. -/
def answer (e : Engine) : (c : Call) → Except Fault c.Answer × Engine
  | .createTarget executable arch =>
    if e.knobs.failCreate ∨ arch ≠ .x86_64 then
      (.error (.error (.executableNotFound (pathText executable))), e)
    else (.ok e.targets.length, { e with targets := e.targets ++ [Target.create executable] })
  | .rawCommand focus line =>
    (.ok (if e.inspects then Console.execute focus line else interpret focus line), e)
  | .complete line position =>
    let names :=
      if e.inspects then Console.complete line position
      else commands.filter
        (fun c => (Text.beforePosition line position).toList.isPrefixOf c.toList)
    (.ok names, e)
  | .request target r =>
    match e.targets[target]? with
    | none => (.error (.crash none), e)
    | some t =>
      let (a, t) := t.answer e.knobs r
      (a, { e with targets := e.targets.set target t })

/-- Answers a query; a target that does not exist is like one without a process. -/
def observe (e : Engine) (target : Handle) (q : Query) : q.Answer × Engine :=
  match e.targets[target]? with
  | none => (((Target.create none).observe q).1, e)
  | some t =>
    let (a, t) := t.observe q
    (a, { e with targets := e.targets.set target t })

/-- Changes the target that was made last. -/
def modifyLast (e : Engine) (f : Target → Target) : Engine :=
  { e with targets := e.targets.modify (e.targets.length - 1) f }

end Engine

instance : DebugEngine Engine where
  capabilities := Engine.capabilities
  perform c e := e.answer c
  observe t q e := e.observe t q

end DebugAdapter.Engine.Simulated
