import DebugAdapter.Console
import DebugAdapter.Debuggee.Engine

/-!
# The scripted engine

An engine whose every answer is written down beforehand: for each kind of request a list of entries,
of which each request takes the next and the last one repeats. An entry can change what the target
publishes, queue events, and then break down, fail or succeed with a value.
-/

namespace DebugAdapter.Engine.Scripted

open Debuggee

/-- A change of what a target publishes; parts that are missing stay as they are, and output is
appended. -/
structure Update where
  /-- Each query for the state takes the next one, and the last stays. -/
  states : Option (List ProcessState)
  stop : Option (Option StopInfo)
  exit : Option (Option Int)
  pid : Option (Option Nat)
  stdout : Bytes
  stderr : Bytes
  deriving Repr

/-- No change. -/
def Update.none : Update := ⟨.none, .none, .none, .none, [], []⟩

/-- A value that a request can be answered with. -/
inductive Value where
  | threads (list : List ThreadInfo)
  | breakpoint (info : BreakpointInfo)
  | bytes (data : Bytes)
  | count (n : Nat)
  | registers (list : List Register)
  | frames (list : List StackFrame)
  | instructions (list : List Instruction)
  | modules (list : List Module)
  | module (m : Option Module)
  | address (a : UInt64)
  deriving Repr

/-- The value that answers a request; without a fitting one the answer is empty, except that a
breakpoint is set where it was asked for and the process takes all input. -/
def Value.answer (v : Option Value) : (r : Request) → r.Answer
  | .threads => match v with
    | some (.threads l) => l
    | _ => []
  | .setBreakpoint addr => match v with
    | some (.breakpoint i) => i
    | _ => ⟨0, addr⟩
  | .readMemory .. => match v with
    | some (.bytes d) => d
    | _ => []
  | .writeMemory .. => match v with
    | some (.count n) => n
    | _ => 0
  | .registers .. => match v with
    | some (.registers l) => l
    | _ => []
  | .callStack _ => match v with
    | some (.frames l) => l
    | _ => []
  | .disassemble .. => match v with
    | some (.instructions l) => l
    | _ => []
  | .modules => match v with
    | some (.modules l) => l
    | _ => []
  | .mainModule => match v with
    | some (.module m) => m
    | _ => none
  | .entryPoint => match v with
    | some (.address a) => a
    | _ => 0
  | .findReferences _ => match v with
    | some (.instructions l) => l
    | _ => []
  | .writeStdin data => match v with
    | some (.count n) => n
    | _ => data.length
  | .readStdout _ => []
  | .readStderr _ => []
  | .launch _ | .attach _ | .connectRemote .. | .resume | .interrupt | .kill | .detach | .destroy
  | .step .. | .removeBreakpoint _ | .removeAllBreakpoints | .setRegister .. => ()

/-- How a request ends. -/
inductive Ending where
  | value (v : Option Value)
  | error (e : DebugError)
  | crash (text : Option String)
  deriving Repr

/-- What happens at a request: a change, events, and how it ends. -/
structure Entry where
  update : Update
  events : List Event
  ending : Ending
  deriving Repr

/-- A request that succeeds and changes nothing. -/
def Entry.plain : Entry := ⟨.none, [], .value none⟩

/-- The script of a target. -/
structure Script where
  /-- Why the target cannot be made, if so. -/
  failure : Option DebugError
  /-- The event queue is handed out. -/
  hasEvents : Bool
  update : Update
  events : List Event
  methods : List (String × List Entry)
  deriving Repr

/-- A scripted target. -/
structure Target where
  unsubscribed : Bool
  events : List Event
  states : List ProcessState
  stop : Option StopInfo
  exit : Option Int
  pid : Option Nat
  stdout : Bytes
  stderr : Bytes
  methods : List (String × List Entry)
  deriving Repr

namespace Target

/-- Changes what the target publishes. -/
def apply (t : Target) (u : Update) : Target :=
  { t with
    states := u.states.getD t.states
    stop := u.stop.getD t.stop
    exit := u.exit.getD t.exit
    pid := u.pid.getD t.pid
    stdout := t.stdout ++ u.stdout
    stderr := t.stderr ++ u.stderr }

/-- Queues events. -/
def emit (t : Target) (events : List Event) : Target :=
  { t with events := t.events ++ events }

/-- A target at the start of its script: stopped, nothing else known. -/
def create (s : Script) : Target :=
  (Target.apply ⟨s.hasEvents, [], [.stopped], none, none, none, [], [], s.methods⟩ s.update).emit
    s.events

/-- Takes the next entry of a list whose last one repeats. -/
def takeEntry : List Entry → Entry × List Entry
  | [] => (.plain, [])
  | [e] => (e, [e])
  | e :: r => (e, r)

/-- Takes the next entry for a kind of request. -/
def nextEntry (t : Target) (name : String) : Entry × Target :=
  match t.methods.lookup name with
  | none => (.plain, t)
  | some entries =>
    let (e, rest) := takeEntry entries
    (e, { t with methods := t.methods.map fun m => if m.1 = name then (name, rest) else m })

/-- Answers a request. Reads of output are answered from what the target has, unless they fail. -/
def answer (t : Target) (r : Request) : Except Fault r.Answer × Target :=
  let (e, t) := t.nextEntry r.name
  let t := (t.apply e.update).emit e.events
  match e.ending with
  | .crash text => (.error (.crash text), t)
  | .error err => (.error (.error err), t)
  | .value v =>
    match r with
    | .readStdout limit => (.ok (t.stdout.take limit), { t with stdout := t.stdout.drop limit })
    | .readStderr limit => (.ok (t.stderr.take limit), { t with stderr := t.stderr.drop limit })
    | r => (.ok (Value.answer v r), t)

/-- The next state; the last one stays. -/
def nextState (t : Target) : ProcessState × Target :=
  match t.states with
  | [] => (.stopped, t)
  | [s] => (s, t)
  | s :: r => (s, { t with states := r })

/-- Answers a query. -/
def observe (t : Target) : (q : Query) → q.Answer × Target
  | .subscribe => (t.unsubscribed, { t with unsubscribed := false })
  | .events => (t.events, { t with events := [] })
  | .processId => (t.pid, t)
  | .state => t.nextState
  | .stopInfo => (t.stop, t)
  | .exitStatus => (t.exit, t)

end Target

/-- The scripted engine. -/
structure Engine where
  capabilities : Capabilities
  /-- The scripts of the targets to come; the last one repeats. -/
  scripts : List Script
  targets : List Target
  deriving Repr

namespace Engine

/-- A script without entries. -/
def plainScript : Script := ⟨none, true, .none, [], []⟩

/-- Takes the next script. -/
def nextScript (e : Engine) : Script × Engine :=
  match e.scripts with
  | [] => (plainScript, e)
  | [s] => (s, e)
  | s :: r => (s, { e with scripts := r })

/-- Answers a call. A request to a target that does not exist breaks the engine down. -/
def answer (e : Engine) : (c : Call) → Except Fault c.Answer × Engine
  | .createTarget .. =>
    let (s, e) := e.nextScript
    match s.failure with
    | some err => (.error (.error err), e)
    | none => (.ok e.targets.length, { e with targets := e.targets ++ [Target.create s] })
  | .rawCommand focus line => (.ok (Console.execute focus line), e)
  | .complete line position => (.ok (Console.complete line position), e)
  | .request target r =>
    match e.targets[target]? with
    | none => (.error (.crash none), e)
    | some t =>
      let (a, t) := t.answer r
      (a, { e with targets := e.targets.set target t })

/-- Answers a query; a target that does not exist is like one without a script. -/
def observe (e : Engine) (target : Handle) (q : Query) : q.Answer × Engine :=
  match e.targets[target]? with
  | none => (((Target.create plainScript).observe q).1, e)
  | some t =>
    let (a, t) := t.observe q
    (a, { e with targets := e.targets.set target t })

/-- Changes the target that was made last. -/
def modifyLast (e : Engine) (f : Target → Target) : Engine :=
  { e with targets := e.targets.modify (e.targets.length - 1) f }

end Engine

instance : DebugEngine Engine where
  capabilities := Engine.capabilities
  perform c e := e.answer c
  observe t q e := e.observe t q

end DebugAdapter.Engine.Scripted
