import DebugAdapter.Console
import DebugAdapter.Tracer.Inspection
import DebugAdapter.Tracer.Lifecycle
import DebugAdapter.Tracer.Statuses

/-!
# The tracing engine

A debug engine whose targets are tracers over one kernel. A tracer handles statuses of its process
whenever events are asked for, and right after a request that lets the process run or ends it.
-/

namespace DebugAdapter.Engine.Traced

open Debuggee
open Linux (Kernel)
open Tracer (State System Tracing)

/-- A target: its tracer, and whether its events were handed out. -/
structure Target where
  state : State
  subscribed : Bool

/-- An engine with its kernel and its targets in the order of creation. -/
structure Engine (κ : Type) where
  kernel : κ
  targets : List Target

namespace Engine

variable {κ : Type} [Kernel κ]

/-- The features of the engine. -/
def standardCapabilities : Capabilities := ⟨false, true, true⟩

/-- Runs an operation of a target. -/
def onTarget {α : Type} (e : Engine κ) (t : Handle) (op : Tracing κ α) :
    Except Fault α × Engine κ :=
  match e.targets[t]? with
  | none => (.error (.error .tracerGone), e)
  | some target =>
    let (r, s) := op.run.run ⟨e.kernel, target.state⟩
    (r.mapError .error, ⟨s.kernel, e.targets.set t { target with state := s.tracer }⟩)

/-- Whether a request lets the process run or ends it. -/
def movesProcess : Request → Bool
  | .resume | .interrupt | .kill | .detach | .step .. => true
  | _ => false

/-- The operation of a tracer that a request asks for. -/
def operation : (r : Request) → Tracing κ r.Answer
  | .launch info => Tracing.launch info
  | .attach pid => Tracing.attach pid
  | .connectRemote .. => throw (.unsupported "remote connection")
  | .resume => Tracing.resume
  | .interrupt => Tracing.interrupt
  | .kill => Tracing.kill
  | .detach => Tracing.detach
  | .destroy => Tracing.destroy
  | .step tid kind => Tracing.step tid kind
  | .threads => Tracing.threads
  | .setBreakpoint address => Tracing.setBreakpoint address
  | .removeBreakpoint id => Tracing.removeBreakpoint id
  | .removeAllBreakpoints => Tracing.removeAllBreakpoints
  | .readMemory address length => Tracing.readMemory address length
  | .writeMemory address data => Tracing.writeMemory address data
  | .registers tid frame => Tracing.registers tid frame
  | .setRegister tid frame name value => Tracing.setRegister tid frame name value
  | .callStack tid => Tracing.callStack tid
  | .disassemble address count => Tracing.disassemble address count
  | .modules => Tracing.modules
  | .mainModule => Tracing.mainModule
  | .entryPoint => Tracing.entryPoint
  | .findReferences address => Tracing.findReferences address
  | .writeStdin data => Tracing.writeInput data
  | .readStdout limit => Tracing.readOutput .stdout limit
  | .readStderr limit => Tracing.readOutput .stderr limit

/-- Answers a request, and handles statuses if it moved the process. -/
def answer (e : Engine κ) (t : Handle) (r : Request) : Except Fault r.Answer × Engine κ :=
  let (a, e) := e.onTarget t (operation r)
  if movesProcess r then (a, (e.onTarget t Tracing.poll).2) else (a, e)

/-- The program that a path names: a file, or a program that a bare name stands for. -/
def resolveProgram (k : κ) (path : String) : Except DebugError String :=
  if (Kernel.file k path).isOk then .ok path
  else
    let found := if (Text.Path.components path).length = 1 then Kernel.lookUp? k path else none
    match found with
    | some program => .ok program
    | none => .error (.executableNotFound path)

/-- Makes a target. -/
def create (e : Engine κ) (executable : Option String) (arch : Arch) :
    Except Fault Handle × Engine κ :=
  if arch ≠ .x86_64 then (.error (.error (.unsupported "32-bit targets")), e)
  else match executable.mapM (resolveProgram e.kernel) with
    | .error err => (.error (.error err), e)
    | .ok program =>
      (.ok e.targets.length, { e with targets := e.targets ++ [⟨.new program, false⟩] })

/-- Hands out the events of a target, once. -/
def subscribe (e : Engine κ) (t : Handle) : Bool × Engine κ :=
  match e.targets[t]? with
  | none => (false, e)
  | some target =>
    (!target.subscribed, { e with targets := e.targets.set t { target with subscribed := true } })

/-- Handles statuses and takes the events of a target. -/
def takeEvents (e : Engine κ) (t : Handle) : List Event × Engine κ :=
  let op : Tracing κ (List Event) := do
    Tracing.poll
    let events := (← Tracing.tracer).events
    Tracing.modifyTracer fun s => { s with events := [] }
    return events
  match e.onTarget t op with
  | (.ok events, e) => (events, e)
  | (.error _, e) => ([], e)

/-- What a target publishes. -/
def snapshot (e : Engine κ) (t : Handle) : Snapshot :=
  match e.targets[t]? with
  | some target => target.state.snapshot
  | none => .unloaded

end Engine

instance {κ : Type} [Kernel κ] : DebugEngine (Engine κ) where
  capabilities _ := Engine.standardCapabilities
  perform c e :=
    match c with
    | .createTarget executable arch => e.create executable arch
    | .rawCommand focus line => (.ok (Console.execute focus line), e)
    | .complete line position => (.ok (Console.complete line position), e)
    | .request t r => e.answer t r
  observe t q e :=
    match q with
    | .subscribe => e.subscribe t
    | .events => e.takeEvents t
    | .processId => ((e.snapshot t).pid, e)
    | .state => ((e.snapshot t).state, e)
    | .stopInfo => ((e.snapshot t).stop, e)
    | .exitStatus => ((e.snapshot t).exit, e)

end DebugAdapter.Engine.Traced
