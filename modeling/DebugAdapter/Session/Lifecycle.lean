import DebugAdapter.Session.Basic
import DebugAdapter.Session.Views

/-!
# The life of a session

Commands that stage a program, make a process the target of the session, and let go of it. A target
that could not be started is destroyed before the command fails.
-/

namespace DebugAdapter.Session

open Debuggee (Arch DebugEngine DebugError Handle LaunchInfo Request)
open Wire (Response)

variable {ε : Type} [DebugEngine ε]

/-- Refuses the command while there is a process. -/
def requireInactive : Action ε Unit := do
  match (← get).lifecycle with
  | .active _ => refuse .alreadyExists
  | _ => return ()

/-- Stages a program for a later launch. -/
def prepare (executable : Executable) : Action ε Response := do
  requireInactive
  modify fun s =>
    { s with lastPrepared := some executable, lifecycle := .prepared executable }
  return .ok

/-- Installs the breakpoints that are pending, in order of their ids. One that the target refuses
stays pending. -/
def installPending (t : Handle) : List BreakpointEntry → Action ε Unit
  | [] => return ()
  | e :: r => do
    match ← tryRequest t (.setBreakpoint e.address) with
    | .ok info => modify fun s => { s with breakpoints := s.breakpoints.install e.id info.id }
    | .error _ => pure ()
    installPending t r

/-- Makes a started target the target of the session. -/
def activate (t : Handle) : Action ε Unit := do
  installPending t (← get).breakpoints.pending
  modify fun s =>
    { s with lifecycle := .active ⟨t, true, none, 0⟩ }

/-- Makes a target and takes its event queue. -/
def createTarget (executable : Option String) (is64 : Bool) : Action ε Handle := do
  match ← perform (.createTarget executable (Arch.ofIs64 is64)) with
  | .error e => refuse (.targetCreationFailed e)
  | .ok t =>
    if ← observe t .subscribe then return t
    else refuse (.internal "target events already taken")

/-- Starts the notifier of a target; if the system refuses to, the target is destroyed. -/
def startNotifier (t : Handle) (failed : DebugError → SessionError) : Action ε Unit := do
  match DebugEngine.notifierError (← get).engine with
  | none => return ()
  | some e =>
    let _ ← tryRequest t .destroy
    refuse (failed (.io e))

/-- Starts a target by a request, and its notifier; if that fails the target is destroyed. -/
def startTarget (t : Handle) (r : Request) (failed : DebugError → SessionError) :
    Action ε Unit := do
  match ← tryRequest t r with
  | .error e =>
    let _ ← tryRequest t .destroy
    refuse (failed e)
  | .ok _ =>
    let look : Action ε Bool := do
      let state ← observe t .state
      return !state.isTransitional
    let _ ← (← get).settings.attach.poll look
    startNotifier t failed

/-- Stops the notifier, destroys the process and releases the target. -/
def deleteProcess : Action ε Response := do
  let a ← activeTarget
  modify fun s => { s with lifecycle := .uninitialized }
  let _ ← tryRequest a.target .destroy
  modify fun s => { s with breakpoints := s.breakpoints.clear }
  return .ok

/-- Starts a process for the staged program. It is always started stopped, so that pending
breakpoints are in place before it runs; the settings decide whether it is resumed then. -/
def launch : Action ε Response := do
  let s ← get
  let executable ← match s.lifecycle with
    | .active _ => refuse .alreadyExists
    | .prepared e => pure e
    | .uninitialized =>
      match s.lastPrepared with
      | some e => pure e
      | none => refuse .notPrepared
  let t ← createTarget (some executable.path) executable.is64
  let info : LaunchInfo :=
    ⟨executable.args, executable.cwd, s.settings.launch.disableAslr, true⟩
  startTarget t (.launch info) .launchFailed
  activate t
  unless s.settings.launch.stopAtEntry do
    match ← control t .resume with
    | .ok _ => pure ()
    | .error e =>
      let _ ← deleteProcess
      refuse (.launchFailed e)
  let pid ← observe t .processId
  return Response.ok.withMember "pid" (match pid with
    | some p => Json.ofNat p
    | none => .null)

/-- Makes a running process the target of the session. -/
def attach (pid : Nat) (executable : Option String) (is64 : Bool) : Action ε Response := do
  requireInactive
  let t ← createTarget executable is64
  startTarget t (.attach pid) .attachFailed
  activate t
  let reply := Response.ok.withMember "pid" (Json.ofNat pid)
  match ← tryRequest t .mainModule with
  | .ok (some main) => return withSlide reply main
  | _ => return reply

/-- Makes a process behind a remote debug server the target of the session. -/
def connectRemote (is64 : Bool) (url plugin : String) (file : Option String) :
    Action ε Response := do
  requireInactive
  unless (← get).capabilities.remoteConnect do
    refuse (.unsupported "remote connection")
  let t ← createTarget file is64
  startTarget t (.connectRemote url plugin) .connectFailed
  activate t
  return .ok

/-- Lets the process go on without the session. -/
def detach : Action ε Response := do
  let t ← target
  orRefuse "detach" (← control t .detach)
  modify fun s =>
    { s with lifecycle := .uninitialized, breakpoints := s.breakpoints.clear }
  return .ok

/-- Releases everything. -/
def shutdown : Action ε Unit := do
  match (← get).lifecycle with
  | .active _ =>
    let _ ← deleteProcess
  | _ => return ()

/-- Confirms that there is a process. -/
def hasProcess : Action ε Response := do
  let _ ← activeTarget
  return .ok

/-- The state of the process and, once it is known, its exit status. -/
def processState : Action ε Response := do
  let t ← target
  let state ← observe t .state
  let reply := (Response.ok.withMember "state" (Json.ofNat state.code)).withMember "state-string"
    (.str state.name)
  match ← observe t .exitStatus with
  | some code => return reply.withMember "exit_status" (Json.ofInt code)
  | none => return reply

end DebugAdapter.Session
