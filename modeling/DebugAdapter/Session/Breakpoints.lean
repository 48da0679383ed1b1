import DebugAdapter.Session.Basic

/-!
# Breakpoints of a session

Breakpoints are set and removed by ids of the session. While a program is only staged they are
pending; with a process each is installed by the target at once.
-/

namespace DebugAdapter.Session

open Debuggee (DebugEngine Handle)
open Wire (Response)

variable {ε : Type} [DebugEngine ε]

/-- The target for a breakpoint command; there is none yet while a program is staged. -/
def breakpointTarget : Action ε (Option Handle) := do
  match (← get).lifecycle with
  | .uninitialized => refuse .noTarget
  | .prepared _ => return none
  | .active a => return some a.target

/-- Adds a breakpoint to the session and gives its id. -/
def addBreakpoint (addr : UInt64) (engineId : Option Nat) : Action ε Nat := do
  let s ← get
  let (id, breakpoints) := s.breakpoints.add addr engineId
  set { s with breakpoints }
  return id

/-- Sets a breakpoint. -/
def setBreakpoint (addr : UInt64) : Action ε Response := do
  match ← breakpointTarget with
  | some t =>
    let info ← request t (.setBreakpoint addr) "cannot create breakpoint"
    let id ← addBreakpoint addr (some info.id)
    return (Response.ok.withMember "bkpt_id" (Json.ofNat id)).withMember "bl0"
      (.str ("load addr: " ++ Text.hexNumber info.address.toNat))
  | none =>
    let id ← addBreakpoint addr none
    return (Response.ok.withMember "bkpt_id" (Json.ofNat id)).withMember "pending" (.bool true)

/-- Removes the breakpoint with an id. -/
def removeBreakpoint (id : Nat) : Action ε Response := do
  let t? ← breakpointTarget
  let operation := "cannot remove breakpoint"
  match (← get).breakpoints.get? id with
  | none => refuse (.engine operation (.breakpointNotFound id))
  | some entry =>
    match t?, entry.engineId with
    | some t, some engineId => request t (.removeBreakpoint engineId) operation
    | _, _ => pure ()
    modify fun s => { s with breakpoints := s.breakpoints.erase id }
    return .ok

/-- Removes all breakpoints. -/
def removeAllBreakpoints : Action ε Response := do
  match ← breakpointTarget with
  | some t => request t .removeAllBreakpoints "cannot remove all breakpoints"
  | none => pure ()
  modify fun s => { s with breakpoints := s.breakpoints.clear }
  return .ok

end DebugAdapter.Session
