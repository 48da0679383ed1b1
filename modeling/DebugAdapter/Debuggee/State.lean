import DebugAdapter.Text.Numeral

/-!
# States of a debuggee

The state of a debugged process as a frontend sees it, why it stopped, and the kinds of step.
The numeric codes and the names of states and reasons are part of the wire format.
-/

namespace DebugAdapter.Debuggee

/-- The state of a debugged process. -/
inductive ProcessState where
  | invalid | unloaded | connected | attaching | launching | stopped | running | stepping
  | crashed | detached | exited | suspended
  deriving Repr, DecidableEq

namespace ProcessState

/-- The numeric code of a state. -/
def code : ProcessState → Nat
  | invalid => 0
  | unloaded => 1
  | connected => 2
  | attaching => 3
  | launching => 4
  | stopped => 5
  | running => 6
  | stepping => 7
  | crashed => 8
  | detached => 9
  | exited => 10
  | suspended => 11

/-- The name of a state. -/
def name : ProcessState → String
  | invalid => "eStateInvalid"
  | unloaded => "eStateUnloaded"
  | connected => "eStateConnected"
  | attaching => "eStateAttaching"
  | launching => "eStateLaunching"
  | stopped => "eStateStopped"
  | running => "eStateRunning"
  | stepping => "eStateStepping"
  | crashed => "eStateCrashed"
  | detached => "eStateDetached"
  | exited => "eStateExited"
  | suspended => "eStateSuspended"

/-- The process is halted and may be inspected. -/
def isStopped : ProcessState → Bool
  | stopped | crashed | suspended => true
  | _ => false

/-- The process executes code right now. -/
def isRunning : ProcessState → Bool
  | running | stepping => true
  | _ => false

/-- The process is in the middle of a launch or an attach. -/
def isTransitional : ProcessState → Bool
  | launching | attaching => true
  | _ => false

/-- There is no process any more. -/
def isTerminal : ProcessState → Bool
  | exited | detached | invalid => true
  | _ => false

end ProcessState

/-- Why a process halted. -/
inductive StopReason where
  | invalid | none | trace | breakpoint | watchpoint | signal | exception | exec | planComplete
  | threadExiting | unknown
  deriving Repr, DecidableEq

/-- The name of a stop reason. -/
def StopReason.name : StopReason → String
  | invalid => "Invalid"
  | none => "None"
  | trace => "Trace"
  | breakpoint => "Breakpoint"
  | watchpoint => "Watchpoint"
  | signal => "Signal"
  | exception => "Exception"
  | exec => "Exec"
  | planComplete => "Plan Complete"
  | threadExiting => "Thread Exiting"
  | unknown => "Unknown Reason"

/-- The details of a halt: the thread that caused it, its program counter, and why. -/
structure StopInfo where
  thread : Nat
  pc : UInt64
  reason : StopReason
  deriving Repr, DecidableEq

/-- The kinds of step: one machine instruction; one instruction with a call executed as a whole;
until the current function returns. -/
inductive StepKind where
  | instruction
  | over
  | out
  deriving Repr, DecidableEq

/-- The instruction set of a target. -/
inductive Arch where
  | x86
  | x86_64
  deriving Repr, DecidableEq

/-- The instruction set with 64-bit addresses or without. -/
def Arch.ofIs64 (is64 : Bool) : Arch :=
  if is64 then .x86_64 else .x86

end DebugAdapter.Debuggee
