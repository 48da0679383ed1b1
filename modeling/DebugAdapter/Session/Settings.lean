import DebugAdapter.Session.Retry

/-!
# Settings

What a user can configure: how programs are launched, how long to wait for a stop, the sizes of
messages, and the log.
-/

namespace DebugAdapter.Session

/-- How programs are launched. -/
structure LaunchSettings where
  disableAslr : Bool
  /-- Keep a launched process stopped at its first instruction. -/
  stopAtEntry : Bool
  deriving Repr, DecidableEq

/-- How the end of a step is waited for. -/
structure StepSettings where
  policy : RetryPolicy
  /-- How many times to step out while looking for user code. -/
  maxHops : Nat
  deriving Repr, DecidableEq

/-- How notifications are written. -/
structure NotifierSettings where
  intervalMs : Nat
  /-- The most bytes of output in one notification. -/
  outputChunk : Nat
  deriving Repr, DecidableEq

/-- Limits on what is read. -/
structure TransportSettings where
  maxFrame : Nat
  /-- The largest block of memory that one command may read. -/
  maxRead : Nat
  deriving Repr, DecidableEq

/-- The log. -/
structure LogSettings where
  level : Option String
  file : Option String
  /-- Log wire messages into the log file. -/
  traceWire : Bool
  deriving Repr, DecidableEq

/-- All settings. -/
structure Settings where
  launch : LaunchSettings
  step : StepSettings
  /-- Waiting for a stop after an interrupt. -/
  interrupt : RetryPolicy
  /-- Waiting for the end of a launch or attach. -/
  attach : RetryPolicy
  notifier : NotifierSettings
  transport : TransportSettings
  log : LogSettings
  deriving Repr, DecidableEq

/-- The settings without a configuration. -/
def Settings.standard : Settings where
  launch := ⟨true, true⟩
  step := ⟨⟨50, 20⟩, 16⟩
  interrupt := ⟨50, 20⟩
  attach := ⟨100, 50⟩
  notifier := ⟨100, 256⟩
  transport := ⟨64 * 1024 * 1024, 1024 * 1024⟩
  log := ⟨none, none, false⟩

end DebugAdapter.Session
