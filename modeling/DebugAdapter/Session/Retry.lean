/-!
# Bounded polling

A change of state that an engine makes in its own time is waited for by looking again, a bounded
number of times. The pause between two looks has no effect on what is seen, so a policy only counts
the looks.

Main statements: `poll_zero` and `poll_succ`, how a poll unfolds.
-/

namespace DebugAdapter.Session

/-- How often to look for a change of state. -/
structure RetryPolicy where
  /-- The pause between two looks, in milliseconds. -/
  intervalMs : Nat
  /-- How often to look again after the first look. -/
  maxPolls : Nat
  deriving Repr, DecidableEq

/-- Whether the change was seen. -/
inductive PollOutcome where
  | ready
  | timedOut
  deriving Repr, DecidableEq

/-- The name of an outcome. -/
def PollOutcome.name : PollOutcome → String
  | ready => "Ready"
  | timedOut => "TimedOut"

/-- Whether the change was seen, as a truth value. -/
def PollOutcome.isReady : PollOutcome → Bool
  | ready => true
  | timedOut => false

/-- Looks once, and up to `again` times more until the look is positive. -/
@[specialize]
def pollUpTo {m : Type → Type} [Monad m] (look : m Bool) : (again : Nat) → m PollOutcome
  | 0 => do
    let seen ← look
    return if seen then .ready else .timedOut
  | again + 1 => do
    let seen ← look
    if seen then return .ready else pollUpTo look again

/-- Looks until the look is positive or the policy is exhausted. -/
@[specialize]
def RetryPolicy.poll {m : Type → Type} [Monad m] (p : RetryPolicy) (look : m Bool) :
    m PollOutcome :=
  pollUpTo look p.maxPolls

section Unfold

variable {m : Type → Type} [Monad m] (look : m Bool)

theorem poll_zero (interval : Nat) :
    (RetryPolicy.mk interval 0).poll look =
      (do let seen ← look; return if seen then .ready else .timedOut) := rfl

theorem poll_succ (interval n : Nat) :
    (RetryPolicy.mk interval (n + 1)).poll look =
      (do
        let seen ← look
        if seen then return .ready else (RetryPolicy.mk interval n).poll look) := rfl

end Unfold

end DebugAdapter.Session
