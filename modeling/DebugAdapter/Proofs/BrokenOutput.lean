import DebugAdapter.Engine.Scripted
import DebugAdapter.Proofs.TwinCommands
import DebugAdapter.Proofs.UnreadOutput

/-!
# Sessions whose output is broken

A session writes notifications, and so does its notifier until one cannot be written. Here is what
that means for debugging. A session is conducted turn by turn, and after each turn everything is
noted that one can see of it but the notifications (`Sight`). Over a discreet engine nothing of this
depends on the outbox (`conduct_outbox`): not on which writes succeed, nor on when the notifier is
gone. The simulated engine and the tracing engine are discreet.

The engine must be discreet. Only a notifier that still writes reads the output of the process, so
an engine that does something when its output is read tells whether it does (`replies_telltale`).
-/

namespace DebugAdapter.Session

open Debuggee
open Wire (Outbox Response Sink)

/-! ### Turns -/

/-- A payload is handled, or the events that are due are delivered. -/
inductive Turn where
  | payload (p : Bytes)
  | events

/-- Takes a turn; there is a reply to a payload. -/
def Turn.take {ε : Type} [DebugEngine ε] (t : Turn) (s : Session ε) :
    Option Response × Session ε :=
  match t with
  | .payload p =>
    let (r, s) := handleFrame p s
    (some r, s)
  | .events => (none, deliverEvents s)

/-- What can be seen of a session after a turn. -/
structure Sight where
  reply : Option Response
  lifecycle : Lifecycle
  lastPrepared : Option Executable
  breakpoints : Breakpoints
  /-- The calls that the engine got so far, those of raw commands too, last first. -/
  calls : List Call
  /-- What the session asked so far and was answered. -/
  entries : List Entry

variable {ε : Type}

/-- Looks at a session. Whether its notifier still writes is left out, and so is what notifiers may
have read of the target. -/
def sight (reply : Option Response) (s : Session (Journal (Recorded ε))) : Sight where
  reply := reply
  lifecycle := s.lifecycle.unnotified
  lastPrepared := s.lastPrepared
  breakpoints := s.breakpoints
  calls := s.engine.engine.essential
  entries := s.engine.essential

/-- Takes turns, and looks at the session after each. -/
def conduct [DebugEngine ε] : List Turn → Session (Journal (Recorded ε)) → List Sight
  | [], _ => []
  | t :: r, s =>
    let (reply, s) := t.take s
    sight reply s :: conduct r s

/-- A turn keeps sessions coupled, and gives the same reply. -/
theorem take_coupled {ε' : Type} [DebugEngine ε'] [DebugEngine ε] {E : ε' → ε → Prop}
    [EnginesAgree E] {wired : Prop} [Delivers E wired] {s : Session ε'} {s' : Session ε}
    (h : Coupled E wired s s') (t : Turn) :
    (t.take s).1 = (t.take s').1 ∧ Coupled E wired (t.take s).2 (t.take s').2 := by
  cases t with
  | payload p =>
    obtain ⟨hreply, hafter⟩ := handleFrame_coupled h p
    exact ⟨congrArg some hreply, hafter⟩
  | events => exact ⟨rfl, Delivers.deliver h⟩

variable {E : ε → ε → Prop}

/-- Coupled sessions look the same. -/
theorem sight_coupled {wired : Prop} {s s' : Session (Journal (Recorded ε))}
    (h : Coupled (OnJournal (OnRecord E)) wired s s') (reply : Option Response) :
    sight reply s = sight reply s' := by
  rw [sight, sight, h.lifecycle, h.lastPrepared, h.breakpoints, h.engine.entries,
    h.engine.engine.calls]

/-- Two outboxes, one session. -/
theorem coupled_outbox {s : Session (Journal (Recorded ε))}
    (hE : E s.engine.engine.engine s.engine.engine.engine) (o o' : Outbox) :
    Coupled (OnJournal (OnRecord E)) False { s with outbox := o } { s with outbox := o' } where
  engine := ⟨⟨hE, rfl⟩, rfl⟩
  capabilities := rfl
  settings := rfl
  lifecycle := rfl
  lastPrepared := rfl
  breakpoints := rfl
  wire := False.elim

section Conduct

variable [DebugEngine ε] [Discreet E]

/-- Coupled sessions look the same after every turn. -/
theorem conduct_coupled (turns : List Turn) : ∀ {s s' : Session (Journal (Recorded ε))},
    Coupled (OnJournal (OnRecord E)) False s s' → conduct turns s = conduct turns s' := by
  induction turns with
  | nil => exact fun _ => rfl
  | cons t r ih =>
    intro s s' h
    obtain ⟨hreply, hafter⟩ := take_coupled h t
    rw [conduct, conduct]
    dsimp only
    rw [hreply, sight_coupled hafter, ih hafter]

/-- Over the tracing engine it makes no difference which writes succeed, whatever the kernel is. -/
theorem conduct_traced {κ : Type} [Linux.Kernel κ] (kernel : κ) (settings : Settings)
    (o o' : Outbox) (turns : List Turn) :
    let engine : Journal (Recorded (Engine.Traced.Engine κ)) := .blank ⟨⟨kernel, []⟩, []⟩
    conduct turns (start engine settings o) = conduct turns (start engine settings o') := by
  intro engine
  have hquiet : Engine.Traced.Engine.SameAndQuiet engine.engine.engine engine.engine.engine :=
    ⟨rfl, fun _ h => nomatch h⟩
  have hcoupled : Coupled (OnJournal (OnRecord Engine.Traced.Engine.SameAndQuiet)) False
      (start engine settings o) (start engine settings o') :=
    coupled_outbox (s := start engine settings o) hquiet o o'
  exact conduct_coupled turns hcoupled

end Conduct

/-! ### A trial -/

namespace Trial

/-- Everything can be written. -/
def healthy : Outbox := ⟨.binary, .unlimited, none⟩

/-- Two messages can be written. -/
def failing : Outbox := ⟨.binary, { Sink.unlimited with budget := some 2 }, none⟩

/-- A session that starts over an engine. -/
def session (engine : ε) [DebugEngine ε] (outbox : Outbox) : Session (Journal (Recorded ε)) :=
  start (Journal.blank ⟨engine, []⟩) .standard outbox

/-- A payload is handled, and events are delivered. -/
def handled (payload : String) : List Turn := [.payload (Text.Utf8.encode payload), .events]

/-- A program is staged and launched twice, and the state of its process asked for each time. -/
def turns : List Turn :=
  handled "\x7b\"command\":\"prepareExecutable\",\"path\":\"/a\"\x7d" ++
  handled "\x7b\"command\":\"launch\"\x7d" ++
  handled "\x7b\"command\":\"getProcessState\"\x7d" ++
  handled "\x7b\"command\":\"deleteProcess\"\x7d" ++
  handled "\x7b\"command\":\"launch\"\x7d" ++
  handled "\x7b\"command\":\"getProcessState\"\x7d"

/-- The texts of the replies in a trial. -/
def replies (engine : ε) [DebugEngine ε] (outbox : Outbox) : List String :=
  (conduct turns (session engine outbox)).filterMap fun x => x.reply.map Response.render

end Trial

/-- **Broken output does not reach debugging.** Over a discreet engine, every reply, every state of
the session and every call and query is the same whatever the outbox is, apart from the reads that a
notifier makes. -/
theorem conduct_outbox [DebugEngine ε] [Discreet E] {s : Session (Journal (Recorded ε))}
    (hE : E s.engine.engine.engine s.engine.engine.engine) (o o' : Outbox) (turns : List Turn) :
    conduct turns { s with outbox := o } = conduct turns { s with outbox := o' } :=
  conduct_coupled turns (coupled_outbox hE o o')

/-- Simulated processes are launched alike with a healthy and with a failing outbox. -/
theorem conduct_outbox_simulated :
    let engine : Engine.Simulated.Engine :=
      ⟨.off, Engine.Simulated.Engine.standardCapabilities, false, []⟩
    Engine.Simulated.Engine.SameButOutput engine engine ∧
      conduct Trial.turns (Trial.session engine Trial.healthy) =
        conduct Trial.turns (Trial.session engine Trial.failing) := by
  intro engine
  exact ⟨rfl, conduct_outbox (E := Engine.Simulated.Engine.SameButOutput)
    (s := Trial.session engine Trial.healthy) rfl Trial.healthy Trial.failing Trial.turns⟩

/-! ### An engine that tells its readers -/

/-- An engine whose process stops and writes when it is launched, and goes on when its output is
read. -/
def telltale : Engine.Scripted.Engine where
  capabilities := ⟨false, false, false⟩
  scripts :=
    [{ failure := none
       hasEvents := true
       update := .none
       events := []
       methods :=
        [ ("launch", [⟨.none, [.stateChanged .stopped, .stdout], .value none⟩]),
          ("read_stdout", [⟨{ Engine.Scripted.Update.none with states := some [.running] }, [],
            .value none⟩]) ] }]
  targets := []

/-- The second process is reported to run if everything can be written, and to be stopped if its
notifier is gone before it reads output. -/
theorem replies_telltale :
    Trial.replies telltale Trial.healthy ≠ Trial.replies telltale Trial.failing := by
  decide +kernel

end DebugAdapter.Session
