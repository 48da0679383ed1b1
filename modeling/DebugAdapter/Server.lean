import DebugAdapter.Session.Dispatch

/-!
# The server

Serves one session over a byte stream: reads payloads until the stream ends or breaks, answers each
with one reply, and shuts the session down before it confirms the end of the stream with a last
message. If a reply cannot be written no further payload is handled. A breakdown of the engine ends
a command, but nothing catches one while the session is shut down.
-/

namespace DebugAdapter.Server

open Debuggee (DebugEngine)
open Wire (Framing Response Stream)

variable {ε : Type} [DebugEngine ε]

/-- Logs a line in the wire trace of a session. -/
def logLine (line : String) (s : Session ε) : Session ε :=
  { s with outbox := s.outbox.logLine line }

/-- Writes a reply; `false` if it could not be written. -/
def sendReply (r : Response) (s : Session ε) : Bool × Session ε :=
  match s.outbox.send r.render with
  | (.ok _, outbox) => (true, { s with outbox })
  | (.error _, outbox) => (false, { s with outbox })

/-- Answers a payload. -/
def answer (payload : Bytes) (s : Session ε) : Bool × Session ε :=
  let s := { s with outbox := s.outbox.logMessage .inbound payload }
  let (r, s) := Session.handleFrame payload s
  sendReply r s

/-- The session starts. -/
def start (s : Session ε) : Session ε := logLine "-- session start" s

/-- Reads one payload and answers it. The rest of the stream, unless serving is over: the stream has
ended or is broken, or the reply could not be written. -/
def turn (framing : Framing) (limit : Nat) (input : Stream) (s : Session ε) :
    Option Stream × Session ε :=
  let s := Session.deliverEvents s
  match input.readFrame framing limit with
  | (.payload p, input) =>
    match answer p s with
    | (true, s) => (some input, s)
    | (false, s) => (none, s)
  | _ => (none, s)

/-- Takes turns until serving is over. Every payload takes bytes of the stream, whose length bounds
their number. -/
def serveWith (framing : Framing) (limit : Nat) : (fuel : Nat) → Stream → Session ε → Session ε
  | 0, _, s => s
  | fuel + 1, input, s =>
    match turn framing limit input s with
    | (some input, s) => serveWith framing limit fuel input s
    | (none, s) => s

/-- The message that confirms the end of the stream. -/
def farewell : Response := .okMessage "EOF"

/-- The session ends. If the engine breaks down while the target is destroyed, nothing more is
written. -/
def finish : Session.Action ε Unit := do
  Session.shutdown
  modify fun s => logLine "-- session end" (sendReply farewell s).2

/-- Serves a session over an input stream. -/
def run (input : Stream) (s : Session ε) : Except Session.Failure Unit × Session ε :=
  let s := start s
  (finish : Session.Action ε Unit).run
    (serveWith s.outbox.framing s.settings.transport.maxFrame (input.rest.length + 1) input s)

end DebugAdapter.Server
