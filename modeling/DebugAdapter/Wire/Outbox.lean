import DebugAdapter.Wire.Frame

/-!
# The outbox

All messages leave through one outbox, which frames each message and writes the frame to a sink.
The sink takes part of the offered bytes at each call, and may fail for ever after some calls, in
the middle of a frame too. With a wire trace, every message is logged before it is written.
-/

namespace DebugAdapter.Wire

open Linux (OsError)

/-- Where frames are written to. -/
structure Sink where
  /-- The bytes written so far. -/
  written : Bytes
  /-- How many write calls succeeded so far. -/
  calls : Nat
  /-- How many of the offered bytes a call takes, by its number; at least one and at most all. -/
  take : (call offered : Nat) → Nat
  /-- How many further calls succeed; without a number all do. -/
  budget : Option Nat

namespace Sink

/-- A sink that takes whatever it is offered. -/
def unlimited : Sink :=
  ⟨[], 0, fun _ offered => offered, none⟩

/-- Whether the next call succeeds. -/
def accepts (s : Sink) : Bool :=
  s.budget != some 0

/-- One write call: the bytes left over, or the failure of the sink. -/
def writeCall (s : Sink) (data : Bytes) : Except OsError Bytes × Sink :=
  if s.accepts then
    let n := max 1 (min (s.take s.calls data.length) data.length)
    (.ok (data.drop n),
      { s with
        written := s.written ++ data.take n
        calls := s.calls + 1
        budget := s.budget.map (· - 1) })
  else (.error .brokenPipe, s)

/-- Calls the sink until all bytes are written or it fails; `fuel` bounds the calls. -/
def writeWith (s : Sink) : (fuel : Nat) → Bytes → Except OsError Unit × Sink
  | _, [] => (.ok (), s)
  | 0, _ :: _ => (.ok (), s)
  | fuel + 1, b :: r =>
    match s.writeCall (b :: r) with
    | (.ok rest, s) => writeWith s fuel rest
    | (.error e, s) => (.error e, s)

/-- Writes all bytes. Each call takes at least one of them. -/
def write (s : Sink) (data : Bytes) : Except OsError Unit × Sink :=
  s.writeWith data.length data

end Sink

/-- The direction of a logged message. -/
inductive Direction where
  | inbound
  | outbound
  deriving Repr, DecidableEq

/-- The mark of a direction in the wire trace. -/
def Direction.marker : Direction → String
  | inbound => "<-"
  | outbound => "->"

/-- The line of a message in the wire trace. -/
def traceLine (d : Direction) (payload : Bytes) : String :=
  d.marker ++ " " ++ Text.Utf8.decodeLossy payload ++ "\n"

/-- Frames messages and writes them to a sink. -/
structure Outbox where
  framing : Framing
  sink : Sink
  /-- The text of the wire trace, if there is one. -/
  trace : Option String

namespace Outbox

/-- Logs a line, if there is a wire trace. -/
def logLine (o : Outbox) (line : String) : Outbox :=
  { o with trace := o.trace.map (· ++ (line ++ "\n")) }

/-- Logs a message, if there is a wire trace. -/
def logMessage (o : Outbox) (d : Direction) (payload : Bytes) : Outbox :=
  { o with trace := o.trace.map (· ++ traceLine d payload) }

/-- Writes a document as one frame. -/
def send (o : Outbox) (document : String) : Except FrameError Unit × Outbox :=
  let payload := Text.Utf8.encode document
  match o.framing.encode payload with
  | .error e => (.error e, o)
  | .ok frame =>
    let o := o.logMessage .outbound payload
    match o.sink.write frame with
    | (.ok (), sink) => (.ok (), { o with sink })
    | (.error e, sink) => (.error (.io e), { o with sink })

end Outbox

end DebugAdapter.Wire
