import DebugAdapter.Wire.Notification
import DebugAdapter.Wire.Outbox
import DebugAdapter.Wire.Response

/-!
# What leaves through an outbox

`Outbox.Sent ms o o'` says that `o'` is the outbox `o` after the messages `ms` were sent through it
in this order, each as one frame; nothing is said of the wire trace. A write ends with all bytes
written, or with a sink that fails for ever (`Sink.Wrote`). Into a sink that never fails every
message is written that can be framed (`Sent.written`).
-/

namespace DebugAdapter.Wire

/-- A message of the program: one of its own, or a reply. -/
inductive Message where
  | note (n : Notification)
  | reply (r : Response)

/-- The text of a message. -/
def Message.text : Message → String
  | note n => n.render
  | reply r => r.render

/-- The frame of a text, if it can be framed. -/
def Framing.frame? (f : Framing) (text : String) : Option Bytes :=
  (f.encode (Text.Utf8.encode text)).toOption

/-- A sink after a text was sent to it. -/
def Sink.send (f : Framing) (k : Sink) (text : String) : Sink :=
  match f.frame? text with
  | some frame => (k.write frame).2
  | none => k

namespace Outbox

/-- An outbox after texts were sent through it. -/
structure Sent (texts : List String) (o o' : Outbox) : Prop where
  framing : o'.framing = o.framing
  sink : o'.sink = texts.foldl (Sink.send o.framing) o.sink

variable {o o' o'' : Outbox} {texts texts' : List String}

theorem Sent.refl (o : Outbox) : Sent [] o o := ⟨rfl, rfl⟩

theorem Sent.append (h : Sent texts o o') (h' : Sent texts' o' o'') :
    Sent (texts ++ texts') o o'' := by
  refine ⟨h'.framing.trans h.framing, ?_⟩
  rw [h'.sink, h.framing, h.sink, List.foldl_append]

/-- One text. -/
theorem sent_send (o : Outbox) (text : String) : Sent [text] o (o.send text).2 := by
  rw [send]
  dsimp only
  rcases hencode : o.framing.encode (Text.Utf8.encode text) with e | frame
  · refine ⟨rfl, ?_⟩
    simp [Sink.send, Framing.frame?, hencode, Except.toOption]
  · dsimp only
    rw [show (o.logMessage .outbound (Text.Utf8.encode text)).sink = o.sink from rfl]
    rcases hwrite : o.sink.write frame with ⟨e | _, sink⟩
    all_goals
      refine ⟨rfl, ?_⟩
      simp [Sink.send, Framing.frame?, hencode, Except.toOption, hwrite]

/-- The wire trace is no matter. -/
theorem sent_logMessage (o : Outbox) (d : Direction) (payload : Bytes) :
    Sent [] o (o.logMessage d payload) := ⟨rfl, rfl⟩

theorem sent_logLine (o : Outbox) (line : String) : Sent [] o (o.logLine line) := ⟨rfl, rfl⟩

end Outbox

/-! ### Writes -/

namespace Sink

variable {k : Sink}

/-- A call that succeeds takes at least one byte. -/
theorem writeCall_of_accepts (h : k.accepts = true) (data : Bytes) :
    ∃ n, 1 ≤ n ∧ (k.writeCall data).1 = .ok (data.drop n) ∧
      (k.writeCall data).2.written = k.written ++ data.take n ∧
      (k.writeCall data).2.budget = k.budget.map (· - 1) := by
  refine ⟨max 1 (min (k.take k.calls data.length) data.length), Nat.le_max_left _ _, ?_⟩
  rw [writeCall, if_pos h]
  exact ⟨rfl, rfl, rfl⟩

/-- How a write ends: all bytes are written, or the sink fails on the way and for ever. -/
inductive Wrote (k : Sink) (data : Bytes) : Except Linux.OsError Unit × Sink → Prop
  | whole {k' : Sink} (hwritten : k'.written = k.written ++ data)
      (hbudget : k.budget = none → k'.budget = none) : Wrote k data (.ok (), k')
  | broken {k' : Sink} {e : Linux.OsError} {part : Bytes} (hpart : part <+: data)
      (hlength : part.length < data.length) (hwritten : k'.written = k.written ++ part)
      (hleft : k'.budget = some 0) (hbudget : k.budget ≠ none) : Wrote k data (.error e, k')

/-- Each call takes a byte at least, so the fuel lasts. -/
theorem wrote_writeWith (fuel : Nat) : ∀ (k : Sink) (data : Bytes), data.length ≤ fuel →
    Wrote k data (k.writeWith fuel data) := by
  induction fuel with
  | zero =>
    intro k data hlength
    rw [List.length_eq_zero_iff.mp (Nat.le_zero.mp hlength)]
    exact .whole (List.append_nil _).symm id
  | succ fuel ih =>
    intro k data hlength
    cases data with
    | nil => exact .whole (List.append_nil _).symm id
    | cons b r =>
      rw [writeWith]
      by_cases haccepts : k.accepts = true
      · obtain ⟨n, hn, hrest, hwritten, hbudget⟩ := writeCall_of_accepts haccepts (b :: r)
        rcases hcall : k.writeCall (b :: r) with ⟨rest, k'⟩
        rw [hcall] at hrest hwritten hbudget
        dsimp only at hrest hwritten hbudget
        subst hrest
        have hdrop : ((b :: r).drop n).length ≤ fuel := by
          rw [List.length_drop]
          omega
        have hkeep : k.budget = none → k'.budget = none := by
          intro h
          rw [hbudget, h, Option.map_none]
        have htail := ih k' ((b :: r).drop n) hdrop
        dsimp only
        generalize k'.writeWith fuel ((b :: r).drop n) = result at htail
        cases htail with
        | whole hall hnone =>
          refine .whole ?_ fun h => hnone (hkeep h)
          rw [hall, hwritten, List.append_assoc, List.take_append_drop]
        | @broken k'' e part hpart hshort hall hleft hsome =>
          have htake : (b :: r).take n ++ part <+: b :: r := by
            have h := (List.prefix_append_right_inj ((b :: r).take n)).mpr hpart
            rwa [List.take_append_drop] at h
          refine .broken htake ?_ ?_ hleft fun h => hsome (hkeep h)
          · have h := congrArg List.length (List.take_append_drop n (b :: r))
            rw [List.length_append] at h ⊢
            omega
          · rw [hall, hwritten, List.append_assoc]
      · have hzero : k.budget = some 0 := by
          simpa [accepts] using haccepts
        rw [writeCall, if_neg haccepts]
        refine .broken List.nil_prefix (Nat.zero_lt_succ _) (List.append_nil _).symm hzero ?_
        rw [hzero]
        exact Option.some_ne_none 0

theorem wrote_write (k : Sink) (data : Bytes) : Wrote k data (k.write data) :=
  wrote_writeWith data.length k data (Nat.le_refl _)

theorem write_unlimited (h : k.budget = none) (data : Bytes) :
    (k.write data).1 = .ok () ∧ (k.write data).2.written = k.written ++ data ∧
      (k.write data).2.budget = none := by
  have hwrote := wrote_write k data
  generalize k.write data = result at hwrote
  cases hwrote with
  | whole hwritten hbudget => exact ⟨rfl, hwritten, hbudget h⟩
  | broken _ _ _ _ hbudget => exact absurd h hbudget

theorem send_unlimited (h : k.budget = none) (f : Framing) (text : String) :
    (send f k text).written = k.written ++ (f.frame? text).getD [] ∧
      (send f k text).budget = none := by
  rw [send]
  cases f.frame? text with
  | none => exact ⟨(List.append_nil _).symm, h⟩
  | some frame => exact (write_unlimited h frame).2

end Sink

namespace Outbox

variable {o o' : Outbox} {texts : List String}

/-- A sink that never fails takes the frames of all texts that have one, in their order. -/
theorem Sent.written (h : Sent texts o o') (hbudget : o.sink.budget = none) :
    o'.sink.written = o.sink.written ++ (texts.filterMap o.framing.frame?).flatten ∧
      o'.sink.budget = none := by
  rw [h.sink]
  clear h
  generalize o.sink = k at hbudget
  induction texts generalizing k with
  | nil => exact ⟨(List.append_nil _).symm, hbudget⟩
  | cons text texts ih =>
    obtain ⟨hwritten, hleft⟩ := Sink.send_unlimited hbudget o.framing text
    obtain ⟨htail, hend⟩ := ih _ hleft
    refine ⟨?_, hend⟩
    rw [List.foldl_cons, htail, hwritten, List.filterMap_cons]
    cases o.framing.frame? text with
    | none => simp
    | some frame => simp

/-- Into such a sink a text can be sent exactly if it can be framed. -/
theorem send_isOk (o : Outbox) (hbudget : o.sink.budget = none) (text : String) :
    (o.send text).1 = .ok () ↔ (o.framing.frame? text).isSome = true := by
  rw [send]
  dsimp only
  rcases hencode : o.framing.encode (Text.Utf8.encode text) with e | frame
  · simp [Framing.frame?, hencode, Except.toOption]
  · have hwrite := (Sink.write_unlimited hbudget frame).1
    dsimp only
    rw [show (o.logMessage .outbound (Text.Utf8.encode text)).sink = o.sink from rfl]
    rcases hcall : o.sink.write frame with ⟨e | _, sink⟩
    · rw [hcall] at hwrite
      cases hwrite
    · simp [Framing.frame?, hencode, Except.toOption]

end Outbox

end DebugAdapter.Wire
