import DebugAdapter.Proofs.CommandNames
import DebugAdapter.Proofs.SessionOutcomes
import DebugAdapter.Server

/-!
# Serving a stream

What a server does with a stream, told without the stream: `Stream.payloads` are the payloads that a
reader yields before the stream ends or breaks, `exchanges` what becomes of them in a session, and
`converse` the session after them (`serveWith_eq`).
-/

namespace DebugAdapter

open Debuggee
open Wire (FrameError Framing ReadResult Response Stream)

namespace Wire.Stream

variable {f : Framing} {limit : Nat} {s s' : Stream} {p : Bytes}

/-! ### Payloads of a stream -/

theorem splitAt?_eq_some {n : Nat} {bs head rest : Bytes} (h : splitAt? n bs = some (head, rest)) :
    n + rest.length = bs.length := by
  rw [splitAt?] at h
  split at h
  · rename_i hn
    rw [List.splitAt_eq] at h
    cases h
    rw [List.length_drop]
    omega
  · cases h

theorem atEnd_ne_payload (s : Stream) (p : Bytes) : s.atEnd ≠ .payload p := by
  rw [atEnd]
  split
  · rintro ⟨⟩
  · rintro ⟨⟩

theorem length_readBinary (h : s.readBinary limit = (.payload p, s')) :
    s'.rest.length < s.rest.length := by
  rw [readBinary] at h
  split at h
  · exact absurd (congrArg Prod.fst h) (atEnd_ne_payload s p)
  · rename_i header rest hheader
    have hlength := splitAt?_eq_some hheader
    dsimp only at h
    split at h
    · cases h
    · split at h
      · exact absurd (congrArg Prod.fst h) (atEnd_ne_payload s p)
      · rename_i payload rest' hpayload
        have hlength' := splitAt?_eq_some hpayload
        cases h
        rw [Framing.headerLength] at hlength
        dsimp only
        omega

theorem length_readLineWith (fuel : Nat) : ∀ {s : Stream},
    s.readLineWith limit fuel = (.payload p, s') → s'.rest.length < s.rest.length := by
  induction fuel with
  | zero =>
    intro s h
    exact absurd (congrArg Prod.fst h) (atEnd_ne_payload s p)
  | succ fuel ih =>
    intro s h
    rw [readLineWith] at h
    dsimp only at h
    split at h
    -- The last line has no terminator; only if it is not empty it is a payload.
    · split at h
      · cases h
      · split at h
        · cases h
        · rename_i hbody
          have hlength : 0 < s.rest.length := by
            have htake := (List.takeWhile_sublist (· != 10) (l := s.rest)).length_le
            have hpos := List.length_pos_iff.mpr (mt List.isEmpty_iff.mpr hbody)
            omega
          split at h
          · cases h
          · split at h
            · cases h
            · cases h
              exact hlength
    -- Any other line takes its terminator, and blank ones are skipped.
    · rename_i rest hrest
      have hlength : rest.length < s.rest.length := by
        have hdrop := (List.dropWhile_sublist (· != 10) (l := s.rest)).length_le
        rw [hrest, List.length_cons] at hdrop
        omega
      split at h
      · cases h
      · split at h
        · exact Nat.lt_trans (ih h) hlength
        · cases h
          exact hlength

/-- A payload takes bytes of the stream. -/
theorem length_readFrame (h : s.readFrame f limit = (.payload p, s')) :
    s'.rest.length < s.rest.length := by
  cases f with
  | binary => exact length_readBinary h
  | line => exact length_readLineWith _ h

/-- The payloads that a reader yields, at most as many as `fuel`. -/
def payloadsWith (f : Framing) (limit : Nat) : (fuel : Nat) → Stream → List Bytes
  | 0, _ => []
  | fuel + 1, s =>
    match s.readFrame f limit with
    | (.payload p, s) => p :: payloadsWith f limit fuel s
    | _ => []

/-- The payloads that a reader yields before the stream ends or breaks. -/
def payloads (f : Framing) (limit : Nat) (s : Stream) : List Bytes :=
  payloadsWith f limit (s.rest.length + 1) s

/-- Enough fuel does not matter. -/
theorem payloadsWith_eq (fuel : Nat) : ∀ {fuel' : Nat} {s : Stream}, s.rest.length < fuel →
    s.rest.length < fuel' → payloadsWith f limit fuel s = payloadsWith f limit fuel' s := by
  induction fuel with
  | zero =>
    intro fuel' s h
    exact absurd h (Nat.not_lt_zero _)
  | succ fuel ih =>
    intro fuel' s h h'
    cases fuel' with
    | zero => exact absurd h' (Nat.not_lt_zero _)
    | succ fuel' =>
      rw [payloadsWith, payloadsWith]
      split
      · rename_i p s' hread
        have hlength := length_readFrame hread
        have htail : payloadsWith f limit fuel s' = payloadsWith f limit fuel' s' :=
          ih (by omega) (by omega)
        rw [htail]
      · rfl

theorem payloads_cons (h : s.readFrame f limit = (.payload p, s')) :
    payloads f limit s = p :: payloads f limit s' := by
  have hlength := length_readFrame h
  rw [payloads, payloadsWith, h]
  dsimp only
  rw [payloads, payloadsWith_eq _ hlength (Nat.lt_succ_self _)]

theorem payloads_nil (h : ∀ p, (s.readFrame f limit).1 ≠ .payload p) : payloads f limit s = [] := by
  rw [payloads, payloadsWith]
  split
  · rename_i p s' hread
    exact absurd (congrArg Prod.fst hread) (h p)
  · rfl

end Wire.Stream

namespace Server

variable {ε : Type} [DebugEngine ε]

omit [DebugEngine ε] in
/-- Whether a reply could be written or not, the outbox is left as sending it leaves it. -/
theorem sendReply_snd (r : Response) (s : Session ε) :
    (sendReply r s).2 = { s with outbox := (s.outbox.send r.render).2 } := by
  rw [sendReply]
  split
  all_goals
    rename_i hsend
    rw [hsend]

omit [DebugEngine ε] in
theorem sendReply_fst (r : Response) (s : Session ε) :
    (sendReply r s).1 = true ↔ (s.outbox.send r.render).1 = .ok () := by
  rw [sendReply]
  split
  all_goals
    rename_i hsend
    rw [hsend]
    simp

/-! ### Exchanges -/

/-- A payload and the session that it reaches. -/
structure Exchange (ε : Type) where
  payload : Bytes
  before : Session ε

namespace Exchange

/-- The reply to the payload. -/
def reply (x : Exchange ε) : Response := (Session.handleFrame x.payload x.before).1

/-- Whether the reply could be written. -/
def sent (x : Exchange ε) : Bool := (sendReply x.reply (Session.handleFrame x.payload x.before).2).1

/-- The session after the reply. -/
def after (x : Exchange ε) : Session ε :=
  (sendReply x.reply (Session.handleFrame x.payload x.before).2).2

end Exchange

/-- A payload reaches a session: events are delivered first. -/
def reaches (payload : Bytes) (s : Session ε) : Exchange ε :=
  let s := Session.deliverEvents s
  ⟨payload, { s with outbox := s.outbox.logMessage .inbound payload }⟩

/-- What becomes of payloads in a session: each is answered, up to the first reply that cannot be
written. -/
def exchanges : List Bytes → Session ε → List (Exchange ε)
  | [], _ => []
  | p :: ps, s =>
    let x := reaches p s
    x :: if x.sent then exchanges ps x.after else []

/-- The session after payloads. -/
def converse : List Bytes → Session ε → Session ε
  | [], s => Session.deliverEvents s
  | p :: ps, s =>
    let x := reaches p s
    if x.sent then converse ps x.after else x.after

theorem answer_eq (payload : Bytes) (s : Session ε) :
    answer payload (Session.deliverEvents s)
      = ((reaches payload s).sent, (reaches payload s).after) := rfl

/-! ### What serving keeps -/

/-- A property of sessions that is kept whatever is written, and by events and commands. -/
structure Kept (P : Session ε → Prop) : Prop where
  outbox : ∀ (s : Session ε) (o : Wire.Outbox), P s → P { s with outbox := o }
  events : ∀ s : Session ε, P s → P (Session.deliverEvents s)
  reply : ∀ (c : Session.Command) (s : Session ε), P s → P (Session.reply c s).2

section Kept

variable {P : Session ε → Prop} {s : Session ε}

theorem Kept.handleFrame (h : Kept P) (payload : Bytes) (hs : P s) :
    P (Session.handleFrame payload s).2 := by
  rw [Session.handleFrame]
  dsimp only
  split
  · exact hs
  · exact h.reply _ s hs

theorem Kept.after (h : Kept P) {x : Exchange ε} (hx : P x.before) : P x.after := by
  rw [Exchange.after, sendReply_snd]
  exact h.outbox _ _ (h.handleFrame x.payload hx)

theorem Kept.converse (h : Kept P) (ps : List Bytes) : ∀ {s : Session ε}, P s →
    P (converse ps s) := by
  induction ps with
  | nil => exact fun hs => h.events _ hs
  | cons p ps ih =>
    intro s hs
    have hafter : P (reaches p s).after := h.after (h.outbox _ _ (h.events s hs))
    rw [Server.converse]
    split
    · exact ih hafter
    · exact hafter

end Kept

/-! ### Serving a stream -/

/-- A server answers the payloads of its stream. -/
theorem serveWith_eq {framing : Framing} {limit : Nat} (fuel : Nat) :
    ∀ {input : Stream} {s : Session ε}, input.rest.length < fuel →
      serveWith framing limit fuel input s = converse (input.payloads framing limit) s := by
  induction fuel with
  | zero =>
    intro input s h
    exact absurd h (Nat.not_lt_zero _)
  | succ fuel ih =>
    intro input s h
    rw [serveWith, turn]
    rcases hread : input.readFrame framing limit with ⟨result, rest⟩
    cases result with
    | payload p =>
      have hlength := Stream.length_readFrame hread
      rw [Stream.payloads_cons hread, converse]
      dsimp only
      rw [answer_eq]
      rcases hsent : (reaches p s).sent with _ | _
      · rfl
      · exact ih (by omega)
    | endOfStream =>
      rw [Stream.payloads_nil (by rw [hread]; rintro p ⟨⟩)]
      rfl
    | failed e =>
      rw [Stream.payloads_nil (by rw [hread]; rintro p ⟨⟩)]
      rfl

/-- What a server does with a session. -/
theorem run_eq (input : Stream) (s : Session ε) : run input s =
    (finish : Session.Action ε Unit).run (converse
      (input.payloads s.outbox.framing s.settings.transport.maxFrame) (start s)) := by
  rw [run, serveWith_eq _ (Nat.lt_succ_self _)]
  rfl

end Server

end DebugAdapter
