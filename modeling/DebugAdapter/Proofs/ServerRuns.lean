import DebugAdapter.Proofs.AlikeSessions
import DebugAdapter.Proofs.OutsideActive

/-!
# Runs of a server

What a server writes and what it leaves behind, for every engine and every stream: one reply for
each payload that it handles, in their order, among notifications; then the farewell, unless the
engine breaks down while the process is destroyed; and no process in any case.
-/

namespace DebugAdapter

open Debuggee
open Operation

namespace Wire

/-- The reply in a message, if it is one. -/
def Message.reply? : Message → Option Response
  | note _ => none
  | reply r => some r

end Wire

open Wire (Message Response Stream)

namespace Server

variable {ε : Type} [DebugEngine ε]

/-! ### Which payloads are handled -/

/-- All payloads are handled in their order, up to the first reply that cannot be written. -/
theorem exchanges_cases (ps : List Bytes) : ∀ s : Session ε,
    (∀ x ∈ exchanges ps s, x.sent = true) ∧ (exchanges ps s).map (·.payload) = ps ∨
    ∃ xs x, exchanges ps s = xs ++ [x] ∧ (∀ y ∈ xs, y.sent = true) ∧ x.sent = false ∧
      (exchanges ps s).map (·.payload) <+: ps := by
  induction ps with
  | nil => exact fun s => Or.inl ⟨List.forall_mem_nil _, rfl⟩
  | cons p ps ih =>
    intro s
    rw [exchanges]
    rcases hsent : (reaches p s).sent with _ | _
    · refine Or.inr ⟨[], reaches p s, rfl, List.forall_mem_nil _, hsent, ?_⟩
      exact (List.prefix_cons_inj p).mpr List.nil_prefix
    · rcases ih (reaches p s).after with ⟨hall, hps⟩ | ⟨xs, x, hxs, hall, hx, hps⟩
      · refine Or.inl ⟨List.forall_mem_cons.mpr ⟨hsent, hall⟩, ?_⟩
        exact congrArg (p :: ·) hps
      · refine Or.inr ⟨reaches p s :: xs, x, ?_, List.forall_mem_cons.mpr ⟨hsent, hall⟩, hx, ?_⟩
        · exact congrArg (reaches p s :: ·) hxs
        · exact (List.prefix_cons_inj p).mpr hps

/-! ### What is sent -/

omit [DebugEngine ε] in
/-- What is sent while a session goes on is told by notifications. -/
theorem sent_of_knows {s s' : Session (Journal ε)} (h : Session.Knows s s') :
    ∃ ms : List Message, s.outbox.Sent (ms.map Message.text) s'.outbox ∧
      ms.filterMap Message.reply? = [] := by
  obtain ⟨xs, ns, hxs, -⟩ := h
  refine ⟨ns.map .note, ?_, ?_⟩
  · rw [List.map_map]
    exact hxs.outbox
  · rw [List.filterMap_map, List.filterMap_eq_nil_iff]
    exact fun n _ => rfl

/-- Up to the reply only notifications are sent. -/
theorem sent_handled (p : Bytes) (s : Session (Journal ε)) :
    ∃ ms : List Message, s.outbox.Sent (ms.map Message.text)
        (Session.handleFrame p (reaches p s).before).2.outbox ∧
      ms.filterMap Message.reply? = [] := by
  obtain ⟨ms, hms, hreplies⟩ := sent_of_knows (Session.knows_events s)
  obtain ⟨ms', hms', hreplies'⟩ := sent_of_knows (Session.knows_payload p (reaches p s).before)
  refine ⟨ms ++ ms', ?_, ?_⟩
  · rw [List.map_append]
    have hlogged := Wire.Outbox.sent_logMessage (Session.deliverEvents s).outbox .inbound p
    exact hms.append (hlogged.append hms')
  · rw [List.filterMap_append, hreplies, hreplies']
    rfl

/-- An exchange sends notifications and then its reply. -/
theorem sent_reaches (p : Bytes) (s : Session (Journal ε)) :
    ∃ ms : List Message, s.outbox.Sent (ms.map Message.text) (reaches p s).after.outbox ∧
      ms.filterMap Message.reply? = [(reaches p s).reply] := by
  obtain ⟨ms, hms, hreplies⟩ := sent_handled p s
  refine ⟨ms ++ [.reply (reaches p s).reply], ?_, ?_⟩
  · rw [List.map_append, Exchange.after, sendReply_snd]
    exact hms.append (Wire.Outbox.sent_send _ _)
  · rw [List.filterMap_append, hreplies]
    rfl

/-- Among notifications the replies are sent in the order of their payloads. -/
theorem sent_converse (ps : List Bytes) : ∀ s : Session (Journal ε),
    ∃ ms : List Message, s.outbox.Sent (ms.map Message.text) (converse ps s).outbox ∧
      ms.filterMap Message.reply? = (exchanges ps s).map Exchange.reply := by
  induction ps with
  | nil => exact fun s => sent_of_knows (Session.knows_events s)
  | cons p ps ih =>
    intro s
    obtain ⟨ms, hms, hreplies⟩ := sent_reaches p s
    rw [exchanges, converse]
    rcases hsent : (reaches p s).sent with _ | _
    · exact ⟨ms, hms, hreplies⟩
    · obtain ⟨ms', hms', hreplies'⟩ := ih (reaches p s).after
      refine ⟨ms ++ ms', ?_, ?_⟩
      · rw [List.map_append]
        exact hms.append hms'
      · rw [List.filterMap_append, hreplies, hreplies']
        rfl

/-- Into a sink that never fails a reply can be written exactly if it can be framed. -/
theorem sent_iff (ps : List Bytes) : ∀ s : Session (Journal ε), s.outbox.sink.budget = none →
    ∀ x ∈ exchanges ps s,
      (x.sent = true ↔ (s.outbox.framing.frame? x.reply.render).isSome = true) := by
  induction ps with
  | nil =>
    rintro s - x ⟨⟩
  | cons p ps ih =>
    intro s hbudget x hx
    have hfirst : ((reaches p s).sent = true ↔
        (s.outbox.framing.frame? (reaches p s).reply.render).isSome = true) := by
      obtain ⟨ms, hms, -⟩ := sent_handled p s
      rw [← hms.framing, ← Wire.Outbox.send_isOk _ (hms.written hbudget).2]
      exact sendReply_fst _ _
    rw [exchanges] at hx
    rcases hsent : (reaches p s).sent with _ | _
    · rw [hsent] at hx
      cases List.mem_singleton.mp hx
      exact hfirst
    · rw [hsent] at hx
      rcases List.mem_cons.mp hx with rfl | hx
      · exact hfirst
      · obtain ⟨ms, hms, -⟩ := sent_reaches p s
        rw [← hms.framing]
        exact ih _ (hms.written hbudget).2 x hx

/-! ### What becomes of targets -/

/-- Between two states of a session the target that it had is kept, or it was released. -/
def Follows (s s' : Session (Journal ε)) : Prop :=
  ∃ xs, s'.engine.entries = s.engine.entries ++ xs ∧
    ∀ t, s.lifecycle.target? = some t →
      s'.lifecycle.target? = some t ∨ ∃ x ∈ xs, x.releases t = true

instance : StepRelation (Follows (ε := ε)) where
  refl s := ⟨[], (List.append_nil _).symm, fun _ ht => Or.inl ht⟩
  trans := by
    rintro s s' s'' ⟨xs, hxs, htarget⟩ ⟨ys, hys, htarget'⟩
    refine ⟨xs ++ ys, ?_, fun t ht => ?_⟩
    · rw [hys, hxs, List.append_assoc]
    · rcases htarget t ht with ht | ⟨x, hx, hreleases⟩
      · rcases htarget' t ht with ht | ⟨y, hy, hreleases⟩
        · exact Or.inl ht
        · exact Or.inr ⟨y, List.mem_append_right xs hy, hreleases⟩
      · exact Or.inr ⟨x, List.mem_append_left ys hx, hreleases⟩

omit [DebugEngine ε] in
theorem follows_of_tends {s s' : Session (Journal ε)} {t : Handle}
    (ht : s.lifecycle.target? = some t) (ht' : s'.lifecycle.target? = some t)
    (h : Session.Tends t s.channel s'.channel) : Follows s s' := by
  obtain ⟨xs, ns, hxs, -⟩ := h
  refine ⟨xs, hxs.entries, fun u hu => Or.inl ?_⟩
  rw [ht', ← ht, hu]

/-- A command keeps the target or releases it, also if the engine breaks down. -/
theorem follows_effect {s s' : Session (Journal ε)} {c : Session.Command}
    {r : Except Session.Failure Response} (h : Session.Effect s c r s') : Follows s s' := by
  cases h with
  | refused e => exact StepRelation.refl s
  | pong => exact StepRelation.refl s
  | staged hc hs hs' hchannel =>
    refine ⟨[], ?_, fun t ht => ?_⟩
    · rw [show s'.engine = s.engine from congrArg Session.Channel.engine hchannel, List.append_nil]
    · rw [hs] at ht
      cases ht
  | attended _ _ hs hs' htends => exact follows_of_tends hs hs' htends
  | @released c r s' t x k hc hs hs' htarget hx hcall htends =>
    obtain ⟨ys, ns, hys, -⟩ := htends
    refine ⟨[x] ++ ys, (hcall.append hys).entries, fun u hu => Or.inr ⟨x, List.mem_cons_self, ?_⟩⟩
    rw [hs] at hu
    cases hu
    exact hx
  | began hc hs h =>
    obtain ⟨xs, ns, hxs, -⟩ := h
    refine ⟨xs, hxs.entries, fun t ht => ?_⟩
    rw [hs] at ht
    cases ht

theorem kept_follows (s₀ : Session (Journal ε)) : Kept (Follows s₀) where
  outbox s o hs := hs
  events s hs := by
    refine StepRelation.trans hs ?_
    rcases ht : s.lifecycle.target? with _ | t
    · rw [Session.deliverEvents_none ht]
      exact StepRelation.refl s
    · have hevents := Session.attending_deliverEvents (W := Session.Tends) t s ht
      exact follows_of_tends ht hevents.target hevents.channel
  reply c s hs := by
    obtain ⟨r, heffect, -⟩ := Session.effect_reply c s
    exact StepRelation.trans hs (follows_effect heffect)

/-- What comes after an exchange. -/
theorem follows_exchange (ps : List Bytes) : ∀ s : Session (Journal ε),
    ∀ x ∈ exchanges ps s, Follows x.after (converse ps s) := by
  induction ps with
  | nil =>
    rintro s x ⟨⟩
  | cons p ps ih =>
    intro s x hx
    rw [exchanges] at hx
    rw [converse]
    rcases hsent : (reaches p s).sent with _ | _
    · rw [hsent] at hx
      cases List.mem_singleton.mp hx
      exact StepRelation.refl _
    · rw [hsent] at hx
      rcases List.mem_cons.mp hx with rfl | hx
      · exact (kept_follows _).converse ps (StepRelation.refl _)
      · exact ih _ x hx

/-! ### The end -/

/-- The engine breaks down when the process of a session is destroyed. -/
def BreaksDown (s : Session ε) (text : Option String) : Prop :=
  ∃ t, s.lifecycle.target? = some t ∧
    (DebugEngine.perform (.request t .destroy) s.engine).1 = .error (.crash text)

theorem breaksDown_iff (s : Session ε) (f : Session.Failure) :
    (∃ t text, s.lifecycle.target? = some t ∧ f = .crashed text ∧
      (DebugEngine.perform (.request t .destroy) s.engine).1 = .error (.crash text)) ↔
    ∃ text, f = .crashed text ∧ BreaksDown s text := by
  constructor
  · rintro ⟨t, text, ht, hf, hcrash⟩
    exact ⟨text, hf, t, ht, hcrash⟩
  · rintro ⟨text, hf, t, ht, hcrash⟩
    exact ⟨t, text, ht, hf, hcrash⟩

/-- The process is destroyed. -/
theorem follows_shutdown (s : Session (Journal ε)) : Ends Session.shutdown s fun r s' =>
    s'.lifecycle.target? = none ∧ Follows s s' ∧ s.outbox.Sent [] s'.outbox ∧
    ∀ f, r = .error f ↔ ∃ text, f = .crashed text ∧ BreaksDown s text := by
  refine (Session.ends_shutdown s).mono ?_
  rintro r s' ⟨hs', hfails, h⟩
  refine ⟨hs', ?_, ?_, fun f => (hfails f).trans (breaksDown_iff s f)⟩
  · rcases h with ⟨-, rfl⟩ | ⟨t, ht, hcall⟩
    · exact StepRelation.refl s'
    · refine ⟨_, hcall.entries, fun u hu => Or.inr ⟨_, List.mem_cons_self, ?_⟩⟩
      rw [ht] at hu
      cases hu
      exact beq_self_eq_true t
  · rcases h with ⟨-, rfl⟩ | ⟨t, -, hcall⟩
    · exact .refl _
    · exact hcall.outbox

/-- The process is destroyed, and the farewell is sent unless the engine breaks down. -/
theorem ends_finish (s : Session (Journal ε)) : Ends finish s fun r s' =>
    s'.lifecycle.target? = none ∧ Follows s s' ∧
    s.outbox.Sent (if r.isOk then [farewell.render] else []) s'.outbox ∧
    ∀ f, r = .error f ↔ ∃ text, f = .crashed text ∧ BreaksDown s text := by
  refine (follows_shutdown s).bind ?_ ?_
  · rintro _ s' ⟨hs', hfollows, hsent, hfails⟩
    rw [ends_modify, sendReply_snd]
    refine ⟨hs', hfollows, ?_, fun f => ?_⟩
    · exact (hsent.append (Wire.Outbox.sent_send _ _)).append (Wire.Outbox.sent_logLine _ _)
    · rw [← hfails f]
  · rintro f s' ⟨hs', hfollows, hsent, hfails⟩
    refine ⟨hs', hfollows, hsent, fun g => ?_⟩
    rw [← hfails g]

/-! ### Runs -/

/-- **A server replies to its payloads in their order, and leaves no process behind.** For every
engine, every session from its start and every stream: all payloads that a reader yields are
handled, up to the first reply that cannot be written, which into a sink that never fails is one
that has no frame. Among notifications exactly the replies to these payloads are sent, in their
order, and then the farewell as the last message; only if the engine breaks down while the process
is destroyed at the end the farewell is missing. In any case the session has no process then, and
each target that it had after an exchange was destroyed or let go since, as a journal of the engine
shows; that the journal is kept makes no difference. -/
theorem replies_of_run (engine : ε) (settings : Session.Settings) (outbox : Wire.Outbox)
    (input : Stream) :
    let s := Session.start (Journal.blank engine) settings outbox
    let payloads := input.payloads outbox.framing settings.transport.maxFrame
    let handled := exchanges payloads (start s)
    let last := converse payloads (start s)
    let result := (run input s).1
    let s' := (run input s).2
    run input (Session.start engine settings outbox) = (result, s'.inside Journal.engine) ∧
    ((∀ x ∈ handled, x.sent = true) ∧ handled.map (·.payload) = payloads ∨
      ∃ xs x, handled = xs ++ [x] ∧ (∀ y ∈ xs, y.sent = true) ∧ x.sent = false ∧
        handled.map (·.payload) <+: payloads) ∧
    (outbox.sink.budget = none → ∀ x ∈ handled,
      (x.sent = true ↔ (outbox.framing.frame? x.reply.render).isSome = true)) ∧
    (∃ ms : List Message, outbox.Sent (ms.map Message.text) s'.outbox ∧
      (outbox.sink.budget = none → s'.outbox.sink.written = outbox.sink.written ++
        ((ms.map Message.text).filterMap outbox.framing.frame?).flatten) ∧
      ms.filterMap Message.reply? =
        handled.map Exchange.reply ++ (if result.isOk then [farewell] else []) ∧
      (result.isOk = true → ms.getLast? = some (.reply farewell))) ∧
    (∀ f, result = .error f ↔ ∃ text, f = .crashed text ∧ BreaksDown last text) ∧
    ¬Session.IsActive s' ∧
    ∀ x ∈ handled, ∀ t, x.after.lifecycle.target? = some t →
      ∃ ys, s'.engine.entries = x.after.engine.entries ++ ys ∧ ∃ y ∈ ys, y.releases t = true := by
  intro s payloads handled last result s'
  have hfinish := ends_finish last
  have hrun : run input s = (finish : Session.Action (Journal ε) Unit).run last := run_eq input s
  obtain ⟨hs', hfollows, hfarewell, hfails⟩ : s'.lifecycle.target? = none ∧ Follows last s' ∧
      last.outbox.Sent (if result.isOk then [farewell.render] else []) s'.outbox ∧
      ∀ f, result = .error f ↔ ∃ text, f = .crashed text ∧ BreaksDown last text := by
    rw [show result = (run input s).1 from rfl, show s' = (run input s).2 from rfl, hrun]
    exact hfinish
  -- The messages of the payloads, and then perhaps the farewell; the trace has a line of its own.
  obtain ⟨ms, hms, hreplies⟩ := sent_converse payloads (start s)
  have hsent : outbox.Sent
      ((ms ++ if result.isOk then [Message.reply farewell] else []).map Message.text)
      s'.outbox := by
    rw [List.map_append]
    refine (Wire.Outbox.sent_logLine outbox "-- session start").append (hms.append ?_)
    split at hfarewell
    · rename_i hok
      rw [if_pos hok]
      exact hfarewell
    · rename_i hok
      rw [if_neg hok]
      exact hfarewell
  refine ⟨run_eq_journal engine settings outbox input,
    exchanges_cases payloads (start s), fun hbudget => sent_iff payloads (start s) hbudget,
    ⟨_, hsent, fun hbudget => (hsent.written hbudget).1, ?_, fun hok => ?_⟩, hfails,
    Session.not_isActive_iff.mpr hs', fun x hx t ht => ?_⟩
  · rw [List.filterMap_append, hreplies]
    split
    · rfl
    · rfl
  · rw [if_pos hok, List.getLast?_append]
    rfl
  -- A target is kept or released from the exchange to the end, where there is none.
  · obtain ⟨ys, hys, htarget⟩ :=
      StepRelation.trans (follows_exchange payloads (start s) x hx) hfollows
    refine ⟨ys, hys, (htarget t ht).resolve_left fun hactive => ?_⟩
    rw [hs'] at hactive
    cases hactive

end Server

/-! ### An engine that breaks down -/

/-- An engine that starts processes and breaks down when it is to destroy one. -/
structure Brittle where

namespace Brittle

instance : DebugEngine Brittle where
  capabilities _ := ⟨false, false, false⟩
  perform c e :=
    match c with
    | .createTarget .. => (.ok 0, e)
    | .rawCommand .. => (.error (.error (.unsupported "raw command")), e)
    | .complete .. => (.ok [], e)
    | .request _ (.launch _) => (.ok (), e)
    | .request _ .destroy => (.error (.crash (some "boom")), e)
    | .request _ _ => (.error (.error (.unsupported "request")), e)
  observe _ q e :=
    match q with
    | .subscribe => (true, e)
    | .events => ([], e)
    | .processId => (none, e)
    | .state => (.stopped, e)
    | .stopInfo => (none, e)
    | .exitStatus => (none, e)

/-- A stream that ends after a program was staged and launched. -/
def input : Stream := .ofBytes
  [43, 0, 0, 0, 123, 34, 99, 111, 109, 109, 97, 110, 100, 34, 58, 34, 112, 114, 101, 112, 97,
    114, 101, 69, 120, 101, 99, 117, 116, 97, 98, 108, 101, 34, 44, 34, 112, 97, 116, 104, 34,
    58, 34, 47, 97, 34, 125, 20, 0, 0, 0, 123, 34, 99, 111, 109, 109, 97, 110, 100, 34, 58, 34,
    108, 97, 117, 110, 99, 104, 34, 125]

end Brittle

namespace Server

/-- The process that was launched is destroyed at the end of the stream, and what is written then
does not end in a farewell. -/
theorem no_farewell :
    let outbox : Wire.Outbox := ⟨.binary, .unlimited, none⟩
    let s := Session.start (Journal.blank (Brittle.mk)) .standard outbox
    ¬∃ ms : List Message, outbox.Sent (ms.map Message.text) (run Brittle.input s).2.outbox ∧
      ms.getLast? = some (.reply farewell) := by
  rintro outbox s ⟨ms, hms, hlast⟩
  -- What was written is computed; a farewell as the last message would be its end.
  have hframe : ¬(outbox.framing.frame? farewell.render).getD [] <:+
      (run Brittle.input s).2.outbox.sink.written := by
    decide +kernel
  obtain ⟨before, rfl⟩ := List.getLast?_eq_some_iff.mp hlast
  refine hframe ?_
  rw [(hms.written rfl).1, List.map_append, List.filterMap_append, List.flatten_append,
    ← List.append_assoc]
  have hfarewell : ([Message.reply farewell].map Message.text).filterMap outbox.framing.frame? =
      [(outbox.framing.frame? farewell.render).getD []] := by
    decide +kernel
  rw [hfarewell, List.flatten_singleton]
  exact List.suffix_append _ _

end Server

end DebugAdapter
