import DebugAdapter.Proofs.AlikeEngines
import DebugAdapter.Proofs.SessionRuns
import DebugAdapter.Proofs.Serving
import DebugAdapter.Proofs.TwinCommands

/-!
# Sessions over engines that answer alike

A session cannot tell an engine from one that answers alike: each command does the same
(`alike_execute`), and so a server does the same with a stream (`Server.run_inside`). In particular
the runs of sessions over an engine are those over its journals, with the same replies, documents
and stages (`run_iff_journal`, `Server.run_eq_journal`): what is proved of sessions over journals
holds of all sessions, and the entries of the journal are what they ask.
-/

namespace DebugAdapter

open Debuggee
open Operation
open Wire (Response)

namespace Session

variable {ε ε' : Type} {π : ε' → ε} [DebugEngine ε] [DebugEngine ε'] [AnswersAlike π]

/-- **A session cannot tell engines apart that answer alike.** -/
theorem alike_execute (c : Command) : Alike π (execute c) (execute c) :=
  (twins_execute c).alike

/-- The replies are the same. -/
theorem reply_inside (c : Command) (s : Session ε') :
    reply c (s.inside π) = ((reply c s).1, (reply c s).2.inside π) := by
  have h : Coupled (Contains π) True s (s.inside π) := coupled_inside_iff.mpr rfl
  obtain ⟨hreply, hafter⟩ := reply_coupled h c
  exact Prod.ext hreply.symm (coupled_inside_iff.mp hafter)

theorem handleFrame_inside (payload : Bytes) (s : Session ε') :
    handleFrame payload (s.inside π) =
      ((handleFrame payload s).1, (handleFrame payload s).2.inside π) := by
  have h : Coupled (Contains π) True s (s.inside π) := coupled_inside_iff.mpr rfl
  obtain ⟨hreply, hafter⟩ := handleFrame_coupled h payload
  exact Prod.ext hreply.symm (coupled_inside_iff.mp hafter)

/-! ### Runs -/

theorem start_inside (engine : ε') (settings : Settings) (outbox : Wire.Outbox) :
    (Session.start engine settings outbox).inside π =
      Session.start (π engine) settings outbox := by
  rw [Session.start, Session.start, AnswersAlike.capabilities]
  rfl

/-- A run is one over the inner engine, with the same replies. -/
theorem Run.inside {s₀ s : Session ε'} {log : Log} (h : Run s₀ log s) :
    Run (s₀.inside π) log (s.inside π) := by
  induction h with
  | start => exact .start
  | command c _ ih =>
    have hnext := Run.command c ih
    rw [reply_inside] at hnext
    exact hnext
  | events _ ih =>
    have hnext := Run.events ih
    rw [deliverEvents_inside] at hnext
    exact hnext

/-- A run over the inner engine is one of a session that contains it. -/
theorem Run.outside {s₀ : Session ε'} {t : Session ε} {log : Log} (h : Run (s₀.inside π) log t) :
    ∃ s, Run s₀ log s ∧ s.inside π = t := by
  induction h with
  | start => exact ⟨s₀, .start, rfl⟩
  | command c _ ih =>
    obtain ⟨s, hs, rfl⟩ := ih
    rw [reply_inside]
    exact ⟨_, .command c hs, rfl⟩
  | events _ ih =>
    obtain ⟨s, hs, rfl⟩ := ih
    exact ⟨_, .events hs, (deliverEvents_inside s).symm⟩

/-- **Journals change nothing.** The runs of sessions over an engine are those over its journal,
with the same replies, documents and stages. -/
theorem run_iff_journal (engine : ε) (settings : Settings) (outbox : Wire.Outbox) (log : Log)
    (t : Session ε) : Run (Session.start engine settings outbox) log t ↔
      ∃ s, Run (Session.start (Journal.blank engine) settings outbox) log s ∧
        s.inside Journal.engine = t := by
  have hstart : (Session.start (Journal.blank engine) settings outbox).inside Journal.engine =
      Session.start engine settings outbox := start_inside _ _ _
  rw [← hstart]
  constructor
  · exact fun h => h.outside
  · rintro ⟨s, hs, rfl⟩
    exact hs.inside

end Session

namespace Server

open Session (Alike deliverEvents_inside handleFrame_inside)

variable {ε ε' : Type} {π : ε' → ε}

theorem sendReply_inside (r : Response) (s : Session ε') :
    sendReply r (s.inside π) = ((sendReply r s).1, (sendReply r s).2.inside π) := by
  rw [sendReply, sendReply, show (s.inside π).outbox = s.outbox from rfl]
  rcases s.outbox.send r.render with ⟨_ | _, outbox⟩
  · rfl
  · rfl

variable [DebugEngine ε] [DebugEngine ε'] [AnswersAlike π]

theorem answer_inside (payload : Bytes) (s : Session ε') :
    answer payload (s.inside π) = ((answer payload s).1, (answer payload s).2.inside π) := by
  rw [answer, answer]
  dsimp only
  have hframe := handleFrame_inside (π := π) payload
    { s with outbox := s.outbox.logMessage .inbound payload }
  rw [show Session.handleFrame payload { s.inside π with
    outbox := (s.inside π).outbox.logMessage .inbound payload } = _ from hframe]
  exact sendReply_inside _ _

theorem converse_inside (ps : List Bytes) : ∀ s : Session ε',
    converse ps (s.inside π) = (converse ps s).inside π := by
  induction ps with
  | nil => exact deliverEvents_inside
  | cons p ps ih =>
    intro s
    have hanswer := answer_inside (π := π) p (Session.deliverEvents s)
    rw [← deliverEvents_inside, answer_eq, answer_eq] at hanswer
    obtain ⟨hsent, hafter⟩ := Prod.mk.inj hanswer
    rw [converse, converse, hsent, hafter]
    rcases (reaches p s).sent with _ | _
    · rfl
    · exact ih _

theorem alike_finish : Alike π finish finish := by
  refine Session.Twins.alike (Session.twins_shutdown.bind fun _ => Session.Twins.modify ?_)
  intro s t h
  rw [Session.coupled_inside_iff] at h ⊢
  rw [h, sendReply_inside]
  rfl

/-- A server does the same with a stream. -/
theorem run_inside (input : Wire.Stream) (s : Session ε') :
    run input (s.inside π) = ((run input s).1, (run input s).2.inside π) := by
  rw [run_eq, run_eq, show start (s.inside π) = (start s).inside π from rfl,
    converse_inside]
  obtain ⟨hresult, hsession⟩ := alike_finish (π := π)
    (converse (input.payloads s.outbox.framing s.settings.transport.maxFrame) (start s))
  exact Prod.ext hresult hsession

/-- What a server does over an engine is what it does over the journal of the engine. -/
theorem run_eq_journal (engine : ε) (settings : Session.Settings) (outbox : Wire.Outbox)
    (input : Wire.Stream) :
    let r := run input (Session.start (Journal.blank engine) settings outbox)
    run input (Session.start engine settings outbox) = (r.1, r.2.inside Journal.engine) := by
  have hstart : (Session.start (Journal.blank engine) settings outbox).inside Journal.engine =
      Session.start engine settings outbox := Session.start_inside _ _ _
  rw [← hstart]
  exact run_inside input _

end Server

end DebugAdapter
