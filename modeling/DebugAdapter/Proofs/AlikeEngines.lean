import DebugAdapter.Proofs.TwinRules

/-!
# Engines that answer alike

An engine may answer as another one does that is part of its state: a journal does, and so does an
engine whose calls are recorded. Then a session over the one and a session over the other do the
same: they are coupled and wired alike (`coupled_inside_iff`), and the notifier of the one does what
that of the other does. `Alike` says so of an action.
-/

namespace DebugAdapter

open Operation

namespace Debuggee

/-- A raw command may give back an inquiry; all other answers are data. -/
def Call.isRaw : Call → Bool
  | rawCommand .. => true
  | _ => false

/-- An engine answers as another one does that is part of its state. A raw command need not give
back the same inquiry; what it comes to is the same. -/
class AnswersAlike {ε ε' : Type} [DebugEngine ε] [DebugEngine ε'] (π : ε' → ε) : Prop where
  capabilities : ∀ e, DebugEngine.capabilities (π e) = DebugEngine.capabilities e
  notifierError : ∀ e, DebugEngine.notifierError (π e) = DebugEngine.notifierError e
  perform : ∀ (c : Call) (e : ε'), c.isRaw = false → DebugEngine.perform c (π e) =
    ((DebugEngine.perform c e).1, π (DebugEngine.perform c e).2)
  rawOutput : ∀ (focus : Focus) (line : String) (e : ε'), rawOutput focus line (π e) =
    ((rawOutput focus line e).1, π (rawOutput focus line e).2)
  observe : ∀ (t : Handle) (q : Query) (e : ε'), DebugEngine.observe t q (π e) =
    ((DebugEngine.observe t q e).1, π (DebugEngine.observe t q e).2)

/-- An engine is part of the state of another one. -/
def Contains {ε ε' : Type} (π : ε' → ε) (e' : ε') (e : ε) : Prop := e = π e'

instance {ε ε' : Type} [DebugEngine ε] [DebugEngine ε'] {π : ε' → ε} [AnswersAlike π] :
    EnginesAgree (Contains π) where
  notifierError := by
    rintro e' _ rfl
    exact (AnswersAlike.notifierError e').symm
  perform := by
    rintro e' _ c hplain rfl
    have hraw : c.isRaw = false := by
      cases c with
      | rawCommand focus line => cases hplain
      | _ => rfl
    rw [AnswersAlike.perform c e' hraw]
    exact ⟨rfl, rfl⟩
  rawOutput := by
    rintro e' _ focus line rfl
    rw [AnswersAlike.rawOutput focus line e']
    exact ⟨rfl, rfl⟩
  observe := by
    rintro e' _ t q - rfl
    rw [AnswersAlike.observe t q e']
    exact ⟨rfl, rfl⟩

/-! ### Journals and records -/

section Instances

variable {ε : Type} [DebugEngine ε]

/-- An engine answers alike while a journal notes what it is asked. -/
instance : AnswersAlike (Journal.engine (ε := ε)) where
  capabilities _ := rfl
  notifierError _ := rfl
  perform c j hc := by
    cases c with
    | rawCommand focus line => cases hc
    | _ => rfl
  rawOutput focus line j := by
    have hsettle : DebugEngine.perform (.rawCommand focus line) j =
        ((Debuggee.rawOutput focus line j.engine).1.map .done,
          ⟨(Debuggee.rawOutput focus line j.engine).2,
            j.entries ++ [.call (.rawCommand focus line)
              ((Debuggee.rawOutput focus line j.engine).1.map .done)]⟩) := rfl
    rw [Debuggee.rawOutput.eq_def focus line j, hsettle]
    rcases Debuggee.rawOutput focus line j.engine with ⟨f | output, e⟩
    · rfl
    · rfl
  observe _ _ _ := rfl

theorem perform_recorded (c : Call) (s : Recorded ε) : DebugEngine.perform c s.engine =
    ((DebugEngine.perform c s).1, (DebugEngine.perform c s).2.engine) := rfl

theorem observe_recorded (t : Handle) (q : Query) (s : Recorded ε) :
    DebugEngine.observe t q s.engine =
      ((DebugEngine.observe t q s).1, (DebugEngine.observe t q s).2.engine) := rfl

/-- An inquiry gets the same answers while calls are recorded. -/
theorem Inquiry.run_recorded {α : Type} (i : Inquiry α) : ∀ s : Recorded ε,
    i.run s.engine = ((i.run s).1, (i.run s).2.engine) := by
  induction i with
  | done a => exact fun s => rfl
  | request t r next ih =>
    intro s
    rw [Inquiry.run, Inquiry.run, perform_recorded]
    rcases DebugEngine.perform (.request t r) s with ⟨(e | text) | answer, s'⟩
    · exact ih _ s'
    · rfl
    · exact ih _ s'
  | query t q next ih =>
    intro s
    rw [Inquiry.run, Inquiry.run, observe_recorded]
    exact ih _ _

/-- An engine answers alike while its calls are recorded. -/
instance : AnswersAlike (Recorded.engine (ε := ε)) where
  capabilities _ := rfl
  notifierError _ := rfl
  perform c s _ := perform_recorded c s
  rawOutput focus line s := by
    rw [Debuggee.rawOutput, Debuggee.rawOutput, perform_recorded]
    rcases DebugEngine.perform (.rawCommand focus line) s with ⟨f | i, s'⟩
    · rfl
    · dsimp only
      rw [Inquiry.run_recorded]
      rcases i.run s' with ⟨text | output, s''⟩
      · rfl
      · rfl
  observe t q s := observe_recorded t q s

end Instances

end Debuggee

namespace Session

open Debuggee
open Wire (Notification Response)

variable {ε ε' : Type} {α : Type} {π : ε' → ε}

/-! ### Sessions over the inner engine -/

/-- The same session over the inner engine. -/
def inside (π : ε' → ε) (s : Session ε') : Session ε where
  engine := π s.engine
  capabilities := s.capabilities
  settings := s.settings
  outbox := s.outbox
  lifecycle := s.lifecycle
  lastPrepared := s.lastPrepared
  breakpoints := s.breakpoints

/-- Two actions do the same, one on a session and one on the session over the inner engine. -/
def Alike (π : ε' → ε) (m' : Action ε' α) (m : Action ε α) : Prop :=
  ∀ s : Session ε', Ends m' s fun r s' =>
    Ends m (s.inside π) fun q t => q = r ∧ t = s'.inside π

/-- Two sessions of which one is the other over the inner engine are coupled, and wired alike. -/
theorem coupled_inside_iff {s : Session ε'} {t : Session ε} :
    Coupled (Contains π) True s t ↔ t = s.inside π := by
  constructor
  · intro h
    obtain ⟨houtbox, hlifecycle⟩ := h.wire trivial
    have hengine : t.engine = π s.engine := h.engine
    rw [inside, h.capabilities, h.settings, houtbox, hlifecycle, h.lastPrepared, h.breakpoints,
      ← hengine]
  · rintro rfl
    exact ⟨rfl, rfl, rfl, rfl, rfl, rfl, fun _ => ⟨rfl, rfl⟩⟩

theorem Twins.alike {m' : Action ε' α} {m : Action ε α}
    (h : Twins (Contains π) True m' m) : Alike π m' m := by
  intro s
  refine (h s _ (coupled_inside_iff.mpr rfl)).mono fun r s' hends => ?_
  refine hends.mono ?_
  rintro q t ⟨hq, hcoupled⟩
  exact ⟨hq, coupled_inside_iff.mp hcoupled⟩

/-! ### Notifiers -/

/-- The same channel over the inner engine. -/
def Channel.inside (π : ε' → ε) (c : Channel ε') : Channel ε := ⟨π c.engine, c.outbox⟩

theorem emit_inside (n : Notification) (c : Channel ε') :
    Channel.emit n (c.inside π) = ((Channel.emit n c).1, (Channel.emit n c).2.inside π) := by
  rw [Channel.emit, Channel.emit]
  dsimp only [Channel.inside]
  rcases c.outbox.send n.render with ⟨e | _, outbox⟩
  · rfl
  · rfl

variable [DebugEngine ε] [DebugEngine ε'] [AnswersAlike π]

theorem emitOutput_inside (t : Handle) (read : Request) (data? : read.Answer → Bytes)
    (wrap : Bytes → Notification) (fuel : Nat) : ∀ c : Channel ε',
    Channel.emitOutput t read data? wrap fuel (c.inside π) =
      ((Channel.emitOutput t read data? wrap fuel c).1,
        (Channel.emitOutput t read data? wrap fuel c).2.inside π) := by
  induction fuel with
  | zero => exact fun c => rfl
  | succ fuel ih =>
    intro c
    have hcall := AnswersAlike.perform (π := π) (.request t read) c.engine rfl
    rw [Channel.emitOutput, Channel.emitOutput,
      show DebugEngine.perform (.request t read) (c.inside π).engine = _ from hcall]
    rcases DebugEngine.perform (.request t read) c.engine with ⟨(e | text) | answer, e⟩
    · rfl
    · rfl
    · dsimp only
      split
      · rfl
      · have hemit := emit_inside (π := π) (wrap (data? answer)) { c with engine := e }
        rw [show Channel.emit (wrap (data? answer))
          { c.inside π with engine := π e } = _ from hemit]
        rcases Channel.emit (wrap (data? answer)) { c with engine := e } with ⟨_ | _, c'⟩
        · rfl
        · exact ih c'

theorem observe_inside (t : Handle) (q : Query) (c : Channel ε') :
    DebugEngine.observe t q (c.inside π).engine =
      ((DebugEngine.observe t q c.engine).1, π (DebugEngine.observe t q c.engine).2) :=
  AnswersAlike.observe t q c.engine

theorem emitState_inside (t : Handle) (p : ProcessState) (c : Channel ε') :
    Channel.emitState t p (c.inside π) =
      ((Channel.emitState t p c).1, (Channel.emitState t p c).2.inside π) := by
  by_cases hexited : p = .exited
  · rw [Channel.emitState, Channel.emitState, if_pos hexited, if_pos hexited, observe_inside]
    subst hexited
    dsimp only
    have hstate := emit_inside (π := π)
      (.state .exited (DebugEngine.observe t .exitStatus c.engine).1)
      { c with engine := (DebugEngine.observe t .exitStatus c.engine).2 }
    rw [show Channel.emit _ { c.inside π with engine := _ } = _ from hstate]
    rcases Channel.emit (.state .exited (DebugEngine.observe t .exitStatus c.engine).1)
      { c with engine := (DebugEngine.observe t .exitStatus c.engine).2 } with ⟨_ | _, c₁⟩
    · rfl
    · rfl
  · rw [Channel.emitState, Channel.emitState, if_neg hexited, if_neg hexited]
    dsimp only
    rw [emit_inside]
    rcases Channel.emit (.state p none) c with ⟨_ | _, c₁⟩
    · rfl
    · dsimp only
      cases p with
      | stopped =>
        dsimp only
        rw [observe_inside]
        exact emit_inside _ { c₁ with engine := (DebugEngine.observe t .stopInfo c₁.engine).2 }
      | detached => exact emit_inside _ c₁
      | exited => exact absurd rfl hexited
      | _ => rfl

theorem translate_inside (t : Handle) (chunk : Nat) (e : Event) (c : Channel ε') :
    Channel.translate t chunk e (c.inside π) =
      ((Channel.translate t chunk e c).1, (Channel.translate t chunk e c).2.inside π) := by
  cases e with
  | stateChanged p => exact emitState_inside t p c
  | stdout => exact emitOutput_inside t _ _ _ _ c
  | stderr => exact emitOutput_inside t _ _ _ _ c
  | modulesLoaded ms => exact emit_inside _ c
  | modulesUnloaded ms => exact emit_inside _ c

theorem translateAll_inside (t : Handle) (chunk : Nat) (es : List Event) : ∀ c : Channel ε',
    Channel.translateAll t chunk es (c.inside π) =
      ((Channel.translateAll t chunk es c).1,
        (Channel.translateAll t chunk es c).2.inside π) := by
  induction es with
  | nil => exact fun c => rfl
  | cons e es ih =>
    intro c
    rw [Channel.translateAll, Channel.translateAll, translate_inside t chunk e c]
    rcases Channel.translate t chunk e c with ⟨_ | _, c'⟩
    · rfl
    · exact ih c'

theorem deliverEvents_inside (s : Session ε') :
    deliverEvents (s.inside π) = (deliverEvents s).inside π := by
  rw [deliverEvents, deliverEvents, show (s.inside π).lifecycle = s.lifecycle from rfl]
  rcases s.lifecycle with _ | e | a
  · rfl
  · rfl
  · dsimp only
    have hevents := AnswersAlike.observe (π := π) a.target .events s.engine
    rw [show DebugEngine.observe a.target .events (s.inside π).engine = _ from hevents]
    rcases DebugEngine.observe a.target .events s.engine with ⟨es, e⟩
    dsimp only
    split
    · have htold := translateAll_inside (π := π) a.target
        s.settings.notifier.outputChunk es ⟨e, s.outbox⟩
      rw [show Channel.translateAll a.target (s.inside π).settings.notifier.outputChunk es
        ⟨π e, (s.inside π).outbox⟩ = _ from htold]
      rfl
    · rfl

instance : Delivers (Contains π) True where
  deliver h := by
    rw [coupled_inside_iff] at h ⊢
    rw [h, deliverEvents_inside]

end Session

end DebugAdapter
