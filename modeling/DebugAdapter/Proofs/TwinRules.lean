import DebugAdapter.Proofs.Journal

/-!
# Two sessions side by side

One command on two sessions. Their engines may be different ones as long as they answer alike
(`EnginesAgree`); the sessions may write to different outboxes, and the notifier of one may be gone
while that of the other still writes, unless they are `wired` alike. `Coupled` relates such
sessions, and `Twins` says of an action that it has the same outcome on both and keeps them coupled.
It is closed under what actions are built from. Here are the rules for it and the elementary
actions; the commands follow in another module.

The rule for the active target passes on two targets that may differ in their notifiers, so what
follows can only be shown to be alike if it does not ask for them.
-/

namespace DebugAdapter

open Operation

namespace Debuggee

/-- A call that is answered with data, and not with output of the process. -/
def Call.isPlain : Call → Bool
  | rawCommand .. => false
  | request _ r => !r.readsOutput
  | _ => true

/-- Engines that are related answer alike, and stay related. Nothing is said of the calls and
queries that only a notifier makes. -/
class EnginesAgree {ε' ε : Type} [DebugEngine ε'] [DebugEngine ε] (E : ε' → ε → Prop) : Prop where
  notifierError : ∀ {e' : ε'} {e : ε}, E e' e →
    DebugEngine.notifierError e' = DebugEngine.notifierError e
  perform : ∀ {e' : ε'} {e : ε} (c : Call), c.isPlain = true → E e' e →
    (DebugEngine.perform c e').1 = (DebugEngine.perform c e).1 ∧
      E (DebugEngine.perform c e').2 (DebugEngine.perform c e).2
  rawOutput : ∀ {e' : ε'} {e : ε} (focus : Focus) (line : String), E e' e →
    (rawOutput focus line e').1 = (rawOutput focus line e).1 ∧
      E (rawOutput focus line e').2 (rawOutput focus line e).2
  observe : ∀ {e' : ε'} {e : ε} (t : Handle) (q : Query), q ≠ .events → E e' e →
    (DebugEngine.observe t q e').1 = (DebugEngine.observe t q e).1 ∧
      E (DebugEngine.observe t q e').2 (DebugEngine.observe t q e).2

end Debuggee

namespace Session

open Debuggee
open Wire (Notification)

/-- A lifecycle apart from whether the notifier still writes. -/
def Lifecycle.unnotified : Lifecycle → Lifecycle
  | .active a => .active { a with notifying := false }
  | l => l

/-- Two sessions agree on everything but their outboxes and notifiers, and if they are wired alike
on those too. -/
structure Coupled {ε' ε : Type} (E : ε' → ε → Prop) (wired : Prop) (s : Session ε')
    (t : Session ε) : Prop where
  engine : E s.engine t.engine
  capabilities : s.capabilities = t.capabilities
  settings : s.settings = t.settings
  lifecycle : s.lifecycle.unnotified = t.lifecycle.unnotified
  lastPrepared : s.lastPrepared = t.lastPrepared
  breakpoints : s.breakpoints = t.breakpoints
  wire : wired → s.outbox = t.outbox ∧ s.lifecycle = t.lifecycle

/-- From coupled sessions, two actions have the same outcome and leave coupled sessions. -/
def Twins {ε' ε α : Type} (E : ε' → ε → Prop) (wired : Prop) (m' : Action ε' α)
    (m : Action ε α) : Prop :=
  ∀ s t, Coupled E wired s t →
    Ends m' s fun r s' => Ends m t fun q t' => q = r ∧ Coupled E wired s' t'

/-- The delivery of events keeps sessions coupled. -/
class Delivers {ε' ε : Type} [DebugEngine ε'] [DebugEngine ε] (E : ε' → ε → Prop)
    (wired : Prop) : Prop where
  deliver : ∀ {s : Session ε'} {t : Session ε}, Coupled E wired s t →
    Coupled E wired (deliverEvents s) (deliverEvents t)

variable {ε' ε α β : Type} {E : ε' → ε → Prop} {wired : Prop}

/-! ### Coupled sessions -/

section Sessions

variable {s : Session ε'} {t : Session ε}

/-- Coupled sessions are at the same stage. -/
theorem Coupled.stages (h : Coupled E wired s t) :
    s.lifecycle = .uninitialized ∧ t.lifecycle = .uninitialized ∨
      (∃ e, s.lifecycle = .prepared e ∧ t.lifecycle = .prepared e) ∨
      ∃ a n, s.lifecycle = .active { a with notifying := n } ∧ t.lifecycle = .active a := by
  have hstage := h.lifecycle
  cases ht : t.lifecycle with
  | uninitialized =>
    cases hs : s.lifecycle with
    | uninitialized => exact Or.inl ⟨rfl, rfl⟩
    | prepared e => simp [hs, ht, Lifecycle.unnotified] at hstage
    | active a => simp [hs, ht, Lifecycle.unnotified] at hstage
  | prepared e =>
    cases hs : s.lifecycle with
    | uninitialized => simp [hs, ht, Lifecycle.unnotified] at hstage
    | prepared e' =>
      rw [hs, ht] at hstage
      exact Or.inr (Or.inl ⟨e, hstage, rfl⟩)
    | active a => simp [hs, ht, Lifecycle.unnotified] at hstage
  | active a =>
    cases hs : s.lifecycle with
    | uninitialized => simp [hs, ht, Lifecycle.unnotified] at hstage
    | prepared e => simp [hs, ht, Lifecycle.unnotified] at hstage
    | active a' =>
      simp only [hs, ht, Lifecycle.unnotified, Lifecycle.active.injEq, ActiveTarget.mk.injEq]
        at hstage
      obtain ⟨htarget, -, hthread, hframe⟩ := hstage
      refine Or.inr (Or.inr ⟨a, a'.notifying, ?_, rfl⟩)
      rw [← htarget, ← hthread, ← hframe]

theorem Coupled.withEngine (h : Coupled E wired s t) {e' : ε'} {e : ε} (he : E e' e) :
    Coupled E wired { s with engine := e' } { t with engine := e } :=
  { h with engine := he }

theorem Coupled.withBreakpoints (h : Coupled E wired s t) (f : Breakpoints → Breakpoints) :
    Coupled E wired { s with breakpoints := f s.breakpoints }
      { t with breakpoints := f t.breakpoints } :=
  { h with breakpoints := congrArg f h.breakpoints }

theorem Coupled.withOutbox (h : Coupled E wired s t) (f : Wire.Outbox → Wire.Outbox) :
    Coupled E wired { s with outbox := f s.outbox } { t with outbox := f t.outbox } :=
  { h with wire := fun hw => ⟨congrArg f (h.wire hw).1, (h.wire hw).2⟩ }

theorem Coupled.enter (h : Coupled E wired s t) (l : Lifecycle) :
    Coupled E wired { s with lifecycle := l } { t with lifecycle := l } :=
  { h with lifecycle := rfl, wire := fun hw => ⟨(h.wire hw).1, rfl⟩ }

end Sessions

/-! ### Actions -/

section Rules

variable {m' : Action ε' α} {m : Action ε α}

theorem Twins.pure (a : α) : Twins E wired (Pure.pure a) (Pure.pure a) :=
  fun _ _ h => ⟨rfl, h⟩

theorem twins_refuse (e : SessionError) : Twins (α := α) E wired (refuse e) (refuse e) :=
  fun _ _ h => ⟨rfl, h⟩

theorem Twins.bind {f' : α → Action ε' β} {f : α → Action ε β} (hm : Twins E wired m' m)
    (hf : ∀ a, Twins E wired (f' a) (f a)) : Twins E wired (m' >>= f') (m >>= f) := by
  intro s t h
  refine (hm s t h).bind ?_ ?_
  · intro a s₁ hends
    rw [Ends] at hends
    obtain ⟨hresult, hcoupled⟩ := hends
    refine (hf a s₁ _ hcoupled).mono fun r s₂ hr => ?_
    rw [ends_bind, Ends, hresult]
    exact hr
  · intro e s₁ hends
    rw [Ends] at hends
    obtain ⟨hresult, hcoupled⟩ := hends
    rw [ends_bind, Ends, hresult]
    exact ⟨rfl, hcoupled⟩

theorem twins_refuse_bind (e : SessionError) (f' : α → Action ε' β) (f : α → Action ε β) :
    Twins E wired (refuse e >>= f') (refuse e >>= f) :=
  fun _ _ h => ⟨rfl, h⟩

theorem Twins.map (f : α → β) (hm : Twins E wired m' m) :
    Twins E wired (f <$> m') (f <$> m) := by
  intro s t h
  rw [ends_map]
  refine (hm s t h).mono fun r s' hends => ?_
  rw [ends_map]
  refine hends.mono ?_
  rintro q t' ⟨rfl, hcoupled⟩
  exact ⟨rfl, hcoupled⟩

/-- What follows may use both sessions. -/
theorem Twins.get_bind {f' : Session ε' → Action ε' β} {f : Session ε → Action ε β}
    (hf : ∀ s t, Coupled E wired s t → Twins E wired (f' s) (f t)) :
    Twins E wired (get >>= f') (get >>= f) :=
  fun s t h => hf s t h s t h

theorem Twins.set {s' : Session ε'} {t' : Session ε} (h : Coupled E wired s' t') :
    Twins E wired (MonadStateOf.set s') (MonadStateOf.set t') :=
  fun _ _ _ => ⟨rfl, h⟩

theorem Twins.modify {g' : Session ε' → Session ε'} {g : Session ε → Session ε}
    (hg : ∀ s t, Coupled E wired s t → Coupled E wired (g' s) (g t)) :
    Twins E wired (MonadState.modifyGet fun s => (PUnit.unit, g' s))
      (MonadState.modifyGet fun s => (PUnit.unit, g s)) :=
  fun s t h => ⟨rfl, hg s t h⟩

theorem Twins.modify_bind {g' : Session ε' → Session ε'} {g : Session ε → Session ε}
    {f' : PUnit → Action ε' α} {f : PUnit → Action ε α}
    (hg : ∀ s t, Coupled E wired s t → Coupled E wired (g' s) (g t))
    (hf : ∀ u, Twins E wired (f' u) (f u)) :
    Twins E wired (MonadState.modifyGet (fun s => (PUnit.unit, g' s)) >>= f')
      (MonadState.modifyGet (fun s => (PUnit.unit, g s)) >>= f) :=
  (Twins.modify hg).bind hf

theorem Twins.tryCatch {f' : Failure → Action ε' α} {f : Failure → Action ε α}
    (hm : Twins E wired m' m) (hf : ∀ e, Twins E wired (f' e) (f e)) :
    Twins E wired (tryCatch m' f') (tryCatch m f) := by
  intro s t h
  rw [ends_tryCatch]
  refine (hm s t h).mono fun r s' hends => ?_
  rw [Ends] at hends
  obtain ⟨hresult, hcoupled⟩ := hends
  cases r with
  | ok a =>
    dsimp only
    rw [ends_tryCatch, Ends, hresult]
    exact ⟨rfl, hcoupled⟩
  | error e =>
    refine (hf e s' _ hcoupled).mono fun r s'' hr => ?_
    rw [ends_tryCatch, Ends, hresult]
    exact hr

theorem twins_attempt (hm : Twins E wired m' m) :
    Twins E wired (attempt m') (attempt m) := by
  refine (hm.map some).tryCatch fun f => ?_
  cases f with
  | refused e => exact .pure none
  | crashed text => exact fun _ _ h => ⟨rfl, h⟩

theorem twins_orRefuse (operation : String) (r : Except DebugError α) :
    Twins E wired (orRefuse operation r) (orRefuse operation r) := by
  cases r with
  | ok a => exact .pure a
  | error e => exact twins_refuse _

/-- What follows does not ask whether the notifier still writes. -/
theorem twins_activeTarget_bind {f' : ActiveTarget → Action ε' β} {f : ActiveTarget → Action ε β}
    (hf : ∀ a n, Twins E wired (f' { a with notifying := n }) (f a)) :
    Twins E wired (activeTarget >>= f') (activeTarget >>= f) := by
  unfold activeTarget
  rw [bind_assoc, bind_assoc]
  refine Twins.get_bind fun s t h => ?_
  rcases h.stages with ⟨hs, ht⟩ | ⟨e, hs, ht⟩ | ⟨a, n, hs, ht⟩
  · rw [hs, ht]
    exact twins_refuse_bind _ _ _
  · rw [hs, ht]
    exact twins_refuse_bind _ _ _
  · rw [hs, ht]
    exact hf a n

theorem twins_target : Twins E wired target target :=
  twins_activeTarget_bind fun a _ => .pure a.target

theorem twins_modifyActive {f : ActiveTarget → ActiveTarget}
    (hf : ∀ a n, f { a with notifying := n } = { f a with notifying := n }) :
    Twins E wired (modifyActive f) (modifyActive f) := by
  refine Twins.modify fun s t h => ?_
  have hwire := h.wire
  rcases h.stages with ⟨hs, ht⟩ | ⟨e, hs, ht⟩ | ⟨a, n, hs, ht⟩
  · rw [hs, ht]
    exact h
  · rw [hs, ht]
    exact h
  · rw [hs, ht] at hwire ⊢
    refine { h with lifecycle := ?_, wire := fun hw => ⟨(hwire hw).1, ?_⟩ }
    · dsimp only
      rw [hf]
      rfl
    · exact congrArg (fun a => Lifecycle.active (f a)) (Lifecycle.active.inj (hwire hw).2)

theorem twins_resetFocus : Twins E wired resetFocus resetFocus :=
  twins_modifyActive fun _ _ => rfl

theorem twins_notify (n : Notification) : Twins E wired (notify n) (notify n) :=
  Twins.modify fun _ _ h => h.withOutbox fun o => (o.send n.render).2

/-- Looking again and again. -/
theorem twins_poll (policy : RetryPolicy) {look' : Action ε' Bool} {look : Action ε Bool}
    (h : Twins E wired look' look) :
    Twins E wired (policy.poll look') (policy.poll look) := by
  have hupTo : ∀ again : Nat, Twins E wired (pollUpTo look' again) (pollUpTo look again) := by
    intro again
    induction again with
    | zero => exact h.bind fun seen => .pure _
    | succ again ih =>
      refine h.bind fun seen => ?_
      cases seen with
      | true => exact .pure _
      | false => exact ih
  exact hupTo _

end Rules

/-! ### Calls -/

variable [DebugEngine ε'] [DebugEngine ε] [EnginesAgree E]

theorem twins_perform {c : Call} (hc : c.isPlain = true) :
    Twins E wired (perform c) (perform c) := by
  intro s t h
  obtain ⟨hanswer, hengine⟩ := EnginesAgree.perform (E := E) c hc h.engine
  rw [ends_perform_iff, ends_perform_iff, hanswer]
  exact ⟨rfl, h.withEngine hengine⟩

theorem twins_tryRequest (t : Handle) {r : Request} (hr : r.readsOutput = false) :
    Twins E wired (tryRequest t r) (tryRequest t r) := by
  have hplain : (Call.request t r).isPlain = true := by
    rw [Call.isPlain, hr]
    rfl
  exact twins_perform hplain

theorem twins_request (t : Handle) {r : Request} (hr : r.readsOutput = false)
    (operation : String) : Twins E wired (request t r operation) (request t r operation) :=
  (twins_tryRequest t hr).bind fun _ => twins_orRefuse operation _

theorem twins_observe (t : Handle) {q : Query} (hq : q ≠ .events) :
    Twins E wired (observe t q) (observe t q) := by
  intro s₁ s₂ h
  obtain ⟨hanswer, hengine⟩ := EnginesAgree.observe (E := E) t q hq h.engine
  have hresult : (Except.ok (DebugEngine.observe t q s₂.engine).1 : Except Failure q.Answer) =
      .ok (DebugEngine.observe t q s₁.engine).1 := by rw [hanswer]
  exact ⟨hresult, h.withEngine hengine⟩

/-- Events are delivered on both sides after a request that succeeded or was refused. -/
theorem twins_control [Delivers E wired] (t : Handle) {r : Request}
    (hr : r.readsOutput = false) : Twins E wired (control t r) (control t r) := by
  refine Twins.get_bind fun s₁ s₂ h => ?_
  have hplain : (Call.request t r).isPlain = true := by
    rw [Call.isPlain, hr]
    rfl
  obtain ⟨hanswer, hengine⟩ := EnginesAgree.perform (E := E) _ hplain h.engine
  rcases h₁ : DebugEngine.perform (.request t r) s₁.engine with ⟨answer, e'⟩
  rcases h₂ : DebugEngine.perform (.request t r) s₂.engine with ⟨answer₂, e⟩
  rw [h₁, h₂] at hanswer hengine
  dsimp only at hanswer hengine
  subst hanswer
  have hafter := h.withEngine hengine
  rcases answer with (err | text) | a
  · exact (Twins.set (Delivers.deliver hafter)).bind fun _ => .pure _
  · exact (Twins.set hafter).bind fun _ _ _ h => ⟨rfl, h⟩
  · exact (Twins.set (Delivers.deliver hafter)).bind fun _ => .pure _

/-! ### Raw commands -/

section RawCommands

variable {next' : Except DebugError (Inquiry CommandOutput) → Action ε' α}
  {next : Except DebugError (Inquiry CommandOutput) → Action ε α}
  {view' : CommandOutput → Action ε' α} {view : CommandOutput → Action ε α}
  {failed : DebugError → CommandOutput}

omit [DebugEngine ε'] [EnginesAgree E] in
/-- A raw command and what is made of its output. -/
theorem ends_rawCommand (hok : ∀ i, next (.ok i) = runInquiry i >>= view)
    (herror : ∀ e, next (.error e) = view (failed e)) (focus : Focus) (line : String)
    (s : Session ε) (Q : Except Failure α → Session ε → Prop) :
    Ends (perform (.rawCommand focus line) >>= next) s Q ↔
      match rawOutput focus line s.engine with
      | (.ok output, engine) => Ends (view output) { s with engine } Q
      | (.error (.error e), engine) => Ends (view (failed e)) { s with engine } Q
      | (.error (.crash text), engine) => Q (.error (.crashed text)) { s with engine } := by
  rw [ends_bind, ends_perform, rawOutput]
  rcases DebugEngine.perform (.rawCommand focus line) s.engine with ⟨(e | text) | i, engine⟩
  · dsimp only
    rw [herror]
  · exact Iff.rfl
  · dsimp only
    rw [hok, ends_bind, runInquiry, ends_get_bind]
    dsimp only
    rcases i.run engine with ⟨text | output, engine'⟩
    · exact Iff.rfl
    · exact Iff.rfl

theorem twins_rawCommand (hok' : ∀ i, next' (.ok i) = runInquiry i >>= view')
    (herror' : ∀ e, next' (.error e) = view' (failed e))
    (hok : ∀ i, next (.ok i) = runInquiry i >>= view)
    (herror : ∀ e, next (.error e) = view (failed e))
    (hview : ∀ output, Twins E wired (view' output) (view output)) (focus : Focus)
    (line : String) : Twins E wired (perform (.rawCommand focus line) >>= next')
      (perform (.rawCommand focus line) >>= next) := by
  intro s t h
  obtain ⟨hanswer, hengine⟩ := EnginesAgree.rawOutput (E := E) focus line h.engine
  rw [ends_rawCommand hok' herror']
  -- The inquiries may differ; what the commands come to does not.
  rcases h₁ : rawOutput focus line s.engine with ⟨answer, e'⟩
  rcases h₂ : rawOutput focus line t.engine with ⟨answer₂, e⟩
  rw [h₁, h₂] at hanswer hengine
  dsimp only at hanswer hengine
  subst hanswer
  have hafter := h.withEngine hengine
  rcases answer with (err | text) | output
  · refine (hview (failed err) _ _ hafter).mono fun r s' hends => ?_
    rw [ends_rawCommand hok herror, h₂]
    exact hends
  · dsimp only
    rw [ends_rawCommand hok herror, h₂]
    exact ⟨rfl, hafter⟩
  · refine (hview output _ _ hafter).mono fun r s' hends => ?_
    rw [ends_rawCommand hok herror, h₂]
    exact hends

end RawCommands

end Session

end DebugAdapter
