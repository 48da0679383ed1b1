import DebugAdapter.Proofs.Operation
import DebugAdapter.Session.Command

/-!
# Rules for sessions

Most commands look at the process or let it run and leave everything else of a session alone. They
move along `Quiet E`: the stage of the session, its breakpoints and its staged program stay, and the
engine moves along `E`, a relation that all calls respect which start no process. With the trivial
`E` this is a statement about sessions over any engine; with another one it follows the engine of an
active session through commands and events.
-/

namespace DebugAdapter

open Debuggee
open Operation

namespace Debuggee

/-- Whether a request makes a target start or take charge of a process. -/
def Request.starts : Request → Bool
  | launch _ | attach _ | connectRemote .. => true
  | _ => false

/-- Whether a call makes a target start or take charge of a process. -/
def Call.starts : Call → Bool
  | request _ r => r.starts
  | _ => false

/-- Whether a query asks for details that a notification tells. -/
def Query.tellsDetails : Query → Bool
  | stopInfo | exitStatus => true
  | _ => false

/-- A relation between states of an engine that the translation of events does not leave. -/
class ReportRelation {ε : Type} [DebugEngine ε] (E : ε → ε → Prop) : Prop
    extends StepRelation E where
  output : ∀ (t : Handle) (r : Request) (e : ε), r.readsOutput = true →
    E e (DebugEngine.perform (.request t r) e).2
  details : ∀ (t : Handle) (q : Query) (e : ε), q.tellsDetails = true →
    E e (DebugEngine.observe t q e).2

/-- A relation between states of an engine that the notifier does not leave. -/
class WatchRelation {ε : Type} [DebugEngine ε] (E : ε → ε → Prop) : Prop extends StepRelation E where
  output : ∀ (t : Handle) (r : Request) (e : ε), r.readsOutput = true →
    E e (DebugEngine.perform (.request t r) e).2
  look : ∀ (t : Handle) (q : Query) (e : ε), E e (DebugEngine.observe t q e).2

instance {ε : Type} [DebugEngine ε] {E : ε → ε → Prop} [WatchRelation E] : ReportRelation E where
  output := WatchRelation.output
  details t q e _ := WatchRelation.look t q e

/-- A relation between states of an engine that no call leaves which starts no process. -/
class EngineRelation {ε : Type} [DebugEngine ε] (E : ε → ε → Prop) : Prop extends
    StepRelation E where
  perform : ∀ (c : Call) (e : ε), c.starts = false → E e (DebugEngine.perform c e).2
  observe : ∀ (t : Handle) (q : Query) (e : ε), E e (DebugEngine.observe t q e).2
  /-- What a raw command gives back starts no process either. -/
  inquiry : ∀ (focus : Focus) (line : String) (e : ε) (i : Inquiry CommandOutput),
    (DebugEngine.perform (.rawCommand focus line) e).1 = .ok i →
      ∀ e', E e' (i.run e').2

instance {ε : Type} [DebugEngine ε] {E : ε → ε → Prop} [EngineRelation E] : WatchRelation E where
  output t r e hr := by
    refine EngineRelation.perform (.request t r) e ?_
    cases r with
    | readStdout limit => rfl
    | readStderr limit => rfl
    | _ => cases hr
  look := EngineRelation.observe

/-- Nothing is said about an engine. -/
def AnyEngine {ε : Type} (_ _ : ε) : Prop := True

/-- A relation between states of an engine that no call leaves. -/
class TotalRelation {ε : Type} [DebugEngine ε] (E : ε → ε → Prop) : Prop extends
    EngineRelation E where
  call : ∀ (c : Call) (e : ε), E e (DebugEngine.perform c e).2

instance {ε : Type} [DebugEngine ε] : TotalRelation (AnyEngine (ε := ε)) where
  refl _ := trivial
  trans _ _ := trivial
  perform _ _ _ := trivial
  observe _ _ _ := trivial
  inquiry _ _ _ _ _ _ := trivial
  call _ _ := trivial

/-- What is known of an engine from outside. -/
structure EngineTheory (ε : Type) [DebugEngine ε] where
  /-- How calls change the engine. -/
  any : ε → ε → Prop
  /-- How calls change the engine that start no process. -/
  kept : ε → ε → Prop
  /-- What holds of a target from its creation until its process is there. -/
  fresh : ε → Handle → Prop
  [any_total : TotalRelation any]
  [kept_relation : EngineRelation kept]
  any_of_kept : ∀ {e e' : ε}, kept e e' → any e e'
  fresh_create : ∀ (executable : Option String) (arch : Arch) (e : ε) (t : Handle),
    (DebugEngine.perform (.createTarget executable arch) e).1 = .ok t →
      fresh (DebugEngine.perform (.createTarget executable arch) e).2 t
  fresh_start : ∀ (t : Handle) (r : Request) (e : ε), r.starts = true → fresh e t →
    fresh (DebugEngine.perform (.request t r) e).2 t
  fresh_observe : ∀ (t : Handle) (q : Query) (e : ε), fresh e t →
    fresh (DebugEngine.observe t q e).2 t

attribute [instance] EngineTheory.any_total EngineTheory.kept_relation

/-- Nothing is known. -/
def EngineTheory.trivial {ε : Type} [DebugEngine ε] : EngineTheory ε where
  any := AnyEngine
  kept := AnyEngine
  fresh _ _ := True
  any_of_kept h := h
  fresh_create _ _ _ _ _ := True.intro
  fresh_start _ _ _ _ _ := True.intro
  fresh_observe _ _ _ _ := True.intro

end Debuggee

namespace Session

/-- The target of a session, while there is one. -/
def Lifecycle.target? : Lifecycle → Option Handle
  | active a => some a.target
  | _ => none

/-! ### What quiet commands keep -/

/-- The same state of a session; in an active one only the selection may differ, and whether
events are still reported. -/
inductive SameStage : Lifecycle → Lifecycle → Prop
  | uninitialized : SameStage .uninitialized .uninitialized
  | prepared (e : Executable) : SameStage (.prepared e) (.prepared e)
  | active {a b : ActiveTarget} (h : b.target = a.target) : SameStage (.active a) (.active b)

theorem SameStage.refl (l : Lifecycle) : SameStage l l := by
  cases l with
  | uninitialized => exact .uninitialized
  | prepared e => exact .prepared e
  | active a => exact .active rfl

theorem SameStage.trans {l m n : Lifecycle} (h : SameStage l m) (h' : SameStage m n) :
    SameStage l n := by
  cases h with
  | uninitialized => exact h'
  | prepared e => exact h'
  | active hab =>
    cases h' with
    | active hbc => exact .active (hbc.trans hab)

section Definition

variable {ε : Type}

/-- Only the engine, the outbox and what the user looks at may change. -/
structure Quiet (E : ε → ε → Prop) (s s' : Session ε) : Prop where
  engine : E s.engine s'.engine
  capabilities : s'.capabilities = s.capabilities
  settings : s'.settings = s.settings
  lastPrepared : s'.lastPrepared = s.lastPrepared
  breakpoints : s'.breakpoints = s.breakpoints
  stage : SameStage s.lifecycle s'.lifecycle

instance {E : ε → ε → Prop} [StepRelation E] : StepRelation (Quiet E) where
  refl _ := ⟨StepRelation.refl _, rfl, rfl, rfl, rfl, .refl _⟩
  trans h h' :=
    { engine := StepRelation.trans h.engine h'.engine
      capabilities := h'.capabilities.trans h.capabilities
      settings := h'.settings.trans h.settings
      lastPrepared := h'.lastPrepared.trans h.lastPrepared
      breakpoints := h'.breakpoints.trans h.breakpoints
      stage := h.stage.trans h'.stage }

/-- Only the engine changes. -/
theorem quiet_engine {E : ε → ε → Prop} (s : Session ε) {e : ε} (h : E s.engine e) :
    Quiet E s { s with engine := e } :=
  ⟨h, rfl, rfl, rfl, rfl, .refl _⟩

/-- Whether a notification could be written or not, the outbox is left as sending it leaves it. -/
theorem emit_snd (n : Wire.Notification) (c : Channel ε) :
    (Channel.emit n c).2 = { c with outbox := (c.outbox.send n.render).2 } := by
  rw [Channel.emit]
  split
  all_goals
    rename_i hsend
    rw [hsend]

end Definition

/-! ### Elementary actions -/

section Elementary

variable {ε : Type} {R : Session ε → Session ε → Prop} [StepRelation R]

theorem moves_refuse {α : Type} (e : SessionError) : Moves R (refuse e : Action ε α) :=
  Moves.throw _

/-- What would follow a refusal does not matter. -/
theorem moves_refuse_bind {α β : Type} (e : SessionError) (f : α → Action ε β) :
    Moves R (refuse e >>= f) :=
  fun s => StepRelation.refl s

theorem moves_activeTarget : Moves R (activeTarget : Action ε ActiveTarget) := by
  refine Moves.bind Moves.get fun s => ?_
  split
  · exact Moves.pure _
  · exact moves_refuse _

theorem moves_orRefuse {α : Type} (operation : String) (r : Except DebugError α) :
    Moves R (orRefuse operation r : Action ε α) := by
  cases r with
  | ok a => exact Moves.pure a
  | error e => exact moves_refuse _

/-- What holds of an outcome, and of looking once more if it holds of what follows, holds of looking
again and again. -/
theorem poll_induction {P : Action ε PollOutcome → Prop} {look : Action ε Bool}
    (hpure : ∀ outcome, P (pure outcome))
    (hlook : ∀ f : Bool → Action ε PollOutcome, (∀ seen, P (f seen)) → P (look >>= f))
    (policy : RetryPolicy) : P (policy.poll look) := by
  have hupTo : ∀ again : Nat, P (pollUpTo look again) := by
    intro again
    induction again with
    | zero => exact hlook _ fun _ => hpure _
    | succ again ih =>
      refine hlook _ fun seen => ?_
      split
      · exact hpure _
      · exact ih
  exact hupTo _

/-- Looking again and again moves along a relation that looking does not leave. -/
theorem moves_poll (policy : RetryPolicy) {look : Action ε Bool} (h : Moves R look) :
    Moves R (policy.poll look) :=
  poll_induction Moves.pure (fun _ => h.bind) policy

/-- An action whose refusal is passed over. -/
theorem moves_attempt {α : Type} {x : Action ε α} (h : Moves R x) : Moves R (attempt x) := by
  refine Moves.tryCatch (h.map some) fun f => ?_
  cases f with
  | refused e => exact Moves.pure _
  | crashed text => exact Moves.throw _

end Elementary

section Calls

variable {ε : Type} [DebugEngine ε] {E : ε → ε → Prop}

/-- What a call does: an error is its answer, and a breakdown ends the command. -/
theorem ends_perform (c : Call) (s : Session ε)
    (Q : Except Failure (Except DebugError c.Answer) → Session ε → Prop) :
    Ends (perform c) s Q ↔
      match DebugEngine.perform c s.engine with
      | (.ok a, engine) => Q (.ok (.ok a)) { s with engine }
      | (.error (.error e), engine) => Q (.ok (.error e)) { s with engine }
      | (.error (.crash text), engine) => Q (.error (.crashed text)) { s with engine } := by
  rw [perform, ends_get_bind]
  rcases DebugEngine.perform c s.engine with ⟨(e | text) | a, engine⟩
  · exact Iff.rfl
  · exact Iff.rfl
  · exact Iff.rfl

/-- What an action sees of the answer to a call: an error is a result, a breakdown a failure. -/
def answered {α : Type} : Except Fault α → Except Failure (Except DebugError α)
  | .ok a => .ok (.ok a)
  | .error (.error e) => .ok (.error e)
  | .error (.crash text) => .error (.crashed text)

/-- What a call does, without cases on the answer. -/
theorem ends_perform_iff (c : Call) (s : Session ε)
    (Q : Except Failure (Except DebugError c.Answer) → Session ε → Prop) :
    Ends (perform c) s Q ↔ Q (answered (DebugEngine.perform c s.engine).1)
      { s with engine := (DebugEngine.perform c s.engine).2 } := by
  rw [ends_perform]
  rcases DebugEngine.perform c s.engine with ⟨(e | text) | a, engine⟩
  · exact Iff.rfl
  · exact Iff.rfl
  · exact Iff.rfl

/-- A call moves the engine only. -/
theorem moves_perform_of {c : Call} (hc : ∀ e : ε, E e (DebugEngine.perform c e).2) :
    Moves (Quiet E) (perform c : Action ε (Except DebugError c.Answer)) := by
  intro s
  rw [ends_perform_iff]
  exact quiet_engine s (hc s.engine)

theorem moves_observe_of {t : Handle} {q : Query}
    (hq : ∀ e : ε, E e (DebugEngine.observe t q e).2) :
    Moves (Quiet E) (observe t q : Action ε q.Answer) := by
  intro s
  rw [observe, ends_get_bind]
  exact quiet_engine s (hq s.engine)

/-- What a query does. -/
theorem ends_observe_bind {β : Type} (t : Handle) (q : Query) (f : q.Answer → Action ε β)
    (s : Session ε) (Q : Except Failure β → Session ε → Prop) :
    Ends (observe t q >>= f) s Q ↔ Ends (f (DebugEngine.observe t q s.engine).1)
      { s with engine := (DebugEngine.observe t q s.engine).2 } Q := by
  rw [observe, bind_assoc, ends_get_bind]
  exact Iff.rfl

end Calls

/-! ### The active target -/

section Active

variable {ε β : Type} {s : Session ε}

theorem target?_cases (l : Lifecycle) :
    (l.target? = none ∧ ∀ a, l ≠ .active a) ∨ ∃ a, l = .active a ∧ l.target? = some a.target := by
  cases l with
  | uninitialized => exact Or.inl ⟨rfl, by rintro a ⟨⟩⟩
  | prepared e => exact Or.inl ⟨rfl, by rintro a ⟨⟩⟩
  | active a => exact Or.inr ⟨a, rfl, rfl⟩

theorem active_of_target? {l : Lifecycle} {t : Handle} (h : l.target? = some t) :
    ∃ a, l = .active a ∧ a.target = t := by
  rcases target?_cases l with ⟨hnone, -⟩ | ⟨a, hl, ha⟩
  · rw [hnone] at h
    cases h
  · rw [ha] at h
    exact ⟨a, hl, Option.some.inj h⟩

theorem ends_activeTarget_bind {a : ActiveTarget} (h : s.lifecycle = .active a)
    (f : ActiveTarget → Action ε β) (Q : Except Failure β → Session ε → Prop) :
    Ends (activeTarget >>= f) s Q ↔ Ends (f a) s Q := by
  rw [activeTarget, bind_assoc, ends_get_bind, h]
  exact Iff.rfl

theorem ends_activeTarget_none (h : s.lifecycle.target? = none) (f : ActiveTarget → Action ε β)
    (Q : Except Failure β → Session ε → Prop) :
    Ends (activeTarget >>= f) s Q ↔ Q (.error (.refused .noProcess)) s := by
  rw [activeTarget, bind_assoc, ends_get_bind]
  rcases target?_cases s.lifecycle with ⟨-, hl⟩ | ⟨a, -, ha⟩
  · split
    · rename_i a ha
      exact absurd ha (hl a)
    · exact Iff.rfl
  · rw [ha] at h
    cases h

end Active

/-! ### The target of a breakpoint command -/

section Target

variable {ε β : Type} (f : Option Handle → Action ε β) {s : Session ε}
  (Q : Except Failure β → Session ε → Prop)

theorem ends_breakpointTarget_active {a : ActiveTarget} (h : s.lifecycle = .active a) :
    Ends (breakpointTarget >>= f) s Q ↔ Ends (f (some a.target)) s Q := by
  rw [breakpointTarget, bind_assoc, ends_get_bind, h]
  exact Iff.rfl

theorem ends_breakpointTarget_prepared {e : Executable} (h : s.lifecycle = .prepared e) :
    Ends (breakpointTarget >>= f) s Q ↔ Ends (f none) s Q := by
  rw [breakpointTarget, bind_assoc, ends_get_bind, h]
  exact Iff.rfl

theorem ends_breakpointTarget_uninitialized (h : s.lifecycle = .uninitialized) :
    Ends (breakpointTarget >>= f) s Q ↔ Q (.error (.refused .noTarget)) s := by
  rw [breakpointTarget, bind_assoc, ends_get_bind, h]
  exact Iff.rfl

end Target

/-! ### The notifier -/

section Channels

variable {ε : Type} [DebugEngine ε] {V : Channel ε → Channel ε → Prop} [StepRelation V] (t : Handle)

/-- Reading output and writing it in chunks moves along what reading and one chunk move along. -/
theorem emitOutput_moves {read : Request} {data? : read.Answer → Bytes}
    {wrap : Bytes → Wire.Notification}
    (hread : ∀ c : Channel ε,
      V c { c with engine := (DebugEngine.perform (.request t read) c.engine).2 })
    (hchunk : ∀ (c : Channel ε) (answer : read.Answer),
      (DebugEngine.perform (.request t read) c.engine).1 = .ok answer →
        V c (Channel.emit (wrap (data? answer))
          { c with engine := (DebugEngine.perform (.request t read) c.engine).2 }).2)
    (fuel : Nat) : ∀ c : Channel ε, V c (Channel.emitOutput t read data? wrap fuel c).2 := by
  induction fuel with
  | zero => exact fun c => StepRelation.refl c
  | succ fuel ih =>
    intro c
    have hcall := hread c
    have hemit := hchunk c
    rw [Channel.emitOutput]
    rcases hperform : DebugEngine.perform (.request t read) c.engine with ⟨(e | text) | answer, engine⟩
    all_goals rw [hperform] at hcall hemit
    · exact hcall
    · exact hcall
    · have hfirst := hemit answer rfl
      dsimp only at hfirst ⊢
      split
      · exact hcall
      · rcases hn : Channel.emit (wrap (data? answer)) { c with engine } with ⟨_ | _, c₁⟩
        all_goals rw [hn] at hfirst
        · exact hfirst
        · exact StepRelation.trans hfirst (ih c₁)

/-- What the documents of a change of state move along. -/
structure StateMoves (V : Channel ε → Channel ε → Prop) (t : Handle) (p : ProcessState) : Prop where
  exit : ∀ c : Channel ε, V c { c with engine := (DebugEngine.observe t .exitStatus c.engine).2 }
  state : ∀ (status : Option Int) (c : Channel ε), V c (Channel.emit (.state p status) c).2
  stop : p = .stopped → ∀ c : Channel ε,
    V c (Channel.emit (stoppedNotification (DebugEngine.observe t .stopInfo c.engine).1)
      { c with engine := (DebugEngine.observe t .stopInfo c.engine).2 }).2
  detached : p = .detached → ∀ c : Channel ε, V c (Channel.emit .detached c).2

/-- The documents of a change of state with its exit status. -/
theorem stateDocuments_moves {t : Handle} (p : ProcessState) (status : Option Int) (c : Channel ε) :
    StateMoves V t p → V c (match Channel.emit (.state p status) c with
      | (false, c) => (false, c)
      | (true, c) =>
        match p with
        | .stopped =>
          let (stop, engine) := DebugEngine.observe t .stopInfo c.engine
          Channel.emit (stoppedNotification stop) { c with engine }
        | .detached => Channel.emit .detached c
        | _ => (true, c)).2 := by
  intro h
  have hstate := h.state status c
  rcases hn : Channel.emit (.state p status) c with ⟨_ | _, c₁⟩
  all_goals rw [hn] at hstate
  · exact hstate
  · dsimp only
    split
    · exact StepRelation.trans hstate (h.stop rfl c₁)
    · exact StepRelation.trans hstate (h.detached rfl c₁)
    · exact hstate

theorem emitState_moves {t : Handle} {p : ProcessState} (h : StateMoves V t p) (c : Channel ε) :
    V c (Channel.emitState t p c).2 := by
  rw [Channel.emitState]
  by_cases hexited : p = .exited
  · rw [if_pos hexited]
    exact StepRelation.trans (h.exit c) (stateDocuments_moves p _ _ h)
  · rw [if_neg hexited]
    exact stateDocuments_moves p none c h

theorem translateAll_moves {chunk : Nat} {es : List Event}
    (h : ∀ e ∈ es, ∀ c : Channel ε, V c (Channel.translate t chunk e c).2) :
    ∀ c : Channel ε, V c (Channel.translateAll t chunk es c).2 := by
  induction es with
  | nil => exact fun c => StepRelation.refl c
  | cons e r ih =>
    intro c
    have hfirst := h e List.mem_cons_self c
    rw [Channel.translateAll]
    rcases htranslate : Channel.translate t chunk e c with ⟨_ | _, c₁⟩
    all_goals rw [htranslate] at hfirst
    · exact hfirst
    · exact StepRelation.trans hfirst (ih (fun e he => h e (List.mem_cons_of_mem _ he)) c₁)

end Channels

section Notifier

variable {ε : Type} {E : ε → ε → Prop}

/-- The engine of a channel moves along a relation. -/
def OnEngine (E : ε → ε → Prop) (c c' : Channel ε) : Prop := E c.engine c'.engine

instance [StepRelation E] : StepRelation (OnEngine E) where
  refl c := StepRelation.refl c.engine
  trans h h' := StepRelation.trans (R := E) h h'

theorem onEngine_emit {c c' : Channel ε} (h : OnEngine E c c') (n : Wire.Notification) :
    OnEngine E c (Channel.emit n c').2 := by
  rw [emit_snd]
  exact h

variable [DebugEngine ε]

theorem translate_engine [ReportRelation E] (t : Handle) (chunk : Nat) (e : Event)
    (c : Channel ε) : OnEngine E c (Channel.translate t chunk e c).2 := by
  have hread : ∀ read : Request, read.readsOutput = true → ∀ c : Channel ε,
      OnEngine E c { c with engine := (DebugEngine.perform (.request t read) c.engine).2 } :=
    fun read hread c => ReportRelation.output t read c.engine hread
  have hlook : ∀ q : Query, q.tellsDetails = true → ∀ c : Channel ε,
      OnEngine E c { c with engine := (DebugEngine.observe t q c.engine).2 } :=
    fun q hq c => ReportRelation.details t q c.engine hq
  cases e with
  | stateChanged p =>
    exact emitState_moves
      { exit := hlook .exitStatus rfl
        state := fun _ c => onEngine_emit (StepRelation.refl c) _
        stop := fun _ c => onEngine_emit (hlook .stopInfo rfl c) _
        detached := fun _ c => onEngine_emit (StepRelation.refl c) _ } c
  | stdout => exact emitOutput_moves t (hread _ rfl) (fun c _ _ => onEngine_emit (hread _ rfl c) _) _ c
  | stderr => exact emitOutput_moves t (hread _ rfl) (fun c _ _ => onEngine_emit (hread _ rfl c) _) _ c
  | modulesLoaded ms => exact onEngine_emit (StepRelation.refl c) _
  | modulesUnloaded ms => exact onEngine_emit (StepRelation.refl c) _

variable [WatchRelation E]

/-- The events of a target are handed to its notifier. -/
theorem events_engine (t : Handle) (chunk : Nat) (c : Channel ε) :
    OnEngine E c (Channel.translateAll t chunk (DebugEngine.observe t .events c.engine).1
      { c with engine := (DebugEngine.observe t .events c.engine).2 }).2 := by
  have hlook : OnEngine E c { c with engine := (DebugEngine.observe t .events c.engine).2 } :=
    WatchRelation.look t .events c.engine
  exact StepRelation.trans hlook (translateAll_moves t (fun e _ => translate_engine t chunk e) _)

/-- Delivering events is quiet. -/
theorem quiet_deliverEvents (s : Session ε) : Quiet E s (deliverEvents s) := by
  rw [deliverEvents]
  split
  · rename_i a hactive
    dsimp only
    split
    · refine ⟨events_engine a.target _ ⟨s.engine, s.outbox⟩, rfl, rfl, rfl, rfl, ?_⟩
      rw [hactive]
      exact .active rfl
    · exact quiet_engine s (WatchRelation.look a.target .events s.engine)
  · exact StepRelation.refl s

/-- A request that succeeds, with the events that it causes. -/
theorem ends_control_of_ok (t : Handle) {r : Request} (s : Session ε)
    (h : ∀ a, (DebugEngine.perform (.request t r) s.engine).1 = .ok a →
      E s.engine (DebugEngine.perform (.request t r) s.engine).2) :
    Ends (control t r) s fun result s' => ∀ a, result = .ok (.ok a) → Quiet E s s' := by
  rw [control, ends_get_bind]
  rcases hperform : DebugEngine.perform (.request t r) s.engine with ⟨(e | text) | a, engine⟩
  · exact nofun
  · exact nofun
  · rw [hperform] at h
    intro _ _
    exact StepRelation.trans (quiet_engine s (h a rfl)) (quiet_deliverEvents _)

end Notifier

variable {ε : Type} [DebugEngine ε] {E : ε → ε → Prop} [EngineRelation E]

/-! ### Calls that start no process -/

theorem moves_observe (t : Handle) (q : Query) :
    Moves (Quiet E) (observe t q : Action ε q.Answer) :=
  moves_observe_of fun e => EngineRelation.observe t q e

/-- A request that changes how the process runs, with the events that it causes. -/
theorem moves_control (t : Handle) {r : Request} (hr : r.starts = false) :
    Moves (Quiet E) (control t r : Action ε (Except DebugError r.Answer)) := by
  intro s
  have hcall := EngineRelation.perform (E := E) (.request t r) s.engine hr
  rw [control, ends_get_bind]
  rcases hperform : DebugEngine.perform (.request t r) s.engine with ⟨(e | text) | a, engine⟩
  · rw [hperform] at hcall
    exact StepRelation.trans (quiet_engine s hcall) (quiet_deliverEvents _)
  · rw [hperform] at hcall
    exact quiet_engine s hcall
  · rw [hperform] at hcall
    exact StepRelation.trans (quiet_engine s hcall) (quiet_deliverEvents _)

/-- What is known of a request holds after it, whether the answer refuses the command or not. -/
theorem ends_request_of_try {t : Handle} {r : Request} {s : Session ε}
    {P : Except DebugError r.Answer → Session ε → Prop}
    (h : Ends (tryRequest t r) s fun result s' => ∃ answer, result = .ok answer ∧ P answer s')
    (operation : String) : Ends (request t r operation) s fun result s' =>
      match result with
      | .ok a => P (.ok a) s'
      | .error _ => ∃ e, P (.error e) s' := by
  refine h.bind_ok fun answer s' hP => ?_
  cases answer with
  | ok a => exact hP
  | error e => exact ⟨e, hP⟩

/-! ### Requests and commands about breakpoints -/

/-- What a request to the target does. -/
theorem ends_request (t : Handle) (r : Request) (operation : String) (s : Session ε)
    (Q : Except Failure r.Answer → Session ε → Prop) :
    Ends (request t r operation) s Q ↔
      match DebugEngine.perform (.request t r) s.engine with
      | (.ok a, engine) => Q (.ok a) { s with engine }
      | (.error (.error e), engine) =>
        Q (.error (.refused (.engine operation e))) { s with engine }
      | (.error (.crash text), engine) => Q (.error (.crashed text)) { s with engine } := by
  rw [request, tryRequest, ends_bind, ends_perform]
  rcases DebugEngine.perform (.request t r) s.engine with ⟨(e | text) | a, engine⟩
  · exact Iff.rfl
  · exact Iff.rfl
  · exact Iff.rfl

/-- The reply to a breakpoint that the target installed. -/
def installedReply (id : Nat) (info : BreakpointInfo) : Wire.Response :=
  (Wire.Response.ok.withMember "bkpt_id" (Json.ofNat id)).withMember "bl0"
    (.str ("load addr: " ++ Text.hexNumber info.address.toNat))

/-- The reply to a breakpoint that is pending. -/
def pendingReply (id : Nat) : Wire.Response :=
  (Wire.Response.ok.withMember "bkpt_id" (Json.ofNat id)).withMember "pending" (.bool true)

theorem ends_setBreakpoint_active {s : Session ε} {a : ActiveTarget}
    (h : s.lifecycle = .active a) (addr : UInt64)
    (Q : Except Failure Wire.Response → Session ε → Prop) :
    Ends (setBreakpoint addr) s Q ↔
      Ends (request a.target (.setBreakpoint addr) "cannot create breakpoint") s fun r s' =>
        match r with
        | .ok info =>
          Q (.ok (installedReply (s'.breakpoints.lastId + 1) info))
            { s' with breakpoints := (s'.breakpoints.add addr (some info.id)).2 }
        | .error e => Q (.error e) s' := by
  rw [setBreakpoint, ends_breakpointTarget_active _ _ h]
  dsimp only
  rw [ends_bind]
  refine ends_congr fun r s' => ?_
  cases r with
  | ok answer => exact Iff.rfl
  | error e => exact Iff.rfl

theorem ends_setBreakpoint_prepared {s : Session ε} {e : Executable}
    (h : s.lifecycle = .prepared e) (addr : UInt64)
    (Q : Except Failure Wire.Response → Session ε → Prop) :
    Ends (setBreakpoint addr) s Q ↔
      Q (.ok (pendingReply (s.breakpoints.lastId + 1)))
        { s with breakpoints := (s.breakpoints.add addr none).2 } := by
  rw [setBreakpoint, ends_breakpointTarget_prepared _ _ h]
  exact Iff.rfl

theorem prepared_or_active {l : Lifecycle} (h : l ≠ .uninitialized) :
    (∃ e, l = .prepared e) ∨ ∃ a, l = .active a := by
  cases l with
  | uninitialized => exact absurd rfl h
  | prepared e => exact Or.inl ⟨e, rfl⟩
  | active a => exact Or.inr ⟨a, rfl⟩

/-- Removing a breakpoint that the session does not know. -/
theorem ends_removeBreakpoint_unknown {s : Session ε} (h : s.lifecycle ≠ .uninitialized) {id : Nat}
    (hid : s.breakpoints.get? id = none) (Q : Except Failure Wire.Response → Session ε → Prop) :
    Ends (removeBreakpoint id) s Q ↔ Q (.error (.refused
      (.engine "cannot remove breakpoint" (.breakpointNotFound id)))) s := by
  rw [removeBreakpoint]
  rcases prepared_or_active h with ⟨e, hl⟩ | ⟨a, hl⟩
  · rw [ends_breakpointTarget_prepared _ _ hl, ends_get_bind, hid]
    exact Iff.rfl
  · rw [ends_breakpointTarget_active _ _ hl, ends_get_bind, hid]
    exact Iff.rfl

/-- Removing a breakpoint that the target installed. -/
theorem ends_removeBreakpoint_installed {s : Session ε} {a : ActiveTarget}
    (h : s.lifecycle = .active a) {id engineId : Nat} {entry : BreakpointEntry}
    (hentry : s.breakpoints.get? id = some entry) (hengine : entry.engineId = some engineId)
    (Q : Except Failure Wire.Response → Session ε → Prop) :
    Ends (removeBreakpoint id) s Q ↔
      Ends (request a.target (.removeBreakpoint engineId) "cannot remove breakpoint") s fun r s' =>
        match r with
        | .ok _ => Q (.ok .ok) { s' with breakpoints := s'.breakpoints.erase id }
        | .error e => Q (.error e) s' := by
  rw [removeBreakpoint, ends_breakpointTarget_active _ _ h, ends_get_bind, hentry]
  dsimp only
  rw [hengine]
  dsimp only
  rw [ends_bind]
  refine ends_congr fun r s' => ?_
  cases r with
  | ok answer => exact Iff.rfl
  | error e => exact Iff.rfl

/-- Removing a breakpoint that is pending, or could not be installed. -/
theorem ends_removeBreakpoint_pending {s : Session ε} {id : Nat} {entry : BreakpointEntry}
    (h : (∃ e, s.lifecycle = .prepared e) ∨
      (∃ a, s.lifecycle = .active a) ∧ entry.engineId = none)
    (hentry : s.breakpoints.get? id = some entry)
    (Q : Except Failure Wire.Response → Session ε → Prop) :
    Ends (removeBreakpoint id) s Q ↔
      Q (.ok .ok) { s with breakpoints := s.breakpoints.erase id } := by
  rw [removeBreakpoint]
  rcases h with ⟨e, hl⟩ | ⟨⟨a, hl⟩, hengine⟩
  · rw [ends_breakpointTarget_prepared _ _ hl, ends_get_bind, hentry]
    exact Iff.rfl
  · rw [ends_breakpointTarget_active _ _ hl, ends_get_bind, hentry]
    dsimp only
    rw [hengine]
    exact Iff.rfl

theorem ends_removeAllBreakpoints_active {s : Session ε} {a : ActiveTarget}
    (h : s.lifecycle = .active a) (Q : Except Failure Wire.Response → Session ε → Prop) :
    Ends removeAllBreakpoints s Q ↔
      Ends (request a.target .removeAllBreakpoints "cannot remove all breakpoints") s fun r s' =>
        match r with
        | .ok _ => Q (.ok .ok) { s' with breakpoints := s'.breakpoints.clear }
        | .error e => Q (.error e) s' := by
  rw [removeAllBreakpoints, ends_breakpointTarget_active _ _ h]
  dsimp only
  rw [ends_bind]
  refine ends_congr fun r s' => ?_
  cases r with
  | ok answer => exact Iff.rfl
  | error e => exact Iff.rfl

theorem ends_removeAllBreakpoints_prepared {s : Session ε} {e : Executable}
    (h : s.lifecycle = .prepared e) (Q : Except Failure Wire.Response → Session ε → Prop) :
    Ends removeAllBreakpoints s Q ↔ Q (.ok .ok) { s with breakpoints := s.breakpoints.clear } := by
  rw [removeAllBreakpoints, ends_breakpointTarget_prepared _ _ h]
  exact Iff.rfl

end Session

end DebugAdapter
