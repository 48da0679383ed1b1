import DebugAdapter.Proofs.Inquiries
import DebugAdapter.Proofs.SessionOutcomes
import DebugAdapter.Proofs.TwinRules

/-!
# Bearings

What a session knows of its own is its state with the thread and frame that are selected, the staged
program and the breakpoints: its bearings. Most commands leave them, and a command that fails leaves
them even where its success would have changed them (`Settles`).

An engine is followed by two relations at once: along the first one no target departs from the place
where it is halted (`RestRelation`), along the second one some target was resumed or stepped
(`DepartRelation`). So a command that lets the process run or steps it either fails and leaves
everything, or has departed and has forgotten which thread and frame were selected.
-/

namespace DebugAdapter

open Operation

namespace Debuggee

/-- A target was resumed or stepped. -/
def Entry.departs : Entry → Bool
  | call (.request _ r) (.ok _) => r.departs
  | _ => false

theorem Entry.departs_error (c : Call) (f : Fault) : (Entry.call c (.error f)).departs = false := by
  cases c <;> rfl

theorem Entry.departs_of_request (t : Handle) {r : Request} (hr : r.departs = false)
    (answer : Except Fault r.Answer) : (Entry.call (.request t r) answer).departs = false := by
  cases answer with
  | error f => rfl
  | ok a => exact hr

/-- A relation between states of an engine along which no target departs. -/
class RestRelation {ε : Type} [DebugEngine ε] (E : ε → ε → Prop) : Prop extends StepRelation E where
  rest : ∀ (c : Call) (e : ε), (Entry.call c (DebugEngine.perform c e).1).departs = false →
    E e (DebugEngine.perform c e).2
  look : ∀ (t : Handle) (q : Query) (e : ε), E e (DebugEngine.observe t q e).2
  /-- What a raw command gives back only looks at targets. -/
  inquiry : ∀ (focus : Focus) (line : String) (e : ε) (i : Inquiry CommandOutput),
    (DebugEngine.perform (.rawCommand focus line) e).1 = .ok i → ∀ e', E e' (i.run e').2

/-- A relation between states of an engine along which a target departs, among steps along which
none does. -/
class DepartRelation {ε : Type} [DebugEngine ε] (E D : ε → ε → Prop) : Prop where
  depart : ∀ (c : Call) (e : ε), (Entry.call c (DebugEngine.perform c e).1).departs = true →
    D e (DebugEngine.perform c e).2
  before : ∀ {e e' e'' : ε}, E e e' → D e' e'' → D e e''
  after : ∀ {e e' e'' : ε}, D e e' → E e' e'' → D e e''
  again : ∀ {e e' e'' : ε}, D e e' → D e' e'' → D e e''

/-- A relation between states of an engine along which a target is made, looked at and given up. -/
class BeginRelation {ε : Type} [DebugEngine ε] (E : ε → ε → Prop) : Prop
    extends StepRelation E where
  create : ∀ (executable : Option String) (arch : Arch) (e : ε),
    E e (DebugEngine.perform (.createTarget executable arch) e).2
  destroy : ∀ (t : Handle) (e : ε), E e (DebugEngine.perform (.request t .destroy) e).2
  look : ∀ (t : Handle) (q : Query) (e : ε), E e (DebugEngine.observe t q e).2

instance {ε : Type} [DebugEngine ε] {E : ε → ε → Prop} [RestRelation E] : BeginRelation E where
  create executable arch e := by
    refine RestRelation.rest _ e ?_
    cases (DebugEngine.perform (.createTarget executable arch) e).1 <;> rfl
  destroy t e := RestRelation.rest _ e (Entry.departs_of_request t rfl _)
  look := RestRelation.look

instance {ε : Type} [DebugEngine ε] {E : ε → ε → Prop} [RestRelation E] : WatchRelation E where
  output t r e hr := by
    refine RestRelation.rest (.request t r) e (Entry.departs_of_request t ?_ _)
    cases r with
    | readStdout limit => rfl
    | readStderr limit => rfl
    | _ => cases hr
  look := RestRelation.look

instance {ε : Type} [DebugEngine ε] {E : ε → ε → Prop} [TotalRelation E] : RestRelation E where
  rest c e _ := TotalRelation.call c e
  look := EngineRelation.observe
  inquiry := EngineRelation.inquiry

instance {ε : Type} [DebugEngine ε] {E : ε → ε → Prop} : DepartRelation E AnyEngine where
  depart _ _ _ := trivial
  before _ _ := trivial
  after _ _ := trivial
  again _ _ := trivial

end Debuggee

namespace Session

open Debuggee
open Wire (Notification Response)

/-! ### Bearings -/

/-- What a session knows of its own. -/
structure Bearings where
  lifecycle : Lifecycle
  lastPrepared : Option Executable
  breakpoints : Breakpoints

/-- Changes what the user of an active session looks at. -/
def Lifecycle.refocus (f : ActiveTarget → ActiveTarget) : Lifecycle → Lifecycle
  | active a => active (f a)
  | l => l

/-- Changes what the user looks at. -/
def Bearings.refocus (f : ActiveTarget → ActiveTarget) (b : Bearings) : Bearings :=
  { b with lifecycle := b.lifecycle.refocus f }

/-- Forgets which thread and frame are selected. -/
def Bearings.unfocused : Bearings → Bearings := refocus ActiveTarget.resetFocus

/-- To forget the selection once more changes nothing. -/
theorem Bearings.unfocused_comp : unfocused ∘ unfocused = unfocused := by
  funext b
  obtain ⟨l, _, _⟩ := b
  cases l <;> rfl

/-- What a request is refused for before anything is asked: it cannot be read, its command is not
known or its arguments are malformed. -/
def SessionError.isMalformed : SessionError → Bool
  | decode _ | badRequest _ | unknownCommand _ => true
  | _ => false

/-- A request is refused for its own text. -/
def Failure.isMalformed : Failure → Bool
  | refused e => e.isMalformed
  | crashed _ => false

variable {ε : Type} {α β : Type}

/-- The bearings of a session. Whether its notifier still writes is not among them. -/
def bearings (s : Session ε) : Bearings :=
  ⟨s.lifecycle.unnotified, s.lastPrepared, s.breakpoints⟩

/-- The engine moves along a relation, and the bearings change by a function. -/
structure Turns (E : ε → ε → Prop) (g : Bearings → Bearings) (s s' : Session ε) : Prop where
  engine : E s.engine s'.engine
  capabilities : s'.capabilities = s.capabilities
  settings : s'.settings = s.settings
  bearings : s'.bearings = g s.bearings

/-- The engine moves along a relation, and the bearings stay. -/
abbrev Still (E : ε → ε → Prop) : Session ε → Session ε → Prop := Turns E id

section Bearings

variable {E D : ε → ε → Prop} {f g : Bearings → Bearings} {s t u : Session ε}

/-- Changes of bearings one after the other. -/
theorem Turns.trans {C : ε → ε → Prop} (h : Turns E f s t) (h' : Turns D g t u)
    (hengine : C s.engine u.engine) : Turns C (g ∘ f) s u where
  engine := hengine
  capabilities := h'.capabilities.trans h.capabilities
  settings := h'.settings.trans h.settings
  bearings := h'.bearings.trans (congrArg g h.bearings)

instance [StepRelation E] : StepRelation (Still E) where
  refl _ := ⟨StepRelation.refl _, rfl, rfl, rfl⟩
  trans h h' := h.trans h' (StepRelation.trans h.engine h'.engine)

theorem Turns.mono {C : ε → ε → Prop} (h : Turns E g s t) (hEC : ∀ e e', E e e' → C e e') :
    Turns C g s t :=
  ⟨hEC _ _ h.engine, h.capabilities, h.settings, h.bearings⟩

theorem Turns.lifecycle (h : Turns E g s t) :
    t.lifecycle.unnotified = (g s.bearings).lifecycle :=
  congrArg Bearings.lifecycle h.bearings

/-- Only the engine and the outbox change. -/
theorem still_channel (s : Session ε) {c : Channel ε} (h : E s.engine c.engine) :
    Still E s { s with engine := c.engine, outbox := c.outbox } :=
  ⟨h, rfl, rfl, rfl⟩

theorem Still.lifecycle (h : Still E s t) : t.lifecycle.unnotified = s.lifecycle.unnotified :=
  Turns.lifecycle h

theorem Still.breakpoints (h : Still E s t) : t.breakpoints = s.breakpoints :=
  congrArg Bearings.breakpoints h.bearings

theorem Still.lastPrepared (h : Still E s t) : t.lastPrepared = s.lastPrepared :=
  congrArg Bearings.lastPrepared h.bearings

/-- The lifecycles that differ from an active one only in the notifier. -/
theorem active_of_unnotified {l : Lifecycle} {a : ActiveTarget}
    (h : l.unnotified = (Lifecycle.active a).unnotified) :
    ∃ n, l = .active { a with notifying := n } := by
  cases l with
  | active b =>
    obtain ⟨target, n, thread, frame⟩ := b
    obtain ⟨target', n', thread', frame'⟩ := a
    simp only [Lifecycle.unnotified, Lifecycle.active.injEq, ActiveTarget.mk.injEq] at h
    obtain ⟨rfl, -, rfl, rfl⟩ := h
    exact ⟨n, rfl⟩
  | _ => simp [Lifecycle.unnotified] at h

/-- The target and the selection of an active session stay. -/
theorem Still.active (h : Still E s t) {a : ActiveTarget} (hs : s.lifecycle = .active a) :
    ∃ n, t.lifecycle = .active { a with notifying := n } :=
  active_of_unnotified (h.lifecycle.trans (congrArg Lifecycle.unnotified hs))

theorem Still.target? (h : Still E s t) : t.lifecycle.target? = s.lifecycle.target? := by
  have hsame : ∀ l : Lifecycle, l.unnotified.target? = l.target? := fun l => by cases l <;> rfl
  rw [← hsame, h.lifecycle, hsame]

theorem Still.isActive (h : Still E s t) (hs : IsActive s) : IsActive t := by
  obtain ⟨a, ha⟩ := hs
  obtain ⟨n, hn⟩ := h.active ha
  exact ⟨_, hn⟩

end Bearings

/-! ### Actions that settle -/

/-- From the state `t`, which was reached from `s` in a command, an action either succeeds with a
result and a session that are good, or it fails for another reason than the text of the request and
leaves the bearings of `s`. -/
def Settles (E : ε → ε → Prop) (s : Session ε) (good : α → Session ε → Prop) (m : Action ε α)
    (t : Session ε) : Prop :=
  Ends m t fun r u =>
    match r with
    | .ok a => good a u
    | .error f => Still E s u ∧ f.isMalformed = false

/-- An action that leaves the bearings, whether it succeeds or not. -/
def Idles (E : ε → ε → Prop) (m : Action ε α) : Prop :=
  ∀ s, Settles E s (fun _ u => Still E s u) m s

section Rules

variable {E : ε → ε → Prop} [StepRelation E] {m : Action ε α} {f : α → Action ε β}
  {s t : Session ε}

/-- An action that leaves the bearings leaves those that the session had before. -/
theorem Idles.since (hst : Still E s t) (hm : Idles E m) :
    Settles E s (fun _ u => Still E s u) m t :=
  (hm t).mono fun r u h => by
    cases r with
    | ok a => exact StepRelation.trans hst h
    | error f => exact ⟨StepRelation.trans hst h.1, h.2⟩

/-- What follows on an action that leaves the bearings. -/
theorem Idles.leads {Q : Except Failure β → Session ε → Prop} (hm : Idles E m) (hst : Still E s t)
    (hf : ∀ a u, Still E s u → Ends (f a) u Q)
    (herror : ∀ e u, Still E s u → e.isMalformed = false → Q (.error e) u) :
    Ends (m >>= f) t Q :=
  (hm.since hst).bind hf fun e u h => herror e u h.1 h.2

theorem Idles.settles {good : β → Session ε → Prop} (hm : Idles E m) (hst : Still E s t)
    (hf : ∀ a u, Still E s u → Settles E s good (f a) u) : Settles E s good (m >>= f) t :=
  hm.leads hst hf fun _ _ => And.intro

theorem Idles.bind (hm : Idles E m) (hf : ∀ a, Idles E (f a)) : Idles E (m >>= f) :=
  fun s => hm.settles (StepRelation.refl s) fun a _ hu => (hf a).since hu

omit [StepRelation E] in
/-- It moves along the relation that leaves the bearings. -/
theorem Idles.moves (hm : Idles E m) : Moves (Still E) m := by
  intro s
  refine (hm s).mono fun r t h => ?_
  cases r with
  | ok a => exact h
  | error e => exact h.1

theorem idles_pure (a : α) : Idles E (pure a : Action ε α) :=
  fun s => StepRelation.refl s

theorem idles_get : Idles E (get : Action ε (Session ε)) :=
  fun s => StepRelation.refl s

/-- A refusal for another reason than the text of the request. -/
theorem idles_refuse {e : SessionError} (he : e.isMalformed = false) :
    Idles E (refuse e : Action ε α) :=
  fun s => ⟨StepRelation.refl s, he⟩

theorem idles_refuse_bind {e : SessionError} (he : e.isMalformed = false) :
    Idles E (refuse e >>= f) :=
  fun s => ⟨StepRelation.refl s, he⟩

theorem idles_orRefuse (operation : String) (r : Except DebugError α) :
    Idles E (orRefuse operation r : Action ε α) := by
  cases r with
  | ok a => exact idles_pure a
  | error e => exact idles_refuse rfl

theorem idles_activeTarget : Idles E (activeTarget : Action ε ActiveTarget) := by
  refine idles_get.bind fun s => ?_
  split
  · exact idles_pure _
  · exact idles_refuse rfl

theorem idles_target : Idles E (target : Action ε Handle) :=
  idles_activeTarget.bind fun _ => idles_pure _

theorem idles_poll (policy : RetryPolicy) {look : Action ε Bool} (h : Idles E look) :
    Idles E (policy.poll look) :=
  poll_induction idles_pure (fun _ => h.bind) policy

omit [StepRelation E] in
/-- A refusal that is passed over leaves what it left. -/
theorem idles_attempt (h : Idles E m) : Idles E (attempt m) := by
  intro s
  rw [attempt, Settles, ends_tryCatch, ends_map]
  refine (h s).mono fun r t ht => ?_
  cases r with
  | ok a => exact ht
  | error f =>
    cases f with
    | refused e => exact ht.1
    | crashed text => exact ⟨ht.1, rfl⟩

/-- The selection changes in the same way whatever the notifier does. -/
theorem turns_modifyActive {f : ActiveTarget → ActiveTarget}
    (hf : ∀ a, { f a with notifying := false } = f { a with notifying := false }) (s : Session ε) :
    Ends (modifyActive f) s fun r s' => r = .ok ⟨⟩ ∧ Turns E (Bearings.refocus f) s s' := by
  rw [modifyActive, ends_modify]
  refine ⟨rfl, ?_⟩
  obtain ⟨engine, capabilities, settings, outbox, lifecycle, lastPrepared, breakpoints⟩ := s
  cases lifecycle with
  | active a =>
    refine ⟨StepRelation.refl engine, rfl, rfl, ?_⟩
    simp only [bearings, Bearings.refocus, Lifecycle.unnotified, Lifecycle.refocus, hf]
  | _ => exact ⟨StepRelation.refl engine, rfl, rfl, rfl⟩

end Rules

/-! ### Calls -/

section Calls

variable [DebugEngine ε] {E : ε → ε → Prop} [RestRelation E]

omit [RestRelation E] in
/-- What an engine is asked leaves the bearings. -/
theorem idles_perform_of {c : Call} (hc : ∀ e : ε, E e (DebugEngine.perform c e).2) :
    Idles E (perform c : Action ε (Except DebugError c.Answer)) := by
  intro s
  have hcall := hc s.engine
  rw [Settles, ends_perform]
  rcases hperform : DebugEngine.perform c s.engine with ⟨(e | text) | a, engine⟩
  all_goals rw [hperform] at hcall
  · exact still_channel s (c := ⟨engine, s.outbox⟩) hcall
  · exact ⟨still_channel s (c := ⟨engine, s.outbox⟩) hcall, rfl⟩
  · exact still_channel s (c := ⟨engine, s.outbox⟩) hcall

omit [RestRelation E] in
theorem idles_observe_of {t : Handle} {q : Query}
    (hq : ∀ e : ε, E e (DebugEngine.observe t q e).2) :
    Idles E (observe t q : Action ε q.Answer) := by
  intro s
  rw [Settles, observe, ends_get_bind]
  exact still_channel s (c := ⟨_, s.outbox⟩) (hq s.engine)

theorem idles_perform {c : Call} (hc : ∀ answer : Except Fault c.Answer,
    (Entry.call c answer).departs = false) :
    Idles E (perform c : Action ε (Except DebugError c.Answer)) :=
  idles_perform_of fun e => RestRelation.rest c e (hc _)

theorem idles_tryRequest (t : Handle) {r : Request} (hr : r.departs = false) :
    Idles E (tryRequest t r : Action ε (Except DebugError r.Answer)) :=
  idles_perform fun answer => Entry.departs_of_request t hr answer

theorem idles_request (t : Handle) {r : Request} (hr : r.departs = false) (operation : String) :
    Idles E (request t r operation : Action ε r.Answer) :=
  (idles_tryRequest t hr).bind fun _ => idles_orRefuse operation _

theorem still_observe (t : Handle) (q : Query) (s : Session ε) :
    Still E s { s with engine := (DebugEngine.observe t q s.engine).2 } :=
  still_channel s (c := ⟨_, s.outbox⟩) (RestRelation.look t q s.engine)

theorem idles_observe (t : Handle) (q : Query) : Idles E (observe t q : Action ε q.Answer) :=
  idles_observe_of (RestRelation.look t q)

omit [DebugEngine ε] [RestRelation E] in
theorem idles_notify [StepRelation E] (n : Notification) : Idles E (notify n : Action ε Unit) :=
  fun s => still_channel s (c := ⟨s.engine, _⟩) (StepRelation.refl s.engine)

omit [RestRelation E] in
/-- Delivering events leaves the bearings. -/
theorem still_deliverEvents [WatchRelation E] (s : Session ε) : Still E s (deliverEvents s) := by
  rw [deliverEvents]
  rcases hl : s.lifecycle with _ | e | a
  · exact StepRelation.refl s
  · exact StepRelation.refl s
  · dsimp only
    split
    · refine ⟨events_engine a.target _ ⟨s.engine, s.outbox⟩, rfl, rfl, ?_⟩
      simp only [bearings, hl, Lifecycle.unnotified, id]
    · refine ⟨WatchRelation.look a.target .events s.engine, rfl, rfl, ?_⟩
      simp only [bearings, hl, id]

/-- A request with the events that it causes: whether the target has departed is in its answer. -/
theorem ends_control_departs {D : ε → ε → Prop} [DepartRelation E D] (t : Handle) (r : Request)
    (s : Session ε) : Ends (control t r) s fun result s' =>
      match result with
      | .ok (.ok _) => if r.departs then Turns D id s s' else Still E s s'
      | .ok (.error _) => Still E s s'
      | .error f => Still E s s' ∧ f.isMalformed = false := by
  have hrest := RestRelation.rest (E := E) (.request t r) s.engine
  have hdepart := DepartRelation.depart (E := E) (D := D) (.request t r) s.engine
  rw [control, ends_get_bind]
  rcases hperform : DebugEngine.perform (.request t r) s.engine with ⟨(e | text) | a, engine⟩
  all_goals
    rw [hperform] at hrest hdepart
    have hevents := still_deliverEvents (E := E) { s with engine }
  · exact StepRelation.trans (still_channel s (c := ⟨engine, s.outbox⟩) (hrest rfl)) hevents
  · exact ⟨still_channel s (c := ⟨engine, s.outbox⟩) (hrest rfl), rfl⟩
  · show if r.departs then _ else _
    split
    · rename_i hr
      have hasked : Turns D id s { s with engine } :=
        still_channel s (c := ⟨engine, s.outbox⟩) (hdepart hr)
      exact hasked.trans hevents (DepartRelation.after (hdepart hr) hevents.engine)
    · rename_i hr
      exact StepRelation.trans
        (still_channel s (c := ⟨engine, s.outbox⟩) (hrest (eq_false_of_ne_true hr))) hevents

theorem idles_control (t : Handle) {r : Request} (hr : r.departs = false) :
    Idles E (control t r : Action ε (Except DebugError r.Answer)) := by
  intro s
  refine (ends_control_departs (E := E) (D := AnyEngine) t r s).mono fun result s' h => ?_
  rcases result with f | (e | a)
  · exact h
  · exact h
  · rw [hr] at h
    exact h

omit [RestRelation E] in
theorem idles_runInquiry {i : Inquiry CommandOutput} (hi : ∀ e : ε, E e (i.run e).2) :
    Idles E (runInquiry i : Action ε CommandOutput) := by
  intro s
  have hrun := hi s.engine
  rw [Settles, runInquiry, ends_get_bind]
  rcases h : i.run s.engine with ⟨text | a, engine⟩
  all_goals
    rw [h] at hrun
  · exact ⟨still_channel s (c := ⟨engine, s.outbox⟩) hrun, rfl⟩
  · exact still_channel s (c := ⟨engine, s.outbox⟩) hrun

end Calls

/-! ### Commands that leave the bearings -/

section Commands

variable [DebugEngine ε] {E : ε → ε → Prop} [RestRelation E]

theorem idles_currentThread : Idles E (currentThread : Action ε Nat) := by
  refine idles_activeTarget.bind fun a => ?_
  split
  · exact idles_pure _
  · refine (idles_observe a.target .stopInfo).bind fun stop => ?_
    split
    · exact idles_pure _
    · refine (idles_request a.target rfl _).bind fun list => ?_
      split
      · exact idles_pure _
      · exact idles_refuse rfl

theorem idles_hasCome (t : Handle) : Idles E (hasCome t : Action ε Bool) :=
  (idles_observe t .state).bind fun _ => idles_pure _

theorem idles_ensureStopped (t : Handle) : Idles E (ensureStopped t : Action ε Bool) := by
  refine (idles_observe t .state).bind fun state => ?_
  split
  · refine (idles_control t rfl).bind fun _ => idles_get.bind fun s => ?_
    have hlook : Idles E (do
        let state ← observe t .state
        return !state.isRunning : Action ε Bool) :=
      (idles_observe t .state).bind fun _ => idles_pure _
    exact (idles_poll _ hlook).bind fun _ => idles_pure _
  · exact idles_pure _

/-- A request to the target and a reply made of its answer. -/
theorem idles_asked {r : Request} (hr : r.departs = false) (operation : String)
    (view : r.Answer → Response) :
    Idles E (do
      let answer ← request (← target) r operation
      return view answer : Action ε Response) :=
  idles_target.bind fun t => (idles_request t hr operation).bind fun _ => idles_pure _

theorem idles_processState : Idles E (processState : Action ε Response) := by
  refine idles_target.bind fun t => (idles_observe t .state).bind fun state => ?_
  refine (idles_observe t .exitStatus).bind fun status => ?_
  split
  · exact idles_pure _
  · exact idles_pure _

/-- A request that changes how the process runs, and nothing is made of its answer. -/
theorem idles_controlled {r : Request} (hr : r.departs = false) (operation : String)
    (view : r.Answer → Response) :
    Idles E (do
      let t ← target
      let answer ← orRefuse operation (← control t r)
      return view answer : Action ε Response) :=
  idles_target.bind fun t => (idles_control t hr).bind fun _ =>
    (idles_orRefuse operation _).bind fun _ => idles_pure _

theorem idles_callStack : Idles E (callStack : Action ε Response) :=
  idles_currentThread.bind fun _ => idles_target.bind fun t =>
    (idles_request t rfl _).bind fun _ => idles_pure _

theorem idles_registers : Idles E (registers : Action ε Response) :=
  idles_currentThread.bind fun _ => idles_activeTarget.bind fun a =>
    (idles_request a.target rfl _).bind fun _ => idles_pure _

theorem idles_setRegister (name : String) (value : UInt64) :
    Idles E (setRegister name value : Action ε Response) := by
  refine idles_currentThread.bind fun tid => idles_activeTarget.bind fun a => ?_
  refine (idles_tryRequest a.target rfl).bind fun answer => ?_
  split
  · exact idles_pure _
  · exact idles_refuse rfl
  · exact idles_refuse rfl

theorem idles_disassembly (addr : UInt64) (count : Nat) :
    Idles E (disassembly addr count : Action ε Response) := by
  refine idles_get.bind fun s => ?_
  have hasked : ∀ t, Idles E (do
      let list ← request t (.disassemble addr count) "disassembly failed"
      return .view .disassembly (Json.object [("lines", instructionLines list)]) :
        Action ε Response) :=
    fun t => (idles_request t rfl _).bind fun _ => idles_pure _
  dsimp only
  split
  · exact idles_refuse_bind rfl
  · exact idles_refuse_bind rfl
  · exact (idles_pure _).bind hasked

theorem idles_mainExecutableDisassembly (count : Nat) :
    Idles E (mainExecutableDisassembly count : Action ε Response) :=
  idles_target.bind fun t => (idles_request t rfl _).bind fun _ =>
    (idles_request t rfl _).bind fun _ => idles_pure _

theorem idles_findStringReferences (addr : UInt64) :
    Idles E (findStringReferences addr : Action ε Response) := by
  refine idles_target.bind fun t => idles_get.bind fun s => ?_
  dsimp only
  split
  · exact (idles_request t rfl _).bind fun _ => idles_pure _
  · exact idles_refuse_bind rfl

theorem idles_moduleAtIndex (index : Int) :
    Idles E (moduleAtIndex index : Action ε Response) := by
  refine idles_target.bind fun t => (idles_request t rfl _).bind fun ms => ?_
  dsimp only
  split
  · exact idles_pure _
  · exact idles_refuse rfl

theorem idles_moduleForFile (file : String) :
    Idles E (moduleForFile file : Action ε Response) := by
  refine idles_target.bind fun t => (idles_request t rfl _).bind fun ms => ?_
  split
  · exact idles_pure _
  · exact idles_refuse rfl

/-- A raw command and what is done with the inquiry that the engine gives back for it. -/
theorem idles_rawCommand (focus : Focus) (line : String)
    {next : Except DebugError (Inquiry CommandOutput) → Action ε α}
    (hok : ∀ i : Inquiry CommandOutput, (∀ e : ε, E e (i.run e).2) → Idles E (next (.ok i)))
    (herror : ∀ e, Idles E (next (.error e))) :
    Idles E (perform (.rawCommand focus line) >>= next) := by
  intro s
  have hcall : E s.engine (DebugEngine.perform (.rawCommand focus line) s.engine).2 := by
    refine RestRelation.rest _ _ ?_
    cases (DebugEngine.perform (.rawCommand focus line) s.engine).1 <;> rfl
  have hinquiry := RestRelation.inquiry (E := E) focus line s.engine
  rw [Settles, ends_bind, ends_perform]
  rcases hperform : DebugEngine.perform (.rawCommand focus line) s.engine with
    ⟨(e | text) | i, engine⟩
  all_goals
    rw [hperform] at hcall
    have hasked := still_channel s (c := ⟨engine, s.outbox⟩) hcall
  · exact (herror e).since hasked
  · exact ⟨hasked, rfl⟩
  · rw [hperform] at hinquiry
    exact (hok i (hinquiry i rfl)).since hasked

theorem idles_executeCommand (line : String) :
    Idles E (executeCommand line : Action ε Response) := by
  refine idles_activeTarget.bind fun a => idles_get.bind fun s => ?_
  dsimp only
  split
  · refine (idles_attempt idles_currentThread).bind fun thread => ?_
    refine idles_rawCommand _ line (fun i hi => ?_) fun e => ?_
    · exact (idles_runInquiry hi).bind fun _ => idles_pure _
    · exact (idles_pure _).bind fun _ => idles_pure _
  · exact idles_refuse_bind rfl

theorem idles_completeCommand (line : String) (position : Nat) :
    Idles E (completeCommand line position : Action ε Response) := by
  refine idles_activeTarget.bind fun a => idles_get.bind fun s => ?_
  dsimp only
  split
  · refine (idles_perform fun answer => ?_).bind fun _ => idles_pure _
    cases answer <;> rfl
  · exact idles_refuse_bind rfl

/-- The commands that neither change what a session knows nor what its user looks at. -/
def Command.isIdle : Command → Bool
  | .resume | .forceStopAndReport | .step _ | .stepUntilUserCode | .selectThread _
  | .selectFrame _ | .readMemory .. => false
  | c => c.isQuiet

theorem idles_execute {c : Command} (h : c.isIdle = true) :
    Idles E (execute c : Action ε Response) := by
  cases c with
  | ping => exact idles_pure _
  | hasProcess => exact idles_activeTarget.bind fun _ => idles_pure _
  | processState => exact idles_processState
  | kill => exact idles_controlled rfl _ fun _ => .ok
  | interrupt => exact idles_controlled rfl _ fun _ => .ok
  | threads => exact idles_asked rfl _ _
  | callStack => exact idles_callStack
  | registers => exact idles_registers
  | setRegister name value => exact idles_setRegister name value
  | writeByte addr value => exact idles_asked rfl _ _
  | sendToApplication data => exact idles_asked rfl _ _
  | disassembly addr count => exact idles_disassembly addr count
  | mainExecutableDisassembly count => exact idles_mainExecutableDisassembly count
  | findStringReferences addr => exact idles_findStringReferences addr
  | moduleCount => exact idles_asked rfl _ _
  | moduleAtIndex index => exact idles_moduleAtIndex index
  | moduleForFile file => exact idles_moduleForFile file
  | executeCommand line => exact idles_executeCommand line
  | completeCommand line position => exact idles_completeCommand line position
  | _ => cases h

/-- Reading memory leaves the bearings too; a length above the limit is refused before anything is
asked. -/
theorem ends_readMemory (addr : UInt64) (length : Nat) (s : Session ε) :
    Ends (readMemory addr length) s fun r s' => Still E s s' ∧
      ∀ f, r = .error f → f.isMalformed = true → s' = s := by
  rw [readMemory, ends_get_bind]
  dsimp only
  split
  · exact ⟨StepRelation.refl s, fun _ _ _ => rfl⟩
  · refine (idles_asked (E := E) (r := .readMemory addr length) rfl _ _ s).mono fun r t h => ?_
    cases r with
    | ok a => exact ⟨h, nofun⟩
    | error f =>
      refine ⟨h.1, fun f' hf hmalformed => ?_⟩
      cases hf
      rw [h.2] at hmalformed
      cases hmalformed

end Commands

end Session

end DebugAdapter
