import DebugAdapter.Proofs.SessionRules

/-!
# Attending to a process

Most commands work on the process of a session. Without one they are refused before they do
anything; with one they put requests and queries to its target, hand out its events and report where
it stopped. `Attendance W` says that a relation between engines with their outboxes is left by none
of these, and `OnProcess W` that an action does nothing else. What is to be shown of all commands on
a process is so shown by naming a relation, and no proof looks into the commands again.
-/

namespace DebugAdapter

open Debuggee
open Operation

/-- A request that neither starts a process nor lets go of one. -/
def Debuggee.Request.isGentle : Request → Bool
  | launch _ | attach _ | connectRemote .. | detach | destroy => false
  | _ => true

theorem Debuggee.Request.starts_of_isGentle {r : Request} (h : r.isGentle = true) :
    r.starts = false := by
  cases r with
  | launch info => cases h
  | attach pid => cases h
  | connectRemote url plugin => cases h
  | _ => rfl

namespace Session

variable {ε : Type} {α β : Type}

/-- The engine and the outbox of a session. -/
def channel (s : Session ε) : Channel ε := ⟨s.engine, s.outbox⟩

/-- Relations, one for each target, that are not left by what a session does to attend to the
target. -/
class Attendance [DebugEngine ε] (W : Handle → Channel ε → Channel ε → Prop) : Prop where
  steps : ∀ t : Handle, StepRelation (W t)
  request : ∀ (t : Handle) (r : Request) (c : Channel ε), r.isGentle = true →
    W t c { c with engine := (DebugEngine.perform (.request t r) c.engine).2 }
  look : ∀ (t : Handle) (q : Query) (c : Channel ε),
    W t c { c with engine := (DebugEngine.observe t q c.engine).2 }
  complete : ∀ (t : Handle) (line : String) (position : Nat) (c : Channel ε),
    W t c { c with engine := (DebugEngine.perform (.complete line position) c.engine).2 }
  rawCommand : ∀ (t : Handle) (focus : Focus) (line : String) (c : Channel ε),
    focus.target = some t →
      W t c { c with engine := (DebugEngine.perform (.rawCommand focus line) c.engine).2 }
  inquiry : ∀ (t : Handle) (focus : Focus) (line : String) (e : ε) (i : Inquiry CommandOutput),
    focus.target = some t → (DebugEngine.perform (.rawCommand focus line) e).1 = .ok i →
      ∀ c : Channel ε, W t c { c with engine := (i.run c.engine).2 }
  /-- A stop is reported with what the target says about it. -/
  report : ∀ (t : Handle) (reason : String) (thread : Nat) (pc : UInt64) (c : Channel ε),
    W t c (Channel.emit (.stopped reason thread pc)
      { c with engine := (DebugEngine.observe t .stopInfo c.engine).2 }).2
  /-- The events of the target are handed to its notifier. -/
  events : ∀ (t : Handle) (chunk : Nat) (c : Channel ε),
    W t c (Channel.translateAll t chunk (DebugEngine.observe t .events c.engine).1
      { c with engine := (DebugEngine.observe t .events c.engine).2 }).2

attribute [instance] Attendance.steps

/-- What changes in a session while it attends to a target. -/
structure Attended (W : Handle → Channel ε → Channel ε → Prop) (t : Handle) (s s' : Session ε) :
    Prop where
  channel : W t s.channel s'.channel
  capabilities : s'.capabilities = s.capabilities
  settings : s'.settings = s.settings
  lastPrepared : s'.lastPrepared = s.lastPrepared
  breakpoints : s'.breakpoints = s.breakpoints
  target : s'.lifecycle.target? = some t

/-- A session attends to a target if that is its target. -/
def Attending (W : Handle → Channel ε → Channel ε → Prop) (t : Handle) (s s' : Session ε) : Prop :=
  s.lifecycle.target? = some t → Attended W t s s'

/-- On a session with a target an action attends to it. -/
abbrev Attends (W : Handle → Channel ε → Channel ε → Prop) (t : Handle) (m : Action ε α) : Prop :=
  Moves (Attending W t) m

/-- An action on the process of a session attends to its target, and without one it is refused. -/
structure OnProcess (W : Handle → Channel ε → Channel ε → Prop) (m : Action ε α) : Prop where
  attends : ∀ t : Handle, Attends W t m
  refused : ∀ s : Session ε, s.lifecycle.target? = none →
    Ends m s fun r s' => (∃ e, r = .error (.refused e)) ∧ s' = s

section Rules

variable {W : Handle → Channel ε → Channel ε → Prop} {t : Handle}

/-! ### Actions that ask for the target -/

/-- What is to be shown of a session with the target. -/
theorem attends_of_active {m : Action ε α}
    (h : ∀ (s : Session ε) (a : ActiveTarget), s.lifecycle = .active a → a.target = t →
      Ends m s fun _ s' => Attended W t s s') : Attends W t m := by
  intro s
  rcases target?_cases s.lifecycle with ⟨hnone, -⟩ | ⟨a, hl, ha⟩
  · intro ht
    rw [hnone] at ht
    cases ht
  · intro ht
    rw [ha] at ht
    exact h s a hl (Option.some.inj ht)

theorem attends_activeTarget_bind {f : ActiveTarget → Action ε β}
    (h : ∀ a : ActiveTarget, a.target = t → Attends W t (f a)) :
    Attends W t (activeTarget >>= f) := by
  refine attends_of_active fun s a hl ha => ?_
  rw [ends_activeTarget_bind hl]
  refine (h a ha s).mono fun _ s' hs => hs ?_
  rw [hl]
  exact congrArg some ha

theorem attends_target_bind {f : Handle → Action ε β} (h : Attends W t (f t)) :
    Attends W t (target >>= f) := by
  rw [target, bind_assoc]
  exact attends_activeTarget_bind fun a ha => ha ▸ h

theorem onProcess_activeTarget_bind {f : ActiveTarget → Action ε β}
    (h : ∀ a : ActiveTarget, Attends W a.target (f a)) : OnProcess W (activeTarget >>= f) where
  attends t := attends_activeTarget_bind fun a ha => ha ▸ h a
  refused s hs := by
    rw [ends_activeTarget_none hs]
    exact ⟨⟨_, rfl⟩, rfl⟩

theorem onProcess_target_bind {f : Handle → Action ε β} (h : ∀ t, Attends W t (f t)) :
    OnProcess W (target >>= f) := by
  rw [target, bind_assoc]
  exact onProcess_activeTarget_bind fun a => h a.target

/-! ### Calls -/

/-- Engine and outbox change along the relation, and nothing else changes. -/
theorem attended_channel {s : Session ε} (ht : s.lifecycle.target? = some t) {c : Channel ε}
    (h : W t s.channel c) : Attended W t s { s with engine := c.engine, outbox := c.outbox } :=
  ⟨h, rfl, rfl, rfl, rfl, ht⟩

variable [DebugEngine ε]

theorem attends_perform {c : Call}
    (h : ∀ k : Channel ε, W t k { k with engine := (DebugEngine.perform c k.engine).2 }) :
    Attends W t (perform c : Action ε (Except DebugError c.Answer)) := by
  intro s
  rw [ends_perform_iff]
  exact fun ht => attended_channel ht (h s.channel)

theorem attends_runInquiry {i : Inquiry CommandOutput}
    (hi : ∀ c : Channel ε, W t c { c with engine := (i.run c.engine).2 }) :
    Attends W t (runInquiry i : Action ε CommandOutput) := by
  intro s
  have hrun := hi s.channel
  rw [runInquiry, ends_get_bind]
  rcases h : i.run s.engine with ⟨text | a, engine⟩
  all_goals
    rw [show i.run s.channel.engine = _ from h] at hrun
    exact fun ht => attended_channel ht hrun

end Rules

variable [DebugEngine ε] {W : Handle → Channel ε → Channel ε → Prop} [Attendance W] {t : Handle}

instance : StepRelation (Attending W t) where
  refl _ ht := ⟨StepRelation.refl _, rfl, rfl, rfl, rfl, ht⟩
  trans h h' ht :=
    have a := h ht
    have a' := h' a.target
    { channel := StepRelation.trans a.channel a'.channel
      capabilities := a'.capabilities.trans a.capabilities
      settings := a'.settings.trans a.settings
      lastPrepared := a'.lastPrepared.trans a.lastPrepared
      breakpoints := a'.breakpoints.trans a.breakpoints
      target := a'.target }

theorem onProcess_refuse_bind (e : SessionError) (f : α → Action ε β) :
    OnProcess W (refuse e >>= f) where
  attends _ := moves_refuse_bind e f
  refused _ _ := ⟨⟨e, rfl⟩, rfl⟩

/-- What follows on an action on the process attends to the target that the session had. -/
theorem OnProcess.bind {m : Action ε α} {f : α → Action ε β} (hm : OnProcess W m)
    (hf : ∀ t a, Attends W t (f a)) : OnProcess W (m >>= f) where
  attends t := (hm.attends t).bind (hf t)
  refused s hs := by
    refine (hm.refused s hs).bind ?_ ?_
    · rintro a s' ⟨⟨e, he⟩, -⟩
      cases he
    · rintro f s' ⟨⟨e, he⟩, rfl⟩
      cases he
      exact ⟨⟨e, rfl⟩, rfl⟩

/-- An action on the process that looks at the session first. -/
theorem OnProcess.get_bind {f : Session ε → Action ε β} (h : ∀ s, OnProcess W (f s)) :
    OnProcess W (get >>= f) where
  attends t := Moves.get.bind fun s => (h s).attends t
  refused s hs := by
    rw [ends_get_bind]
    exact (h s).refused s hs

/-! ### Requests and queries -/

theorem attends_tryRequest (t : Handle) {r : Request} (hr : r.isGentle = true) :
    Attends W t (tryRequest t r : Action ε (Except DebugError r.Answer)) :=
  attends_perform fun c => Attendance.request t r c hr

theorem attends_request (t : Handle) {r : Request} (hr : r.isGentle = true) (operation : String) :
    Attends W t (request t r operation : Action ε r.Answer) :=
  (attends_tryRequest t hr).bind fun _ => moves_orRefuse operation _

theorem attends_observe (t : Handle) (q : Query) :
    Attends W t (observe t q : Action ε q.Answer) := by
  intro s
  rw [observe, ends_get_bind]
  exact fun ht => attended_channel ht (Attendance.look t q s.channel)

/-- What the target says about a stop, and a notification of a stop. -/
theorem attends_report (t : Handle) {n : Option StopInfo → Wire.Notification}
    (hn : ∀ stop, ∃ reason thread pc, n stop = .stopped reason thread pc) :
    Attends W t (do notify (n (← observe t .stopInfo)) : Action ε Unit) := by
  intro s ht
  obtain ⟨reason, thread, pc, hstop⟩ := hn (DebugEngine.observe t .stopInfo s.engine).1
  have hreport := Attendance.report (W := W) t reason thread pc s.channel
  rw [emit_snd, ← hstop] at hreport
  exact ⟨hreport, rfl, rfl, rfl, rfl, ht⟩

/-- A raw command and what is done with the inquiry that the engine gives back for it. -/
theorem attends_rawCommand {focus : Focus} (hfocus : focus.target = some t) (line : String)
    {next : Except DebugError (Inquiry CommandOutput) → Action ε α}
    (hok : ∀ i : Inquiry CommandOutput,
      (∀ c : Channel ε, W t c { c with engine := (i.run c.engine).2 }) → Attends W t (next (.ok i)))
    (herror : ∀ e, Attends W t (next (.error e))) :
    Attends W t (perform (.rawCommand focus line) >>= next) := by
  intro s
  have hcall := Attendance.rawCommand (W := W) t focus line s.channel hfocus
  have hinquiry := Attendance.inquiry (W := W) t focus line s.engine
  rw [perform, bind_assoc, ends_get_bind]
  rcases hperform : DebugEngine.perform (.rawCommand focus line) s.engine with
    ⟨(e | text) | i, engine⟩
  all_goals
    rw [show DebugEngine.perform (.rawCommand focus line) s.channel.engine = _ from hperform]
      at hcall
  · exact (herror e _).mono fun r s' h =>
      StepRelation.trans (R := Attending W t) (fun ht => attended_channel ht hcall) h
  · exact fun ht => attended_channel ht hcall
  · rw [hperform] at hinquiry
    exact (hok i (hinquiry i hfocus rfl) _).mono fun r s' h =>
      StepRelation.trans (R := Attending W t) (fun ht => attended_channel ht hcall) h

/-! ### Letting the process run -/

/-- The events of the target of a session are delivered. -/
theorem attending_deliverEvents (t : Handle) (s : Session ε) :
    Attending W t s (deliverEvents s) := by
  intro ht
  obtain ⟨a, hl, rfl⟩ := active_of_target? ht
  rw [deliverEvents, hl]
  dsimp only
  split
  · exact ⟨Attendance.events (W := W) a.target _ s.channel, rfl, rfl, rfl, rfl, rfl⟩
  · exact ⟨Attendance.look a.target .events s.channel, rfl, rfl, rfl, rfl, rfl⟩

/-- Without a target there are no events. -/
theorem deliverEvents_none {s : Session ε} (h : s.lifecycle.target? = none) :
    deliverEvents s = s := by
  rw [deliverEvents]
  split
  · rename_i a hl
    rw [hl] at h
    cases h
  · rfl

theorem attends_control (t : Handle) {r : Request} (hr : r.isGentle = true) :
    Attends W t (control t r : Action ε (Except DebugError r.Answer)) := by
  intro s
  have hcall := Attendance.request (W := W) t r s.channel hr
  rw [control, ends_get_bind]
  rcases hperform : DebugEngine.perform (.request t r) s.engine with ⟨(e | text) | a, engine⟩
  all_goals
    rw [show DebugEngine.perform (.request t r) s.channel.engine = _ from hperform] at hcall
    have hasked : Attending W t s { s with engine } := fun ht => attended_channel ht hcall
  · exact StepRelation.trans hasked (attending_deliverEvents t _)
  · exact hasked
  · exact StepRelation.trans hasked (attending_deliverEvents t _)

/-! ### What the user looks at -/

theorem attends_modifyActive {f : ActiveTarget → ActiveTarget}
    (hf : ∀ a, (f a).target = a.target) :
    Attends W t (modifyActive f : Action ε Unit) := by
  refine Moves.modify fun s => ?_
  split
  · rename_i a hl
    intro ht
    rw [hl] at ht
    exact ⟨StepRelation.refl _, rfl, rfl, rfl, rfl, (congrArg some (hf a)).trans ht⟩
  · exact StepRelation.refl s

theorem attends_resetFocus : Attends W t (resetFocus : Action ε Unit) :=
  attends_modifyActive fun _ => rfl

end Session

end DebugAdapter
