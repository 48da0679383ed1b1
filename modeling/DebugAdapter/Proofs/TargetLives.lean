import DebugAdapter.Proofs.Journal
import DebugAdapter.Proofs.SessionOutcomes

/-!
# The lives of targets

What a command writes into the journal about the target that it makes: the target is made, asked to
start, attended to, and destroyed again if the command fails (`Life`). `Course` says how a command
that begins a process can end with such a life (`Entered`), for every engine, also for one that
breaks down in the middle of the command.
-/

namespace DebugAdapter

open Operation

namespace Debuggee

/-- An engine breaks down on some call.
-/
def Breaks (ε : Type) [DebugEngine ε] (text : Option String) : Prop :=
  ∃ (c : Call) (e : ε), (DebugEngine.perform c e).1 = .error (.crash text)

/-- How far a command came with the target that it made. -/
inductive Phase where
  | made
  | started
  | failed
  | discarded
  deriving DecidableEq

/-- The entries of a command about the target that it makes. -/
inductive Life (t : Handle) : Phase → List Entry → Prop
  | made (executable : Option String) (arch : Arch) (subscribed : Bool) :
      Life t .made [.call (.createTarget executable arch) (.ok t), .query t .subscribe subscribed]
  | started {xs : List Entry} {r : Request} (h : Life t .made xs) (hr : r.starts = true)
      (a : r.Answer) : Life t .started (xs ++ [.call (.request t r) (.ok a)])
  | failed {xs : List Entry} {r : Request} (h : Life t .made xs) (hr : r.starts = true)
      (f : Fault) :
      Life t .failed (xs ++ [.call (.request t r) (.error f)])
  | attended {xs ys : List Entry} (h : Life t .started xs) (hys : ∀ y ∈ ys, y.Gentle t) :
      Life t .started (xs ++ ys)
  | discarded {p : Phase} {xs : List Entry} (h : Life t p xs) (hp : p = .started ∨ p = .failed)
      (a : Except Fault Unit) : Life t .discarded (xs ++ [.call (.request t .destroy) a])

end Debuggee

namespace Session

open Debuggee
open Wire (Response)

variable {ε : Type} [DebugEngine ε] {α β : Type}

/-! ### How a command ends that begins a process -/

/-- The result of a command that begins a process, the target of the session then, and the entries
of the command. -/
inductive Course (ε : Type) [DebugEngine ε] {α : Type} :
    Except Failure α → Option Handle → List Entry → Prop
  /-- The command is refused before it asks anything. -/
  | refused (e : SessionError) : Course ε (.error (.refused e)) none []
  /-- No target can be made. -/
  | unmade {f : Failure} (executable : Option String) (arch : Arch) (fault : Fault) :
      Course ε (.error f) none [.call (.createTarget executable arch) (.error fault)]
  /-- The target that was made cannot be used. -/
  | unused {t : Handle} {xs : List Entry} (e : SessionError) (h : Life t .made xs) :
      Course ε (.error (.refused e)) none xs
  /-- The process could not be started, or could not be kept. -/
  | discarded {t : Handle} {xs : List Entry} (e : SessionError) (h : Life t .discarded xs) :
      Course ε (.error (.refused e)) none xs
  | running {t : Handle} {xs : List Entry} (a : α) (h : Life t .started xs) :
      Course ε (.ok a) (some t) xs
  /-- The engine breaks down. -/
  | broken {t : Handle} {p : Phase} {xs : List Entry} {text : Option String}
      {target? : Option Handle}
      (h : Life t p xs) (hbreaks : Breaks ε text) (htarget : target? = none ∨ target? = some t) :
      Course ε (.error (.crashed text)) target? xs

/-- A failure of an action is a breakdown of the engine. -/
def OnlyBreaks (m : Action ε α) : Prop :=
  ∀ s : Session ε, Ends m s fun r _ =>
    ∀ f, r = .error f → ∃ text, f = .crashed text ∧ Breaks ε text

theorem OnlyBreaks.bind {m : Action ε α} {f : α → Action ε β} (hm : OnlyBreaks m)
    (hf : ∀ a, OnlyBreaks (f a)) : OnlyBreaks (m >>= f) :=
  fun s => (hm s).bind (fun a s' _ => hf a s') fun e _ h f hf => by
    cases hf
    exact h e rfl

theorem onlyBreaks_pure (a : α) : OnlyBreaks (pure a : Action ε α) := by
  rintro s f ⟨⟩

theorem onlyBreaks_modify (f : Session ε → Session ε) : OnlyBreaks (modify f : Action ε PUnit) := by
  rintro s f ⟨⟩

theorem onlyBreaks_perform (c : Call) :
    OnlyBreaks (perform c : Action ε (Except DebugError c.Answer)) := by
  intro s
  rw [ends_perform_iff]
  rcases hanswer : (DebugEngine.perform c s.engine).1 with (e | text) | a
  · rintro f ⟨⟩
  · rintro f ⟨⟩
    exact ⟨text, rfl, c, s.engine, hanswer⟩
  · rintro f ⟨⟩

theorem onlyBreaks_observe (t : Handle) (q : Query) :
    OnlyBreaks (observe t q : Action ε q.Answer) := by
  intro s
  rw [observe, ends_get_bind]
  rintro f ⟨⟩

theorem onlyBreaks_poll (policy : RetryPolicy) {look : Action ε Bool} (h : OnlyBreaks look) :
    OnlyBreaks (policy.poll look) :=
  poll_induction onlyBreaks_pure (fun _ => h.bind) policy

theorem onlyBreaks_control (t : Handle) (r : Request) :
    OnlyBreaks (control t r : Action ε (Except DebugError r.Answer)) := by
  intro s
  rw [control, ends_get_bind]
  rcases hperform : DebugEngine.perform (.request t r) s.engine with ⟨(e | text) | a, engine⟩
  · rintro f ⟨⟩
  · rintro f ⟨⟩
    exact ⟨text, rfl, _, s.engine, congrArg Prod.fst hperform⟩
  · rintro f ⟨⟩

theorem onlyBreaks_installPending (t : Handle) (pending : List BreakpointEntry) :
    OnlyBreaks (installPending t pending : Action ε Unit) := by
  induction pending with
  | nil => exact onlyBreaks_pure _
  | cons e rest ih =>
    rw [installPending]
    refine (onlyBreaks_perform _).bind fun answer => ?_
    cases answer with
    | ok info => exact (onlyBreaks_modify _).bind fun _ => ih
    | error error => exact ih

/-! ### Before the session has the target -/

/-- The session stays in its state while there is only talk to a target. -/
def Going (t : Handle) (s s' : Session (Journal ε)) : Prop :=
  Passes (Entry.Gentle t) [] s.channel s'.channel ∧ s'.lifecycle = s.lifecycle

instance (t : Handle) : StepRelation (Going (ε := ε) t) where
  refl _ := ⟨StepRelation.refl _, rfl⟩
  trans h h' := ⟨StepRelation.trans h.1 h'.1, h'.2.trans h.2⟩

theorem moves_going_observe (t : Handle) (q : Query) :
    Moves (Going t) (observe t q : Action (Journal ε) q.Answer) := by
  intro s
  rw [observe, ends_get_bind]
  exact ⟨tends_look t q s.channel, rfl⟩

theorem moves_going_tryRequest (t : Handle) {r : Request} (hr : r.isGentle = true) :
    Moves (Going t) (tryRequest t r : Action (Journal ε) (Except DebugError r.Answer)) := by
  intro s
  rw [tryRequest, ends_perform_iff]
  exact ⟨tends_perform s.channel (Entry.gentle_request t hr _), rfl⟩

theorem moves_going_installPending (t : Handle) (pending : List BreakpointEntry) :
    Moves (Going t) (installPending t pending : Action (Journal ε) Unit) := by
  induction pending with
  | nil => exact Moves.pure _
  | cons e rest ih =>
    rw [installPending]
    refine (moves_going_tryRequest t rfl).bind fun answer => ?_
    cases answer with
    | ok info =>
      refine Moves.bind (Moves.modify fun s => ?_) fun _ => ih
      exact ⟨StepRelation.refl _, rfl⟩
    | error error => exact ih

/-! ### Going on with a target -/

/-- What happens takes a target from one phase to another. -/
def Onward (t : Handle) (p p' : Phase) (s s' : Session (Journal ε)) : Prop :=
  ∃ ys ns, Happens ys ns s.channel s'.channel ∧ Told ys ns ∧
    ∀ xs, Life t p xs → Life t p' (xs ++ ys)

/-- What happens ends the command of a target that is in a phase. -/
def Continues (t : Handle) (p : Phase) (s : Session (Journal ε)) (r : Except Failure α)
    (s' : Session (Journal ε)) : Prop :=
  ∃ ys ns, Happens ys ns s.channel s'.channel ∧ Told ys ns ∧
    ∀ xs, Life t p xs → Course (Journal ε) r s'.lifecycle.target? (xs ++ ys)

section Onward

variable {t : Handle} {p p' : Phase} {s s₁ s' : Session (Journal ε)} {r : Except Failure α}

omit [DebugEngine ε] in
theorem onward_tends (h : Tends t s.channel s'.channel) : Onward t .started .started s s' := by
  obtain ⟨ys, ns, hys, hgentle, htold⟩ := h
  exact ⟨ys, ns, hys, htold, fun xs hxs => .attended hxs hgentle⟩

omit [DebugEngine ε] in
theorem onward_entry {x : Entry} (h : Happens [x] [] s.channel s'.channel)
    (hx : ∀ xs, Life t p xs → Life t p' (xs ++ [x])) : Onward t p p' s s' :=
  ⟨[x], [], h, told_nil _, hx⟩

theorem Onward.continues (h : Onward t p p' s s₁) (h' : Continues t p' s₁ r s') :
    Continues t p s r s' := by
  obtain ⟨ys, ns, hys, htold, hlife⟩ := h
  obtain ⟨zs, ms, hzs, htold', hcourse⟩ := h'
  refine ⟨ys ++ zs, ns ++ ms, hys.append hzs, htold.append htold', fun xs hxs => ?_⟩
  rw [← List.append_assoc]
  exact hcourse _ (hlife xs hxs)

theorem Onward.running (h : Onward t p .started s s') (ht : s'.lifecycle.target? = some t) (a : α) :
    Continues t p s (.ok a) s' := by
  obtain ⟨ys, ns, hys, htold, hlife⟩ := h
  refine ⟨ys, ns, hys, htold, fun xs hxs => ?_⟩
  rw [ht]
  exact .running a (hlife xs hxs)

theorem Onward.discarded (h : Onward t p .discarded s s') (ht : s'.lifecycle.target? = none)
    (e : SessionError) : Continues t p s (.error (.refused e) : Except Failure α) s' := by
  obtain ⟨ys, ns, hys, htold, hlife⟩ := h
  refine ⟨ys, ns, hys, htold, fun xs hxs => ?_⟩
  rw [ht]
  exact .discarded e (hlife xs hxs)

theorem Onward.broken (h : Onward t p p' s s') {f : Failure}
    (hf : ∃ text, f = .crashed text ∧ Breaks (Journal ε) text)
    (ht : s'.lifecycle.target? = none ∨ s'.lifecycle.target? = some t) :
    Continues t p s (.error f : Except Failure α) s' := by
  obtain ⟨ys, ns, hys, htold, hlife⟩ := h
  obtain ⟨text, rfl, hbreaks⟩ := hf
  exact ⟨ys, ns, hys, htold, fun xs hxs => .broken (hlife xs hxs) hbreaks ht⟩

end Onward

/-! ### The parts of a command that begins a process -/

/-- A target is asked to start. -/
theorem onward_start (t : Handle) {r : Request} (hr : r.starts = true)
    (s : Session (Journal ε)) : Ends (tryRequest t r) s fun result s' =>
      s'.lifecycle = s.lifecycle ∧
      (∀ a, result = .ok (.ok a) → Onward t .made .started s s') ∧
      ((∀ a, result ≠ .ok (.ok a)) → Onward t .made .failed s s') := by
  have hcall := happens_perform (.request t r) s.channel
  rw [tryRequest, ends_perform]
  rcases hperform : DebugEngine.perform (.request t r) s.engine with ⟨f | a, engine⟩
  · have hfailed : Onward t .made .failed s { s with engine } := by
      rw [show DebugEngine.perform (.request t r) s.channel.engine = _ from hperform] at hcall
      exact onward_entry hcall fun xs hxs => .failed hxs hr f
    cases f with
    | error e => exact ⟨rfl, by rintro a ⟨⟩, fun _ => hfailed⟩
    | crash text => exact ⟨rfl, by rintro a ⟨⟩, fun _ => hfailed⟩
  · rw [show DebugEngine.perform (.request t r) s.channel.engine = _ from hperform] at hcall
    exact ⟨rfl, fun _ _ => onward_entry hcall fun xs hxs => .started hxs hr a,
      fun h => absurd rfl (h a)⟩

/-- A target is destroyed. -/
theorem onward_destroy (t : Handle) {p : Phase} (hp : p = .started ∨ p = .failed)
    (s : Session (Journal ε)) : Ends (tryRequest t .destroy) s fun _ s' =>
      s'.lifecycle = s.lifecycle ∧ Onward t p .discarded s s' := by
  rw [tryRequest, ends_perform_iff]
  refine ⟨rfl, onward_entry (happens_perform (.request t .destroy) s.channel) ?_⟩
  exact fun xs hxs => .discarded hxs hp _

/-- A target that the session has no use for is destroyed, and the command is refused. -/
theorem continues_discard (t : Handle) {p : Phase} (hp : p = .started ∨ p = .failed)
    (e : SessionError) (next : β → Action (Journal ε) α) {s : Session (Journal ε)}
    (hs : s.lifecycle.target? = none) :
    Ends (tryRequest t .destroy >>= fun _ => refuse e >>= next) s (Continues t p s) := by
  refine ((onward_destroy t hp s).and (onlyBreaks_perform _ s)).bind ?_ ?_
  · rintro answer s' ⟨⟨hl, honward⟩, -⟩
    exact honward.discarded (hl ▸ hs) e
  · rintro f s' ⟨⟨hl, honward⟩, hbreaks⟩
    exact honward.broken (hbreaks f rfl) (Or.inl (hl ▸ hs))

section Continuation

variable {t : Handle} {next : Unit → Action (Journal ε) α} {s : Session (Journal ε)}

/-- The rest of a command goes on without a target of the session. -/
def GoesOn (t : Handle) (next : Unit → Action (Journal ε) α) : Prop :=
  ∀ s : Session (Journal ε), s.lifecycle.target? = none →
    Ends (next ()) s (Continues t .started s)

theorem continues_startNotifier (failed : DebugError → SessionError)
    (hs : s.lifecycle.target? = none) (hnext : GoesOn t next) :
    Ends (startNotifier t failed >>= next) s (Continues t .started s) := by
  rw [startNotifier, bind_assoc, ends_get_bind]
  split
  · exact hnext s hs
  · rw [bind_assoc]
    exact continues_discard t (Or.inl rfl) _ next hs

theorem continues_startTarget {r : Request} (hr : r.starts = true)
    (failed : DebugError → SessionError) (hs : s.lifecycle.target? = none) (hnext : GoesOn t next) :
    Ends (startTarget t r failed >>= next) s (Continues t .made s) := by
  rw [startTarget, bind_assoc]
  refine ((onward_start t hr s).and (onlyBreaks_perform _ s)).bind ?_ ?_
  · rintro (e | a) s₁ ⟨⟨hl, hok, hfailed⟩, -⟩
    -- It did not start: it is destroyed before the command is refused.
    · have hfailed := hfailed (by rintro a ⟨⟩)
      dsimp only
      rw [bind_assoc]
      refine (continues_discard t (Or.inr rfl) _ next (hl ▸ hs)).mono fun _ _ h => ?_
      exact hfailed.continues h
    -- It started: the session waits until the state is settled and starts the notifier.
    · have hstarted := hok a rfl
      have hlook : Moves (Going t) (do
          let state ← observe t .state
          return !state.isTransitional : Action (Journal ε) Bool) :=
        (moves_going_observe t .state).bind fun _ => Moves.pure _
      have honly : OnlyBreaks (do
          let state ← observe t .state
          return !state.isTransitional : Action (Journal ε) Bool) :=
        (onlyBreaks_observe t .state).bind fun _ => onlyBreaks_pure _
      dsimp only
      rw [bind_assoc, ends_get_bind, bind_assoc]
      refine ((moves_poll _ hlook s₁).and (onlyBreaks_poll _ honly s₁)).bind ?_ ?_
      · rintro _ s₂ ⟨⟨hpasses, hl₂⟩, -⟩
        refine (continues_startNotifier failed (hl₂.trans hl ▸ hs) hnext).mono fun _ _ h => ?_
        exact hstarted.continues ((onward_tends hpasses).continues h)
      · rintro f s₂ ⟨⟨hpasses, hl₂⟩, hbreaks⟩
        exact hstarted.continues
          ((onward_tends hpasses).broken (hbreaks f rfl) (Or.inl (hl₂.trans hl ▸ hs)))
  · rintro f s₁ ⟨⟨hl, -, hfailed⟩, hbreaks⟩
    exact (hfailed (by rintro a ⟨⟩)).broken (hbreaks f rfl) (Or.inl (hl ▸ hs))

theorem continues_activate (hs : s.lifecycle.target? = none)
    (hnext : ∀ s₁ : Session (Journal ε), s₁.lifecycle.target? = some t →
      Ends (next ()) s₁ (Continues t .started s₁)) :
    Ends (activate t >>= next) s (Continues t .started s) := by
  rw [activate, bind_assoc, ends_get_bind, bind_assoc]
  refine ((moves_going_installPending t _ s).and (onlyBreaks_installPending t _ s)).bind ?_ ?_
  · rintro _ s₁ ⟨⟨hpasses, -⟩, -⟩
    rw [ends_modify_bind]
    refine (hnext _ rfl).mono fun _ _ h => ?_
    exact (onward_tends hpasses).continues h
  · rintro f s₁ ⟨⟨hpasses, hl⟩, hbreaks⟩
    exact (onward_tends hpasses).broken (hbreaks f rfl) (Or.inl (hl ▸ hs))

end Continuation

/-- What a command does that begins a process. -/
def Entered (s : Session (Journal ε)) (r : Except Failure α) (s' : Session (Journal ε)) : Prop :=
  ∃ xs ns, Happens xs ns s.channel s'.channel ∧ Told xs ns ∧
    Course (Journal ε) r s'.lifecycle.target? xs

theorem entered_createTarget (executable : Option String) (is64 : Bool)
    {next : Handle → Action (Journal ε) α} {s : Session (Journal ε)}
    (hs : s.lifecycle.target? = none)
    (hnext : ∀ (t : Handle) (s₁ : Session (Journal ε)), s₁.lifecycle.target? = none →
      Ends (next t) s₁ (Continues t .made s₁)) :
    Ends (createTarget executable is64 >>= next) s (Entered s) := by
  have hcall := happens_perform (.createTarget executable (Debuggee.Arch.ofIs64 is64)) s.channel
  rw [createTarget, bind_assoc, ends_bind, ends_perform]
  rcases hperform : DebugEngine.perform (.createTarget executable (Debuggee.Arch.ofIs64 is64))
    s.engine with ⟨f | t, engine⟩
  all_goals
    rw [show DebugEngine.perform (.createTarget executable (Debuggee.Arch.ofIs64 is64))
      s.channel.engine = _ from hperform] at hcall
  -- Without a target there is no life, and the call is the only entry.
  · have hunmade : ∀ g : Failure, Entered s (.error g : Except Failure α) { s with engine } := by
      intro g
      refine ⟨_, [], hcall, told_nil _, ?_⟩
      rw [show ({ s with engine } : Session (Journal ε)).lifecycle = s.lifecycle from rfl, hs]
      exact .unmade _ _ f
    cases f with
    | error e => exact hunmade _
    | crash text => exact hunmade _
  · have hmade := hcall.append (happens_observe t .subscribe ⟨engine, s.outbox⟩)
    have hlife : Life t .made _ :=
      .made executable (Debuggee.Arch.ofIs64 is64) (DebugEngine.observe t .subscribe engine).1
    dsimp only
    rw [bind_assoc, ends_observe_bind]
    split
    · rw [pure_bind]
      refine (hnext t { s with engine := (DebugEngine.observe t .subscribe engine).2 } hs).mono ?_
      rintro r s' ⟨ys, ns, hys, htold, hcourse⟩
      exact ⟨_, _, hmade.append hys, (told_nil _).append htold, hcourse _ hlife⟩
    · refine ⟨_, _, hmade, told_nil _, ?_⟩
      show Course (Journal ε) _ s.lifecycle.target? _
      rw [hs]
      exact .unused _ hlife

/-- A process is begun, and what follows goes on with it. -/
theorem entered_begin (executable : Option String) (is64 : Bool) {r : Handle → Request}
    (hr : ∀ t, (r t).starts = true) (failed : DebugError → SessionError)
    {finish : Handle → Action (Journal ε) α}
    (hfinish : ∀ (t : Handle) (s₁ : Session (Journal ε)), s₁.lifecycle.target? = some t →
      Ends (finish t) s₁ (Continues t .started s₁))
    {s : Session (Journal ε)} (hs : s.lifecycle.target? = none) :
    Ends (do
      let t ← createTarget executable is64
      startTarget t (r t) failed
      activate t
      finish t) s (Entered s) :=
  entered_createTarget executable is64 hs fun t _ h₁ =>
    continues_startTarget (hr t) failed h₁ fun _ h₂ => continues_activate h₂ (hfinish t)

/-- A command that is refused before it asks anything. -/
theorem entered_refused {s : Session (Journal ε)} (hs : s.lifecycle.target? = none)
    (e : SessionError) : Entered s (.error (.refused e) : Except Failure α) s := by
  refine ⟨[], [], .refl _, told_nil _, ?_⟩
  rw [hs]
  exact .refused e

/-! ### Commands that begin a process -/

/-- The process of a session is destroyed, which fails exactly if the engine breaks down then. -/
theorem released_deleteProcess {t : Handle} {s : Session (Journal ε)}
    (ht : s.lifecycle.target? = some t) : Ends deleteProcess s fun r s' =>
      (∀ f, r = .error f ↔ ∃ text, f = .crashed text ∧
        (DebugEngine.perform (.request t .destroy) s.engine).1 = .error (.crash text)) ∧
      s'.lifecycle.target? = none ∧
      Happens
        [.call (.request t .destroy) (DebugEngine.perform (.request t .destroy) s.engine).1] []
        s.channel s'.channel := by
  obtain ⟨a, hl, rfl⟩ := active_of_target? ht
  have hcall := happens_perform (.request a.target .destroy) s.channel
  rw [deleteProcess, ends_activeTarget_bind hl, ends_modify_bind, tryRequest, ends_bind,
    ends_perform]
  rcases hperform : DebugEngine.perform (.request a.target .destroy) s.engine with
    ⟨(e | text) | u, engine⟩
  all_goals
    rw [show DebugEngine.perform (.request a.target .destroy) s.channel.engine = _ from hperform]
      at hcall
  · refine ⟨fun f => ⟨by rintro ⟨⟩, ?_⟩, rfl, hcall⟩
    rintro ⟨text, -, ⟨⟩⟩
  · refine ⟨fun f => ⟨?_, ?_⟩, rfl, hcall⟩
    · rintro ⟨⟩
      exact ⟨text, rfl, rfl⟩
    · rintro ⟨text, rfl, ⟨⟩⟩
      rfl
  · refine ⟨fun f => ⟨by rintro ⟨⟩, ?_⟩, rfl, hcall⟩
    rintro ⟨text, -, ⟨⟩⟩

/-- The process of a session is destroyed, and the command is refused. -/
theorem continues_drop {t : Handle} (e : SessionError) (next : β → Action (Journal ε) α)
    {s : Session (Journal ε)} (hs : s.lifecycle.target? = some t) :
    Ends (deleteProcess >>= fun _ => refuse e >>= next) s (Continues t .started s) := by
  refine (released_deleteProcess hs).bind ?_ ?_
  · rintro response s' ⟨-, hl, hcall⟩
    exact (onward_entry hcall fun xs hxs => .discarded hxs (Or.inl rfl) _).discarded hl e
  · rintro f s' ⟨hfails, hl, hcall⟩
    obtain ⟨text, hf, hcrash⟩ := (hfails f).mp rfl
    exact (onward_entry hcall fun xs hxs => .discarded hxs (Or.inl rfl) _).broken
      ⟨text, hf, _, s.engine, hcrash⟩ (Or.inl hl)

omit [DebugEngine ε] in
theorem attending_tends {t : Handle} {m : Action (Journal ε) α} {s : Session (Journal ε)}
    (hm : Attends Tends t m) (hs : s.lifecycle.target? = some t) : Ends m s fun _ s' =>
      s'.lifecycle.target? = some t ∧ Tends t s.channel s'.channel :=
  (hm s).mono fun _ _ h => ⟨(h hs).target, (h hs).channel⟩

/-- The reply to a launch looks at the process. -/
theorem continues_reply {t : Handle} {s : Session (Journal ε)} (hs : s.lifecycle.target? = some t) :
    Ends (do
      let pid ← observe t .processId
      return Response.ok.withMember "pid" (match pid with
        | some p => Json.ofNat p
        | none => .null)) s (Continues t .started s) := by
  rw [ends_observe_bind, ends_pure]
  have hlook : Tends t s.channel _ := tends_look t .processId s.channel
  refine Onward.running (onward_tends hlook) ?_ _
  exact hs

/-- A launched process goes on, or it is destroyed because it could not be resumed. -/
theorem continues_resumeLaunched (stopAtEntry : Bool) (t : Handle) {s : Session (Journal ε)}
    (hs : s.lifecycle.target? = some t) :
    Ends (resumeLaunched stopAtEntry t) s (Continues t .started s) := by
  cases stopAtEntry with
  | true => exact continues_reply hs
  | false =>
    rw [resumeLaunched]
    refine ((attending_tends (attends_control t rfl) hs).and (onlyBreaks_control t .resume s)).bind
      ?_ ?_
    · rintro (e | u) s₁ ⟨⟨h₁, htends⟩, -⟩
      -- The session is active already, so it is the whole command `deleteProcess` that drops it.
      · refine (continues_drop _ _ h₁).mono fun _ _ h => (onward_tends htends).continues h
      · exact (continues_reply h₁).mono fun _ _ h => (onward_tends htends).continues h
    · rintro f s₁ ⟨⟨h₁, htends⟩, hbreaks⟩
      exact (onward_tends htends).broken (hbreaks f rfl) (Or.inr h₁)

theorem entered_launch {s : Session (Journal ε)} (hs : s.lifecycle.target? = none) :
    Ends launch s (Entered s) := by
  have hbegin : ∀ e : Executable, Ends (do
      let t ← createTarget (some e.path) e.is64
      startTarget t (.launch ⟨e.args, e.cwd, s.settings.launch.disableAslr, true⟩) .launchFailed
      activate t
      resumeLaunched s.settings.launch.stopAtEntry t) s (Entered s) := fun e =>
    entered_begin _ _ (r := fun _ => .launch ⟨e.args, e.cwd, s.settings.launch.disableAslr, true⟩)
      (fun _ => rfl) _ (fun t _ h => continues_resumeLaunched _ t h) hs
  rw [ends_launch, launchStopped, bind_assoc, ends_get_bind]
  rcases hl : s.lifecycle with _ | e | a
  · rcases hprepared : s.lastPrepared with _ | e
    · exact entered_refused hs _
    · simp only [pure_bind, bind_assoc]
      exact hbegin e
  · simp only [pure_bind, bind_assoc]
    exact hbegin e
  · rw [hl] at hs
    cases hs

theorem entered_attach (pid : Nat) (executable : Option String) (is64 : Bool)
    {s : Session (Journal ε)} (hs : s.lifecycle.target? = none) :
    Ends (attach pid executable is64) s (Entered s) := by
  rw [attach, ends_requireInactive_bind (not_isActive_iff.mpr hs)]
  refine entered_begin executable is64 (r := fun _ => .attach pid) (fun _ => rfl) _ ?_ hs
  intro t s₁ h₁
  refine ((attending_tends (attends_tryRequest t rfl) h₁).and (onlyBreaks_perform _ s₁)).bind ?_ ?_
  · rintro (e | main) s₂ ⟨⟨h₂, htends⟩, -⟩
    · exact (onward_tends htends).running h₂ _
    · cases main with
      | none => exact (onward_tends htends).running h₂ _
      | some main => exact (onward_tends htends).running h₂ _
  · rintro f s₂ ⟨⟨h₂, htends⟩, hbreaks⟩
    exact (onward_tends htends).broken (hbreaks f rfl) (Or.inr h₂)

theorem entered_connectRemote (is64 : Bool) (url plugin : String) (file : Option String)
    {s : Session (Journal ε)} (hs : s.lifecycle.target? = none) :
    Ends (connectRemote is64 url plugin file) s (Entered s) := by
  rw [connectRemote, ends_requireInactive_bind (not_isActive_iff.mpr hs), ends_get_bind]
  dsimp only
  split
  · refine entered_begin file is64 (r := fun _ => .connectRemote url plugin) (fun _ => rfl) _ ?_ hs
    intro t s₁ h₁
    have hstays : Tends t s₁.channel s₁.channel := StepRelation.refl _
    exact (onward_tends hstays).running h₁ _
  · exact entered_refused hs _

end Session

end DebugAdapter
