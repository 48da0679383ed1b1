import DebugAdapter.Proofs.FailedCommands
import DebugAdapter.Proofs.SessionRuns
import DebugAdapter.Engine.Scripted

/-!
# Focus

A thread and a frame that are selected are looked at until the process is somewhere else.
`Refocused` says for each command what becomes of the selection, and `Chosen` that what is selected
was chosen by a command of the run, when the target had such a thread or frame, and that no target
has departed since.

A step forgets the selection also if it was not made because the process did not halt; so what is
forgotten is more than what a departure makes stale (`focus_lost`).
-/

namespace DebugAdapter.Session

open Debuggee
open Operation
open Wire (Response)

variable {ε : Type}

/-! ### Selections -/

/-- The thread and the frame that are selected, if there is a process. -/
def Lifecycle.selection? : Lifecycle → Option (Option Nat × Nat)
  | active a => some (a.selectedThread, a.selectedFrame)
  | _ => none

/-- No thread is selected, and no frame but the innermost. -/
def Unselected (s : Session ε) : Prop :=
  ∀ a, s.lifecycle = .active a → a.selectedThread = none ∧ a.selectedFrame = 0

theorem Lifecycle.selection?_unnotified (l : Lifecycle) :
    l.unnotified.selection? = l.selection? := by
  cases l <;> rfl

theorem unselected_of_not_isActive {s : Session ε} (hs : ¬IsActive s) : Unselected s :=
  fun a ha => absurd ⟨a, ha⟩ hs

theorem unselected_of_unnotified {s : Session ε} {l : Lifecycle}
    (h : s.lifecycle.unnotified = l.refocus ActiveTarget.resetFocus) : Unselected s := by
  intro a ha
  rw [ha] at h
  cases l with
  | active b =>
    injection h with h
    injection h with _ _ hthread hframe
    exact ⟨hthread, hframe⟩
  | _ => cases h

/-- An active session in the same state as another one but for the notifier. -/
theorem active_of_same {s t : Session ε} (h : t.lifecycle.unnotified = s.lifecycle.unnotified)
    {a : ActiveTarget} (ha : t.lifecycle = .active a) :
    ∃ n, s.lifecycle = .active { a with notifying := n } := by
  rw [ha] at h
  exact active_of_unnotified h.symm

/-- Where the state stays, nothing is selected anew. -/
theorem unselected_of_same {s t : Session ε} (h : t.lifecycle.unnotified = s.lifecycle.unnotified)
    (hs : Unselected s) : Unselected t := by
  intro a ha
  obtain ⟨n, hn⟩ := active_of_same h ha
  exact hs { a with notifying := n } hn

theorem Still.unselected {E : ε → ε → Prop} {s t : Session ε} (h : Still E s t)
    (hs : Unselected s) : Unselected t :=
  unselected_of_same h.lifecycle hs

/-! ### Commands that begin a process -/

/-- Nothing is selected anew. -/
def SelectsNothing (s s' : Session ε) : Prop := Unselected s → Unselected s'

instance : StepRelation (SelectsNothing (ε := ε)) where
  refl _ := id
  trans h h' := h' ∘ h

section Begins

variable [DebugEngine ε] {α : Type}

omit [DebugEngine ε] in
theorem Idles.selectsNothing {m : Action ε α} (h : Idles AnyEngine m) : Moves SelectsNothing m :=
  h.moves.mono fun _ _ => Still.unselected

theorem selectsNothing_perform (c : Call) : Moves SelectsNothing
    (perform c : Action ε (Except DebugError c.Answer)) :=
  (idles_perform_of fun _ => trivial).selectsNothing

theorem selectsNothing_control (t : Handle) (r : Request) :
    Moves SelectsNothing (control t r : Action ε (Except DebugError r.Answer)) := by
  intro s
  refine (ends_control_departs (E := AnyEngine) (D := AnyEngine) t r s).mono fun result s' h => ?_
  rcases result with f | (e | a)
  · exact h.1.unselected
  · exact Still.unselected (E := AnyEngine) h
  · cases hr : r.departs with
    | true =>
      rw [hr] at h
      exact Still.unselected (E := AnyEngine) h
    | false =>
      rw [hr] at h
      exact Still.unselected (E := AnyEngine) h

theorem selectsNothing_startTarget (t : Handle) (r : Request) {failed : DebugError → SessionError}
    (hfailed : ∀ e, (failed e).isMalformed = false) :
    Moves SelectsNothing (startTarget t r failed : Action ε Unit) := by
  refine (selectsNothing_perform _).bind fun answer => ?_
  cases answer with
  | error e => exact (selectsNothing_perform _).bind fun _ => .throw _
  | ok _ => exact (idles_watchStart (E := AnyEngine) t hfailed).selectsNothing

theorem selectsNothing_installPending (t : Handle) (entries : List BreakpointEntry) :
    Moves SelectsNothing (installPending t entries : Action ε Unit) := by
  induction entries with
  | nil => exact .pure _
  | cons e r ih =>
    refine (selectsNothing_perform _).bind fun answer => ?_
    cases answer with
    | ok info => exact (Moves.modify fun _ => id).bind fun _ => ih
    | error _ => exact ih

theorem selectsNothing_activate (t : Handle) :
    Moves SelectsNothing (activate t : Action ε Unit) := by
  refine Moves.get.bind fun s => (selectsNothing_installPending t _).bind fun _ => ?_
  refine Moves.modify fun s _ a ha => ?_
  cases ha
  exact ⟨rfl, rfl⟩

theorem selectsNothing_deleteProcess :
    Moves SelectsNothing (deleteProcess : Action ε Response) := by
  refine idles_activeTarget.selectsNothing.bind fun a => ?_
  refine (Moves.modify fun s _ b hb => nomatch hb).bind fun _ => ?_
  refine (selectsNothing_perform _).bind fun _ => ?_
  exact (Moves.modify fun _ => id).bind fun _ => .pure _

theorem selectsNothing_startHalted (executable : Option String) (is64 : Bool) (r : Request)
    (failed : DebugError → SessionError) (hfailed : ∀ e, (failed e).isMalformed = false) :
    Moves SelectsNothing (startHalted executable is64 r failed : Action ε Handle) :=
  (idles_createTarget (E := AnyEngine) executable is64).selectsNothing.bind fun t =>
    (selectsNothing_startTarget t r hfailed).bind fun _ =>
      (selectsNothing_activate t).bind fun _ => .pure t

theorem selectsNothing_beginHalted (c : Command) :
    Moves SelectsNothing (beginHalted c : Action ε Handle) := by
  have hinactive : Moves SelectsNothing (requireInactive : Action ε Unit) := by
    refine Moves.get.bind fun s => ?_
    split
    · exact .throw _
    · exact .pure _
  cases c with
  | launch =>
    intro s
    rw [beginHalted, launchStopped, ends_get_bind]
    have hstart := fun e : Executable => selectsNothing_startHalted (ε := ε) (some e.path) e.is64
      (.launch ⟨e.args, e.cwd, s.settings.launch.disableAslr, true⟩) .launchFailed (fun _ => rfl) s
    rcases s.lifecycle with _ | e | a
    · rcases s.lastPrepared with _ | e
      · exact StepRelation.refl (R := SelectsNothing) s
      · exact hstart e
    · exact hstart e
    · exact StepRelation.refl (R := SelectsNothing) s
  | attach pid executable is64 =>
    exact hinactive.bind fun _ => selectsNothing_startHalted _ _ _ _ fun _ => rfl
  | connectRemote is64 url plugin file =>
    refine hinactive.bind fun _ => Moves.get.bind fun s => ?_
    split
    · exact selectsNothing_startHalted _ _ _ _ fun _ => rfl
    · exact .throw _
  | _ => exact .throw _

theorem selectsNothing_goOn (stopAtEntry : Bool) (c : Command) (t : Handle) :
    Moves SelectsNothing (goOn stopAtEntry c t : Action ε Response) := by
  have hpid : Moves SelectsNothing (resumeLaunched true t : Action ε Response) :=
    (idles_observe (E := AnyEngine) t .processId).selectsNothing.bind fun _ => .pure _
  cases c with
  | launch =>
    cases stopAtEntry with
    | true => exact hpid
    | false =>
      refine (selectsNothing_control t .resume).bind fun answer => ?_
      cases answer with
      | ok _ => exact hpid
      | error e => exact selectsNothing_deleteProcess.bind fun _ => .throw _
  | attach pid executable is64 =>
    refine (selectsNothing_perform _).bind fun answer => ?_
    split
    · exact .pure _
    · exact .pure _
  | _ => exact .pure _

/-- A command that begins a process selects nothing. -/
theorem selectsNothing_begins {c : Command} (hc : c.begins = true) :
    Moves SelectsNothing (execute c : Action ε Response) := by
  intro s
  rw [ends_begins hc]
  exact (selectsNothing_beginHalted c s).bind_along fun t u _ =>
    selectsNothing_goOn s.settings.launch.stopAtEntry c t u

end Begins

/-! ### Commands and the selection -/

/-- The commands that set the selection whenever they succeed. -/
def Command.refocuses : Command → Bool
  | .selectThread _ | .selectFrame _ | .forceStopAndReport => true
  | _ => false

/-- The commands that forget the selection. -/
def Command.forgets : Command → Bool
  | .resume | .forceStopAndReport | .step _ | .stepUntilUserCode => true
  | _ => false

variable [DebugEngine ε]

/-- What becomes of the selection in a command that succeeds or fails. -/
inductive Refocused (c : Command) (s : Session (Journal ε)) (ok : Bool) :
    Session (Journal ε) → Prop
  | kept {s' : Session (Journal ε)} (hok : ok = true → c.refocuses = false)
      (hrests : Rests s.engine s'.engine)
      (h : s'.lifecycle.unnotified = s.lifecycle.unnotified) : Refocused c s ok s'
  /-- There is no process any more. -/
  | gone {s' : Session (Journal ε)} (hc : c.refocuses = false)
      (h : s'.lifecycle.target? = none) : Refocused c s ok s'
  /-- Nothing is selected any more, also if no target has departed. -/
  | forgotten {s' : Session (Journal ε)} (hc : c.forgets = true)
      (hcause : Departs s.engine s'.engine ∨ ok = true ∧ c ≠ .resume)
      (h : s'.lifecycle.unnotified = s.lifecycle.unnotified.refocus ActiveTarget.resetFocus) :
      Refocused c s ok s'
  | begun {s' : Session (Journal ε)} (hc : c.begins = true) (hs : ¬IsActive s)
      (h : Unselected s') : Refocused c s ok s'
  | thread {tid : Nat} {a : ActiveTarget} {s' : Session (Journal ε)} (hc : c = .selectThread tid)
      (hok : ok = true) (hs : s.lifecycle = .active a) (hlists : Lists s a tid)
      (hrests : Rests s.engine s'.engine)
      (h : s'.lifecycle.unnotified = s.lifecycle.unnotified.refocus (selecting tid)) :
      Refocused c s ok s'
  | frame {index : Nat} {a : ActiveTarget} {s' : Session (Journal ε)} (hc : c = .selectFrame index)
      (hok : ok = true) (hs : s.lifecycle = .active a) (hdeeper : Deeper s a index)
      (hrests : Rests s.engine s'.engine)
      (h : s'.lifecycle.unnotified = s.lifecycle.unnotified.refocus (selectingFrame index)) :
      Refocused c s ok s'

theorem Still.refocused {c : Command} {s s' : Session (Journal ε)} {ok : Bool}
    (h : Still Rests s s') (hok : ok = true → c.refocuses = false) :
    Refocused c s ok s' :=
  .kept hok h.engine h.lifecycle

/-- A command that leaves everything if it fails. -/
theorem refocused_of_settles {c : Command} {s : Session (Journal ε)}
    {good : Response → Session (Journal ε) → Prop} (h : Settles Rests s good (execute c) s)
    (hgood : ∀ response s', good response s' → Refocused c s true s') :
    Ends (execute c) s fun r s' => Refocused c s r.isOk s' := by
  refine h.mono fun r s' hr => ?_
  cases r with
  | ok response => exact hgood response s' hr
  | error f => exact hr.1.refocused nofun

theorem refocused_execute (c : Command) (s : Session (Journal ε)) :
    Ends (execute c) s fun r s' => Refocused c s r.isOk s' := by
  cases c.manner with
  | idle h =>
    have hc : c.refocuses = false := by cases c <;> first | rfl | cases h
    exact refocused_of_settles (idles_execute h s) fun _ s' hs' => hs'.refocused fun _ => hc
  | restages h =>
    have hc : c.refocuses = false := by cases c <;> first | rfl | cases h
    refine refocused_of_settles (settles_restages h s) ?_
    rintro _ s' ⟨hrests, hkept | hgone⟩
    · exact .kept (fun _ => hc) hrests hkept
    · exact .gone hc hgone
  | begins h =>
    by_cases hs : IsActive s
    · obtain ⟨a, ha⟩ := hs
      refine (refused_begin h ha).mono ?_
      rintro r s' ⟨⟨e, rfl⟩, rfl⟩
      exact (StepRelation.refl (R := Still Rests) s').refocused nofun
    · refine (selectsNothing_begins h s).mono fun r s' hs' => .begun h hs (hs' ?_)
      exact unselected_of_not_isActive hs
  | deleteProcess =>
    refine (ends_deleteProcess_cases (E := Rests) s).mono ?_
    rintro r s' (⟨-, rfl, rfl⟩ | ⟨-, -, hgone, -⟩)
    · exact (StepRelation.refl (R := Still Rests) s').refocused nofun
    · refine .gone rfl ?_
      rw [hgone]
      rfl
  | resume =>
    refine refocused_of_settles (settles_resume (D := Departs) s) fun _ s' h => ?_
    exact .forgotten rfl (.inl h.engine) h.lifecycle
  | forceStopAndReport =>
    refine refocused_of_settles (settles_forceStopAndReport s) fun _ s' h => ?_
    exact .forgotten rfl (.inr ⟨rfl, nofun⟩) h.lifecycle
  | step kind =>
    refine refocused_of_settles (settles_step (D := Departs) kind s) ?_
    rintro _ s' (h | h)
    · exact .forgotten rfl (.inl h.engine) h.lifecycle
    · exact .forgotten rfl (.inr ⟨rfl, nofun⟩) h.lifecycle
  | stepUntilUserCode =>
    refine (searched_stepUntilUserCode (E := Rests) (D := Departs) s).mono ?_
    rintro (f | response) s' h
    · rcases h with ⟨h | h, -⟩
      · exact h.refocused nofun
      · exact .forgotten rfl (.inl h.engine) h.lifecycle
    · obtain ⟨main, hops, -, ⟨-, h⟩ | ⟨-, h | h⟩⟩ := h
      · exact h.refocused fun _ => rfl
      · exact .forgotten rfl (.inl h.engine) h.lifecycle
      · exact .forgotten rfl (.inr ⟨rfl, nofun⟩) h.lifecycle
  | selectThread tid =>
    refine refocused_of_settles (settles_selectThread tid s) ?_
    rintro _ s' ⟨h, a, ha, hlists⟩
    exact .thread rfl rfl ha hlists h.engine h.lifecycle
  | selectFrame index =>
    refine refocused_of_settles (settles_selectFrame index s) ?_
    rintro _ s' ⟨h, a, ha, hdeeper⟩
    exact .frame rfl rfl ha hdeeper h.engine h.lifecycle
  | readMemory addr length =>
    refine (ends_readMemory (E := Rests) addr length s).mono fun r s' h => ?_
    exact h.1.refocused fun _ => rfl

/-- A reply is one of success exactly if the command succeeded. -/
theorem isOk_reply (c : Command) (s : Session ε) :
    (reply c s).1.isOk = ((execute c).run.run s).1.isOk := by
  rw [reply_eq]
  rcases hrun : ((execute c).run.run s).1 with f | response
  · exact isOk_replyTo_error f
  · exact isOk_of_shaped (yields_execute c s response hrun)

theorem refocused_reply (c : Command) (s : Session (Journal ε)) :
    Refocused c s (reply c s).1.isOk (reply c s).2 := by
  rw [isOk_reply, reply_eq]
  exact refocused_execute c s

section Refocused

variable {c : Command} {s s' : Session (Journal ε)} {ok : Bool}

omit [DebugEngine ε] in
theorem not_departs {j j' : Journal ε} (h : Rests j j') : ¬Departs j j' := by
  rintro ⟨ys, hys, y, hy, hdeparts⟩
  obtain ⟨xs, hxs, hrests⟩ := h
  rw [List.append_cancel_left (hys.symm.trans hxs)] at hy
  rw [hrests y hy] at hdeparts
  cases hdeparts

omit [DebugEngine ε] in
/-- A departure is among the new entries. -/
theorem any_departs {j j' : Journal ε} (h : Departs j j') :
    (j'.entries.drop j.entries.length).any Entry.departs = true := by
  obtain ⟨xs, hxs, x, hx, hdeparts⟩ := h
  rw [hxs, List.drop_left]
  exact List.any_eq_true.mpr ⟨x, hx, hdeparts⟩

/-- A departure, a report of a forced stop and the begin of a process leave nothing selected. -/
theorem Refocused.unselected (h : Refocused c s ok s')
    (hcause : Departs s.engine s'.engine ∨ ok = true ∧ c = .forceStopAndReport ∨
      ¬IsActive s ∧ c.begins = true) : Unselected s' := by
  cases h with
  | kept hok hrests h =>
    rcases hcause with hdeparts | ⟨rfl, rfl⟩ | ⟨hs, -⟩
    · exact absurd hdeparts (not_departs hrests)
    · cases hok rfl
    · exact unselected_of_same h (unselected_of_not_isActive hs)
  | gone _ h => exact unselected_of_not_isActive (not_isActive_iff.mpr h)
  | forgotten _ _ h => exact unselected_of_unnotified h
  | begun _ _ h => exact h
  | thread hc _ hs _ hrests _ =>
    subst hc
    rcases hcause with hdeparts | ⟨-, hc⟩ | ⟨-, hc⟩
    · exact absurd hdeparts (not_departs hrests)
    · cases hc
    · cases hc
  | frame hc _ hs _ hrests _ =>
    subst hc
    rcases hcause with hdeparts | ⟨-, hc⟩ | ⟨-, hc⟩
    · exact absurd hdeparts (not_departs hrests)
    · cases hc
    · cases hc

/-- The causes for which the selection changes. -/
theorem Refocused.cause (h : Refocused c s ok s')
    (hchange : s'.lifecycle.selection? ≠ s.lifecycle.selection?) :
    Departs s.engine s'.engine ∨ s'.lifecycle.target? = none ∨ ¬IsActive s ∧ c.begins = true ∨
      ok = true ∧ (c.forgets = true ∧ c ≠ .resume ∧ Unselected s' ∨
        (∃ tid, c = .selectThread tid) ∨ ∃ index, c = .selectFrame index) := by
  cases h with
  | kept hok hrests h =>
    refine absurd ?_ hchange
    rw [← s'.lifecycle.selection?_unnotified, h, s.lifecycle.selection?_unnotified]
  | gone _ h => exact .inr (.inl h)
  | forgotten hc hcause h =>
    rcases hcause with hdeparts | ⟨hok, hresume⟩
    · exact .inl hdeparts
    · exact .inr (.inr (.inr ⟨hok, .inl ⟨hc, hresume, unselected_of_unnotified h⟩⟩))
  | begun hc hs h => exact .inr (.inr (.inl ⟨hs, hc⟩))
  | thread hc hok _ _ _ _ => exact .inr (.inr (.inr ⟨hok, .inr (.inl ⟨_, hc⟩)⟩))
  | frame hc hok _ _ _ _ => exact .inr (.inr (.inr ⟨hok, .inr (.inr ⟨_, hc⟩)⟩))

/-- A thread that is selected comes with its innermost frame. -/
theorem Refocused.innermost {tid : Nat} (h : Refocused (.selectThread tid) s true s') :
    s'.lifecycle.selection? = some (some tid, 0) := by
  cases h with
  | kept hok _ _ => cases hok rfl
  | gone hc _ => cases hc
  | forgotten hc _ _ => cases hc
  | begun hc _ _ => cases hc
  | thread hc _ hs _ _ h =>
    cases hc
    rw [← Lifecycle.selection?_unnotified, h, hs]
    rfl
  | frame hc _ _ _ _ _ => cases hc

end Refocused

/-! ### Runs -/

/-- What a command has chosen lasts: the command succeeded, and since then no target has departed
and no thread was selected. -/
structure Lasts (c : Command) (s₁ : Session (Journal ε)) (after : Log) (s : Session (Journal ε)) :
    Prop where
  ok : (reply c s₁).1.isOk = true
  run : Run (reply c s₁).2 after s
  rests : Rests (reply c s₁).2.engine s.engine
  threads : ∀ x ∈ after, x.2.isOk = true → ∀ tid, x.1 ≠ .selectThread tid

/-- What is selected was chosen by a command of the run, from what the target had then. -/
def Chosen (s₀ : Session (Journal ε)) (log : Log) (s : Session (Journal ε)) (target : Handle)
    (c : Command) (good : Session (Journal ε) → ActiveTarget → Prop) : Prop :=
  ∃ before s₁ a₁ after, log = before ++ (c, (reply c s₁).1) :: after ∧ Run s₀ before s₁ ∧
    s₁.lifecycle = .active a₁ ∧ a₁.target = target ∧ good s₁ a₁ ∧ Lasts c s₁ after s

section Chosen

variable {s₀ s s' : Session (Journal ε)} {log : Log} {target : Handle} {c : Command}
  {good : Session (Journal ε) → ActiveTarget → Prop}

theorem chosen_now {a : ActiveTarget} (hrun : Run s₀ log s) (hs : s.lifecycle = .active a)
    (hgood : good s a) (hok : (reply c s).1.isOk = true) :
    Chosen s₀ (log ++ [(c, (reply c s).1)]) (reply c s).2 a.target c good :=
  ⟨log, s, a, [], rfl, hrun, hs, rfl, hgood, hok, .start, StepRelation.refl (R := Rests) _,
    List.forall_mem_nil _⟩

theorem Chosen.command (h : Chosen s₀ log s target c good) (c' : Command)
    (hrests : Rests s.engine (reply c' s).2.engine)
    (hthread : (reply c' s).1.isOk = true → ∀ tid, c' ≠ .selectThread tid) :
    Chosen s₀ (log ++ [(c', (reply c' s).1)]) (reply c' s).2 target c good := by
  obtain ⟨before, s₁, a₁, after, hlog, hbefore, ha₁, htarget, hgood, hlasts⟩ := h
  refine ⟨before, s₁, a₁, after ++ [(c', (reply c' s).1)], ?_, hbefore, ha₁, htarget, hgood,
    hlasts.ok, .command c' hlasts.run, StepRelation.trans hlasts.rests hrests, ?_⟩
  · rw [hlog, List.append_assoc, List.cons_append]
  · intro x hx
    rcases List.mem_append.mp hx with hx | hx
    · exact hlasts.threads x hx
    · cases List.mem_singleton.mp hx
      exact hthread

theorem Chosen.events (h : Chosen s₀ log s target c good) :
    Chosen s₀ log (deliverEvents s) target c good := by
  obtain ⟨before, s₁, a₁, after, hlog, hbefore, ha₁, htarget, hgood, hlasts⟩ := h
  refine ⟨before, s₁, a₁, after, hlog, hbefore, ha₁, htarget, hgood, hlasts.ok,
    .events hlasts.run, StepRelation.trans hlasts.rests ?_, hlasts.threads⟩
  exact (still_deliverEvents (E := Rests) s).engine

end Chosen

/-- What is selected was chosen in the run. -/
structure Explained (s₀ : Session (Journal ε)) (log : Log) (s : Session (Journal ε))
    (a : ActiveTarget) : Prop where
  thread : ∀ tid, a.selectedThread = some tid →
    Chosen s₀ log s a.target (.selectThread tid) fun s₁ a₁ => Lists s₁ a₁ tid
  frame : a.selectedFrame ≠ 0 → Chosen s₀ log s a.target (.selectFrame a.selectedFrame)
    fun s₁ a₁ => Deeper s₁ a₁ a.selectedFrame

section Explained

variable {s₀ s : Session (Journal ε)} {log : Log} {a : ActiveTarget}

theorem explained_of_unselected (hs : Unselected s) (ha : s.lifecycle = .active a) :
    Explained s₀ log s a := by
  obtain ⟨hthread, hframe⟩ := hs a ha
  exact ⟨fun tid htid => (nomatch hthread.symm.trans htid), fun hne => absurd hframe hne⟩

/-- A command that leaves the selection leaves where it comes from. -/
theorem Explained.command (h : Explained s₀ log s a) (c : Command)
    (hrests : Rests s.engine (reply c s).2.engine)
    (hc : (reply c s).1.isOk = true → c.refocuses = false) :
    Explained s₀ (log ++ [(c, (reply c s).1)]) (reply c s).2 a := by
  have hthread : (reply c s).1.isOk = true → ∀ tid, c ≠ .selectThread tid := by
    rintro hok tid rfl
    cases hc hok
  exact ⟨fun tid htid => (h.thread tid htid).command c hrests hthread,
    fun hne => (h.frame hne).command c hrests hthread⟩

theorem explained_of_run (hs₀ : Unselected s₀) (h : Run s₀ log s) :
    ∀ a, s.lifecycle = .active a → Explained s₀ log s a := by
  induction h with
  | start => exact fun a ha => explained_of_unselected hs₀ ha
  | events _ ih =>
    intro a ha
    obtain ⟨n, hn⟩ := active_of_same (still_deliverEvents (E := Rests) _).lifecycle ha
    have h := ih _ hn
    exact ⟨fun tid htid => (h.thread tid htid).events, fun hne => (h.frame hne).events⟩
  | @command log s c hrun ih =>
    intro a ha
    cases refocused_reply c s with
    | kept hok hrests h =>
      obtain ⟨n, hn⟩ := active_of_same h ha
      have h := (ih _ hn).command c hrests hok
      exact ⟨h.thread, h.frame⟩
    | gone _ h => exact absurd ⟨a, ha⟩ (not_isActive_iff.mpr h)
    | forgotten _ _ h => exact explained_of_unselected (unselected_of_unnotified h) ha
    | begun _ _ h => exact explained_of_unselected h ha
    | @thread tid a₁ _ hc hok hs hlists _ h =>
      subst hc
      rw [ha, hs] at h
      obtain ⟨target, n, thread, frame⟩ := a
      cases h
      refine ⟨?_, fun hne => absurd rfl hne⟩
      rintro _ ⟨⟩
      exact chosen_now (a := a₁) hrun hs hlists hok
    | @frame index a₁ _ hc hok hs hdeeper hrests h =>
      subst hc
      rw [ha, hs] at h
      obtain ⟨target, n, thread, frame⟩ := a
      cases h
      refine ⟨fun tid htid => ?_, fun _ => chosen_now (a := a₁) hrun hs hdeeper hok⟩
      exact ((ih a₁ hs).thread tid htid).command _ hrests fun _ _ => nofun

end Explained

/-- **Focus is never stale across execution.** In every run of a session, whatever its targets
answer: a command in which a target has departed, a forced stop that is reported and the begin of a
process leave nothing selected. Apart from these, and from the end of the process, the selection
changes only in a command that succeeds and selects a thread or a frame, or in a step or a search
for user code that succeeds, which forget it; events do not change it. A thread is selected with its
innermost frame. The target listed the selected thread when it was chosen, the call stack of the
thread that was current then was deeper than the selected frame, and since then no target has
departed and no thread was selected. The console lets no process run behind the back of the session.
-/
theorem focus_of_run {engine : ε} {settings : Settings} {outbox : Wire.Outbox} {log : Log}
    {s : Session (Journal ε)}
    (h : Run (Session.start (Journal.blank engine) settings outbox) log s) :
    (∀ c, Departs s.engine (reply c s).2.engine ∨
        (reply c s).1.isOk = true ∧ c = .forceStopAndReport ∨ ¬IsActive s ∧ c.begins = true →
      Unselected (reply c s).2) ∧
    (∀ c, (reply c s).2.lifecycle.selection? ≠ s.lifecycle.selection? →
      Departs s.engine (reply c s).2.engine ∨ (reply c s).2.lifecycle.target? = none ∨
        ¬IsActive s ∧ c.begins = true ∨
        (reply c s).1.isOk = true ∧ (c.forgets = true ∧ c ≠ .resume ∧ Unselected (reply c s).2 ∨
          (∃ tid, c = .selectThread tid) ∨ ∃ index, c = .selectFrame index)) ∧
    (deliverEvents s).lifecycle.selection? = s.lifecycle.selection? ∧
    (∀ tid, (reply (.selectThread tid) s).1.isOk = true →
      (reply (.selectThread tid) s).2.lifecycle.selection? = some (some tid, 0)) ∧
    (∀ a, s.lifecycle = .active a →
      Explained (Session.start (Journal.blank engine) settings outbox) log s a) ∧
    ∀ focus line, (Console.execute focus line).Asks fun r => r.departs = false := by
  refine ⟨fun c => (refocused_reply c s).unselected, fun c => (refocused_reply c s).cause, ?_,
    fun tid hok => ?_, explained_of_run ?_ h, Console.asks_execute_resting⟩
  · rw [← Lifecycle.selection?_unnotified, (still_deliverEvents (E := Rests) s).lifecycle,
      Lifecycle.selection?_unnotified]
  · have hthread := refocused_reply (.selectThread tid) s
    rw [hok] at hthread
    exact hthread.innermost
  · exact unselected_of_not_isActive (not_isActive_iff.mpr rfl)

/-! ### A process that does not halt -/

/-- A session before its first command, over targets whose process has two threads and two frames
and runs once it was launched, however it is interrupted. -/
def restless (interrupt : Engine.Scripted.Ending) : Session (Journal Engine.Scripted.Engine) :=
  let script : Engine.Scripted.Script :=
    { failure := none
      hasEvents := true
      update := { Engine.Scripted.Update.none with states := some [.stopped, .running] }
      events := []
      methods :=
        [("interrupt", [⟨.none, [], interrupt⟩]),
          ("threads", [⟨.none, [], .value (some (.threads [⟨1, .none⟩, ⟨7, .none⟩]))⟩]),
          ("call_stack", [⟨.none, [], .value (some (.frames
            [⟨0x1000, none, none, none⟩, ⟨0x2000, none, none, none⟩]))⟩])] }
  .start (.blank ⟨⟨false, false, false⟩, [script], []⟩)
    { Settings.standard with interrupt := ⟨0, 1⟩, step := ⟨⟨0, 1⟩, 1⟩ }
    ⟨.binary, .unlimited, none⟩

/-- The process is launched, and a thread and a frame of it are selected. -/
def focusing : List Command :=
  [.prepare ⟨"/app", true, none, []⟩, .launch, .selectThread 7, .selectFrame 1]

theorem focus_of_restless :
    let s₀ := restless (.value none)
    let r := replies [] s₀ focusing
    Run s₀ r.1 r.2 ∧ r.2.lifecycle = .active ⟨0, true, some 7, 1⟩ ∧
      Explained s₀ r.1 r.2 ⟨0, true, some 7, 1⟩ := by
  intro s₀ r
  have hrun : Run s₀ r.1 r.2 := run_replies focusing .start
  have hactive : r.2.lifecycle = .active ⟨0, true, some 7, 1⟩ := by decide +kernel
  obtain ⟨-, -, -, -, hexplained, -⟩ := focus_of_run hrun
  exact ⟨hrun, hactive, hexplained _ hactive⟩

/-- A step that is not made because the process does not halt forgets the selection all the same;
and a forced stop keeps it if the engine breaks down over the interrupt. -/
theorem focus_lost :
    let s := (replies [] (restless (.value none)) focusing).2
    let broken := (replies [] (restless (.crash none)) focusing).2
    (s.lifecycle.selection? = some (some 7, 1) ∧ (reply (.step .over) s).1.isOk = true ∧
      ¬Departs s.engine (reply (.step .over) s).2.engine ∧
      (reply (.step .over) s).2.lifecycle.selection? = some (none, 0)) ∧
    (reply .forceStopAndReport broken).2.lifecycle.selection? = some (some 7, 1) := by
  refine ⟨⟨by decide +kernel, by decide +kernel, fun h => ?_, by decide +kernel⟩, by decide +kernel⟩
  exact absurd (any_departs h) (by decide +kernel)

end DebugAdapter.Session
