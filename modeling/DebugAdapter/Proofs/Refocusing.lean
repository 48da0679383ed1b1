import DebugAdapter.Proofs.Bearings

/-!
# Refocusing

The commands that change what the user looks at. A command that lets the process run or steps it
forgets the selection at its end, and a command that selects checks the process first; so each of
them fails before it changes anything (`Settles`). Only a search for user code, which makes several
steps, can fail after the first of them.
-/

namespace DebugAdapter.Session

open Debuggee
open Operation
open Wire (Notification Response)

variable {ε : Type} [DebugEngine ε] {E D : ε → ε → Prop} [RestRelation E]

/-! ### Running -/

theorem turns_resetFocus (s : Session ε) :
    Ends resetFocus s fun r s' => r = .ok ⟨⟩ ∧ Turns E .unfocused s s' :=
  turns_modifyActive (fun _ => rfl) s

/-- The selection is forgotten after nothing but the engine has changed. -/
theorem Still.unfocus {s t u : Session ε} (h : Still E s t) (h' : Turns E .unfocused t u) :
    Turns E .unfocused s u :=
  h.trans h' (StepRelation.trans h.engine h'.engine)

section Departing

variable [DepartRelation E D]

omit [RestRelation E] in
/-- A target departs after nothing but the engine has changed. -/
theorem Still.depart {s t u : Session ε} {g : Bearings → Bearings} (h : Still E s t)
    (h' : Turns D g t u) : Turns D g s u :=
  h.trans h' (DepartRelation.before h.engine h'.engine)

omit [RestRelation E] in
/-- What happens after a target has departed. -/
theorem Turns.rest {s t u : Session ε} {g : Bearings → Bearings} (h : Turns D id s t)
    (h' : Turns E g t u) : Turns D g s u :=
  h.trans h' (DepartRelation.after h.engine h'.engine)

theorem settles_resume (s : Session ε) :
    Settles E s (fun _ u => Turns D .unfocused s u) resume s := by
  refine idles_target.settles (StepRelation.refl s) fun a t ht => ?_
  refine (ends_control_departs (E := E) (D := D) a .resume t).bind ?_ fun f u hu =>
    ⟨StepRelation.trans ht hu.1, hu.2⟩
  intro answer u hu
  cases answer with
  | error e => exact ⟨StepRelation.trans ht hu, rfl⟩
  | ok _ =>
    rw [orRefuse, pure_bind]
    refine (turns_resetFocus (E := E) u).bind_eq fun v hv => ?_
    exact ht.depart (Turns.rest hu hv)

end Departing

theorem settles_forceStopAndReport (s : Session ε) :
    Settles E s (fun _ u => Turns E .unfocused s u) forceStopAndReport s := by
  refine idles_target.settles (StepRelation.refl s) fun t _ h => ?_
  refine (idles_control t rfl).settles h fun _ _ h => idles_get.settles h fun _ _ h => ?_
  refine (idles_poll _ (idles_hasCome t)).settles h fun _ _ h => ?_
  refine (idles_observe t .stopInfo).settles h fun _ _ h => ?_
  refine (idles_notify _).settles h fun _ _ h => idles_activeTarget.settles h fun _ u h => ?_
  exact (turns_resetFocus u).bind_eq fun v hv => h.unfocus hv

/-! ### Stepping -/

/-- An action that cannot fail and leaves the bearings. -/
def Proceeds (E : ε → ε → Prop) (m : Action ε α) : Prop :=
  ∀ s, Ends m s fun r s' => ∃ a, r = .ok a ∧ Still E s s'

theorem proceeds_observe (t : Handle) (q : Query) :
    Proceeds E (observe t q : Action ε q.Answer) := by
  intro s
  rw [observe, ends_get_bind]
  exact ⟨_, rfl, still_observe t q s⟩

omit [DebugEngine ε] [RestRelation E] in
theorem proceeds_notify [StepRelation E] (n : Notification) :
    Proceeds E (notify n : Action ε Unit) :=
  fun s => ⟨_, rfl, still_channel s (c := ⟨s.engine, _⟩) (StepRelation.refl s.engine)⟩

theorem proceeds_poll_hasCome (policy : RetryPolicy) (t : Handle) :
    Proceeds E (policy.poll (hasCome t)) := by
  refine poll_induction (fun outcome s => ⟨outcome, rfl, StepRelation.refl s⟩) ?_ policy
  intro f hf s
  rw [hasCome, bind_assoc]
  refine (proceeds_observe (E := E) t .state s).bind_ok fun state u hu => ?_
  refine (hf _ u).mono ?_
  rintro r v ⟨outcome, rfl, hv⟩
  exact ⟨outcome, rfl, StepRelation.trans hu hv⟩

/-- The end of an action on an active session that forgets the selection. -/
theorem ends_activeTarget_resetFocus {s t : Session ε} (ht : IsActive t) (h : Still E s t) (a : α) :
    Ends (activeTarget >>= fun _ => resetFocus >>= fun _ => pure a : Action ε α) t fun r u =>
      r = .ok a ∧ Turns E .unfocused s u := by
  obtain ⟨b, hb⟩ := ht
  rw [ends_activeTarget_bind hb]
  exact (turns_resetFocus t).bind_eq fun u hu => ⟨rfl, h.unfocus hu⟩

/-- A step that comes to a reply has departed, or was not made because the process did not halt. In
both cases it has forgotten the selection. -/
def Stepped (E D : ε → ε → Prop) (s : Session ε) (o : StepOutcome) (s' : Session ε) : Prop :=
  Turns D .unfocused s s' ∨ o.completed = false ∧ Turns E .unfocused s s'

variable [DepartRelation E D]

theorem settles_boundedStep (kind : StepKind) (s : Session ε) :
    Settles E s (Stepped E D s) (boundedStep kind) s := by
  by_cases hs : IsActive s
  · rw [boundedStep]
    refine idles_target.settles (StepRelation.refl s) fun t _ h => ?_
    refine (idles_observe t .state).settles h fun state _ h => ?_
    extract_lets steps
    have hsteps : ∀ v u, Still E s u → Settles E s (Stepped E D s) (steps v) u := by
      intro v u h
      refine (idles_ensureStopped t).settles h fun halted _ h => ?_
      refine idles_currentThread.settles h fun thread _ h => ?_
      refine (idles_observe t .stopInfo).settles h fun before u h => ?_
      extract_lets pcBefore report
      -- The step is over or was not made; what is left is the report, which cannot fail.
      have hreport : ∀ completed u, IsActive u → Ends (report completed) u fun r v =>
          ∃ o, r = .ok o ∧ o.completed = completed ∧ Turns E .unfocused u v := by
        intro completed u hu
        refine (proceeds_observe (E := E) t .stopInfo u).bind_ok fun now v h => ?_
        have hv := h.isActive hu
        split
        split
        · rename_i hcompleted
          refine (ends_activeTarget_resetFocus hv h _).mono ?_
          rintro r v ⟨rfl, hv⟩
          exact ⟨_, rfl, rfl, hv⟩
        · refine (proceeds_observe (E := E) t .stopInfo v).bind_ok fun again w h₂ => ?_
          have h := StepRelation.trans h h₂
          refine (proceeds_notify (E := E) _ w).bind_ok fun _ x h₃ => ?_
          have h := StepRelation.trans h h₃
          refine (ends_activeTarget_resetFocus (h.isActive hu) h _).mono ?_
          rintro r y ⟨rfl, hy⟩
          exact ⟨_, rfl, rfl, hy⟩
      split
      · refine (ends_control_departs (E := E) (D := D) t (.step thread kind) u).bind ?_
          fun f v hv => ⟨StepRelation.trans h hv.1, hv.2⟩
        intro answer v hv
        cases answer with
        | error e => exact ⟨StepRelation.trans h hv, rfl⟩
        | ok _ =>
          have hdeparted : Turns D id s v := h.depart hv
          rw [orRefuse, pure_bind, ends_get_bind]
          refine (proceeds_poll_hasCome (E := E) _ t v).bind_ok fun outcome w hw => ?_
          have hdeparted : Turns D id s w := hdeparted.rest hw
          rw [pure_bind]
          refine (hreport outcome.isReady w (Still.isActive hdeparted hs)).mono ?_
          rintro r x ⟨o, rfl, -, hx⟩
          exact .inl (hdeparted.rest hx)
      · rw [pure_bind]
        refine (hreport false u (h.isActive hs)).mono ?_
        rintro r v ⟨o, rfl, ho, hv⟩
        exact .inr ⟨ho, h.unfocus hv⟩
    split
    · exact ⟨h, rfl⟩
    · exact hsteps () _ h
  · rw [Settles, boundedStep, target, bind_assoc, ends_activeTarget_none (not_isActive_iff.mp hs)]
    exact ⟨StepRelation.refl s, rfl⟩

theorem settles_step (kind : StepKind) (s : Session ε) :
    Settles E s (fun _ u => Turns D .unfocused s u ∨ Turns E .unfocused s u) (step kind) s := by
  refine (settles_boundedStep (E := E) (D := D) kind s).bind ?_ fun f u h => h
  rintro o u (h | ⟨-, h⟩)
  · exact .inl h
  · exact .inr h

/-! ### Searching for user code -/

/-- What is left of a search for user code: it has made no hop yet and left the bearings, or it has
made one and forgotten the selection. It fails after a hop only if the hop departed. -/
def Searched (E D : ε → ε → Prop) (hops : Nat) (s : Session ε) :
    Except Failure Hops → Session ε → Prop
  | .ok h, s' => h.hops = hops ∧ Still E s s' ∨
      hops < h.hops ∧ (Turns D .unfocused s s' ∨ Turns E .unfocused s s')
  | .error f, s' => (Still E s s' ∨ Turns D .unfocused s s') ∧ f.isMalformed = false

omit [DebugEngine ε] [RestRelation E] [DepartRelation E D] in
/-- A second hop changes the selection no more. -/
theorem Turns.unfocus_again {C : ε → ε → Prop} {s t u : Session ε} (h : Turns D .unfocused s t)
    (h' : Turns C .unfocused t u) (hengine : D s.engine u.engine) : Turns D .unfocused s u := by
  have htwice := h.trans h' hengine
  rwa [Bearings.unfocused_comp] at htwice

omit [RestRelation E] in
/-- The search goes on after a hop that departed. -/
theorem Searched.after {hops : Nat} {s t u : Session ε} {r : Except Failure Hops}
    (hst : Turns D .unfocused s t) (h : Searched E D (hops + 1) t r u) :
    Searched E D hops s r u := by
  have hstill : Still E t u → Turns D .unfocused s u :=
    fun hu => hst.trans hu (DepartRelation.after hst.engine hu.engine)
  have hagain : Turns D .unfocused t u → Turns D .unfocused s u :=
    fun hu => hst.unfocus_again hu (DepartRelation.again (E := E) hst.engine hu.engine)
  cases r with
  | error f => exact ⟨.inr (h.1.elim hstill hagain), h.2⟩
  | ok o =>
    rcases h with ⟨ho, hu⟩ | ⟨ho, hu | hu⟩
    · exact .inr ⟨by omega, .inl (hstill hu)⟩
    · exact .inr ⟨Nat.lt_of_succ_lt ho, .inl (hagain hu)⟩
    · exact .inr ⟨Nat.lt_of_succ_lt ho,
        .inl (hst.unfocus_again hu (DepartRelation.after hst.engine hu.engine))⟩

theorem searched_hopWith (arrived : UInt64 → Bool) (left : Nat) : ∀ (h : Hops) (s : Session ε),
    Ends (hopWith arrived left h) s (Searched E D h.hops s) := by
  induction left with
  | zero => exact fun h s => .inl ⟨rfl, StepRelation.refl s⟩
  | succ left ih =>
    intro h s
    rw [hopWith]
    split
    · exact .inl ⟨rfl, StepRelation.refl s⟩
    · refine (settles_boundedStep (E := E) (D := D) .out s).bind ?_ fun f u hu => ⟨.inl hu.1, hu.2⟩
      intro o u hu
      dsimp only
      split
      · rename_i hcompleted
        rcases hu with hu | ⟨hmissed, -⟩
        · exact (ih ⟨o.thread, o.pc, h.hops + 1⟩ u).mono fun r v hv => .after hu hv
        · rw [hcompleted] at hmissed
          cases hmissed
      · exact .inr ⟨Nat.lt_succ_self _, hu.imp_right And.right⟩

/-- The reply to a search for user code. -/
def searchReply (main : Module) (h : Hops) : Response :=
  (((Response.ok.withMember "reached" (.bool (main.contains h.pc))).withMember "threadId"
    (Json.ofNat h.thread)).withMember "pc" (Json.ofWord h.pc)).withMember "hops"
    (Json.ofNat h.hops)

theorem searched_stepUntilUserCode (s : Session ε) : Ends stepUntilUserCode s fun r u =>
    match r with
    | .ok response => ∃ main h, response = searchReply main h ∧
        (h.hops = 0 ∧ Still E s u ∨
          0 < h.hops ∧ (Turns D .unfocused s u ∨ Turns E .unfocused s u))
    | .error f => (Still E s u ∨ Turns D .unfocused s u) ∧ f.isMalformed = false := by
  have herror : ∀ (f : Failure) (u : Session ε), Still E s u → f.isMalformed = false →
      (Still E s u ∨ Turns D .unfocused s u) ∧ f.isMalformed = false :=
    fun f u h hf => ⟨.inl h, hf⟩
  rw [stepUntilUserCode]
  refine idles_target.leads (StepRelation.refl s) (fun t _ h => ?_) herror
  refine (idles_request t rfl _).leads h (fun main u h => ?_) herror
  cases main with
  | none => exact ⟨.inl h, rfl⟩
  | some main =>
    refine (idles_pure main).leads h (fun main _ h => ?_) herror
    refine (idles_observe t .stopInfo).leads h (fun stop _ h => ?_) herror
    refine idles_currentThread.leads h (fun thread u h => ?_) herror
    rw [ends_get_bind]
    refine (searched_hopWith (E := E) (D := D) main.contains _ _ u).bind ?_ ?_
    · rintro o v (⟨ho, hv⟩ | ⟨ho, hv⟩)
      · exact ⟨main, o, rfl, .inl ⟨ho, StepRelation.trans h hv⟩⟩
      · exact ⟨main, o, rfl, .inr ⟨ho, hv.imp h.depart h.unfocus⟩⟩
    · rintro f v ⟨hv | hv, hf⟩
      · exact ⟨.inl (StepRelation.trans h hv), hf⟩
      · exact ⟨.inr (h.depart hv), hf⟩

/-! ### Selecting -/

/-- The target of an active session lists a thread. -/
def Lists (s : Session ε) (a : ActiveTarget) (tid : Nat) : Prop :=
  ∃ threads, (DebugEngine.perform (.request a.target .threads) s.engine).1 = .ok threads ∧
    ∃ th ∈ threads, th.tid = tid

/-- The call stack of the current thread of an active session is deeper than an index. -/
def Deeper (s : Session ε) (a : ActiveTarget) (index : Nat) : Prop :=
  ∃ tid t frames, currentThread.run.run s = (.ok tid, t) ∧
    (DebugEngine.perform (.request a.target (.callStack tid)) t.engine).1 = .ok frames ∧
    index < frames.length

omit [DebugEngine ε] [RestRelation E] [DepartRelation E D] in
theorem ends_target_bind {a : ActiveTarget} {s : Session ε} (hs : s.lifecycle = .active a)
    (f : Handle → Action ε α) (Q : Except Failure α → Session ε → Prop) :
    Ends (target >>= f) s Q ↔ Ends (f a.target) s Q := by
  rw [target, bind_assoc, ends_activeTarget_bind hs]
  exact Iff.rfl

omit [DebugEngine ε] [RestRelation E] [DepartRelation E D] in
theorem ends_target_none {s : Session ε} (hs : ¬IsActive s) (f : Handle → Action ε α)
    (Q : Except Failure α → Session ε → Prop) :
    Ends (target >>= f) s Q ↔ Q (.error (.refused .noProcess)) s := by
  rw [target, bind_assoc, ends_activeTarget_none (not_isActive_iff.mp hs)]

/-- Selects a thread and its innermost frame. -/
def selecting (tid : Nat) (a : ActiveTarget) : ActiveTarget :=
  { a with selectedThread := some tid, selectedFrame := 0 }

/-- Selects a frame. -/
def selectingFrame (index : Nat) (a : ActiveTarget) : ActiveTarget :=
  { a with selectedFrame := index }

theorem settles_selectThread (tid : Nat) (s : Session ε) :
    Settles E s (fun _ u => Turns E (.refocus (selecting tid)) s u ∧
      ∃ a, s.lifecycle = .active a ∧ Lists s a tid) (selectThread tid) s := by
  by_cases hs : IsActive s
  · obtain ⟨a, ha⟩ := hs
    have hcall := idles_request (E := E) a.target (r := .threads) rfl "threads" s
    rw [Settles, selectThread, ends_target_bind ha, ends_bind]
    rw [Settles, ends_request] at hcall
    rw [ends_request]
    rcases hperform : DebugEngine.perform (.request a.target .threads) s.engine with
      ⟨(e | text) | threads, engine⟩
    all_goals rw [hperform] at hcall
    · exact hcall
    · exact hcall
    · dsimp only
      split
      · rename_i hany
        refine (turns_modifyActive (E := E) (f := selecting tid) (fun _ => rfl) _).bind_eq ?_
        intro u hu
        refine ⟨Turns.trans hcall hu (StepRelation.trans hcall.engine hu.engine), a, ha, threads,
          congrArg Prod.fst hperform, ?_⟩
        simpa using hany
      · exact ⟨hcall, rfl⟩
  · rw [Settles, selectThread, ends_target_none hs]
    exact ⟨StepRelation.refl s, rfl⟩

theorem settles_selectFrame (index : Nat) (s : Session ε) :
    Settles E s (fun _ u => Turns E (.refocus (selectingFrame index)) s u ∧
      ∃ a, s.lifecycle = .active a ∧ Deeper s a index) (selectFrame index) s := by
  by_cases hs : IsActive s
  · obtain ⟨a, ha⟩ := hs
    have hself : Ends currentThread s fun r u => currentThread.run.run s = (r, u) := rfl
    rw [Settles, selectFrame]
    refine (hself.and (idles_currentThread (E := E) s)).bind ?_ fun f u hu => hu.2
    rintro tid t ⟨htid, h⟩
    obtain ⟨n, hn⟩ := h.active ha
    have hcall := (idles_request (E := E) a.target (r := .callStack tid) rfl "unwind").since h
    rw [ends_target_bind hn, ends_bind]
    rw [Settles, ends_request] at hcall
    rw [ends_request]
    dsimp only
    rcases hperform : DebugEngine.perform (.request a.target (.callStack tid)) t.engine with
      ⟨(e | text) | frames, engine⟩
    all_goals rw [hperform] at hcall
    · exact hcall
    · exact hcall
    · dsimp only
      split
      · rename_i hindex
        refine (turns_modifyActive (E := E) (f := selectingFrame index) (fun _ => rfl) _).bind_eq ?_
        intro u hu
        exact ⟨Turns.trans hcall hu (StepRelation.trans hcall.engine hu.engine), a, ha, tid, t,
          frames, htid, congrArg Prod.fst hperform, hindex⟩
      · exact ⟨hcall, rfl⟩
  · rw [Settles, selectFrame, currentThread, bind_assoc,
      ends_activeTarget_none (not_isActive_iff.mp hs)]
    exact ⟨StepRelation.refl s, rfl⟩

/-! ### Commands about what is staged and about breakpoints -/

/-- The commands that change what is staged, set or remove breakpoints, or let the process go. -/
def Command.restages : Command → Bool
  | .prepare _ | .detach | .setBreakpoint _ | .removeBreakpoint _ | .removeAllBreakpoints => true
  | _ => false

/-- What the user looks at stays, or there is no process any more. -/
def Restages (E : ε → ε → Prop) (s s' : Session ε) : Prop :=
  E s.engine s'.engine ∧
    (s'.lifecycle.unnotified = s.lifecycle.unnotified ∨ s'.lifecycle.target? = none)

omit [DebugEngine ε] [RestRelation E] [DepartRelation E D] in
/-- Breakpoints are not what the user looks at. -/
theorem Still.restages {s t : Session ε} (h : Still E s t) (b : Breakpoints) :
    Restages E s { t with breakpoints := b } :=
  ⟨h.engine, .inl h.lifecycle⟩

theorem settles_setBreakpoint (addr : UInt64) (s : Session ε) :
    Settles E s (fun _ u => Restages E s u) (setBreakpoint addr) s := by
  rcases hl : s.lifecycle with _ | e | a
  · rw [Settles, setBreakpoint, ends_breakpointTarget_uninitialized _ _ hl]
    exact ⟨StepRelation.refl s, rfl⟩
  · rw [Settles, ends_setBreakpoint_prepared hl]
    exact Still.restages (StepRelation.refl s) _
  · rw [Settles, ends_setBreakpoint_active hl]
    refine (idles_request (E := E) a.target rfl _ s).mono fun r t h => ?_
    cases r with
    | ok info => exact Still.restages h _
    | error f => exact h

theorem settles_removeBreakpoint (id : Nat) (s : Session ε) :
    Settles E s (fun _ u => Restages E s u) (removeBreakpoint id) s := by
  by_cases hl : s.lifecycle = .uninitialized
  · rw [Settles, removeBreakpoint, ends_breakpointTarget_uninitialized _ _ hl]
    exact ⟨StepRelation.refl s, rfl⟩
  · rcases hentry : s.breakpoints.get? id with _ | entry
    · rw [Settles, ends_removeBreakpoint_unknown hl hentry]
      exact ⟨StepRelation.refl s, rfl⟩
    · rcases prepared_or_active hl with hprepared | ⟨a, ha⟩
      · rw [Settles, ends_removeBreakpoint_pending (Or.inl hprepared) hentry]
        exact Still.restages (StepRelation.refl s) _
      · rcases hengine : entry.engineId with _ | engineId
        · rw [Settles, ends_removeBreakpoint_pending (Or.inr ⟨⟨a, ha⟩, hengine⟩) hentry]
          exact Still.restages (StepRelation.refl s) _
        · rw [Settles, ends_removeBreakpoint_installed ha hentry hengine]
          refine (idles_request (E := E) a.target rfl _ s).mono fun r t h => ?_
          cases r with
          | ok _ => exact Still.restages h _
          | error f => exact h

theorem settles_removeAllBreakpoints (s : Session ε) :
    Settles E s (fun _ u => Restages E s u) removeAllBreakpoints s := by
  rcases hl : s.lifecycle with _ | e | a
  · rw [Settles, removeAllBreakpoints, ends_breakpointTarget_uninitialized _ _ hl]
    exact ⟨StepRelation.refl s, rfl⟩
  · rw [Settles, ends_removeAllBreakpoints_prepared hl]
    exact Still.restages (StepRelation.refl s) _
  · rw [Settles, ends_removeAllBreakpoints_active hl]
    refine (idles_request (E := E) a.target rfl _ s).mono fun r t h => ?_
    cases r with
    | ok _ => exact Still.restages h _
    | error f => exact h

theorem settles_prepare (e : Executable) (s : Session ε) :
    Settles E s (fun _ u => Restages E s u) (prepare e) s := by
  by_cases hs : IsActive s
  · rw [Settles, prepare, ends_requireInactive_active hs]
    exact ⟨StepRelation.refl s, rfl⟩
  · rw [Settles, prepare, ends_requireInactive_bind hs, ends_modify_bind]
    exact ⟨StepRelation.refl s.engine, .inr rfl⟩

theorem settles_detach (s : Session ε) :
    Settles E s (fun _ u => Restages E s u) detach s := by
  refine idles_target.settles (StepRelation.refl s) fun t _ h => ?_
  refine (idles_control t rfl).settles h fun answer _ h => ?_
  refine (idles_orRefuse "detach" answer).settles h fun _ u h => ?_
  rw [Settles, ends_modify_bind]
  exact ⟨h.engine, .inr rfl⟩

theorem settles_restages {c : Command} (hc : c.restages = true) (s : Session ε) :
    Settles E s (fun _ u => Restages E s u) (execute c) s := by
  cases c with
  | prepare e => exact settles_prepare e s
  | detach => exact settles_detach s
  | setBreakpoint addr => exact settles_setBreakpoint addr s
  | removeBreakpoint id => exact settles_removeBreakpoint id s
  | removeAllBreakpoints => exact settles_removeAllBreakpoints s
  | _ => cases hc

omit [RestRelation E] in
/-- A process that is deleted is gone, also if the engine breaks down then; without one nothing
happens. -/
theorem ends_deleteProcess_cases [BeginRelation E] (s : Session ε) : Ends deleteProcess s fun r u =>
    ¬IsActive s ∧ r = .error (.refused .noProcess) ∧ u = s ∨
      IsActive s ∧ E s.engine u.engine ∧ u.lifecycle = .uninitialized ∧
        u.lastPrepared = s.lastPrepared ∧
        (r = .ok .ok ∧ u.breakpoints = s.breakpoints.clear ∨ ∃ t text, r = .error (.crashed text) ∧
          u.breakpoints = s.breakpoints ∧
          (DebugEngine.perform (.request t .destroy) s.engine).1 = .error (.crash text)) := by
  by_cases hs : IsActive s
  · obtain ⟨a, ha⟩ := hs
    have hdestroy := BeginRelation.destroy (E := E) a.target s.engine
    rw [deleteProcess, ends_activeTarget_bind ha, ends_modify_bind, tryRequest, ends_bind,
      ends_perform_iff]
    rcases hanswer : (DebugEngine.perform (.request a.target .destroy) s.engine).1 with
      (e | text) | u
    · exact .inr ⟨⟨a, ha⟩, hdestroy, rfl, rfl, .inl ⟨rfl, rfl⟩⟩
    · exact .inr ⟨⟨a, ha⟩, hdestroy, rfl, rfl, .inr ⟨a.target, text, rfl, rfl, hanswer⟩⟩
    · exact .inr ⟨⟨a, ha⟩, hdestroy, rfl, rfl, .inl ⟨rfl, rfl⟩⟩
  · rw [ends_deleteProcess_inactive hs]
    exact .inl ⟨hs, rfl, rfl⟩

/-! ### All commands -/

/-- What a command does to the bearings decides how it is treated: whole groups of commands leave
them, or change them in one way, and the others are treated one by one. -/
inductive Command.Manner : Command → Prop
  | idle {c : Command} (h : c.isIdle = true) : Manner c
  | restages {c : Command} (h : c.restages = true) : Manner c
  | begins {c : Command} (h : c.begins = true) : Manner c
  | deleteProcess : Manner .deleteProcess
  | resume : Manner .resume
  | forceStopAndReport : Manner .forceStopAndReport
  | step (kind : StepKind) : Manner (.step kind)
  | stepUntilUserCode : Manner .stepUntilUserCode
  | selectThread (tid : Nat) : Manner (.selectThread tid)
  | selectFrame (index : Nat) : Manner (.selectFrame index)
  | readMemory (addr : UInt64) (length : Nat) : Manner (.readMemory addr length)

theorem Command.manner (c : Command) : c.Manner := by
  cases c with
  | deleteProcess => exact .deleteProcess
  | resume => exact .resume
  | forceStopAndReport => exact .forceStopAndReport
  | step kind => exact .step kind
  | stepUntilUserCode => exact .stepUntilUserCode
  | selectThread tid => exact .selectThread tid
  | selectFrame index => exact .selectFrame index
  | readMemory addr length => exact .readMemory addr length
  | _ => first | exact .idle rfl | exact .restages rfl | exact .begins rfl

end DebugAdapter.Session
