import DebugAdapter.Proofs.SessionLifecycle

/-!
# Outcomes of commands

`Outcome T c s response s'` lists what a command with its reply can do to a session: nothing that
matters, or one of the changes of lifecycle and breakpoints. It is proved once for each command;
whatever a command keeps is read off it by cases.
-/

namespace DebugAdapter.Session

open Debuggee
open Operation
open Wire (Response)

variable {ε : Type} [DebugEngine ε]

/-! ### Replies -/

/-- The reply that an outcome gives. -/
def replyTo : Except Failure Response → Response
  | .ok response => response
  | .error (.refused e) => .error e.message
  | .error (.crashed text) => .error (SessionError.internal (text.getD silentCrash)).message

theorem isOk_replyTo_error (e : Failure) : (replyTo (.error e)).isOk = false := by
  cases e with
  | refused e => rfl
  | crashed text => rfl

theorem reply_eq (c : Command) (s : Session ε) :
    reply c s = (replyTo ((execute c).run.run s).1, ((execute c).run.run s).2) := by
  rcases hrun : (execute c).run.run s with ⟨(e | text) | response, s'⟩
  all_goals
    have hreply : (execute c).run s = _ := hrun
    rw [reply, hreply]
    rfl

/-- A specification of a command is one of its reply. -/
theorem reply_of_ends {c : Command} {s : Session ε} {Q : Response → Session ε → Prop}
    (h : Ends (execute c) s fun r s' => Q (replyTo r) s') : Q (reply c s).1 (reply c s).2 := by
  rw [reply_eq]
  exact h

/-! ### Outcomes -/

/-- The command starts a process or takes charge of one. -/
def Command.begins : Command → Bool
  | .launch | .attach .. | .connectRemote .. => true
  | _ => false

/-- The command lets go of the process. -/
def Command.releases : Command → Bool
  | .detach | .deleteProcess => true
  | _ => false

/-- A command that succeeds or fails in this way leaves a session in its state. -/
def Stays (s : Session ε) (ok : Bool) : Command → Prop
  | .prepare _ => ok = false ∧ IsActive s
  | .launch => ok = false ∧ ¬ResumeFails s
  | .attach .. | .connectRemote .. | .detach => ok = false
  | .deleteProcess => ok = false ∧ ¬IsActive s
  | .setBreakpoint _ | .removeBreakpoint _ | .removeAllBreakpoints => ok = false
  | _ => True

/-- The breakpoint id that a reply to a command hands out. -/
def issued : Command → Response → Option Json
  | .setBreakpoint _, .status true _ extra _ => Json.lookup "bkpt_id" extra
  | _, _ => none

/-- The session after a request to its target, which changes the engine, and a change of its
breakpoints. -/
def afterRequest (s : Session ε) (t : Handle) (r : Request) (b : Breakpoints) : Session ε :=
  { s with engine := (DebugEngine.perform (.request t r) s.engine).2, breakpoints := b }

/-- What a command with a reply can do to a session. -/
inductive Outcome (T : EngineTheory ε) (s : Session ε) : Command → Response → Session ε → Prop
  | quiet {c : Command} {response : Response} {s' : Session ε} :
      Stays s response.isOk c → issued c response = none → Quiet T.kept s s' →
      Outcome T s c response s'
  | prepared (e : Executable) : ¬IsActive s →
      Outcome T s (.prepare e) .ok { s with lastPrepared := some e, lifecycle := .prepared e }
  | began {c : Command} {response : Response} {s' : Session ε} :
      c.begins = true → response.isOk = true → ¬IsActive s → (c = .launch → ¬ResumeFails s) →
      Activated T s s' → Outcome T s c response s'
  | failed {c : Command} {response : Response} {s' : Session ε} :
      c.begins = true → Stays s response.isOk c → ¬IsActive s → Quiet T.any s s' →
      Outcome T s c response s'
  | resumeFailed {response : Response} {s₁ s' : Session ε} :
      response.isOk = false → ¬IsActive s → ResumeFails s → Activated T s s₁ → Released T.any s₁ s' →
      Outcome T s .launch response s'
  | released {c : Command} {response : Response} {s' : Session ε} :
      c.releases = true → response.isOk = true → IsActive s → Released T.any s s' →
      Outcome T s c response s'
  | pending {e : Executable} (addr : UInt64) : s.lifecycle = .prepared e →
      Outcome T s (.setBreakpoint addr) (pendingReply (s.breakpoints.lastId + 1))
        { s with breakpoints := (s.breakpoints.add addr none).2 }
  | installed {a : ActiveTarget} {info : BreakpointInfo} (addr : UInt64) :
      s.lifecycle = .active a →
      (DebugEngine.perform (.request a.target (.setBreakpoint addr)) s.engine).1 = .ok info →
      Outcome T s (.setBreakpoint addr) (installedReply (s.breakpoints.lastId + 1) info)
        (afterRequest s a.target (.setBreakpoint addr) (s.breakpoints.add addr (some info.id)).2)
  | forgotten {id : Nat} {entry : BreakpointEntry} : s.breakpoints.get? id = some entry →
      (∃ e, s.lifecycle = .prepared e) ∨ (∃ a, s.lifecycle = .active a) ∧ entry.engineId = none →
      Outcome T s (.removeBreakpoint id) .ok { s with breakpoints := s.breakpoints.erase id }
  | removed {a : ActiveTarget} {id engineId : Nat} {entry : BreakpointEntry} :
      s.lifecycle = .active a → s.breakpoints.get? id = some entry →
      entry.engineId = some engineId →
      (DebugEngine.perform (.request a.target (.removeBreakpoint engineId)) s.engine).1 = .ok () →
      Outcome T s (.removeBreakpoint id) .ok
        (afterRequest s a.target (.removeBreakpoint engineId) (s.breakpoints.erase id))
  | allForgotten {e : Executable} : s.lifecycle = .prepared e →
      Outcome T s .removeAllBreakpoints .ok { s with breakpoints := s.breakpoints.clear }
  | allRemoved {a : ActiveTarget} : s.lifecycle = .active a →
      (DebugEngine.perform (.request a.target .removeAllBreakpoints) s.engine).1 = .ok () →
      Outcome T s .removeAllBreakpoints .ok
        (afterRequest s a.target .removeAllBreakpoints s.breakpoints.clear)

/-- A failure that changes nothing but the engine. -/
theorem Outcome.of_error {T : EngineTheory ε} {s s' : Session ε} {c : Command} (f : Failure)
    (hstays : Stays s false c) (h : Quiet T.kept s s') : Outcome T s c (replyTo (.error f)) s' := by
  refine .quiet ?_ ?_ h
  · rwa [isOk_replyTo_error]
  · cases f <;> cases c <;> rfl

theorem not_isActive_of_resumeFails [DebugEngine.Returns ε] {s : Session ε} (h : ResumeFails s) :
    ¬IsActive s := by
  obtain ⟨-, t, e, ht, -⟩ := h
  have hlaunch := ends_launchStopped .trivial s
  rw [Ends, ht] at hlaunch
  obtain ⟨t, s₁, s₂, -, -, -, hinactive⟩ := hlaunch
  exact hinactive

/-- A command that starts or takes charge of a process, and has no process to release if that
fails. -/
theorem Begins.outcome {T : EngineTheory ε} {s s' : Session ε} {c : Command} {r : Except Failure Response}
    (hc : c.begins = true) (hlaunch : c ≠ .launch) (hstays : Stays s false c) (hs : ¬IsActive s)
    (h : Begins T (Replies T s) s r s') :
    Outcome T s c (replyTo r) s' := by
  cases r with
  | ok response =>
    obtain ⟨t, s₁, s₂, hbegun, hok, -, hafter⟩ := h
    exact .began hc hok hs (fun hc' => absurd hc' hlaunch) ⟨t, s₁, s₂, hbegun, hafter⟩
  | error f =>
    refine .failed hc ?_ hs h
    rwa [isOk_replyTo_error]

section Commands

variable (T : EngineTheory ε)

/-- A request that succeeds changes the engine only; one that fails is quiet. -/
theorem request_spec (t : Handle) {r : Request} (hr : r.starts = false) (operation : String)
    (s : Session ε) : Ends (request t r operation) s fun result s' =>
      match result with
      | .ok a => (DebugEngine.perform (.request t r) s.engine).1 = .ok a ∧
          s' = { s with engine := (DebugEngine.perform (.request t r) s.engine).2 }
      | .error _ => Quiet T.kept s s' := by
  have hcall := EngineRelation.perform (E := T.kept) (.request t r) s.engine hr
  rw [ends_request]
  rcases hperform : DebugEngine.perform (.request t r) s.engine with ⟨(e | text) | a, engine⟩
  · rw [hperform] at hcall
    exact quiet_engine s hcall
  · rw [hperform] at hcall
    exact quiet_engine s hcall
  · exact ⟨rfl, rfl⟩

theorem outcome_prepare (e : Executable) (s : Session ε) :
    Ends (prepare e) s fun r s' => Outcome T s (.prepare e) (replyTo r) s' := by
  by_cases hs : IsActive s
  · rw [prepare, ends_requireInactive_active hs]
    exact .of_error _ ⟨rfl, hs⟩ (StepRelation.refl s)
  · rw [prepare, ends_requireInactive_bind hs, ends_modify_bind]
    exact .prepared e hs

theorem outcome_setBreakpoint (addr : UInt64) (s : Session ε) :
    Ends (setBreakpoint addr) s fun r s' => Outcome T s (.setBreakpoint addr) (replyTo r) s' := by
  rcases hl : s.lifecycle with _ | e | a
  · rw [setBreakpoint, ends_breakpointTarget_uninitialized _ _ hl]
    exact .of_error _ rfl (StepRelation.refl s)
  · rw [ends_setBreakpoint_prepared hl]
    exact .pending addr hl
  · rw [ends_setBreakpoint_active hl]
    refine (request_spec T a.target rfl _ s).mono ?_
    rintro (f | info) s' h
    · exact .of_error f rfl h
    · obtain ⟨hinfo, rfl⟩ := h
      exact .installed addr hl hinfo

theorem outcome_removeBreakpoint (id : Nat) (s : Session ε) :
    Ends (removeBreakpoint id) s fun r s' =>
      Outcome T s (.removeBreakpoint id) (replyTo r) s' := by
  by_cases hl : s.lifecycle = .uninitialized
  · rw [removeBreakpoint, ends_breakpointTarget_uninitialized _ _ hl]
    exact .of_error _ rfl (StepRelation.refl s)
  · rcases hentry : s.breakpoints.get? id with _ | entry
    · rw [ends_removeBreakpoint_unknown hl hentry]
      exact .of_error _ rfl (StepRelation.refl s)
    · rcases prepared_or_active hl with hprepared | ⟨a, ha⟩
      · rw [ends_removeBreakpoint_pending (Or.inl hprepared) hentry]
        exact .forgotten hentry (Or.inl hprepared)
      · rcases hengine : entry.engineId with _ | engineId
        · rw [ends_removeBreakpoint_pending (Or.inr ⟨⟨a, ha⟩, hengine⟩) hentry]
          exact .forgotten hentry (Or.inr ⟨⟨a, ha⟩, hengine⟩)
        · rw [ends_removeBreakpoint_installed ha hentry hengine]
          refine (request_spec T a.target rfl _ s).mono ?_
          rintro (f | _) s' h
          · exact .of_error f rfl h
          · obtain ⟨hok, rfl⟩ := h
            exact .removed ha hentry hengine hok

theorem outcome_removeAllBreakpoints (s : Session ε) :
    Ends removeAllBreakpoints s fun r s' =>
      Outcome T s .removeAllBreakpoints (replyTo r) s' := by
  rcases hl : s.lifecycle with _ | e | a
  · rw [removeAllBreakpoints, ends_breakpointTarget_uninitialized _ _ hl]
    exact .of_error _ rfl (StepRelation.refl s)
  · rw [ends_removeAllBreakpoints_prepared hl]
    exact .allForgotten hl
  · rw [ends_removeAllBreakpoints_active hl]
    refine (request_spec T a.target rfl _ s).mono ?_
    rintro (f | _) s' h
    · exact .of_error f rfl h
    · obtain ⟨hok, rfl⟩ := h
      exact .allRemoved hl hok

/-- Quiet commands stay in every state, and give out no id. -/
theorem outcome_quiet {c : Command} (hc : c.isQuiet = true) (s : Session ε) :
    Ends (execute c) s fun r s' => Outcome T s c (replyTo r) s' := by
  refine (moves_execute hc s).mono fun r s' h => .quiet ?_ ?_ h
  · cases c <;> trivial
  · cases c <;> first | rfl | cases hc

section Processes

variable [DebugEngine.Returns ε]

theorem outcome_launch (s : Session ε) :
    Ends launch s fun r s' => Outcome T s .launch (replyTo r) s' := by
  by_cases hs : IsActive s
  · obtain ⟨a, ha⟩ := hs
    have hstays : ¬ResumeFails s := fun h => not_isActive_of_resumeFails h ⟨a, ha⟩
    rw [launch, ends_get_bind, ha]
    exact .of_error (.refused .alreadyExists) ⟨rfl, hstays⟩ (StepRelation.refl s)
  · refine (ends_launch_cases T s).mono ?_
    rintro (f | response) s' h
    · rcases h with ⟨hfails, s₁, h₁, h'⟩ | ⟨hresumes, h⟩
      · exact .resumeFailed (isOk_replyTo_error f) hs hfails h₁ h'
      · exact .failed rfl ⟨isOk_replyTo_error f, hresumes⟩ hs h
    · obtain ⟨hok, -, hresumes, h⟩ := h
      exact .began rfl hok hs (fun _ => hresumes) h

theorem outcome_attach (pid : Nat) (executable : Option String) (is64 : Bool) (s : Session ε) :
    Ends (attach pid executable is64) s fun r s' =>
      Outcome T s (.attach pid executable is64) (replyTo r) s' := by
  by_cases hs : IsActive s
  · rw [attach, ends_requireInactive_active hs]
    exact .of_error _ rfl (StepRelation.refl s)
  · exact (ends_attach T pid executable is64 s).mono fun r s' h => h.outcome rfl (by rintro ⟨⟩) rfl hs

theorem outcome_connectRemote (is64 : Bool) (url plugin : String) (file : Option String)
    (s : Session ε) : Ends (connectRemote is64 url plugin file) s fun r s' =>
      Outcome T s (.connectRemote is64 url plugin file) (replyTo r) s' := by
  by_cases hs : IsActive s
  · rw [connectRemote, ends_requireInactive_active hs]
    exact .of_error _ rfl (StepRelation.refl s)
  · exact (ends_connectRemote T is64 url plugin file s).mono fun r s' h => h.outcome rfl (by rintro ⟨⟩) rfl hs

theorem outcome_detach (s : Session ε) :
    Ends detach s fun r s' => Outcome T s .detach (replyTo r) s' := by
  refine (ends_detach T s).mono ?_
  rintro (f | response) s' h
  · exact .of_error f rfl h
  · obtain ⟨rfl, hs, h⟩ := h
    exact .released rfl rfl hs h

theorem outcome_deleteProcess (s : Session ε) :
    Ends deleteProcess s fun r s' => Outcome T s .deleteProcess (replyTo r) s' := by
  by_cases hs : IsActive s
  · refine (ends_deleteProcess T hs).mono ?_
    rintro r s' ⟨rfl, h⟩
    exact .released rfl rfl hs h
  · rw [ends_deleteProcess_inactive hs]
    exact .of_error _ ⟨rfl, hs⟩ (StepRelation.refl s)

/-- What a command does to a session. -/
theorem outcome_execute (c : Command) (s : Session ε) :
    Ends (execute c) s fun r s' => Outcome T s c (replyTo r) s' := by
  by_cases hc : c.isQuiet = true
  · exact outcome_quiet T hc s
  · cases c with
    | prepare e => exact outcome_prepare T e s
    | launch => exact outcome_launch T s
    | attach pid executable is64 => exact outcome_attach T pid executable is64 s
    | connectRemote is64 url plugin file => exact outcome_connectRemote T is64 url plugin file s
    | detach => exact outcome_detach T s
    | deleteProcess => exact outcome_deleteProcess T s
    | setBreakpoint addr => exact outcome_setBreakpoint T addr s
    | removeBreakpoint id => exact outcome_removeBreakpoint T id s
    | removeAllBreakpoints => exact outcome_removeAllBreakpoints T s
    | _ => exact absurd rfl hc

/-- What the reply to a command and the session after it can be. -/
theorem outcome_reply (c : Command) (s : Session ε) : Outcome T s c (reply c s).1 (reply c s).2 :=
  reply_of_ends (outcome_execute T c s)

end Processes

end Commands

/-- Whatever a command does, the engine changes as calls change it. -/
theorem Outcome.engine [DebugEngine.Returns ε] {T : EngineTheory ε} {s s' : Session ε}
    {c : Command} {response : Response} (h : Outcome T s c response s') :
    T.any s.engine s'.engine := by
  cases h with
  | quiet _ _ hquiet => exact T.any_of_kept hquiet.engine
  | prepared _ _ => exact StepRelation.refl _
  | began _ _ _ _ h => exact h.spec.2.1
  | failed _ _ _ hquiet => exact hquiet.engine
  | resumeFailed _ _ _ h₁ h => exact StepRelation.trans h₁.spec.2.1 h.engine
  | released _ _ _ h => exact h.engine
  | pending _ _ => exact StepRelation.refl _
  | installed _ _ _ => exact TotalRelation.call _ _
  | forgotten _ _ => exact StepRelation.refl _
  | removed _ _ _ _ => exact TotalRelation.call _ _
  | allForgotten _ => exact StepRelation.refl _
  | allRemoved _ _ => exact TotalRelation.call _ _

end DebugAdapter.Session
