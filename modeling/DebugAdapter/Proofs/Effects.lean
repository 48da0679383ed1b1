import DebugAdapter.Proofs.ReplyShapes
import DebugAdapter.Proofs.TargetLives

/-!
# Effects of commands

`Effect` says what a command can do to the engine, the outbox and the target of a session, for every
engine, also for one that breaks down in the middle of a command. It is proved once for each command
(`effect_execute`); what holds of all commands is read off it by cases.
-/

namespace DebugAdapter.Session

open Debuggee
open Operation
open Wire (Response)

/-- A command that works on what is staged; a breakpoint can be staged once there is a program. -/
def Command.stages : Command → Lifecycle → Bool
  | .prepare _, _ => true
  | .setBreakpoint _, .prepared _ => true
  | .removeBreakpoint _, .prepared _ => true
  | .removeAllBreakpoints, .prepared _ => true
  | _, _ => false

variable {ε : Type} [DebugEngine ε]

/-- What a command with a result can do to a session. -/
inductive Effect (s : Session (Journal ε)) :
    Command → Except Failure Response → Session (Journal ε) → Prop
  /-- The command is refused before it does anything. -/
  | refused {c : Command} (e : SessionError) : Effect s c (.error (.refused e)) s
  | pong : Effect s .ping (.ok .ok) s
  /-- Something is staged, which only the session needs to know. -/
  | staged {c : Command} {response : Response} {s' : Session (Journal ε)}
      (hc : c.stages s.lifecycle = true) (hs : s.lifecycle.target? = none)
      (hs' : s'.lifecycle.target? = none) (hchannel : s'.channel = s.channel) :
      Effect s c (.ok response) s'
  /-- The command works on the process, and the process stays. -/
  | attended {c : Command} {r : Except Failure Response} {s' : Session (Journal ε)} {t : Handle}
      (hbegins : c.begins = false) (hreleases : c.releases = true → ∃ f, r = .error f)
      (hs : s.lifecycle.target? = some t) (hs' : s'.lifecycle.target? = some t)
      (htends : Tends t s.channel s'.channel) : Effect s c r s'
  /-- The process is destroyed or let go. -/
  | released {c : Command} {r : Except Failure Response} {s' : Session (Journal ε)} {t : Handle}
      {x : Entry} {k : Channel (Journal ε)} (hc : c.releases = true)
      (hs : s.lifecycle.target? = some t) (hs' : s'.lifecycle.target? = none)
      (htarget : x.target? = some t) (hx : x.releases t = true) (hcall : Happens [x] [] s.channel k)
      (htends : Tends t k s'.channel) : Effect s c r s'
  | began {c : Command} {r : Except Failure Response} {s' : Session (Journal ε)}
      (hc : c.begins = true) (hs : s.lifecycle.target? = none) (h : Entered s r s') :
      Effect s c r s'

/-! ### Commands about breakpoints -/

section Breakpoints

variable {s : Session (Journal ε)} {a : ActiveTarget} {c : Command}

/-- On a process, breakpoints may change without a request. -/
theorem effect_breakpoints (hbegins : c.begins = false) (hreleases : c.releases = false)
    (hl : s.lifecycle = .active a) (r : Except Failure Response) (b : Breakpoints) :
    Effect s c r { s with breakpoints := b } := by
  have ht : s.lifecycle.target? = some a.target := by
    rw [hl]
    rfl
  refine .attended hbegins ?_ ht ht (StepRelation.refl (R := Passes _ _) s.channel)
  rw [hreleases]
  rintro ⟨⟩

/-- On a process, they may change after a request to its target. -/
theorem effect_request (hbegins : c.begins = false) (hreleases : c.releases = false)
    (hl : s.lifecycle = .active a) {r : Request} (hr : r.isGentle = true) (operation : String) :
    Ends (request a.target r operation) s fun _ s' =>
      ∀ (result : Except Failure Response) (b : Breakpoints),
        Effect s c result { s' with breakpoints := b } := by
  have ht : s.lifecycle.target? = some a.target := by
    rw [hl]
    rfl
  refine (attending_tends (attends_request a.target hr operation) ht).mono ?_
  rintro answer s' ⟨ht', htends⟩ result b
  refine .attended hbegins ?_ ht ht' htends
  rw [hreleases]
  rintro ⟨⟩

/-- While a program is staged, they change without the engine. -/
theorem effect_staged {e : Executable} (hl : s.lifecycle = .prepared e)
    (hc : c.stages (.prepared e) = true) (response : Response) (b : Breakpoints) :
    Effect s c (.ok response) { s with breakpoints := b } := by
  have ht : s.lifecycle.target? = none := by
    rw [hl]
    rfl
  refine .staged ?_ ht ht rfl
  rw [hl]
  exact hc

theorem effect_setBreakpoint (addr : UInt64) (s : Session (Journal ε)) :
    Ends (setBreakpoint addr) s (Effect s (.setBreakpoint addr)) := by
  rcases hl : s.lifecycle with _ | e | a
  · rw [setBreakpoint, ends_breakpointTarget_uninitialized _ _ hl]
    exact .refused _
  · rw [ends_setBreakpoint_prepared hl]
    exact effect_staged hl rfl _ _
  · rw [ends_setBreakpoint_active hl]
    refine (effect_request (c := .setBreakpoint addr) rfl rfl hl rfl _).mono fun answer s' h => ?_
    cases answer with
    | ok info => exact h _ _
    | error f => exact h _ s'.breakpoints

theorem effect_removeBreakpoint (id : Nat) (s : Session (Journal ε)) :
    Ends (removeBreakpoint id) s (Effect s (.removeBreakpoint id)) := by
  by_cases hl : s.lifecycle = .uninitialized
  · rw [removeBreakpoint, ends_breakpointTarget_uninitialized _ _ hl]
    exact .refused _
  · rcases hentry : s.breakpoints.get? id with _ | entry
    · rw [ends_removeBreakpoint_unknown hl hentry]
      exact .refused _
    · rcases prepared_or_active hl with ⟨e, he⟩ | ⟨a, ha⟩
      · rw [ends_removeBreakpoint_pending (Or.inl ⟨e, he⟩) hentry]
        exact effect_staged he rfl _ _
      -- On a process an entry without an engine id is one that the target refused.
      · rcases hengine : entry.engineId with _ | engineId
        · rw [ends_removeBreakpoint_pending (Or.inr ⟨⟨a, ha⟩, hengine⟩) hentry]
          exact effect_breakpoints rfl rfl ha _ _
        · rw [ends_removeBreakpoint_installed ha hentry hengine]
          refine (effect_request (c := .removeBreakpoint id) rfl rfl ha rfl _).mono
            fun answer s' h => ?_
          cases answer with
          | ok _ => exact h _ _
          | error f => exact h _ s'.breakpoints

theorem effect_removeAllBreakpoints (s : Session (Journal ε)) :
    Ends removeAllBreakpoints s (Effect s .removeAllBreakpoints) := by
  rcases hl : s.lifecycle with _ | e | a
  · rw [removeAllBreakpoints, ends_breakpointTarget_uninitialized _ _ hl]
    exact .refused _
  · rw [ends_removeAllBreakpoints_prepared hl]
    exact effect_staged hl rfl _ _
  · rw [ends_removeAllBreakpoints_active hl]
    refine (effect_request (c := .removeAllBreakpoints) rfl rfl hl rfl _).mono fun answer s' h => ?_
    cases answer with
    | ok _ => exact h _ _
    | error f => exact h _ s'.breakpoints

end Breakpoints

/-! ### Commands about the process -/

/-- A process that is there is not begun again. -/
theorem refused_begin {c : Command} (hc : c.begins = true) {s : Session (Journal ε)}
    {a : ActiveTarget} (hl : s.lifecycle = .active a) :
    Ends (execute c) s fun r s' => (∃ e, r = .error (.refused e)) ∧ s' = s := by
  cases c with
  | launch =>
    rw [execute, launch, ends_get_bind, hl]
    exact ⟨⟨_, rfl⟩, rfl⟩
  | attach pid executable is64 =>
    rw [execute, attach, ends_requireInactive_active ⟨a, hl⟩]
    exact ⟨⟨_, rfl⟩, rfl⟩
  | connectRemote is64 url plugin file =>
    rw [execute, connectRemote, ends_requireInactive_active ⟨a, hl⟩]
    exact ⟨⟨_, rfl⟩, rfl⟩
  | _ => cases hc

theorem effect_begin {c : Command} (hc : c.begins = true) (s : Session (Journal ε)) :
    Ends (execute c) s (Effect s c) := by
  rcases target?_cases s.lifecycle with ⟨hs, -⟩ | ⟨a, hl, -⟩
  · have hentered : Ends (execute c) s (Entered s) := by
      cases c with
      | launch => exact entered_launch hs
      | attach pid executable is64 => exact entered_attach pid executable is64 hs
      | connectRemote is64 url plugin file => exact entered_connectRemote is64 url plugin file hs
      | _ => cases hc
    exact hentered.mono fun _ _ h => .began hc hs h
  · refine (refused_begin hc hl).mono ?_
    rintro r s' ⟨⟨e, rfl⟩, rfl⟩
    exact .refused e

theorem effect_deleteProcess (s : Session (Journal ε)) :
    Ends deleteProcess s (Effect s .deleteProcess) := by
  rcases hs : s.lifecycle.target? with _ | t
  · rw [ends_deleteProcess_inactive (not_isActive_iff.mpr hs)]
    exact .refused _
  · refine (released_deleteProcess hs).mono ?_
    rintro r s' ⟨-, hs', hcall⟩
    refine .released rfl hs hs' rfl ?_ hcall (StepRelation.refl (R := Passes _ _) _)
    exact beq_self_eq_true t

/-- The process is let go only if the target answers so. -/
theorem effect_detach (s : Session (Journal ε)) : Ends detach s (Effect s .detach) := by
  rcases hs : s.lifecycle.target? with _ | t
  · rw [detach, target, bind_assoc, ends_activeTarget_none hs]
    exact .refused _
  · obtain ⟨a, hl, rfl⟩ := active_of_target? hs
    have hcall := happens_perform (.request a.target .detach) s.channel
    rw [detach, target, bind_assoc, ends_activeTarget_bind hl, pure_bind, control, bind_assoc,
      ends_get_bind]
    rcases hperform : DebugEngine.perform (.request a.target .detach) s.engine with
      ⟨f | u, engine⟩
    all_goals
      rw [show DebugEngine.perform (.request a.target .detach) s.channel.engine = _ from hperform]
        at hcall
      have hevents := attending_deliverEvents (W := Tends) a.target { s with engine } hs
    -- A target that refuses stays, and so does one whose engine breaks down.
    · have hasked : Tends a.target s.channel ⟨engine, s.outbox⟩ :=
        .of_happens hcall (List.forall_mem_singleton.mpr (Entry.gentle_detach a.target f))
      cases f with
      | error e =>
        exact .attended rfl (fun _ => ⟨_, rfl⟩) hs hevents.target
          (StepRelation.trans (R := Passes _ _) hasked hevents.channel)
      | crash text => exact .attended rfl (fun _ => ⟨_, rfl⟩) hs hs hasked
    · refine .released rfl hs rfl rfl ?_ hcall hevents.channel
      exact beq_self_eq_true a.target

theorem effect_prepare (e : Executable) (s : Session (Journal ε)) :
    Ends (prepare e) s (Effect s (.prepare e)) := by
  by_cases hs : IsActive s
  · rw [prepare, ends_requireInactive_active hs]
    exact .refused _
  · rw [prepare, ends_requireInactive_bind hs, ends_modify_bind]
    exact .staged rfl (not_isActive_iff.mp hs) rfl rfl

theorem begins_of_isQuiet {c : Command} (hc : c.isQuiet = true) :
    c.begins = false ∧ c.releases = false := by
  cases c <;> first | exact ⟨rfl, rfl⟩ | cases hc

theorem effect_quiet {c : Command} (hc : c.isQuiet = true) (s : Session (Journal ε)) :
    Ends (execute c) s (Effect s c) := by
  by_cases hping : c = .ping
  · rw [hping]
    exact .pong
  · have hprocess : OnProcess Tends (execute c : Action (Journal ε) Response) :=
      onProcess_execute hc hping
    rcases hs : s.lifecycle.target? with _ | t
    · refine (hprocess.refused s hs).mono ?_
      rintro r s' ⟨⟨e, rfl⟩, rfl⟩
      exact .refused e
    · refine (attending_tends (hprocess.attends t) hs).mono ?_
      rintro r s' ⟨hs', htends⟩
      refine .attended (begins_of_isQuiet hc).1 ?_ hs hs' htends
      rw [(begins_of_isQuiet hc).2]
      rintro ⟨⟩

/-- What a command does to a session. -/
theorem effect_execute (c : Command) (s : Session (Journal ε)) :
    Ends (execute c) s (Effect s c) := by
  by_cases hquiet : c.isQuiet = true
  · exact effect_quiet hquiet s
  · by_cases hbegins : c.begins = true
    · exact effect_begin hbegins s
    · cases c with
      | prepare e => exact effect_prepare e s
      | detach => exact effect_detach s
      | deleteProcess => exact effect_deleteProcess s
      | setBreakpoint addr => exact effect_setBreakpoint addr s
      | removeBreakpoint id => exact effect_removeBreakpoint id s
      | removeAllBreakpoints => exact effect_removeAllBreakpoints s
      | launch => exact absurd rfl hbegins
      | attach pid executable is64 => exact absurd rfl hbegins
      | connectRemote is64 url plugin file => exact absurd rfl hbegins
      | _ => exact absurd rfl hquiet

/-- What a command with a reply does to a session; the reply says whether the command succeeded. -/
theorem effect_reply (c : Command) (s : Session (Journal ε)) :
    ∃ r, Effect s c r (reply c s).2 ∧
      ((reply c s).1.isOk = true ↔ ∃ response, r = .ok response) := by
  refine ⟨((execute c).run.run s).1, ?_, ?_⟩
  · rw [reply_eq]
    exact effect_execute c s
  · rw [reply_eq]
    rcases hrun : ((execute c).run.run s).1 with f | response
    · simp [isOk_replyTo_error]
    · have hshape : Shaped c response := yields_execute c s response hrun
      simp [replyTo, isOk_of_shaped hshape]

/-! ### Payloads -/

/-- The names of commands that begin a process. -/
def beginNames : List String := ["launch", "createProcess", "attachToProcess", "connectRemote"]

theorem begins_iff_of_named {c : Command} {name : String} (h : c.Named name) :
    c.begins = true ↔ name ∈ beginNames := by
  have hnames : ∀ n ∈ c.names, (c.begins = true ↔ n ∈ beginNames) := by
    cases c <;> simp [Command.names, Command.begins, beginNames]
  exact hnames name h

/-- A payload that is not understood leaves the session as it is, and another one does what its
command does. -/
theorem effect_payload (payload : Bytes) (s : Session (Journal ε)) :
    (∃ e, outcome payload s = (.error (.refused e), s)) ∨
    ∃ c name, commandName? payload = some name ∧ c.Named name ∧
      Effect s c (outcome payload s).1 (outcome payload s).2 := by
  rw [outcome]
  rcases hread : (RequestDocument.read payload).command? with e | c
  · exact Or.inl ⟨e, rfl⟩
  · obtain ⟨name, hname, hnamed⟩ := named_of_command? hread
    exact Or.inr ⟨c, name, hname, hnamed, effect_execute c s⟩

omit [DebugEngine ε] in
theorem isOk_withId (response : Response) (id : Option Json) :
    (response.withId id).isOk = response.isOk := by
  cases response <;> rfl

/-- The reply says whether a payload succeeded. -/
theorem isOk_handleFrame {ε : Type} [DebugEngine ε] (payload : Bytes) (s : Session ε) :
    (handleFrame payload s).1.isOk = true ↔ ∃ response, (outcome payload s).1 = .ok response := by
  rw [handleFrame_eq, isOk_withId]
  rcases houtcome : (outcome payload s).1 with f | response
  · simp [isOk_replyTo_error]
  · obtain ⟨c, name, -, -, hshape⟩ := command_of_outcome houtcome
    simp [replyTo, isOk_of_shaped hshape]

/-! ### Shutting down -/

/-- A session without a process is left as it is; otherwise the process is destroyed, which fails
exactly if the engine breaks down then. -/
theorem ends_shutdown (s : Session (Journal ε)) : Ends shutdown s fun r s' =>
    s'.lifecycle.target? = none ∧
    (∀ f, r = .error f ↔ ∃ t text, s.lifecycle.target? = some t ∧ f = .crashed text ∧
      (DebugEngine.perform (.request t .destroy) s.engine).1 = .error (.crash text)) ∧
    ((s.lifecycle.target? = none ∧ s' = s) ∨ ∃ t, s.lifecycle.target? = some t ∧
      Happens
        [.call (.request t .destroy) (DebugEngine.perform (.request t .destroy) s.engine).1] []
        s.channel s'.channel) := by
  rw [shutdown, ends_get_bind]
  rcases ht : s.lifecycle.target? with _ | t
  · split
    · rename_i a hl
      rw [hl] at ht
      cases ht
    · refine ⟨ht, fun f => ⟨by rintro ⟨⟩, ?_⟩, Or.inl ⟨rfl, rfl⟩⟩
      rintro ⟨t, text, ⟨⟩, -, -⟩
  · obtain ⟨a, hl, -⟩ := active_of_target? ht
    rw [hl]
    refine (released_deleteProcess ht).bind ?_ ?_
    · rintro response s' ⟨hfails, hs', hcall⟩
      refine ⟨hs', fun f => ⟨by rintro ⟨⟩, ?_⟩, Or.inr ⟨t, rfl, hcall⟩⟩
      rintro ⟨u, text, ⟨⟩, hf, hcrash⟩
      cases (hfails f).mpr ⟨text, hf, hcrash⟩
    · rintro f s' ⟨hfails, hs', hcall⟩
      refine ⟨hs', fun g => ⟨?_, ?_⟩, Or.inr ⟨t, rfl, hcall⟩⟩
      · rintro ⟨⟩
        obtain ⟨text, hf, hcrash⟩ := (hfails f).mp rfl
        exact ⟨t, text, rfl, hf, hcrash⟩
      · rintro ⟨u, text, ⟨⟩, hg, hcrash⟩
        cases (hfails g).mpr ⟨text, hg, hcrash⟩
        rfl

end DebugAdapter.Session
