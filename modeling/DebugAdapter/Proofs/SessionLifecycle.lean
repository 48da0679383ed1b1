import DebugAdapter.Proofs.QuietCommands
import DebugAdapter.Session.Dispatch

/-!
# The life of a session

For an engine whose calls return, with a result or an error, this module says which command takes a
session from which state to which (`Leads`), and which invariant lifecycle, staged program and
breakpoints share (`Coherent`).
-/

namespace DebugAdapter

open Debuggee
open Operation

/-- An engine that does not break down: each call returns a result or an error. -/
class Debuggee.DebugEngine.Returns (ε : Type) [DebugEngine ε] : Prop where
  ne_crash : ∀ (c : Call) (e : ε) (text : Option String),
    (DebugEngine.perform c e).1 ≠ .error (.crash text)

namespace Session

open Wire (Response)

variable {ε : Type}

/-- There is a process. -/
def IsActive (s : Session ε) : Prop := ∃ a, s.lifecycle = .active a

/-- What lifecycle, staged program and breakpoints of a session have in common. -/
structure Coherent (s : Session ε) : Prop where
  /-- Without a program there is nothing to set a breakpoint in. -/
  uninitialized : s.lifecycle = .uninitialized → s.breakpoints.entries = []
  /-- The staged program is remembered, and all breakpoints are pending. -/
  prepared : ∀ e, s.lifecycle = .prepared e →
    s.lastPrepared = some e ∧ ∀ b ∈ s.breakpoints.entries, b.engineId = none
  /-- No id is above the last one that was given out. -/
  bounded : ∀ b ∈ s.breakpoints.entries, b.id ≤ s.breakpoints.lastId
  /-- Each id stands for one breakpoint. -/
  sorted : s.breakpoints.entries.Pairwise (·.id < ·.id)

theorem coherent_start [DebugEngine ε] (engine : ε) (settings : Settings) (outbox : Wire.Outbox) :
    Coherent (start engine settings outbox) :=
  ⟨fun _ => rfl, fun _ h => (nomatch h), fun _ h => (nomatch h), .nil⟩

theorem SameStage.isActive_iff {l m : Lifecycle} (h : SameStage l m) :
    (∃ a, l = .active a) ↔ ∃ a, m = .active a := by
  cases h with
  | uninitialized => exact Iff.rfl
  | prepared e => exact Iff.rfl
  | active _ => exact ⟨fun _ => ⟨_, rfl⟩, fun _ => ⟨_, rfl⟩⟩

theorem not_isActive_of_lifecycle {s : Session ε} {l : Lifecycle} (hl : s.lifecycle = l)
    (h : ∀ a, l ≠ .active a) : ¬IsActive s := by
  rintro ⟨a, ha⟩
  exact h a (hl.symm.trans ha)

theorem not_isActive_iff {s : Session ε} : ¬IsActive s ↔ s.lifecycle.target? = none := by
  constructor
  · intro h
    rcases target?_cases s.lifecycle with ⟨hnone, -⟩ | ⟨a, hl, -⟩
    · exact hnone
    · exact absurd ⟨a, hl⟩ h
  · rintro h ⟨a, ha⟩
    rw [ha] at h
    cases h

/-- Quiet steps keep the invariant. -/
theorem Quiet.coherent {E : ε → ε → Prop} {s s' : Session ε} (h : Quiet E s s')
    (hs : Coherent s) : Coherent s' := by
  have hstage := h.stage
  refine ⟨?_, ?_, ?_, ?_⟩
  · intro hl
    rw [hl] at hstage
    rw [h.breakpoints]
    generalize hm : s.lifecycle = m at hstage
    cases hstage
    exact hs.uninitialized hm
  · intro e hl
    rw [hl] at hstage
    rw [h.breakpoints, h.lastPrepared]
    generalize hm : s.lifecycle = m at hstage
    cases hstage
    exact hs.prepared e hm
  · rw [h.breakpoints]
    exact hs.bounded
  · rw [h.breakpoints]
    exact hs.sorted

/-! ### Replies -/

@[simp] theorem isOk_withMember (response : Response) (name : String) (v : Json) :
    (response.withMember name v).isOk = response.isOk := by
  cases response with
  | status isOk message extra id => rfl
  | data kind payload id => rfl

@[simp] theorem isOk_withSlide (response : Response) (m : Module) :
    (withSlide response m).isOk = response.isOk := by
  rw [withSlide]
  split
  · rfl
  · split
    · rfl
    · split
      · rfl
      · simp

/-! ### Changes of a session -/

/-- What installing breakpoints changes: the engine and the engine ids. -/
structure Installs (E : ε → ε → Prop) (s s' : Session ε) : Prop where
  engine : E s.engine s'.engine
  capabilities : s'.capabilities = s.capabilities
  settings : s'.settings = s.settings
  lastPrepared : s'.lastPrepared = s.lastPrepared
  lifecycle : s'.lifecycle = s.lifecycle
  lastId : s'.breakpoints.lastId = s.breakpoints.lastId
  ids : s'.breakpoints.entries.map (·.id) = s.breakpoints.entries.map (·.id)

theorem Installs.trans {E : ε → ε → Prop} [StepRelation E] {s t u : Session ε}
    (h : Installs E s t) (h' : Installs E t u) : Installs E s u where
  engine := StepRelation.trans h.engine h'.engine
  capabilities := h'.capabilities.trans h.capabilities
  settings := h'.settings.trans h.settings
  lastPrepared := h'.lastPrepared.trans h.lastPrepared
  lifecycle := h'.lifecycle.trans h.lifecycle
  lastId := h'.lastId.trans h.lastId
  ids := h'.ids.trans h.ids

theorem installs_engine {E : ε → ε → Prop} (s : Session ε) {engine : ε} (h : E s.engine engine) :
    Installs E s { s with engine } :=
  ⟨h, rfl, rfl, rfl, rfl, rfl, rfl⟩

theorem ids_install (b : Breakpoints) (id engineId : Nat) :
    (b.install id engineId).entries.map (·.id) = b.entries.map (·.id) := by
  rw [Breakpoints.install, List.map_map]
  refine List.map_congr_left fun e _ => ?_
  simp only [Function.comp]
  split
  · rfl
  · rfl

/-- A session without a process and without breakpoints. -/
structure Released (E : ε → ε → Prop) (s s' : Session ε) : Prop where
  engine : E s.engine s'.engine
  lifecycle : s'.lifecycle = .uninitialized
  lastId : s'.breakpoints.lastId = s.breakpoints.lastId
  entries : s'.breakpoints.entries = []

/-! ### What keeps the invariant -/

/-- The bounds on ids follow from those of a session with the same ids. -/
theorem ids_bounded {b b' : Breakpoints} (hlast : b'.lastId = b.lastId)
    (hids : b'.entries.map (·.id) = b.entries.map (·.id))
    (hbounded : ∀ e ∈ b.entries, e.id ≤ b.lastId) : ∀ e ∈ b'.entries, e.id ≤ b'.lastId := by
  intro e he
  have hid : e.id ∈ b.entries.map (·.id) := by
    rw [← hids]
    exact List.mem_map_of_mem he
  obtain ⟨e', he', heq⟩ := List.mem_map.mp hid
  rw [hlast, ← heq]
  exact hbounded e' he'

/-- A session that has a process now, with the breakpoints that it had before. -/
theorem Coherent.activate {s s' : Session ε} (hs : Coherent s) (hactive : IsActive s')
    (hlast : s'.breakpoints.lastId = s.breakpoints.lastId)
    (hids : s'.breakpoints.entries.map (·.id) = s.breakpoints.entries.map (·.id)) :
    Coherent s' := by
  obtain ⟨a, ha⟩ := hactive
  refine ⟨?_, ?_, ids_bounded hlast hids hs.bounded, ?_⟩
  · intro hl
    rw [ha] at hl
    cases hl
  · intro e hl
    rw [ha] at hl
    cases hl
  · have hsorted : (s.breakpoints.entries.map (·.id)).Pairwise (· < ·) :=
      List.pairwise_map.mpr hs.sorted
    rw [← hids] at hsorted
    exact List.pairwise_map.mp hsorted

theorem Released.coherent {E : ε → ε → Prop} {s s' : Session ε} (h : Released E s s') :
    Coherent s' := by
  refine ⟨fun _ => h.entries, ?_, ?_, ?_⟩
  · intro e hl
    rw [h.lifecycle] at hl
    cases hl
  · intro b hb
    rw [h.entries] at hb
    cases hb
  · rw [h.entries]
    exact .nil

theorem Coherent.prepare {s : Session ε} (hs : Coherent s) (hinactive : ¬IsActive s)
    (e : Executable) : Coherent { s with lastPrepared := some e, lifecycle := .prepared e } := by
  refine ⟨fun hl => (nomatch hl), ?_, hs.bounded, hs.sorted⟩
  intro e' hl
  cases hl
  refine ⟨rfl, ?_⟩
  by_cases hu : s.lifecycle = .uninitialized
  · intro b hb
    rw [hs.uninitialized hu] at hb
    cases hb
  · rcases prepared_or_active hu with ⟨e', he'⟩ | hactive
    · exact (hs.prepared e' he').2
    · exact absurd hactive hinactive

theorem Coherent.add {s : Session ε} (hs : Coherent s) (hl : s.lifecycle ≠ .uninitialized)
    (engine : ε) (addr : UInt64) {engineId : Option Nat}
    (hpending : IsActive s ∨ engineId = none) :
    Coherent { s with engine, breakpoints := (s.breakpoints.add addr engineId).2 } := by
  refine ⟨fun hu => absurd hu hl, ?_, ?_, ?_⟩
  · intro e he
    refine ⟨(hs.prepared e he).1, ?_⟩
    intro b hb
    rcases List.mem_append.mp hb with hb | hb
    · exact (hs.prepared e he).2 b hb
    · rw [List.mem_singleton.mp hb]
      rcases hpending with ⟨a, ha⟩ | hnone
      · have he' : s.lifecycle = .prepared e := he
        rw [ha] at he'
        cases he'
      · exact hnone
  · intro b hb
    rcases List.mem_append.mp hb with hb | hb
    · exact Nat.le_succ_of_le (hs.bounded b hb)
    · rw [List.mem_singleton.mp hb]
      exact Nat.le_refl _
  · refine List.pairwise_append.mpr ⟨hs.sorted, List.pairwise_singleton _ _, ?_⟩
    intro b hb c hc
    rw [List.mem_singleton.mp hc]
    exact Nat.lt_succ_of_le (hs.bounded b hb)

/-- While there is no process no breakpoint is installed. -/
theorem Coherent.pending (h : Coherent s) (hs : ¬IsActive s) :
    ∀ e ∈ s.breakpoints.entries, e.engineId = none := by
  by_cases hu : s.lifecycle = .uninitialized
  · rw [h.uninitialized hu]
    exact nofun
  · rcases prepared_or_active hu with ⟨e, he⟩ | hactive
    · exact (h.prepared e he).2
    · exact absurd hactive hs

/-- Forgetting breakpoints keeps the invariant. -/
theorem Coherent.forget {s : Session ε} (hs : Coherent s) (engine : ε)
    {entries : List BreakpointEntry} (h : entries.Sublist s.breakpoints.entries) :
    Coherent { s with engine, breakpoints := { s.breakpoints with entries } } := by
  refine ⟨?_, ?_, ?_, hs.sorted.sublist h⟩
  · intro hl
    have := hs.uninitialized hl
    rw [this] at h
    exact List.sublist_nil.mp h
  · intro e he
    exact ⟨(hs.prepared e he).1, fun b hb => (hs.prepared e he).2 b (h.subset hb)⟩
  · exact fun b hb => hs.bounded b (h.subset hb)

/-! ### Guards -/

theorem ends_requireInactive_bind {β : Type} {s : Session ε} (h : ¬IsActive s)
    (f : Unit → Action ε β) (Q : Except Failure β → Session ε → Prop) :
    Ends (requireInactive >>= f) s Q ↔ Ends (f ()) s Q := by
  rw [requireInactive, bind_assoc, ends_get_bind]
  rcases hl : s.lifecycle with _ | e | a
  · exact Iff.rfl
  · exact Iff.rfl
  · exact absurd ⟨a, hl⟩ h

theorem ends_requireInactive_active {β : Type} {s : Session ε} (h : IsActive s)
    (f : Unit → Action ε β) (Q : Except Failure β → Session ε → Prop) :
    Ends (requireInactive >>= f) s Q ↔ Q (.error (.refused .alreadyExists)) s := by
  obtain ⟨a, h⟩ := h
  rw [requireInactive, bind_assoc, ends_get_bind, h]
  exact Iff.rfl

theorem ends_prepare (e : Executable) (s : Session ε) : Ends (prepare e) s fun r s' =>
    match r with
    | .ok response => response.isOk = true ∧ ¬IsActive s ∧
        s' = { s with lastPrepared := some e, lifecycle := .prepared e }
    | .error _ => IsActive s ∧ s' = s := by
  by_cases hs : IsActive s
  · rw [prepare, ends_requireInactive_active hs]
    exact ⟨hs, rfl⟩
  · rw [prepare, ends_requireInactive_bind hs, ends_modify_bind]
    exact ⟨rfl, hs, rfl⟩

/-! ### Starting a process -/

section Start

variable [DebugEngine ε]

/-- The first part of a launch: the process is started stopped, with the pending breakpoints. -/
def launchStopped : Action ε Handle := do
  let s ← get
  let executable ← match s.lifecycle with
    | .active _ => refuse .alreadyExists
    | .prepared e => pure e
    | .uninitialized =>
      match s.lastPrepared with
      | some e => pure e
      | none => refuse .notPrepared
  let t ← createTarget (some executable.path) executable.is64
  let info : LaunchInfo :=
    ⟨executable.args, executable.cwd, s.settings.launch.disableAslr, true⟩
  startTarget t (.launch info) .launchFailed
  activate t
  return t

/-- The second part of a launch: the process is resumed if the settings say so. -/
def resumeLaunched (stopAtEntry : Bool) (t : Handle) : Action ε Response := do
  unless stopAtEntry do
    match ← control t .resume with
    | .ok _ => pure ()
    | .error e =>
      let _ ← deleteProcess
      refuse (.launchFailed e)
  let pid ← observe t .processId
  return Response.ok.withMember "pid" (match pid with
    | some p => Json.ofNat p
    | none => .null)

theorem ends_launch (s : Session ε) (Q : Except Failure Response → Session ε → Prop) :
    Ends launch s Q
      ↔ Ends (launchStopped >>= resumeLaunched s.settings.launch.stopAtEntry) s Q := by
  rw [launch, launchStopped, ends_get_bind, bind_assoc, ends_get_bind]
  dsimp only
  rcases hl : s.lifecycle with _ | e | a
  · rcases hp : s.lastPrepared with _ | e
    · exact Iff.rfl
    · simp only [pure_bind, bind_assoc]
      exact Iff.rfl
  · simp only [pure_bind, bind_assoc]
    exact Iff.rfl
  · exact Iff.rfl

variable (T : EngineTheory ε)

/-- Until there is a session for a target, what is known of it stays. -/
def Starting (t : Handle) (e e' : ε) : Prop := T.any e e' ∧ (T.fresh e t → T.fresh e' t)

instance (t : Handle) : StepRelation (Starting T t) where
  refl _ := ⟨StepRelation.refl _, id⟩
  trans h h' := ⟨StepRelation.trans h.1 h'.1, fun hfresh => h'.2 (h.2 hfresh)⟩

theorem moves_observe_starting (t : Handle) (q : Query) :
    Moves (Quiet (Starting T t)) (observe t q : Action ε q.Answer) :=
  moves_observe_of fun e => ⟨EngineRelation.observe t q e, T.fresh_observe t q e⟩

theorem Quiet.any {t : Handle} {s s' : Session ε} (h : Quiet (Starting T t) s s') :
    Quiet T.any s s' :=
  ⟨h.engine.1, h.capabilities, h.settings, h.lastPrepared, h.breakpoints, h.stage⟩

/-- A target that is made is fresh. -/
theorem ends_createTarget (executable : Option String) (is64 : Bool) (s : Session ε) :
    Ends (createTarget executable is64) s fun r s' =>
      Quiet T.any s s' ∧ ∀ t, r = .ok t → T.fresh s'.engine t := by
  let c : Call := .createTarget executable (Arch.ofIs64 is64)
  have hcall : Quiet T.any s { s with engine := (DebugEngine.perform c s.engine).2 } :=
    quiet_engine s (TotalRelation.call c s.engine)
  have hfresh := T.fresh_create executable (Arch.ofIs64 is64) s.engine
  rw [createTarget, ends_bind, ends_perform]
  rcases hperform : DebugEngine.perform c s.engine with ⟨(e | text) | t, engine⟩
  · rw [hperform] at hcall
    exact ⟨hcall, nofun⟩
  · rw [hperform] at hcall
    exact ⟨hcall, nofun⟩
  · rw [hperform] at hcall
    have hfresh : T.fresh engine t := by
      have := hfresh t (congrArg Prod.fst hperform)
      rwa [congrArg Prod.snd hperform] at this
    refine (moves_observe_starting T t .subscribe { s with engine }).bind ?_ ?_
    · intro subscribed s' h
      have hquiet := StepRelation.trans hcall h.any
      split
      · refine ⟨hquiet, fun u hu => ?_⟩
        cases hu
        exact h.engine.2 hfresh
      · exact ⟨hquiet, nofun⟩
    · exact fun f s' h => ⟨StepRelation.trans hcall h.any, nofun⟩

/-- A notifier is started, or the target is destroyed. -/
theorem ends_startNotifier (t : Handle) (failed : DebugError → SessionError) (s : Session ε) :
    Ends (startNotifier t failed) s fun r s' =>
      Quiet T.any s s' ∧ (r = .ok () → s' = s) := by
  rw [startNotifier, ends_get_bind]
  split
  · exact ⟨StepRelation.refl s, fun _ => rfl⟩
  · refine (moves_perform_of (E := T.any) (c := .request t .destroy) ?_ s).bind ?_ ?_
    · exact TotalRelation.call _
    · exact fun _ s₁ h₁ => ⟨h₁, nofun⟩
    · exact fun f s₁ h₁ => ⟨h₁, nofun⟩

/-- A fresh target stays so while it is started. -/
theorem ends_startTarget (t : Handle) {r : Request} (hr : r.starts = true)
    (failed : DebugError → SessionError) (s : Session ε) :
    Ends (startTarget t r failed) s fun result s' =>
      Quiet T.any s s' ∧ (result = .ok () → T.fresh s.engine t → T.fresh s'.engine t) := by
  have hstart : Moves (Quiet (Starting T t)) (tryRequest t r : Action ε _) :=
    moves_perform_of fun e => ⟨TotalRelation.call _ e, T.fresh_start t r e hr⟩
  refine (hstart s).bind ?_ fun f s' h => ⟨h.any, nofun⟩
  intro answer s₁ h₁
  cases answer with
  | error e =>
    refine (moves_perform_of (E := T.any) (c := .request t .destroy) ?_ s₁).bind ?_ ?_
    · exact TotalRelation.call _
    · exact fun _ s₂ h₂ => ⟨StepRelation.trans h₁.any h₂, nofun⟩
    · exact fun f s₂ h₂ => ⟨StepRelation.trans h₁.any h₂, nofun⟩
  | ok _ =>
    have hlook : Moves (Quiet (Starting T t)) (do
        let state ← observe t .state
        return !state.isTransitional : Action ε Bool) :=
      (moves_observe_starting T t .state).bind fun _ => Moves.pure _
    dsimp only
    rw [ends_get_bind]
    refine (moves_poll _ hlook s₁).bind ?_ fun f s₂ h₂ => ⟨StepRelation.trans h₁.any h₂.any, nofun⟩
    intro _ s₂ h₂
    refine (ends_startNotifier T t failed s₂).mono fun r s₃ h₃ => ⟨?_, fun hok hfresh => ?_⟩
    · exact StepRelation.trans (StepRelation.trans h₁.any h₂.any) h₃.1
    · rw [h₃.2 hok]
      exact h₂.engine.2 (h₁.engine.2 hfresh)

theorem ends_deleteProcess_inactive {s : Session ε} (h : ¬IsActive s)
    (Q : Except Failure Response → Session ε → Prop) :
    Ends deleteProcess s Q ↔ Q (.error (.refused .noProcess)) s := by
  rw [deleteProcess, activeTarget, bind_assoc, ends_get_bind]
  rcases hl : s.lifecycle with _ | e | a
  · exact Iff.rfl
  · exact Iff.rfl
  · exact absurd ⟨a, hl⟩ h

/-- A target is made and started, and becomes the target of the session with the breakpoints that
are pending. -/
structure Begun (t : Handle) (s s₁ s₂ : Session ε) : Prop where
  starting : Quiet T.any s s₁
  fresh : T.fresh s₁.engine t
  activates : Ends (activate t) s₁ fun r s' => r = .ok () ∧ s' = s₂

/-- A process has begun, and the session goes on. -/
structure Activation (t : Handle) (s s₁ s₂ s' : Session ε) : Prop extends Begun T t s s₁ s₂ where
  after : Quiet T.kept s₂ s'

/-- A session with a process, and with the breakpoints that it had before. -/
def Activated (s s' : Session ε) : Prop := ∃ t s₁ s₂, Activation T t s s₁ s₂ s'

theorem Activated.quiet {T : EngineTheory ε} {s s' s'' : Session ε} (h : Activated T s s')
    (h' : Quiet T.kept s' s'') : Activated T s s'' := by
  obtain ⟨t, s₁, s₂, h⟩ := h
  exact ⟨t, s₁, s₂, h.toBegun, StepRelation.trans h.after h'⟩

variable [DebugEngine.Returns ε]

/-- Engine calls give an answer or an error. -/
theorem ends_perform_of_returns (c : Call) (s : Session ε) :
    Ends (perform c) s fun r s' => ∃ answer, r = .ok answer ∧
      (DebugEngine.perform c s.engine).1 = answer.mapError .error ∧
      s' = { s with engine := (DebugEngine.perform c s.engine).2 } := by
  have hreturns := DebugEngine.Returns.ne_crash c s.engine
  rw [ends_perform]
  rcases hperform : DebugEngine.perform c s.engine with ⟨(e | text) | a, engine⟩
  · exact ⟨.error e, rfl, rfl, rfl⟩
  · exact absurd (congrArg Prod.fst hperform) (hreturns text)
  · exact ⟨.ok a, rfl, rfl, rfl⟩

theorem ends_installPending (t : Handle) (pending : List BreakpointEntry) :
    ∀ s : Session ε, Ends (installPending t pending) s fun r s' =>
      r = .ok () ∧ Installs T.kept s s' := by
  induction pending with
  | nil => exact fun s => ⟨rfl, installs_engine s (StepRelation.refl _)⟩
  | cons e rest ih =>
    intro s
    have hengine := installs_engine s
      (EngineRelation.perform (E := T.kept) (.request t (.setBreakpoint e.address)) s.engine rfl)
    rw [installPending]
    refine (ends_perform_of_returns (.request t (.setBreakpoint e.address)) s).bind_ok ?_
    rintro answer s₁ ⟨-, rfl⟩
    cases answer with
    | error error => exact (ih _).mono fun r s' h => ⟨h.1, hengine.trans h.2⟩
    | ok info =>
      dsimp only
      rw [ends_modify_bind]
      refine (ih _).mono fun r s' h => ⟨h.1, hengine.trans (.trans ?_ h.2)⟩
      exact ⟨StepRelation.refl _, rfl, rfl, rfl, rfl, rfl, ids_install _ _ _⟩

/-- The target is that of the session then, and the breakpoints have the ids that they had. -/
theorem ends_activate (t : Handle) (s : Session ε) :
    Ends (activate t) s fun r s' => r = .ok () ∧ s'.lifecycle = .active ⟨t, true, none, 0⟩ ∧
      T.kept s.engine s'.engine ∧ s'.breakpoints.lastId = s.breakpoints.lastId ∧
      s'.breakpoints.entries.map (·.id) = s.breakpoints.entries.map (·.id) := by
  rw [activate, ends_get_bind]
  refine (ends_installPending T t _ s).bind_eq fun s' h => ?_
  exact ⟨rfl, rfl, h.engine, h.lastId, h.ids⟩

section Activated

variable {T}

/-- What an activation does to a session, but for the engine ids of its breakpoints. -/
theorem Activated.spec {s s' : Session ε} (h : Activated T s s') : IsActive s' ∧
    T.any s.engine s'.engine ∧ s'.breakpoints.lastId = s.breakpoints.lastId ∧
    s'.breakpoints.entries.map (·.id) = s.breakpoints.entries.map (·.id) := by
  obtain ⟨t, s₁, s₂, h⟩ := h
  obtain ⟨⟨-, heq⟩, -, hactive, hengine, hlast, hids⟩ := h.activates.and (ends_activate T t s₁)
  rw [heq] at hactive hengine hlast hids
  refine ⟨h.after.stage.isActive_iff.mp ⟨_, hactive⟩, ?_, ?_, ?_⟩
  · exact StepRelation.trans h.starting.engine
      (T.any_of_kept (StepRelation.trans hengine h.after.engine))
  · rw [h.after.breakpoints, hlast, h.starting.breakpoints]
  · rw [h.after.breakpoints, hids, h.starting.breakpoints]

theorem Activated.coherent {s s' : Session ε} (h : Activated T s s') (hs : Coherent s) :
    Coherent s' := by
  obtain ⟨hactive, -, hlast, hids⟩ := h.spec
  exact hs.activate hactive hlast hids

end Activated

theorem ends_deleteProcess {s : Session ε} (h : IsActive s) :
    Ends deleteProcess s fun r s' => r = .ok .ok ∧ Released T.any s s' := by
  obtain ⟨a, h⟩ := h
  rw [deleteProcess, ends_activeTarget_bind h, ends_modify_bind]
  refine (ends_perform_of_returns (.request a.target .destroy) _).bind_ok ?_
  rintro answer s' ⟨-, rfl⟩
  exact ⟨rfl, TotalRelation.call _ s.engine, rfl, rfl, rfl⟩

theorem ends_control {E : ε → ε → Prop} [EngineRelation E] (t : Handle) {r : Request}
    (hr : r.starts = false) (s : Session ε) :
    Ends (control t r) s fun result s' => ∃ answer, result = .ok answer ∧
      (DebugEngine.perform (.request t r) s.engine).1 = answer.mapError .error ∧
      Quiet E s s' := by
  have hreturns := DebugEngine.Returns.ne_crash (.request t r) s.engine
  have hquiet := moves_control (E := E) t hr s
  rw [control, ends_get_bind] at hquiet ⊢
  rcases hperform : DebugEngine.perform (.request t r) s.engine with ⟨(e | text) | a, engine⟩
  · rw [hperform] at hquiet
    exact ⟨.error e, rfl, rfl, hquiet⟩
  · exact absurd (congrArg Prod.fst hperform) (hreturns text)
  · rw [hperform] at hquiet
    exact ⟨.ok a, rfl, rfl, hquiet⟩

/-- The outcome of starting a process: it has begun, and what follows on that is good; or nothing
happened. -/
def Begins {α : Type} (good : Handle → Session ε → α → Session ε → Prop) (s : Session ε)
    (r : Except Failure α) (s' : Session ε) : Prop :=
  match r with
  | .ok a => ∃ t s₁ s₂, Begun T t s s₁ s₂ ∧ good t s₂ a s'
  | .error _ => Quiet T.any s s'

/-- A target is made and started, and what follows on its activation succeeds. -/
theorem ends_begin {α : Type} {good : Handle → Session ε → α → Session ε → Prop}
    (executable : Option String) (is64 : Bool) {r : Handle → Request}
    (hr : ∀ t, (r t).starts = true) (failed : DebugError → SessionError)
    {finish : Handle → Action ε α}
    (hfinish : ∀ t s, Ends (finish t) s fun r s' => ∃ a, r = .ok a ∧ good t s a s')
    (s : Session ε) :
    Ends (do
      let t ← createTarget executable is64
      startTarget t (r t) failed
      activate t
      finish t) s (Begins T good s) := by
  refine (ends_createTarget T executable is64 s).bind ?_ fun e s' h => h.1
  rintro t s₁ ⟨h₁, hfresh₁⟩
  refine (ends_startTarget T t (hr t) failed s₁).bind ?_ fun e s' h => StepRelation.trans h₁ h.1
  rintro _ s₂ ⟨h₂, hfresh₂⟩
  have hactivate := ends_activate T t s₂
  have hself : Ends (activate t) s₂ fun r s' => r = .ok () ∧ Ends (activate t) s₂ fun r u =>
      r = .ok () ∧ u = s' :=
    ⟨hactivate.1, hactivate.1, rfl⟩
  refine hself.bind_eq fun s₃ h₃ => ?_
  refine (hfinish t s₃).mono ?_
  rintro r s₄ ⟨a, rfl, ha⟩
  exact ⟨t, s₂, s₃, ⟨StepRelation.trans h₁ h₂, hfresh₂ rfl (hfresh₁ t rfl), h₃⟩, ha⟩

theorem ends_launchStopped (s : Session ε) : Ends launchStopped s
    (Begins T (fun t s₂ a s' => a = t ∧ s' = s₂ ∧ ¬IsActive s) s) := by
  have hbegin : ∀ e : Executable, ¬IsActive s → Ends (do
      let t ← createTarget (some e.path) e.is64
      startTarget t (.launch ⟨e.args, e.cwd, s.settings.launch.disableAslr, true⟩) .launchFailed
      activate t
      return t) s (Begins T (fun t s₂ a s' => a = t ∧ s' = s₂ ∧ ¬IsActive s) s) :=
    fun e hs => ends_begin T _ _ (fun _ => rfl) _ (fun t _ => ⟨t, rfl, rfl, rfl, hs⟩) s
  rw [launchStopped, ends_get_bind]
  rcases hl : s.lifecycle with _ | e | a
  · rcases s.lastPrepared with _ | e
    · exact StepRelation.refl s
    · exact hbegin e (not_isActive_of_lifecycle hl nofun)
  · exact hbegin e (not_isActive_of_lifecycle hl nofun)
  · exact StepRelation.refl s

/-- The request that lets a launched process run is answered by an error. -/
def ResumeFails (s : Session ε) : Prop :=
  s.settings.launch.stopAtEntry = false ∧ Ends launchStopped s fun r s' => ∃ t e, r = .ok t ∧
    (DebugEngine.perform (.request t .resume) s'.engine).1 = .error (.error e)

/-- What the second part of a launch does: it succeeds, or the process is released again because it
could not be resumed. -/
theorem ends_resumeLaunched (stopAtEntry : Bool) (t : Handle) {s : Session ε} (hs : IsActive s) :
    Ends (resumeLaunched stopAtEntry t) s fun r s' =>
      let failed := stopAtEntry = false ∧ ∃ e,
        (DebugEngine.perform (.request t .resume) s.engine).1 = .error (.error e)
      (¬failed ∧ (∃ response, r = .ok response ∧ response.isOk = true) ∧ Quiet T.kept s s') ∨
      (failed ∧ (∃ e, r = .error e) ∧ ∃ s₁, Quiet T.kept s s₁ ∧ Released T.any s₁ s') := by
  have hreply : ∀ s₁ : Session ε, Ends (do
      let pid ← observe t .processId
      return Response.ok.withMember "pid" (match pid with
        | some p => Json.ofNat p
        | none => .null)) s₁ fun r s' =>
      (∃ response, r = .ok response ∧ response.isOk = true) ∧ Quiet T.kept s₁ s' :=
    fun s₁ => ⟨⟨_, rfl, rfl⟩, moves_observe t .processId s₁⟩
  cases stopAtEntry with
  | true => exact (hreply s).mono fun r s' h => Or.inl ⟨fun hf => (nomatch hf.1), h⟩
  | false =>
    refine (ends_control (E := T.kept) t rfl s).bind_ok ?_
    rintro answer s₁ ⟨hanswer, h₁⟩
    cases answer with
    | ok a =>
      refine (hreply s₁).mono fun r s' h => Or.inl ⟨?_, h.1, StepRelation.trans h₁ h.2⟩
      rintro ⟨-, e, he⟩
      rw [hanswer] at he
      cases he
    | error e =>
      have hactive : IsActive s₁ := h₁.stage.isActive_iff.mp hs
      refine (ends_deleteProcess T hactive).bind_eq fun s₂ h₂ => ?_
      exact Or.inr ⟨⟨rfl, e, hanswer⟩, ⟨_, rfl⟩, s₁, h₁, h₂⟩

/-- A launch ends with a process, or without one if that could not be resumed; otherwise nothing
happened. -/
theorem ends_launch_cases (s : Session ε) : Ends launch s fun r s' =>
    match r with
    | .ok response => response.isOk = true ∧ ¬IsActive s ∧ ¬ResumeFails s ∧ Activated T s s'
    | .error _ => (ResumeFails s ∧ ∃ s₁, Activated T s s₁ ∧ Released T.any s₁ s') ∨
        (¬ResumeFails s ∧ Quiet T.any s s') := by
  rw [ends_launch]
  have hfails : Ends launchStopped s fun r s' => ResumeFails s ↔
      s.settings.launch.stopAtEntry = false ∧ ∃ t e, r = .ok t ∧
        (DebugEngine.perform (.request t .resume) s'.engine).1 = .error (.error e) := Iff.rfl
  refine ((ends_launchStopped T s).and hfails).bind ?_ ?_
  · rintro t s₁ ⟨⟨_, s₀, _, hbegun, rfl, rfl, hinactive⟩, hiff⟩
    have h₁ : Activated T s s₁ := ⟨t, s₀, s₁, hbegun, StepRelation.refl s₁⟩
    refine (ends_resumeLaunched T _ t h₁.spec.1).mono ?_
    rintro r s' (⟨hok, ⟨response, rfl, hresponse⟩, h'⟩ | ⟨⟨hstop, hfailed⟩, ⟨e, rfl⟩, s₂, h₂, h'⟩)
    · refine ⟨hresponse, hinactive, ?_, h₁.quiet h'⟩
      rw [hiff]
      rintro ⟨hstop, u, e, hu, he⟩
      cases hu
      exact hok ⟨hstop, e, he⟩
    · obtain ⟨e', he'⟩ := hfailed
      exact Or.inl ⟨hiff.mpr ⟨hstop, t, e', rfl, he'⟩, s₂, h₁.quiet h₂, h'⟩
  · rintro e s₁ ⟨h₁, hiff⟩
    refine Or.inr ⟨?_, h₁⟩
    rw [hiff]
    rintro ⟨-, t, e', ht, -⟩
    cases ht

/-- A reply is ok, and only quiet things follow on the beginning of a process. -/
def Replies (s : Session ε) (_ : Handle) (s₂ : Session ε) (response : Response) (s' : Session ε) :
    Prop :=
  response.isOk = true ∧ ¬IsActive s ∧ Quiet T.kept s₂ s'

theorem ends_attach (pid : Nat) (executable : Option String) (is64 : Bool) (s : Session ε) :
    Ends (attach pid executable is64) s (Begins T (Replies T s) s) := by
  by_cases hs : IsActive s
  · rw [attach, ends_requireInactive_active hs]
    exact StepRelation.refl s
  · rw [attach, ends_requireInactive_bind hs]
    refine ends_begin T _ _ (fun _ => rfl) _ (fun t s₁ => ?_) s
    refine (ends_perform_of_returns (.request t .mainModule) s₁).bind_ok ?_
    rintro answer s₂ ⟨-, rfl⟩
    have h₂ : Quiet T.kept s₁
        { s₁ with engine := (DebugEngine.perform (.request t .mainModule) s₁.engine).2 } :=
      quiet_engine s₁ (EngineRelation.perform _ _ rfl)
    split
    · exact ⟨_, rfl, isOk_withSlide _ _, hs, h₂⟩
    · exact ⟨_, rfl, rfl, hs, h₂⟩

theorem ends_connectRemote (is64 : Bool) (url plugin : String) (file : Option String)
    (s : Session ε) :
    Ends (connectRemote is64 url plugin file) s (Begins T (Replies T s) s) := by
  by_cases hs : IsActive s
  · rw [connectRemote, ends_requireInactive_active hs]
    exact StepRelation.refl s
  · rw [connectRemote, ends_requireInactive_bind hs, ends_get_bind]
    dsimp only
    split
    · exact ends_begin T _ _ (fun _ => rfl) _
        (fun t s₁ => ⟨_, rfl, rfl, hs, StepRelation.refl s₁⟩) s
    · exact StepRelation.refl s

/-! ### Letting go of a process -/

/-- Detaching releases the process if the target lets it go; otherwise nothing happened. -/
theorem ends_detach (s : Session ε) : Ends detach s fun r s' =>
    match r with
    | .ok response => response = .ok ∧ IsActive s ∧ Released T.any s s'
    | .error _ => Quiet T.kept s s' := by
  rw [detach, target, bind_assoc]
  by_cases hs : IsActive s
  · obtain ⟨a, ha⟩ := hs
    rw [ends_activeTarget_bind ha, pure_bind]
    refine (ends_control (E := T.kept) a.target rfl s).bind_ok ?_
    rintro answer s₁ ⟨-, h₁⟩
    cases answer with
    | error e => exact h₁
    | ok _ =>
      refine ⟨rfl, ⟨a, ha⟩, T.any_of_kept h₁.engine, rfl, ?_, rfl⟩
      show s₁.breakpoints.lastId = s.breakpoints.lastId
      rw [h₁.breakpoints]
  · rw [activeTarget, bind_assoc, ends_get_bind]
    rcases hl : s.lifecycle with _ | e | a
    · exact StepRelation.refl s
    · exact StepRelation.refl s
    · exact absurd ⟨a, hl⟩ hs

end Start

end Session

end DebugAdapter
