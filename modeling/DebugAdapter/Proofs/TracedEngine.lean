import DebugAdapter.Proofs.Inquiries
import DebugAdapter.Proofs.ProcessImages
import DebugAdapter.Proofs.SessionLifecycle
import DebugAdapter.Proofs.TracerActs

/-!
# The tracing engine from outside

A call of the engine runs operations of one tracer, and the kernel that all tracers share moves with
them. So a relation between systems of one tracer becomes one between engines, `Moved`: each target is
still there, and its system moved along the relation. `theory` collects what a session can know.
-/

namespace DebugAdapter.Engine.Traced

open Debuggee
open Linux
open Operation
open Tracer
open Tracer.BreakpointTable (Extends)

variable {κ : Type}

namespace Engine

/-- A target with the kernel. -/
def system? (e : Engine κ) (t : Handle) : Option (System κ) :=
  (e.targets[t]?).map fun target => ⟨e.kernel, target.state⟩

theorem kernel_of_system? {e : Engine κ} {t : Handle} {s : System κ} (h : e.system? t = some s) :
    s.kernel = e.kernel := by
  obtain ⟨target, -, rfl⟩ := Option.map_eq_some_iff.mp h
  rfl

theorem system?_subscribe (e : Engine κ) (t u : Handle) :
    (e.subscribe t).2.system? u = e.system? u := by
  rw [subscribe]
  rcases htarget : e.targets[t]? with _ | target
  · rfl
  · show ((e.targets.set t { target with subscribed := true })[u]?).map _ = _
    by_cases hu : u = t
    · subst hu
      have hlt : u < e.targets.length := (List.getElem?_eq_some_iff.mp htarget).1
      rw [List.getElem?_set_self hlt, system?, htarget]
      rfl
    · rw [List.getElem?_set_ne (Ne.symm hu)]
      rfl

theorem onTarget_none {α : Type} {e : Engine κ} {t : Handle} (h : e.system? t = none)
    (op : Tracing κ α) : e.onTarget t op = (.error (.error .tracerGone), e) := by
  rw [onTarget, Option.map_eq_none_iff.mp h]

/-- An operation of a target that is there. -/
theorem onTarget_eq {α : Type} {e : Engine κ} {t : Handle} {s : System κ}
    (h : e.system? t = some s) (op : Tracing κ α) :
    (e.onTarget t op).1 = (op.run.run s).1.mapError .error ∧
      (e.onTarget t op).2.kernel = (op.run.run s).2.kernel ∧
      (e.onTarget t op).2.system? t = some (op.run.run s).2 ∧
      ∀ u target, u ≠ t → e.targets[u]? = some target →
        (e.onTarget t op).2.targets[u]? = some target := by
  obtain ⟨target, htarget, rfl⟩ := Option.map_eq_some_iff.mp h
  have honTarget : e.onTarget t op =
      ((op.run.run ⟨e.kernel, target.state⟩).1.mapError .error,
        ⟨(op.run.run ⟨e.kernel, target.state⟩).2.kernel,
          e.targets.set t { target with state := (op.run.run ⟨e.kernel, target.state⟩).2.tracer }⟩) := by
    rw [onTarget, htarget]
    rfl
  rw [honTarget]
  refine ⟨rfl, rfl, ?_, ?_⟩
  · have hlt : t < e.targets.length := (List.getElem?_eq_some_iff.mp htarget).1
    rw [system?, List.getElem?_set_self hlt]
    rfl
  · intro u other hu hother
    show (e.targets.set t _)[u]? = _
    rw [List.getElem?_set_ne (Ne.symm hu)]
    exact hother

/-- An operation of a target that has no result leaves no trace, and one with a result is one of a
target that is there. -/
theorem system?_of_onTarget_ok {α : Type} {e : Engine κ} {t : Handle} {op : Tracing κ α} {a : α}
    (h : (e.onTarget t op).1 = .ok a) : ∃ s, e.system? t = some s ∧ (op.run.run s).1 = .ok a := by
  rcases hs : e.system? t with _ | s
  · rw [onTarget_none hs] at h
    cases h
  · refine ⟨s, rfl, ?_⟩
    rw [(onTarget_eq hs op).1] at h
    rcases hrun : (op.run.run s).1 with error | b
    · rw [hrun] at h
      cases h
    · rw [hrun] at h
      cases h
      rfl

end Engine

variable [Kernel κ]

instance : DebugEngine.Returns (Engine κ) where
  ne_crash c e text := by
    have honTarget : ∀ {α : Type} (e : Engine κ) (t : Handle) (op : Tracing κ α),
        (e.onTarget t op).1 ≠ .error (.crash text) := by
      intro α e t op
      rw [Engine.onTarget]
      rcases e.targets[t]? with _ | target
      · exact nofun
      · show (op.run.run ⟨e.kernel, target.state⟩).1.mapError Fault.error ≠ _
        rcases (op.run.run ⟨e.kernel, target.state⟩).1 with error | a
        · exact nofun
        · exact nofun
    cases c with
    | createTarget executable arch =>
      show (e.create executable arch).1 ≠ _
      rw [Engine.create]
      split
      · exact nofun
      · split
        · exact nofun
        · exact nofun
    | rawCommand focus line => exact nofun
    | complete line position => exact nofun
    | request t r =>
      show (e.answer t r).1 ≠ _
      rw [Engine.answer]
      dsimp only
      split
      · exact honTarget e t _
      · exact honTarget e t _

namespace Engine

/-- The operation that takes the events of a target. -/
theorem moves_take {R : System κ → System κ → Prop} [TracerRelation R]
    (htrap : ∀ tid, Moves R (Tracing.trapSeen tid : Tracing κ Unit)) :
    Moves R (do
      Tracing.poll
      let events := (← Tracing.tracer).events
      Tracing.modifyTracer fun s => { s with events := [] }
      return events : Tracing κ (List Event)) := by
  refine (Tracing.moves_poll htrap).bind fun _ => ?_
  refine Tracing.moves_tracer.bind fun t => ?_
  have hforget : Moves R (Tracing.modifyTracer fun s => { s with events := [] }) :=
    Tracing.moves_modifyTracer (fun _ => rfl) (fun _ h => h) fun _ => rfl
  exact hforget.bind fun _ => Moves.pure _

/-- A request that starts no process is an operation that moves along all relations of requests. -/
theorem moves_operation {R : System κ → System κ → Prop} [RequestRelation R] {r : Request}
    (hr : r.starts = false) : Moves R (operation r : Tracing κ r.Answer) := by
  cases r with
  | launch info => cases hr
  | attach pid => cases hr
  | connectRemote url plugin => cases hr
  | resume => exact Tracing.moves_resume
  | interrupt => exact Tracing.moves_interrupt
  | kill => exact Tracing.moves_kill
  | detach => exact Tracing.moves_detach Tracing.moves_forget
  | destroy => exact Tracing.moves_destroy Tracing.moves_forget
  | step tid kind => exact Tracing.moves_step tid kind
  | _ => exact Tracing.moves_operation_of_isAside rfl

/-- A request that starts a process moves along relations that bear one to be taken charge of. -/
theorem moves_operation_of_starts {R : System κ → System κ → Prop} [TogglingRelation R]
    (hadopt : ∀ p : Process, Moves R (Tracing.adopt p : Tracing κ Unit)) {r : Request}
    (hr : r.starts = true) : Moves R (operation r : Tracing κ r.Answer) := by
  cases r with
  | launch info => exact Tracing.moves_launch hadopt info
  | attach pid => exact Tracing.moves_attach hadopt pid
  | connectRemote url plugin => exact Moves.throw _
  | _ => cases hr

theorem takeEvents_snd (e : Engine κ) (t : Handle) : (e.takeEvents t).2 = (e.onTarget t (do
    Tracing.poll
    let events := (← Tracing.tracer).events
    Tracing.modifyTracer fun s => { s with events := [] }
    return events)).2 := by
  rw [takeEvents]
  dsimp only
  split
  · rename_i h
    rw [h]
  · rename_i h
    rw [h]

/-- What a request does to its target that leaves the process where it is. -/
theorem perform_of_system {e : Engine κ} {t : Handle} {r : Request} (hr : movesProcess r = false)
    {s : System κ} (hs : e.system? t = some s) :
    (DebugEngine.perform (.request t r) e).1 = ((operation r).run.run s).1.mapError .error ∧
      (DebugEngine.perform (.request t r) e).2.system? t = some ((operation r).run.run s).2 := by
  have hanswer : DebugEngine.perform (.request t r) e = e.onTarget t (operation r) := by
    show e.answer t r = _
    rw [answer, hr]
    rfl
  obtain ⟨hresult, -, hsystem, -⟩ := onTarget_eq hs (operation r)
  rw [hanswer]
  exact ⟨hresult, hsystem⟩

theorem answer_of_starts (e : Engine κ) (t : Handle) {r : Request} (hr : r.starts = true) :
    (e.answer t r).2 = (e.onTarget t (operation r)).2 := by
  cases r with
  | launch info => rfl
  | attach pid => rfl
  | connectRemote url plugin => rfl
  | _ => cases hr

/-- A target without breakpoints. -/
def Fresh (e : Engine κ) (t : Handle) : Prop :=
  ∃ s, e.system? t = some s ∧ s.tracer.breakpoints.entries = []

/-- A new target has no breakpoints. -/
theorem fresh_create (executable : Option String) (arch : Arch) (e : Engine κ) (t : Handle)
    (h : (e.create executable arch).1 = .ok t) : Fresh (e.create executable arch).2 t := by
  rw [create] at h ⊢
  split at h
  · cases h
  · rename_i harch
    rw [if_neg harch]
    split at h
    · cases h
    · rename_i program _
      cases h
      refine ⟨⟨e.kernel, .new program⟩, ?_, rfl⟩
      show ((e.targets ++ [⟨.new program, false⟩])[e.targets.length]?).map _ = _
      rw [List.getElem?_concat_length]
      rfl

variable [ExecCount κ] {T : BreakpointTable → BreakpointTable → Prop}

/-- Every target is still there, and its system moved along a relation. -/
structure Moved (T : BreakpointTable → BreakpointTable → Prop) (e e' : Engine κ) : Prop where
  execs : ExecCount.execs e.kernel ≤ ExecCount.execs e'.kernel
  system : ∀ t s, e.system? t = some s → ∃ s', e'.system? t = some s' ∧ Along T s s'

instance [StepRelation T] : StepRelation (Moved T : Engine κ → Engine κ → Prop) where
  refl _ := ⟨Nat.le_refl _, fun _ s h => ⟨s, h, StepRelation.refl s⟩⟩
  trans h h' :=
    { execs := Nat.le_trans h.execs h'.execs
      system := by
        intro t s hs
        obtain ⟨s', hs', hss'⟩ := h.system t s hs
        obtain ⟨s'', hs'', hss''⟩ := h'.system t s' hs'
        exact ⟨s'', hs'', StepRelation.trans hss' hss''⟩ }

/-- Only the kernel moves. -/
theorem along_kernel [StepRelation T] {k k' : κ} (h : ExecCount.execs k ≤ ExecCount.execs k')
    (state : State) : Along T ⟨k, state⟩ ⟨k', state⟩ :=
  ⟨h, id, id, fun _ _ _ => StepRelation.refl _⟩

/-- What an operation does to the system of its target, it does to the engine. -/
theorem moved_of_system [StepRelation T] {α : Type} {op : Tracing κ α} {e : Engine κ} {t : Handle}
    (h : ∀ s, e.system? t = some s → Ends op s fun _ s' => Along T s s') :
    Moved T e (e.onTarget t op).2 := by
  rcases hs : e.system? t with _ | s
  · rw [onTarget_none hs]
    exact StepRelation.refl e
  · obtain ⟨-, hkernel, hsystem, hothers⟩ := onTarget_eq hs op
    have hmoves : Along T s (op.run.run s).2 := h s hs
    have hexecs : ExecCount.execs e.kernel ≤ ExecCount.execs (e.onTarget t op).2.kernel := by
      rw [← kernel_of_system? hs, hkernel]
      exact hmoves.execs
    refine ⟨hexecs, ?_⟩
    intro u su hsu
    by_cases hu : u = t
    · subst hu
      cases hs.symm.trans hsu
      exact ⟨_, hsystem, hmoves⟩
    · obtain ⟨target, htarget, rfl⟩ := Option.map_eq_some_iff.mp hsu
      refine ⟨⟨(e.onTarget t op).2.kernel, target.state⟩, ?_, along_kernel hexecs target.state⟩
      rw [system?, hothers u target hu htarget]
      rfl

theorem moved_onTarget [StepRelation T] {α : Type} {op : Tracing κ α} (h : Moves (Along T) op)
    (e : Engine κ) (t : Handle) : Moved T e (e.onTarget t op).2 :=
  moved_of_system fun s _ => h s

/-! ### Requests and events -/

theorem moved_answer (e : Engine κ) (t : Handle) {r : Request} (hr : r.starts = false) :
    Moved Extends e (e.answer t r).2 := by
  have hrequest : Moved Extends e (e.onTarget t (operation r)).2 :=
    moved_onTarget (moves_operation hr) e t
  rw [answer]
  dsimp only
  split
  · exact StepRelation.trans hrequest
      (moved_onTarget (Tracing.moves_poll Tracing.moves_trapSeen) _ t)
  · exact hrequest

/-- A new target leaves the others alone. -/
theorem moved_create (e : Engine κ) (executable : Option String) (arch : Arch) :
    Moved Extends e (e.create executable arch).2 := by
  rw [create]
  split
  · exact StepRelation.refl e
  · split
    · exact StepRelation.refl e
    · rename_i program _
      refine ⟨Nat.le_refl _, fun t s hs => ⟨s, ?_, StepRelation.refl s⟩⟩
      obtain ⟨target, htarget, rfl⟩ := Option.map_eq_some_iff.mp hs
      have hlt : t < e.targets.length := (List.getElem?_eq_some_iff.mp htarget).1
      show ((e.targets ++ [⟨.new program, false⟩])[t]?).map _ = _
      rw [List.getElem?_append_left hlt, htarget]
      rfl

theorem moved_subscribe [StepRelation T] (e : Engine κ) (t : Handle) : Moved T e (e.subscribe t).2 := by
  refine ⟨?_, fun u s hs => ⟨s, ?_, StepRelation.refl s⟩⟩
  · rw [subscribe]
    rcases e.targets[t]? with _ | target
    · exact Nat.le_refl _
    · exact Nat.le_refl _
  · rw [system?_subscribe]
    exact hs

/-- Looking at a target handles the statuses of its process. -/
theorem moved_observe [StepRelation T] [TracerRelation (Along T : System κ → System κ → Prop)]
    (htrap : ∀ tid, Moves (Along T) (Tracing.trapSeen tid : Tracing κ Unit))
    (t : Handle) (q : Query) (e : Engine κ) : Moved T e (DebugEngine.observe t q e).2 := by
  cases q with
  | subscribe => exact moved_subscribe e t
  | events =>
    show Moved T e (e.takeEvents t).2
    rw [takeEvents_snd]
    exact moved_onTarget (moves_take htrap) e t
  | processId => exact StepRelation.refl e
  | state => exact StepRelation.refl e
  | stopInfo => exact StepRelation.refl e
  | exitStatus => exact StepRelation.refl e

theorem moved_perform (c : Call) (e : Engine κ) (hc : c.starts = false) :
    Moved Extends e (DebugEngine.perform c e).2 := by
  cases c with
  | createTarget executable arch => exact moved_create e executable arch
  | rawCommand focus line => exact StepRelation.refl e
  | complete line position => exact StepRelation.refl e
  | request t r => exact moved_answer e t hc

instance : EngineRelation (Moved Extends : Engine κ → Engine κ → Prop) where
  perform := moved_perform
  observe := moved_observe Tracing.moves_trapSeen
  inquiry focus line e i hi := by
    cases hi
    exact (Console.asks_execute focus line).run (fun t r e hr => moved_perform (.request t r) e hr)
      (moved_observe Tracing.moves_trapSeen)

/-- Announced images stay announced. -/
def Counts (e e' : Engine κ) : Prop := ExecCount.execs e.kernel ≤ ExecCount.execs e'.kernel

/-- What a starting request does to a target that is there. -/
theorem onTarget_blank {α : Type} {op : Tracing κ α} (h : Moves Blank op) {e : Engine κ}
    {t : Handle} {s : System κ} (hs : e.system? t = some s) :
    Counts e (e.onTarget t op).2 ∧
      ∃ s', (e.onTarget t op).2.system? t = some s' ∧ Blank s s' := by
  obtain ⟨-, hkernel, hsystem, -⟩ := onTarget_eq hs op
  have hmoves : Blank s (op.run.run s).2 := h s
  refine ⟨?_, _, hsystem, hmoves⟩
  rw [Counts, ← kernel_of_system? hs, hkernel]
  exact hmoves.execs

theorem counts_perform (c : Call) (e : Engine κ) : Counts e (DebugEngine.perform c e).2 := by
  by_cases hc : c.starts = false
  · exact (moved_perform c e hc).execs
  · cases c with
    | request t r =>
      have hr : r.starts = true := Bool.not_eq_false _ ▸ hc
      show Counts e (e.answer t r).2
      rw [answer_of_starts e t hr]
      rcases hs : e.system? t with _ | s
      · rw [onTarget_none hs]
        exact Nat.le_refl _
      · exact (onTarget_blank (moves_operation_of_starts Tracing.moves_adopt hr) hs).1
    | _ => exact absurd rfl hc

instance : TotalRelation (Counts : Engine κ → Engine κ → Prop) where
  refl _ := Nat.le_refl _
  trans h h' := Nat.le_trans h h'
  perform c e _ := counts_perform c e
  observe t q e := (EngineRelation.observe (E := Moved Extends) t q e).execs
  inquiry focus line e i hi e' :=
    (EngineRelation.inquiry (E := Moved Extends) focus line e i hi e').execs
  call := counts_perform

/-- Looking at a target sets no breakpoint. -/
theorem fresh_observe (t : Handle) (q : Query) (e : Engine κ) (h : Fresh e t) :
    Fresh (DebugEngine.observe t q e).2 t := by
  obtain ⟨s, hs, hentries⟩ := h
  cases q with
  | subscribe =>
    refine ⟨s, ?_, hentries⟩
    rw [← hs]
    exact system?_subscribe e t t
  | events =>
    obtain ⟨-, s', hs', hblank⟩ := onTarget_blank (moves_take Tracing.moves_trapSeen) hs
    refine ⟨s', ?_, hblank.entries hentries⟩
    rw [← hs', ← takeEvents_snd]
    rfl
  | processId => exact ⟨s, hs, hentries⟩
  | state => exact ⟨s, hs, hentries⟩
  | stopInfo => exact ⟨s, hs, hentries⟩
  | exitStatus => exact ⟨s, hs, hentries⟩

/-- What a session can know of the engine. -/
def theory : EngineTheory (Engine κ) where
  any := Counts
  kept := Moved Extends
  fresh := Fresh
  any_of_kept h := h.execs
  fresh_create := fresh_create
  fresh_start t r e hr h := by
    obtain ⟨s, hs, hentries⟩ := h
    obtain ⟨-, s', hs', hblank⟩ := onTarget_blank (moves_operation_of_starts Tracing.moves_adopt hr) hs
    refine ⟨s', ?_, hblank.entries hentries⟩
    show (e.answer t r).2.system? t = some s'
    rw [answer_of_starts e t hr]
    exact hs'
  fresh_observe := fresh_observe

end Engine

end DebugAdapter.Engine.Traced
