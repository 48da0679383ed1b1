import DebugAdapter.Proofs.HaltedThreads

/-!
# Starts of a process

A launch and an attach go the same way: what was published about an earlier process is forgotten, a
process is made, the tracer takes charge of it and reports its first stop; without a process the state
is the initial one again. `Beginning` says what an outcome must bear for it to be one of such an
operation. The threads of a process that was made do not run.

Main statements: `ends_launchToEntry` and `ends_attach`.
-/

namespace DebugAdapter.Tracer

open Debuggee
open Linux
open Operation

/-- A tracer that has begun to make a process. -/
def State.begun (t : State) (state : ProcessState) : State :=
  { t with
    snapshot := { Snapshot.unloaded with state }
    events := t.events ++ [.stateChanged state] }

/-- A tracer that failed to make a process. -/
def State.unloaded (t : State) : State :=
  { t with
    snapshot := { t.snapshot with state := .unloaded }
    events := t.events ++ [.stateChanged .unloaded] }

/-- A tracer that has taken charge of a process. -/
def State.adopting (t : State) (p : Process) : State :=
  { t with
    process := some p
    breakpoints := .empty
    modules := t.modules.clear
    snapshot := { t.snapshot with pid := some p.pid } }

variable {κ α : Type} [Kernel κ]

/-- The outcomes of an operation that makes a process: it is refused, it fails, or a process that does
not run is taken charge of. -/
structure Beginning (state : ProcessState) (s : System κ)
    (Q : Except DebugError Unit → System κ → Prop) : Prop where
  refused : ∀ e, Q (.error e) s
  failed : s.tracer.process = none → ∀ e k, Q (.error e) ⟨k, (s.tracer.begun state).unloaded⟩
  started : s.tracer.process = none → ∀ (p : Process) (stop : Stop) (program : Option String) (k : κ),
    p.isRunning = false → p.plan = none →
    Ends (Tracing.reportStop stop)
      ⟨k, { s.tracer.begun state with executable := program }.adopting p⟩ Q

namespace Tracing

omit [Kernel κ] in
/-- An operation that makes a process, and touches no tracer before. -/
theorem ends_orUnload {m : Tracing κ α} (hm : Moves SameTracer m) (s : System κ) :
    Ends (orUnload m) s fun r s' =>
      match r with
      | .ok _ => s'.tracer = s.tracer
      | .error _ => s'.tracer = s.tracer.unloaded := by
  rw [orUnload, ends_tryCatch]
  refine (hm s).mono fun r t h => ?_
  cases r with
  | ok a => exact h.tracer
  | error e =>
    show t.tracer.unloaded = s.tracer.unloaded
    rw [h.tracer]

omit [Kernel κ] in
theorem ends_adopt_bind (p : Process) (f : Unit → Tracing κ α) (s : System κ)
    (Q : Except DebugError α → System κ → Prop) :
    Ends (adopt p >>= f) s Q ↔ Ends (f ()) { s with tracer := s.tracer.adopting p } Q := by
  rw [adopt, bind_assoc, ends_modifyTracer_bind, modifySnapshot, ends_modifyTracer_bind]
  rfl

section Beginning

variable {s : System κ} {Q : Except DebugError Unit → System κ → Prop}

theorem ends_launchToEntry (info : LaunchInfo) (h : Beginning .launching s Q) :
    Ends (launchToEntry info) s Q := by
  rw [launchToEntry, hasProcess, bind_assoc, ends_tracer_bind, pure_bind]
  rcases hp : s.tracer.process with _ | p
  · show Ends (tracer >>= _) s _
    rw [ends_tracer_bind]
    split
    · exact h.refused _
    · rename_i program hprogram
      rw [ends_begin_bind]
      refine (ends_orUnload (moves_startProgram program info) _).bind ?_ ?_
      · rintro pid ⟨k, t⟩ ht
        have ht : t = { s.tracer.begun .launching with executable := s.tracer.executable } := ht
        subst ht
        rw [ends_programOf_bind, ends_adopt_bind]
        exact h.started hp _ _ _ k rfl rfl
      · rintro e ⟨k, t⟩ ht
        have ht : t = (s.tracer.begun .launching).unloaded := ht
        subst ht
        exact h.failed hp e k
  · exact h.refused _

/-! ### Attaching -/

/-- A thread that was attached to does not run. -/
theorem halted_attachThread (pid tid : Nat) (s : System κ) : Ends (attachThread pid tid) s fun r _ =>
    ∀ t, r = .ok (some t) → t.tid = tid ∧ t.running = false := by
  have hjudge : ∀ status (s : System κ), Ends (judgeAttach tid status) s fun r s' =>
      SameTracer s s' ∧ ∀ a, r = .ok (some a) → ∀ t, a = some t → t.tid = tid ∧ t.running = false := by
    intro status s
    refine (moves_judgeAttach tid status s).and ?_
    rw [judgeAttach.eq_def]
    split
    · rintro _ ⟨⟩ _ ⟨⟩
      exact ⟨rfl, rfl⟩
    · rintro _ ⟨⟩ _ ⟨⟩
      exact ⟨rfl, rfl⟩
    · rintro _ ⟨⟩ _ ⟨⟩
    · rintro _ ⟨⟩ _ ⟨⟩
    · rintro _ ⟨⟩
  rw [attachThread]
  refine Ends.bind (P := fun _ _ => True) True.intro (fun answer s₁ _ => ?_) fun _ _ _ => by rintro _ ⟨⟩
  split
  · split
    · rintro _ ⟨⟩
    · rintro _ ⟨⟩
  · rintro _ ⟨⟩
  · refine (ends_await (some tid) hjudge s₁).bind ?_ fun _ _ _ => by rintro _ ⟨⟩
    rintro result s₂ ⟨-, hresult⟩
    split
    · rintro _ ⟨⟩
    · rintro _ ⟨⟩
    · rename_i thread
      refine Ends.bind (P := fun _ _ => True) True.intro (fun _ _ _ => ?_) fun _ _ _ => by rintro _ ⟨⟩
      rintro _ ⟨⟩
      exact hresult _ rfl thread rfl

theorem halted_attachThreads (pid : Nat) (tids : List Nat) :
    ∀ (attached : List Thread) (s : System κ), (∀ t ∈ attached, t.running = false) →
    Ends (attachThreads pid tids attached) s fun r _ =>
      ∀ threads, r = .ok threads → ∀ t ∈ threads, t.running = false := by
  induction tids with
  | nil =>
    rintro attached s h _ ⟨⟩
    exact h
  | cons tid rest ih =>
    intro attached s h
    refine (halted_attachThread pid tid s).bind ?_ fun _ _ _ => nofun
    intro thread s₁ hthread
    split
    · rename_i thread
      refine ih _ s₁ fun t ht => ?_
      rcases Process.mem_insertThread ht with rfl | ht
      · exact (hthread _ rfl).2
      · exact h t ht
    · exact ih _ s₁ h

theorem halted_attachRounds (pid rounds : Nat) : ∀ (a : Attached) (s : System κ),
    (∀ t ∈ a.threads, t.running = false) →
    Ends (attachRounds pid rounds a) s fun r _ =>
      ∀ b, r = .ok b → ∀ t ∈ b.threads, t.running = false := by
  induction rounds with
  | zero =>
    rintro a s h _ ⟨⟩
    exact h
  | succ rounds ih =>
    intro a s h
    rw [attachRounds, ends_get_bind]
    split
    · split
      · exact nofun
      · rintro _ ⟨⟩
        exact h
    · refine (halted_attachThreads pid _ a.threads s h).bind ?_ fun _ _ _ => nofun
      exact fun threads s₁ hthreads => ih _ s₁ (hthreads threads rfl)

theorem ends_attach (pid : Nat) (h : Beginning .attaching s Q) : Ends (attach pid) s Q := by
  rw [attach, hasProcess, bind_assoc, ends_tracer_bind, pure_bind]
  rcases hp : s.tracer.process with _ | p
  · show Ends (begin .attaching >>= _) s _
    rw [ends_begin_bind]
    let s₁ : System κ := ⟨s.kernel, s.tracer.begun .attaching⟩
    have hthreads : Ends (orUnload (attachRounds pid 2 ⟨[], none⟩)) s₁ fun r _ =>
        ∀ b, r = .ok b → ∀ t ∈ b.threads, t.running = false := by
      rw [orUnload, ends_tryCatch]
      refine (halted_attachRounds pid 2 _ s₁ fun _ h => absurd h List.not_mem_nil).mono ?_
      intro r u h
      cases r with
      | ok b => exact h
      | error e => rintro _ ⟨⟩
    refine ((ends_orUnload (moves_attachRounds pid 2 _) s₁).and hthreads).bind ?_ ?_
    · rintro attached ⟨k, t⟩ ⟨ht, hhalted⟩
      have ht : t = s.tracer.begun .attaching := ht
      subst ht
      rw [ends_modifyTracer_bind, ends_programOf_bind, ends_adopt_bind]
      refine h.started hp _ _ _ k (List.any_eq_false.mpr fun t ht => ?_) rfl
      exact ne_true_of_eq_false (hhalted attached rfl t ht)
    · rintro e ⟨k, t⟩ ⟨ht, -⟩
      have ht : t = (s.tracer.begun .attaching).unloaded := ht
      subst ht
      exact h.failed hp e k
  · exact h.refused _

end Beginning

end Tracing

end DebugAdapter.Tracer
