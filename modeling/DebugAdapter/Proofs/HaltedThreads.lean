import DebugAdapter.Proofs.TracerRequests

/-!
# Threads that are stopped

While threads are stopped none goes on (`Slows`), and a thread that was awaited is stopped or gone
(`Halted`), whatever it and the others report meanwhile. So no thread runs after all were stopped.
-/

namespace DebugAdapter.Tracer

open Debuggee
open Linux
open Operation

variable {κ : Type}

/-- No process appears, and no thread goes on. -/
structure Slows (s s' : System κ) : Prop where
  process : s.tracer.process = none → s'.tracer.process = none
  running : ∀ p p', s.tracer.process = some p → s'.tracer.process = some p' →
    ∀ tid ∈ p'.runningThreads, tid ∈ p.runningThreads

/-- A thread does not run. -/
def Halted (tid : Nat) (s : System κ) : Prop :=
  ∀ p, s.tracer.process = some p → tid ∉ p.runningThreads

theorem Slows.of_process {s s' : System κ} (h : s'.tracer.process = s.tracer.process) :
    Slows s s' := by
  refine ⟨h.trans, fun p p' hp hp' tid htid => ?_⟩
  rw [h, hp] at hp'
  cases hp'
  exact htid

theorem Slows.of_gone {s s' : System κ} (h : s'.tracer.process = none) : Slows s s' :=
  ⟨fun _ => h, fun _ _ _ hp' => by cases h.symm.trans hp'⟩

/-- A thread that does not run stays so. -/
theorem Slows.halted {s s' : System κ} {tid : Nat} (h : Slows s s') (htid : Halted tid s) :
    Halted tid s' := by
  intro p' hp' hmem
  rcases hp : s.tracer.process with _ | p
  · cases (h.process hp).symm.trans hp'
  · exact htid p hp (h.running p p' hp hp' tid hmem)

instance : StepRelation (Slows : System κ → System κ → Prop) where
  refl _ := .of_process rfl
  trans {s t u} h h' := by
    refine ⟨fun hs => h'.process (h.process hs), fun p p' hp hp' tid htid => ?_⟩
    rcases hq : t.tracer.process with _ | q
    · cases (h'.process hq).symm.trans hp'
    · exact h.running p q hp hq tid (h'.running q p' hq hp' tid htid)

variable [Kernel κ]

instance : ModulesRelation (Slows : System κ → System κ → Prop) where
  look _ _ _ := .of_process rfl
  modules _ _ hprocess _ _ _ _ := .of_process hprocess

instance : HaltRelation (Slows : System κ → System κ → Prop) where
  probe _ _ _ := .of_process rfl
  halt _ p p' hp _ hrunning := by
    refine ⟨fun hnone => (nomatch hnone.symm.trans hp), fun p₀ p₁ hp₀ hp₁ => ?_⟩
    cases hp.symm.trans hp₀
    cases hp₁
    exact hrunning
  exited _ _ _ := .of_gone rfl

namespace Tracing

variable {α : Type}

/-- What a wait does, by what is made of the statuses: `P` holds of what ends it. -/
theorem ends_await {R : System κ → System κ → Prop} [ProbeRelation R] (tid : Option Nat)
    {judge : WaitStatus → Tracing κ (Option α)} {P : α → System κ → Prop}
    (h : ∀ status s, Ends (judge status) s fun r s' => R s s' ∧ ∀ a, r = .ok (some a) → P a s')
    (s : System κ) : Ends (await tid judge) s fun r s' => R s s' ∧ ∀ a, r = .ok (.ok a) → P a s' := by
  have hcall : Moves R (attempt (.wait tid) : Tracing κ _) := moves_probe rfl
  refine ends_await_of (I := R s) (fun t ht => ⟨ht, nofun⟩)
    (fun t _ ht _ => ⟨StepRelation.trans ht (hcall t), nofun⟩) (fun t status ht _ => ?_)
    (StepRelation.refl s)
  refine (h status _).mono ?_
  rintro r u ⟨hjudge, hresult⟩
  have hu : R s u := StepRelation.trans (StepRelation.trans ht (hcall t)) hjudge
  rcases r with e | _ | a
  · exact ⟨hu, nofun⟩
  · exact hu
  · refine ⟨hu, ?_⟩
    rintro _ ⟨⟩
    exact hresult a rfl

omit [Kernel κ] in
theorem halted_markStopped (tid : Nat) (s : System κ) :
    Ends (markStopped tid) s fun r s' => r = .ok () ∧ Halted tid s' := by
  refine ⟨rfl, fun p' hp' hmem => ?_⟩
  obtain ⟨p, -, rfl⟩ := Option.map_eq_some_iff.mp hp'
  obtain ⟨t', ht', hrunning, htid⟩ := Process.mem_runningThreads.mp hmem
  obtain ⟨t, -, rfl⟩ := List.mem_map.mp ht'
  split at hrunning
  · cases hrunning
  · rename_i hne
    rw [if_neg hne] at htid
    exact hne htid

omit [Kernel κ] in
theorem halted_threadGone (tid : Nat) (status : Option Int) (s : System κ) :
    Ends (threadGone tid status) s fun r s' => r = .ok () ∧ Halted tid s' := by
  rw [threadGone, ends_tracer_bind]
  split
  · rename_i hnone
    exact ⟨rfl, fun p hp => by cases hnone.symm.trans hp⟩
  · rename_i p hp
    rw [modifyProcess, ends_modifyTracer_bind]
    split
    · exact ⟨rfl, by rintro _ ⟨⟩⟩
    · refine ⟨rfl, fun p' hp' hmem => ?_⟩
      obtain ⟨q, -, rfl⟩ := Option.map_eq_some_iff.mp hp'
      obtain ⟨t, ht, -, htid⟩ := Process.mem_runningThreads.mp hmem
      exact of_decide_eq_true (List.mem_filter.mp ht).2 htid

/-- A thread that was awaited and is gone does not run. -/
theorem halted_settle (tid : Nat) (status : WaitStatus) (s : System κ) :
    Ends (settle tid status) s fun r s' =>
      Slows s s' ∧ ∀ present, r = .ok (some present) → present = false → Halted tid s' := by
  refine (moves_settle tid status s).and ?_
  have hgone : ∀ code, Ends (do threadGone tid code; return some false) s fun r s' =>
      ∀ present, r = .ok (some present) → present = false → Halted tid s' := by
    intro code
    refine (halted_threadGone tid code s).bind_eq fun s' h => ?_
    exact fun _ _ _ => h
  have hstays : ∀ {β : Type} (m : Tracing κ β) (v : Option Bool), v ≠ some false →
      Ends (do let _ ← m; return v) s fun r s' =>
        ∀ present, r = .ok (some present) → present = false → Halted tid s' := by
    intro β m v hv
    refine Ends.bind (P := fun _ _ => True) True.intro (fun _ _ _ => ?_) fun _ _ _ => by rintro _ ⟨⟩
    rintro _ ⟨⟩ rfl
    exact absurd rfl hv
  rw [settle.eq_def]
  split
  · exact hstays _ _ (by rintro ⟨⟩)
  · refine Ends.bind (P := fun _ _ => True) True.intro (fun trap s₁ _ => ?_) fun _ _ _ => by rintro _ ⟨⟩
    cases trap with
    | breakpoint address =>
      refine Ends.bind (P := fun _ _ => True) True.intro (fun _ _ _ => ?_) fun _ _ _ => by rintro _ ⟨⟩
      rintro _ ⟨⟩ ⟨⟩
    | step => rintro _ ⟨⟩ ⟨⟩
    | programTrap => rintro _ ⟨⟩ ⟨⟩
    | signal =>
      refine Ends.bind (P := fun _ _ => True) True.intro (fun _ _ _ => ?_) fun _ _ _ => by rintro _ ⟨⟩
      rintro _ ⟨⟩ ⟨⟩
  · exact hstays _ _ (by rintro ⟨⟩)
  · split
    · exact hstays _ _ (by rintro ⟨⟩)
    · split
      · exact hstays _ _ (by rintro ⟨⟩)
      · rintro _ ⟨⟩ ⟨⟩
  · exact hgone _
  · exact hgone _
  · rintro _ ⟨⟩

/-- A thread that was awaited does not run. -/
theorem halted_awaitStop (tid : Nat) (s : System κ) : Ends (awaitStop tid) s fun r s' =>
    Slows s s' ∧ (r = .ok () → Halted tid s') := by
  refine (moves_awaitStop tid s).and ?_
  refine (ends_await (some tid) (halted_settle tid) s).bind ?_ fun _ _ _ => nofun
  rintro result s₁ ⟨-, hgone⟩
  split
  · exact (halted_markStopped tid s₁).mono fun _ _ h _ => h.2
  · exact fun _ => hgone false rfl rfl
  · exact (halted_threadGone tid none s₁).mono fun _ _ h _ => h.2
  · exact nofun

theorem halted_stopThread (tid : Nat) (s : System κ) : Ends (stopThread tid) s fun r s' =>
    Slows s s' ∧ (r = .ok () → Halted tid s') := by
  refine (moves_stopThread tid s).and ?_
  refine Ends.bind (P := fun _ _ => True) True.intro (fun p s₁ _ => ?_) fun _ _ _ => nofun
  refine Ends.bind (P := fun _ _ => True) True.intro (fun answer s₂ _ => ?_) fun _ _ _ => nofun
  split
  · refine Ends.bind (P := fun _ _ => True) True.intro (fun _ s₃ _ => ?_) fun _ _ _ => nofun
    exact (halted_awaitStop tid s₃).mono fun _ _ h => h.2
  · exact (halted_threadGone tid none s₂).mono fun _ _ h _ => h.2
  · exact nofun

theorem halted_stopThreads (tids : List Nat) : ∀ s : System κ,
    Ends (stopThreads tids) s fun r s' =>
      Slows s s' ∧ (r = .ok () → ∀ tid ∈ tids, Halted tid s') := by
  induction tids with
  | nil => exact fun s => ⟨StepRelation.refl s, fun _ _ h => absurd h List.not_mem_nil⟩
  | cons tid rest ih =>
    intro s
    refine (halted_stopThread tid s).bind ?_ fun _ _ h => ⟨h.1, nofun⟩
    rintro _ s₁ ⟨h₁, htid⟩
    rw [hasProcess, bind_assoc, ends_tracer_bind, pure_bind]
    rcases hp : s₁.tracer.process with _ | p
    · refine ⟨h₁, fun _ u _ q hq => ?_⟩
      cases hp.symm.trans hq
    · refine (ih s₁).mono fun r s₂ h₂ => ⟨StepRelation.trans h₁ h₂.1, fun hr u hu => ?_⟩
      rcases List.mem_cons.mp hu with rfl | hrest
      · exact h₂.1.halted (htid rfl)
      · exact h₂.2 hr u hrest

/-- After all threads were stopped none runs. -/
theorem halted_stopAll (s : System κ) : Ends stopAll s fun r s' =>
    Slows s s' ∧ (r = .ok () → ∀ p', s'.tracer.process = some p' → p'.isRunning = false) := by
  rw [stopAll, ends_tracer_bind]
  split
  · rename_i hnone
    exact ⟨StepRelation.refl s, fun _ p' hp' => nomatch hnone.symm.trans hp'⟩
  · rename_i p hp
    refine (halted_stopThreads p.runningThreads s).mono fun r s' h => ⟨h.1, fun hr p' hp' => ?_⟩
    refine List.any_eq_false.mpr fun t ht hrunning => ?_
    have hmem : t.tid ∈ p'.runningThreads := Process.mem_runningThreads.mpr ⟨t, ht, hrunning, rfl⟩
    exact h.2 hr t.tid (h.1.running p p' hp hp' t.tid hmem) p' hp' hmem

end Tracing

end DebugAdapter.Tracer
