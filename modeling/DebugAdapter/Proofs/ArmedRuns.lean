import DebugAdapter.Proofs.ArmedTables

/-!
# Armed tables while the process runs

Statuses of the process leave an armed table alone: every breakpoint that is met is one of the user,
where the process stops. So does a resume that succeeds, since the trap that is lifted for a step of
the thread that stopped is back in place before the process runs.
-/

namespace DebugAdapter.Tracer

open Debuggee
open Linux
open Operation

/-- A patch that was lifted, and is in place now, changes nothing for the user. -/
theorem BreakpointTable.steady_modify {t : BreakpointTable} {a : UInt64}
    {f : Breakpoint → Breakpoint}
    (hf : ∀ b, (f b).address = b.address ∧ (f b).userId = b.userId ∧ (f b).planned = b.planned)
    (henabled : ∀ b, (t.modify a f).find? a = some b → b.enabled = true) :
    Steady t (t.modify a f) := by
  refine ⟨?_, ?_⟩
  · intro ht x b hb
    by_cases hx : x = a
    · subst hx
      have hplanted := henabled b hb
      rw [find?_modify_self fun b => (hf b).1] at hb
      obtain ⟨b₀, hb₀, rfl⟩ := Option.map_eq_some_iff.mp hb
      obtain ⟨huser, -, hplanned⟩ := ht x b₀ hb₀
      refine ⟨?_, hplanted, (hf b₀).2.2.trans hplanned⟩
      rw [Breakpoint.isUser, (hf b₀).2.1]
      exact huser
    · rw [find?_modify_of_ne (fun b => (hf b).1) t hx] at hb
      exact ht x b hb
  · intro _ x
    exact userAt_modify_of_userId (fun b => (hf b).1) (fun b => (hf b).2.1) t a x

namespace Tracing

open BreakpointTable

variable {κ α : Type} [Kernel κ]

/-! ### Statuses -/

/-- A trap of a breakpoint is one that is in place. -/
theorem enabled_of_trapOf (tid : Nat) (s : System κ) : Ends (trapOf tid) s fun r s' =>
    ∀ a, r = .ok (.breakpoint a) → s'.tracer.breakpoints.isEnabledAt a = true := by
  rw [trapOf, ends_attempt_bind]
  split
  · exact nofun
  · exact nofun
  · split
    · refine (moves_pcOf (R := SameTracer) tid _).bind (fun pc s₁ _ => ?_) fun _ _ _ => nofun
      rw [ends_tracer_bind]
      split
      · rename_i henabled
        rintro a ⟨⟩
        exact henabled
      · exact nofun
    · split
      · exact nofun
      · exact nofun

section Steady

variable [ExecCount κ]

instance : TracerRelation (Along Steady : System κ → System κ → Prop) :=
  tracerRelation_along Patching.steady_removePlanned

/-- What becomes of a table that is not armed does not matter. -/
theorem steady_of_not_armed {s s' : System κ} (h : Along Extends s s')
    (hs : ¬s.tracer.breakpoints.Armed) : Along Steady s s' :=
  ⟨h.execs, h.process, h.wellFormed, fun _ _ _ => ⟨fun ha => absurd ha hs, fun ha => absurd ha hs⟩⟩

omit [ExecCount κ] in
/-- How a breakpoint that is met is handled, once the plan of its thread is looked at. -/
theorem breakpointMet_eq (tid : Nat) (a : UInt64) :
    (breakpointMet tid a : Tracing κ Unit)
      = (do setPc tid a; completesPlan tid a) >>= fun ends => do
        if ends then reportStop ⟨tid, .planComplete⟩
        else if (← tracer).breakpoints.isUserAt a then reportStop ⟨tid, .breakpoint⟩
        else match ← stepThread tid with
          | .done => continueThread tid
          | .signal signal => reportStop ⟨tid, signalReason signal⟩
          | .gone => return () :=
  (bind_assoc (setPc tid a) (fun _ => completesPlan tid a) _).symm

omit [ExecCount κ] in
/-- To meet a breakpoint a thread is moved back, and its plan is looked at. -/
theorem moves_meeting {R : System κ → System κ → Prop} [LookRelation R] (tid : Nat) (a : UInt64) :
    Moves R (do setPc tid a; completesPlan tid a : Tracing κ Bool) :=
  (moves_setPc tid a).bind fun _ => moves_completesPlan tid a

/-- Stepping over a breakpoint that is none of the user. -/
theorem moves_stepOver (tid : Nat) : Moves (Along Extends) (do
    match ← stepThread tid with
    | .done => continueThread tid
    | .signal signal => reportStop ⟨tid, signalReason signal⟩
    | .gone => return () : Tracing κ Unit) := by
  refine (moves_stepThread tid).bind fun stepped => ?_
  cases stepped with
  | done => exact moves_continueThread tid
  | signal signal => exact moves_reportStop _
  | gone => exact Moves.pure _

/-- In an armed table every breakpoint that is met is one of the user, where the process stops. -/
theorem steady_breakpointMet (tid : Nat) (a : UInt64) {s : System κ}
    (hs : s.tracer.breakpoints.isEnabledAt a = true) :
    Ends (breakpointMet tid a) s fun _ s' => Along Steady s s' := by
  rw [breakpointMet_eq]
  refine ((moves_meeting (R := Along Steady) tid a s).and (moves_meeting (R := SameTracer) tid a s)).bind
    ?_ fun _ _ h => h.1
  rintro ends s₁ ⟨h₁, hsame⟩
  have hstop : ∀ stop, Ends (reportStop stop) s₁ fun _ s' => Along Steady s s' :=
    fun stop => (moves_reportStop stop s₁).mono fun _ _ h => StepRelation.trans h₁ h
  split
  · exact hstop _
  · rw [ends_tracer_bind]
    split
    · exact hstop _
    · rename_i huser
      have hnot : ¬s₁.tracer.breakpoints.Armed := by
        intro harmed
        rw [← hsame.tracer, isEnabledAt] at hs
        rw [isUserAt] at huser
        rcases hb : s₁.tracer.breakpoints.find? a with _ | b
        · rw [hb] at hs
          cases hs
        · rw [hb] at huser
          exact huser (harmed a b hb).1
      exact (moves_stepOver tid s₁).mono fun _ _ h =>
        StepRelation.trans h₁ (steady_of_not_armed h hnot)

theorem steady_trapSeen (tid : Nat) : Moves (Along Steady) (trapSeen tid : Tracing κ Unit) := by
  refine (moves_markStopped tid).bind fun _ s => ?_
  have htrap := (moves_trapOf (R := Along Steady) tid s).and (enabled_of_trapOf tid s)
  refine htrap.bind ?_ fun _ _ h => h.1
  rintro trap s₁ ⟨h₁, henabled⟩
  have hthen : ∀ {m : Tracing κ Unit}, Ends m s₁ (fun _ s' => Along Steady s₁ s') →
      Ends m s₁ fun _ s' => Along Steady s s' :=
    fun h => h.mono fun _ _ h' => StepRelation.trans h₁ h'
  cases trap with
  | breakpoint address => exact hthen (steady_breakpointMet tid address (henabled address rfl))
  | step => exact hthen (moves_reportStop _ s₁)
  | programTrap => exact hthen (moves_reportStop _ s₁)
  | signal => exact hthen (((moves_keepSignal tid _).bind fun _ => moves_reportStop _) s₁)

theorem steady_poll : Moves (Along Steady) (poll : Tracing κ Unit) := moves_poll steady_trapSeen

/-! ### Runs -/

omit [ExecCount κ] in
/-- A step over a patch that succeeds has put the patch back. -/
theorem ends_stepThread (tid : Nat) (s : System κ) : Ends (stepThread tid) s fun r s' =>
    ∀ stepped, r = .ok stepped → s'.tracer.process ≠ none →
      Steady s.tracer.breakpoints s'.tracer.breakpoints := by
  refine (moves_pcOf (R := SameTracer) tid s).bind ?_ fun _ _ _ => by rintro _ ⟨⟩
  intro pc s₁ hsame
  rw [ends_tracer_bind, ← hsame.tracer]
  split
  · have hlift : Ends (patching .ptrace (Patching.disable tid pc)) s₁ fun _ s₂ =>
        Toggles pc (breakpointsOf s₁) (breakpointsOf s₂) := by
      rw [ends_patching]
      exact Patching.toggles_disable pc tid (breakpointsOf s₁)
    refine hlift.bind ?_ fun _ _ _ => by rintro _ ⟨⟩
    intro _ s₂ hlifted
    refine (moves_singleStep (R := Rests) tid s₂).bind ?_ fun _ _ _ => by rintro _ ⟨⟩
    intro stepped s₃ hrests
    rw [hasProcess, bind_assoc, ends_tracer_bind, pure_bind]
    rcases hprocess : s₃.tracer.process with _ | p
    · exact fun _ _ hpresent => absurd hprocess hpresent
    · dsimp only [Option.isSome_some]
      rw [if_pos rfl]
      refine (moves_memoryThread (R := SameTracer) s₃).bind ?_ fun _ _ _ => by rintro _ ⟨⟩
      intro access s₄ hsame₄
      have hplant : Ends (patching .ptrace (Patching.enable access pc)) s₄ fun r s₅ =>
          Toggles pc (breakpointsOf s₄) (breakpointsOf s₅) ∧ (r = .ok () →
            ∀ b, s₅.tracer.breakpoints.find? pc = some b → b.enabled = true) := by
        rw [ends_patching]
        refine (((Patching.toggles_enable pc access) _).and
          (Patching.enabled_of_enable access pc _)).mono ?_
        rintro (e | _) p ⟨htoggles, henabled⟩
        · exact ⟨htoggles, by rintro ⟨⟩⟩
        · exact ⟨htoggles, fun _ => henabled rfl⟩
      refine hplant.bind ?_ fun _ _ _ => by rintro _ ⟨⟩
      rintro _ s₅ ⟨hplanted, henabled⟩ _ - -
      -- The thread ran in between, but the table is that of the lifted patch.
      have hsame₂ : s₄.tracer.breakpoints = s₂.tracer.breakpoints := by
        rw [hsame₄.tracer]
        refine hrests.breakpoints ?_
        rw [hprocess]
        exact Option.some_ne_none p
      obtain ⟨g, hg, hmodify⟩ := hplanted.modify
      have hback : Toggles pc (breakpointsOf s₂) (breakpointsOf s₅) :=
        ⟨g, hg, hmodify.trans (congrArg (·.modify pc g) hsame₂)⟩
      obtain ⟨f, hf, hmodify⟩ := (StepRelation.trans hlifted hback).modify
      have htable : s₅.tracer.breakpoints = s₁.tracer.breakpoints.modify pc f := hmodify
      show Steady s₁.tracer.breakpoints s₅.tracer.breakpoints
      have henabled := henabled rfl
      rw [htable] at henabled ⊢
      exact steady_modify hf henabled
  · refine (moves_singleStep (R := Rests) tid s₁).mono ?_
    intro r s' hrests _ _ hpresent
    rw [hrests.breakpoints hpresent]
    exact StepRelation.refl _

/-- What succeeds leaves the breakpoints of the user alone. -/
theorem steady_stepThread (tid : Nat) (s : System κ) : Ends (stepThread tid) s fun r s' =>
    ∀ stepped, r = .ok stepped → Along Steady s s' := by
  have hextends : Moves (Along Extends) (stepThread tid : Tracing κ Stepped) :=
    moves_stepThread tid
  refine ((hextends s).and (ends_stepThread tid s)).mono ?_
  rintro r s' ⟨h, hsteady⟩ stepped hok
  exact ⟨h.execs, h.process, h.wellFormed, fun _ _ hpresent => hsteady stepped hok hpresent⟩

theorem steady_stepOff (stopped : Option StopInfo) (s : System κ) :
    Ends (stepOff stopped) s fun r s' => ∀ stop, r = .ok stop → Along Steady s s' := by
  cases stopped with
  | none => exact fun _ _ => StepRelation.refl s
  | some stop =>
    refine (moves_isAtBreakpoint (R := Along Steady) _ s).bind ?_ fun _ _ _ => nofun
    intro patched s₁ h₁
    split
    · refine (steady_stepThread _ s₁).bind ?_ fun _ _ _ => nofun
      intro stepped s₂ h₂
      have h := StepRelation.trans h₁ (h₂ stepped rfl)
      cases stepped with
      | done => exact fun _ _ => h
      | signal signal => exact fun _ _ => h
      | gone => exact fun _ _ => h
    · exact fun _ _ => h₁

theorem steady_resume (s : System κ) :
    Ends resume s fun r s' => r = .ok () → Along Steady s s' := by
  refine (moves_stoppedProcess (R := Along Steady) s).bind ?_ fun _ _ _ => nofun
  intro _ s₁ h₁
  rw [resumeAs_eq, ends_tracer_bind]
  refine (steady_stepOff _ s₁).bind ?_ fun _ _ _ => nofun
  intro stop s₂ h₂
  refine (moves_runOn (R := Along Steady) .running _ stop s₂).mono ?_
  intro _ s₃ h₃ _
  exact StepRelation.trans h₁ (StepRelation.trans (h₂ stop rfl) h₃)

end Steady

end Tracing

end DebugAdapter.Tracer
