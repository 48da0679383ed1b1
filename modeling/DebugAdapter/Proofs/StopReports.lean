import DebugAdapter.Proofs.BreakpointRequests
import DebugAdapter.Proofs.HaltedThreads

/-!
# Reports of stops

A stop is published in one place only, `reportStop`, and nothing comes after it there. `Reported` says
what is published and what is true then: the process is there, none of its threads runs, no step plan
is active, and the breakpoint of the plan is gone as far as memory could be written. Everything before
it is `Calm`: it publishes no stop, and what is published stays `Consistent`.
-/

namespace DebugAdapter.Tracer

open Debuggee
open Linux
open Operation

variable {κ : Type}

/-- The step plan of the process. -/
def System.plan? (s : System κ) : Option StepPlan := s.tracer.process.bind (·.plan)

/-- A process has stopped once, and the last stop is published as long as the state tells of one. -/
structure System.Consistent (s : System κ) : Prop where
  stop_of_process : s.tracer.process ≠ none → s.tracer.snapshot.stop.isSome = true
  stop_iff : s.tracer.snapshot.stop.isSome = true ↔
    s.tracer.snapshot.state ∈ [.stopped, .running, .stepping]

/-- No stop is published. -/
structure StopFree (s s' : System κ) : Prop where
  events : ∃ es, s'.tracer.events = s.tracer.events ++ es ∧ .stateChanged .stopped ∉ es

/-- No stop is published, and while the process is there its step plan stays. -/
structure Calm (s s' : System κ) : Prop extends StopFree s s' where
  consistent : s.Consistent → s'.Consistent
  process : s.tracer.process = none → s'.tracer.process = none
  plan : s'.tracer.process ≠ none → s'.plan? = s.plan?

/-- What is published stays, and so does the process. -/
theorem System.Consistent.of_eq {s s' : System κ} (h : s.Consistent)
    (hsnapshot : s'.tracer.snapshot = s.tracer.snapshot)
    (hprocess : s'.tracer.process ≠ none → s.tracer.process ≠ none) : s'.Consistent := by
  refine ⟨fun hpresent => ?_, ?_⟩
  · rw [hsnapshot]
    exact h.stop_of_process (hprocess hpresent)
  · rw [hsnapshot]
    exact h.stop_iff

theorem StopFree.of_events {s s' : System κ} (h : s'.tracer.events = s.tracer.events) :
    StopFree s s' :=
  ⟨[], h.trans (List.append_nil _).symm, List.not_mem_nil⟩

instance : StepRelation (StopFree : System κ → System κ → Prop) where
  refl _ := .of_events rfl
  trans {s t u} h h' := by
    obtain ⟨es, hes, hnot⟩ := h.events
    obtain ⟨es', hes', hnot'⟩ := h'.events
    refine ⟨es ++ es', ?_, fun hmem => (List.mem_append.mp hmem).elim hnot hnot'⟩
    rw [hes', hes, List.append_assoc]

theorem Calm.of_tracer {s s' : System κ} (hevents : s'.tracer.events = s.tracer.events)
    (hsnapshot : s'.tracer.snapshot = s.tracer.snapshot)
    (hprocess : s'.tracer.process = s.tracer.process) : Calm s s' :=
  ⟨.of_events hevents, fun h => h.of_eq hsnapshot (hprocess ▸ id), hprocess.trans,
    fun _ => by rw [System.plan?, hprocess, System.plan?]⟩

instance : StepRelation (Calm : System κ → System κ → Prop) where
  refl _ := .of_tracer rfl rfl rfl
  trans {s t u} h h' := by
    refine ⟨StepRelation.trans h.toStopFree h'.toStopFree, fun hs => h'.consistent (h.consistent hs),
      fun hs => h'.process (h.process hs), fun hu => ?_⟩
    exact (h'.plan hu).trans (h.plan fun hnone => hu (h'.process hnone))

instance [Kernel κ] : ModulesRelation (Calm : System κ → System κ → Prop) where
  look _ _ _ := .of_tracer rfl rfl rfl
  modules s t hprocess hsnapshot _ _ hevents := by
    obtain ⟨es, hes, hmodules⟩ := hevents
    refine ⟨⟨es, hes, fun hmem => nomatch hmodules _ hmem⟩, fun h => ?_, hprocess.trans, fun _ => ?_⟩
    · exact h.of_eq hsnapshot fun hpresent => hprocess ▸ hpresent
    · show t.process.bind _ = s.tracer.process.bind _
      rw [hprocess]

instance [Kernel κ] : QuietRelation (Calm : System κ → System κ → Prop) where
  probe _ _ _ := .of_tracer rfl rfl rfl
  process s p p' hp hplan := by
    refine ⟨.of_events rfl, fun h => h.of_eq rfl fun _ => ?_,
      fun hnone => (nomatch hnone.symm.trans hp), fun _ => ?_⟩
    · rw [hp]
      exact nofun
    · rw [System.plan?, System.plan?, hp]
      exact hplan
  exited s status _ := by
    refine ⟨⟨[.stateChanged .exited], rfl, by simp⟩, fun _ => ⟨fun h => absurd rfl h, ?_⟩, fun _ => rfl,
      fun h => absurd rfl h⟩
    exact ⟨nofun, fun h => absurd h (by decide : ProcessState.exited ∉ _)⟩

instance [Kernel κ] : StepCallRelation (Calm : System κ → System κ → Prop) where
  stepCall _ _ _ := .of_tracer rfl rfl rfl

theorem calm_withBreakpoints (s : System κ) (p : Patched κ) :
    Calm s (Tracing.withBreakpoints s p) :=
  .of_tracer rfl rfl rfl

instance [Kernel κ] : WorkRelation (Calm : System κ → System κ → Prop) where
  enable _ _ s := calm_withBreakpoints s _
  disable _ _ s := calm_withBreakpoints s _
  work _ s := calm_withBreakpoints s _

/-! ### The end of a step plan -/

/-- The breakpoint of a step plan is gone: nothing is marked as planned, and if the removal succeeded
only a breakpoint of the user is left. Without an entry the byte that belongs at the address is back,
where memory can be accessed. -/
structure Unplanned [Kernel κ] (a : UInt64) (p : Patched κ) (r : Except OsError Unit)
    (p' : Patched κ) : Prop where
  planned : ∀ b, p'.table.find? a = some b → b.planned = false
  user : r = .ok () → ∀ b, p'.table.find? a = some b → b.isUser = true
  memory : ∀ [WordMemory κ], r = .ok () ∧
    (p'.table.find? a = none → WordMemory.memory p'.kernel a = (p.cell a).original)

namespace Patching

variable [Kernel κ]

/-- A lifted patch leaves the byte that belongs at its address. -/
theorem memory_disable [WordMemory κ] (tid : Nat) (a : UInt64) (p : Patched κ) :
    Ends (disable tid a) p fun r p' =>
      r = .ok () ∧ WordMemory.memory p'.kernel a = (p.cell a).original := by
  rw [disable, ends_get_bind]
  rcases hb : p.table.find? a with _ | b
  · rw [ends_pure]
    exact ⟨rfl, by simp [Patched.cell, hb, Cell.original]⟩
  · show Ends (if (!b.enabled) = true then _ else _) p _
    rcases hen : b.enabled with _ | _
    · rw [Bool.not_false, if_pos rfl, ends_pure]
      exact ⟨rfl, by simp [Patched.cell, hb, Cell.original, hen]⟩
    · refine (ends_peek tid a p).bind_eq fun p₁ h₁ => ?_
      refine (ends_poke tid a _ h₁.1).bind_eq fun p₂ h₂ => ?_
      refine ⟨rfl, ?_⟩
      show WordMemory.memory p₂.kernel a = _
      rw [h₂.1, Function.update_self]
      simp [Patched.cell, hb, Cell.original, hen]

/-- The end of a step plan, whatever the kernel answers. -/
theorem unplanned_removePlanned (tid : Nat) (a : UInt64) (p : Patched κ) :
    Ends (removePlanned tid a) p (Unplanned a p) := by
  let unset : Breakpoint → Breakpoint := fun b => { b with planned := false }
  let q : Patched κ := { p with table := p.table.modify a unset }
  have hentry : q.table.find? a = (p.table.find? a).map unset :=
    BreakpointTable.find?_modify_self (f := unset) (fun _ => rfl) p.table a
  have hplanned : ∀ b, q.table.find? a = some b → b.planned = false := by
    intro b hb
    obtain ⟨b₀, -, rfl⟩ := Option.map_eq_some_iff.mp (hentry.symm.trans hb)
    rfl
  have horiginal : ∀ [WordMemory κ], (q.cell a).original = (p.cell a).original := by
    intro _
    rw [Patched.cell, Patched.cell, hentry]
    rcases p.table.find? a with _ | b
    · rfl
    · rfl
  rw [removePlanned, release, ends_modifyTable_bind, ends_get_bind]
  split
  · rename_i hnone
    have hb : q.table.find? a = none := hnone
    refine ⟨fun _ h => (by cases hb.symm.trans h), fun _ _ h => (by cases hb.symm.trans h), ?_⟩
    refine ⟨rfl, fun _ => ?_⟩
    rw [← horiginal, Patched.cell, hb]
    rfl
  · rename_i b hsome
    have hb : q.table.find? a = some b := hsome
    show Ends (if b.isIdle = true then _ else _) q _
    split
    · have hdisable : Ends (disable tid a) q fun r p' =>
          (∀ b, p'.table.find? a = some b → b.planned = false) ∧
            ∀ [WordMemory κ], r = .ok () ∧
              WordMemory.memory p'.kernel a = (p.cell a).original := by
        refine Ends.and ?_ ?_
        · refine (toggles_disable a tid q).mono fun _ p' htoggles b hb => ?_
          obtain ⟨f, hf, hmodify⟩ := htoggles.modify
          rw [hmodify, BreakpointTable.find?_modify_self fun b => (hf b).1] at hb
          obtain ⟨b₀, hb₀, rfl⟩ := Option.map_eq_some_iff.mp hb
          rw [(hf b₀).2.2]
          exact hplanned b₀ hb₀
        · intro _
          rw [← horiginal]
          exact memory_disable tid a q
      refine hdisable.bind ?_ ?_
      · rintro _ p₁ ⟨-, hmemory⟩
        rw [ends_modifyTable]
        have hgone : (p₁.table.erase a).find? a = none := by
          rw [BreakpointTable.find?_erase, if_pos rfl]
        refine ⟨fun _ h => ?_, fun _ _ h => ?_, rfl, fun _ => hmemory.2⟩
        · cases hgone.symm.trans h
        · cases hgone.symm.trans h
      · rintro e p₁ ⟨hplanned₁, hmemory⟩
        refine ⟨hplanned₁, ?_, ?_⟩
        · rintro ⟨⟩
        · intro _
          cases hmemory.1
    · rename_i hidle
      refine ⟨hplanned, fun _ b' hb' => ?_, rfl, fun h => by cases hb.symm.trans h⟩
      cases hb.symm.trans hb'
      rw [Breakpoint.isIdle, hplanned b hb, Bool.not_false, Bool.and_true, Bool.not_eq_true'] at hidle
      exact eq_true_of_ne_false hidle

end Patching

/-- The breakpoint at an address is gone that a step plan used, by the removal of the use. -/
def Unplans [Kernel κ] (a : UInt64) (s s' : System κ) : Prop :=
  ∃ (access : Nat) (p : Patched κ), p.table = s.tracer.breakpoints ∧
    Ends (Patching.removePlanned access a) p fun r p' =>
      s'.tracer.breakpoints = p'.table ∧ Unplanned a p r p'

/-! ### What is published -/

/-- A process that is stopped as a whole, as it is published. -/
structure AllStopped (stop : Stop) (p : Process) (s : System κ) : Prop where
  process : s.tracer.process = some p
  halted : ∀ t ∈ p.threads, t.running = false
  plan : p.plan = none
  interrupt : p.interruptRequested = false
  state : s.tracer.snapshot.state = .stopped
  stop : ∃ pc, s.tracer.snapshot.stop = some ⟨stop.tid, pc, stop.reason⟩

/-- A stop was published last, and the breakpoint of the step plan is gone with the plan if there was
a thread through which memory is accessed. -/
structure Reported [Kernel κ] (stop : Stop) (p : Process) (s s' : System κ) : Prop extends
    AllStopped stop p s' where
  present : s.tracer.process ≠ none
  events : ∃ es, s'.tracer.events = s.tracer.events ++ es ++ [.stateChanged .stopped] ∧
    .stateChanged .stopped ∉ es
  breakpoints : s.plan? = none → s'.tracer.breakpoints = s.tracer.breakpoints
  unplans : ∀ plan, s.plan? = some plan → p.threads ≠ [] → Unplans plan.address s s'

namespace Tracing

/-- Nothing changes but the modules, and no stop is published. -/
structure Beside (s s' : System κ) : Prop extends StopFree s s' where
  process : s'.tracer.process = s.tracer.process
  snapshot : s'.tracer.snapshot = s.tracer.snapshot
  breakpoints : s'.tracer.breakpoints = s.tracer.breakpoints

instance : StepRelation (Beside : System κ → System κ → Prop) where
  refl s := ⟨StepRelation.refl s, rfl, rfl, rfl⟩
  trans h h' :=
    ⟨StepRelation.trans h.toStopFree h'.toStopFree, h'.process.trans h.process,
      h'.snapshot.trans h.snapshot, h'.breakpoints.trans h.breakpoints⟩

variable [Kernel κ]

instance : ModulesRelation (Beside : System κ → System κ → Prop) where
  look _ _ _ := ⟨.of_events rfl, rfl, rfl, rfl⟩
  modules _ _ hprocess hsnapshot hbreakpoints _ hevents := by
    obtain ⟨es, hes, hmodules⟩ := hevents
    exact ⟨⟨es, hes, fun hmem => nomatch hmodules _ hmem⟩, hprocess, hsnapshot, hbreakpoints⟩

/-- Looking at the modules does not fail. -/
theorem ends_syncModules (s : System κ) :
    Ends syncModules s fun r s' => r = .ok () ∧ Beside s s' := by
  refine Ends.and ?_ (moves_syncModules s)
  rw [syncModules, ends_tracer_bind]
  split
  · rfl
  · refine Ends.bind_ok (P := fun _ _ => True) ⟨_, rfl, True.intro⟩ fun files s₁ _ => ?_
    refine Ends.bind_ok (P := fun _ _ => True) ⟨_, rfl, True.intro⟩ fun changes s₂ _ => ?_
    split
    · rfl
    · split
      · split
        · rfl
        · rfl
      · split
        · rfl
        · rfl

omit [Kernel κ] in
/-- Threads that do not run give access to memory. -/
theorem memoryThread?_of_halted {p : Process} (hhalted : p.isRunning = false)
    (hthreads : p.threads ≠ []) : ∃ tid, p.memoryThread? = some tid := by
  obtain ⟨t, ht⟩ := List.exists_mem_of_ne_nil _ hthreads
  have hrunning : (!t.running) = true := by
    rw [Bool.not_eq_true']
    exact eq_false_of_ne_true (List.any_eq_false.mp hhalted t ht)
  rw [Process.memoryThread?]
  split
  · exact ⟨_, rfl⟩
  · have hsome : (p.threads.find? fun t => !t.running).isSome = true :=
      List.find?_isSome.mpr ⟨t, ht, hrunning⟩
    obtain ⟨u, hu⟩ := Option.isSome_iff_exists.mp hsome
    exact ⟨u.tid, by rw [hu]; rfl⟩

/-- The plan goes, with its breakpoint if memory can be accessed. -/
theorem ends_cancelPlan {s : System κ} {p : Process} (hp : s.tracer.process = some p) :
    Ends cancelPlan s fun r s' => r = .ok () ∧
      s'.tracer.process = some { p with plan := none } ∧
      s'.tracer.events = s.tracer.events ∧ s'.tracer.snapshot = s.tracer.snapshot ∧
      (p.plan = none → s'.tracer.breakpoints = s.tracer.breakpoints) ∧
      ∀ plan, p.plan = some plan → p.isRunning = false → p.threads ≠ [] →
        Unplans plan.address s s' := by
  let s₁ : System κ :=
    { s with tracer := { s.tracer with process := some { p with plan := none } } }
  have hmodify : s.tracer.process.map (fun p => { p with plan := none })
      = some { p with plan := none } := by rw [hp]; rfl
  rw [cancelPlan, ends_tracer_bind, hp]
  dsimp only
  rw [modifyProcess, ends_modifyTracer_bind, hmodify]
  show Ends _ s₁ _
  split
  · rename_i plan tid hplan hthread
    rw [ends_bind, ends_attemptPatching]
    have hremove := Patching.unplanned_removePlanned tid plan.address (breakpointsOf s₁)
    have hself : Ends (Patching.removePlanned tid plan.address) (breakpointsOf s₁) fun r t =>
        Ends (Patching.removePlanned tid plan.address) (breakpointsOf s₁) fun r' t' =>
          r' = r ∧ t' = t := ⟨rfl, rfl⟩
    refine (hremove.and hself).mono fun r t h => ?_
    refine ⟨rfl, rfl, rfl, rfl, fun hnone => (by cases hnone.symm.trans hplan), ?_⟩
    rintro plan' hplan' - -
    cases hplan.symm.trans hplan'
    refine ⟨tid, breakpointsOf s₁, rfl, (hremove.and h.2).mono ?_⟩
    rintro r' t' ⟨hunplanned, rfl, rfl⟩
    exact ⟨rfl, hunplanned⟩
  · rename_i hnone
    refine ⟨rfl, rfl, rfl, rfl, fun _ => rfl, fun plan hplan hhalted hthreads => ?_⟩
    obtain ⟨tid, htid⟩ := memoryThread?_of_halted hhalted hthreads
    exact absurd htid (hnone plan tid hplan)

/-- Once no thread runs the stop is published. -/
theorem ends_publishStop (stop : Stop) {s : System κ} {p : Process} (hp : s.tracer.process = some p)
    (hhalted : p.isRunning = false) : Ends (do
      if ← hasProcess then
        cancelPlan
        modifyProcess fun p => { p with interruptRequested := false }
        let pc : UInt64 ← match ← attempt (.getRegisters stop.tid) with
          | .ok regs => pure regs.pc
          | .error _ => pure 0
        modifySnapshot fun s => { s with stop := some ⟨stop.tid, pc, stop.reason⟩ }
        syncModules
        publish .stopped) s fun r s' => r = .ok () ∧ ∃ p', Reported stop p' s s' := by
  have hplan : p.plan = s.plan? := by
    rw [System.plan?, hp]
    rfl
  rw [hasProcess, bind_assoc, ends_tracer_bind, pure_bind, hp, Option.isSome_some, if_pos rfl]
  refine (ends_cancelPlan hp).bind_eq ?_
  rintro s₁ ⟨hprocess₁, hevents₁, -, hkept₁, hunplans₁⟩
  rw [modifyProcess, ends_modifyTracer_bind, ends_attempt_bind]
  dsimp only
  rw [hprocess₁, Option.map_some]
  -- What the program counter is does not matter from here on.
  have hrest : ∀ (pc : UInt64) (k : κ), Ends (do
      modifySnapshot fun s => { s with stop := some ⟨stop.tid, pc, stop.reason⟩ }
      syncModules
      publish .stopped) { kernel := k, tracer := { s₁.tracer with
        process := some { p with plan := none, interruptRequested := false } } }
      fun r s' => r = .ok () ∧ ∃ p', Reported stop p' s s' := by
    intro pc k
    rw [modifySnapshot, ends_modifyTracer_bind]
    refine (ends_syncModules _).bind_eq ?_
    rintro s₂ ⟨⟨es, hes, hnot⟩, hprocess₂, hsnapshot₂, hbreakpoints₂⟩
    refine ⟨rfl, { p with plan := none, interruptRequested := false }, ?_⟩
    refine ⟨⟨hprocess₂, ?_, rfl, rfl, rfl, pc, ?_⟩, ?_, ⟨es, ?_, hnot⟩, ?_, ?_⟩
    · exact fun t ht => eq_false_of_ne_true (List.any_eq_false.mp hhalted t ht)
    · exact congrArg Snapshot.stop hsnapshot₂
    · rw [hp]
      exact nofun
    · show s₂.tracer.events ++ [_] = _
      rw [hes]
      show s₁.tracer.events ++ es ++ [_] = _
      rw [hevents₁]
    · exact fun hnone => hbreakpoints₂.trans (hkept₁ (hplan.trans hnone))
    · intro plan hsome hthreads
      obtain ⟨access, q, hq, hends⟩ := hunplans₁ plan (hplan.trans hsome) hhalted hthreads
      exact ⟨access, q, hq, hends.mono fun r q' h => ⟨hbreakpoints₂.trans h.1, h.2⟩⟩
  split
  · rw [pure_bind]
    exact hrest _ _
  · rw [pure_bind]
    exact hrest _ _

omit [Kernel κ] in
theorem runningThreads_of_halted {p : Process} (h : p.isRunning = false) : p.runningThreads = [] := by
  refine List.eq_nil_iff_forall_not_mem.mpr fun tid hmem => ?_
  obtain ⟨t, ht, hrunning, -⟩ := Process.mem_runningThreads.mp hmem
  exact List.any_eq_false.mp h t ht hrunning

/-- A report of a stop of a halted process publishes it. -/
theorem ends_reportStop_halted (stop : Stop) {s : System κ} {p : Process}
    (hp : s.tracer.process = some p) (hhalted : p.isRunning = false) :
    Ends (reportStop stop) s fun r s' => r = .ok () ∧ ∃ p', Reported stop p' s s' := by
  have hstop : Ends stopAll s fun r s' => r = .ok () ∧ s' = s := by
    rw [stopAll, ends_tracer_bind, hp]
    dsimp only
    rw [runningThreads_of_halted hhalted]
    exact ⟨rfl, rfl⟩
  refine hstop.bind_eq ?_
  rintro _ rfl
  exact ends_publishStop stop hp hhalted

/-- A report of a stop is calm and leaves the breakpoints, or it ends with the publication of the
stop. -/
theorem ends_reportStop (stop : Stop) (s : System κ) : Ends (reportStop stop) s fun r s' =>
    (Calm s s' ∧ Rests s s') ∨ (r = .ok () ∧ ∃ p, Reported stop p s s') := by
  have hstop : Ends stopAll s fun r s' => (Calm s s' ∧ Rests s s') ∧
      (r = .ok () → ∀ p', s'.tracer.process = some p' → p'.isRunning = false) :=
    (Ends.and (moves_stopAll s) (moves_stopAll s)).and ((halted_stopAll s).mono fun _ _ h => h.2)
  refine hstop.bind ?_ fun _ _ h => Or.inl h.1
  rintro _ s₁ ⟨⟨hcalm, hrests⟩, hhalted⟩
  rcases hp : s₁.tracer.process with _ | p
  · rw [hasProcess, bind_assoc, ends_tracer_bind, pure_bind, hp]
    exact Or.inl ⟨hcalm, hrests⟩
  · have hpresent : s₁.tracer.process ≠ none := by
      rw [hp]
      exact nofun
    have htable := hrests.breakpoints hpresent
    refine (ends_publishStop stop hp (hhalted rfl p hp)).mono ?_
    rintro r s' ⟨hr, p', hreported⟩
    obtain ⟨es, hes, hnot⟩ := hcalm.events
    obtain ⟨es', hes', hnot'⟩ := hreported.events
    refine Or.inr ⟨hr, p', hreported.toAllStopped, fun hnone => hpresent (hcalm.process hnone),
      ⟨es ++ es', ?_, fun hmem => (List.mem_append.mp hmem).elim hnot hnot'⟩, ?_, ?_⟩
    · rw [hes', hes, List.append_assoc s.tracer.events]
    · exact fun hnone => (hreported.breakpoints ((hcalm.plan hpresent).trans hnone)).trans htable
    · intro plan hplan hthreads
      obtain ⟨access, q, hq, hends⟩ :=
        hreported.unplans plan ((hcalm.plan hpresent).trans hplan) hthreads
      exact ⟨access, q, hq.trans htable, hends⟩

end Tracing

end DebugAdapter.Tracer
