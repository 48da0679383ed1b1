import DebugAdapter.Proofs.RunningChanges

/-!
# Single steps, call by call

A step of a thread ends with the trap that comes after the instruction. When a stop signal of the tracer,
a quiet signal or an event comes instead, the step is started again, and given up after it was started as
often as is allowed. `StepVerdict` lists what is made of each status, `StepsOff` is a step that comes to
an end, and `TiresOut` one that is given up. A thread that steps counts as stopped all the while, and the
step plan of its process stays (`Poised`).

Main statement: `serves_singleStep`.
-/

namespace DebugAdapter.Tracer

open Debuggee
open Linux
open Operation
open Tracing (Awaits)

variable {κ : Type}

/-- What is made of a status of a thread that steps: the end of the step, that it is started again, or
nothing if the wait goes on. -/
inductive StepVerdict (tid : Nat) :
    WaitStatus → Option (Option Stepped) → List Answered → Process → Process → Prop
  | done (u : Nat) (p : Process) : StepVerdict tid (.stopped u .trap) (some (some .done)) [] p p
  | expected (u : Nat) {p : Process} (hstops : p.stopsFor tid ≠ 0) :
      StepVerdict tid (.stopped u .stop) (some none) [] p (p.seeStop tid)
  | stop (u : Nat) {p : Process} (hstops : p.stopsFor tid = 0) :
      StepVerdict tid (.stopped u .stop) (some (some (.signal .stop))) [] p p
  | quiet (u : Nat) (p : Process) {signal : Signal} (hquiet : signal.isQuiet = true) :
      StepVerdict tid (.stopped u signal) (some none) [] p (p.modifyThread tid (Thread.keeping signal))
  | signal (u : Nat) (p : Process) {signal : Signal} (hstop : signal ≠ .stop) (htrap : signal ≠ .trap)
      (hloud : signal.isQuiet = false) :
      StepVerdict tid (.stopped u signal) (some (some (.signal signal))) [] p
        (p.modifyThread tid (Thread.keeping signal))
  | cloned (u : Nat) {p p' : Process} {new : List Answered} {v : Nat}
      (h : Announces tid p new v p') :
      StepVerdict tid (.event u WaitStatus.cloneEvent) (some none) new p p'
  | event (u : Nat) (p : Process) {n : Nat} (hclone : n ≠ WaitStatus.cloneEvent)
      (hexit : n ≠ WaitStatus.exitEvent) : StepVerdict tid (.event u n) (some none) [] p p
  | exiting (u : Nat) (p : Process) :
      StepVerdict tid (.event u WaitStatus.exitEvent) none [⟨.resume tid none, .ok ()⟩] p p
  | continued (u : Nat) (p : Process) : StepVerdict tid (.continued u) none [] p p
  | exited (u : Nat) (code : Int) (p : Process) :
      StepVerdict tid (.exited u code) (some (some .gone)) [] p (p.removeThread tid)
  | signaled (u : Nat) (signal : Signal) (p : Process) :
      StepVerdict tid (.signaled u signal) (some (some .gone)) [] p (p.removeThread tid)

/-- A step of a thread that comes to an end, after it was started again some times. -/
inductive StepsOff (tid : Nat) : Process → List Answered → Stepped → Process → Prop
  | last {p p' : Process} {new : List Answered} {stepped : Stepped}
      (h : Awaits (some tid) (StepVerdict tid) (p.unsignal tid) new (some stepped) p') :
      StepsOff tid p (⟨.step tid (p.signalFor tid), .ok ()⟩ :: new) stepped p'
  | again {p q p' : Process} {new more : List Answered} {stepped : Stepped}
      (h : Awaits (some tid) (StepVerdict tid) (p.unsignal tid) new none q)
      (hrest : StepsOff tid q more stepped p') :
      StepsOff tid p (⟨.step tid (p.signalFor tid), .ok ()⟩ :: (new ++ more)) stepped p'

/-- A step of a thread that is given up after it was started so many times. -/
inductive TiresOut (tid : Nat) : Nat → Process → List Answered → Process → Prop
  | nil (p : Process) : TiresOut tid 0 p [] p
  | again {count : Nat} {p q p' : Process} {new more : List Answered}
      (h : Awaits (some tid) (StepVerdict tid) (p.unsignal tid) new none q)
      (hrest : TiresOut tid count q more p') :
      TiresOut tid (count + 1) p (⟨.step tid (p.signalFor tid), .ok ()⟩ :: (new ++ more)) p'

/-- How a step goes that is started at most so many times. -/
inductive StepsFrom (tid count : Nat) (s : System (Logged κ)) (p : Process) :
    Except DebugError Stepped → System (Logged κ) → Prop
  | ended {s' : System (Logged κ)} {stepped : Stepped} {new : List Answered} {p' : Process}
      (hlog : s'.kernel.log = s.kernel.log ++ new) (htracer : s'.tracer = s.tracer.withProcess p')
      (h : StepsOff tid p new stepped p') : StepsFrom tid count s p (.ok stepped) s'
  | tired {s' : System (Logged κ)} {new : List Answered} {p' : Process}
      (hlog : s'.kernel.log = s.kernel.log ++ new) (htracer : s'.tracer = s.tracer.withProcess p')
      (h : TiresOut tid count p new p') :
      StepsFrom tid count s p (.error (.stepNotCompleted Tracing.maxSteps)) s'

/-- A step that is started once more. -/
theorem StepsFrom.again {tid count : Nat} {s t s' : System (Logged κ)} {p q : Process}
    {new : List Answered} {r : Except DebugError Stepped}
    (hlog : t.kernel.log = s.kernel.log ++ ⟨.step tid (p.signalFor tid), .ok ()⟩ :: new)
    (htracer : t.tracer = s.tracer.withProcess q)
    (h : Awaits (some tid) (StepVerdict tid) (p.unsignal tid) new none q)
    (hrest : StepsFrom tid count t q r s') : StepsFrom tid (count + 1) s p r s' := by
  have hlogs : ∀ more, s'.kernel.log = t.kernel.log ++ more →
      s'.kernel.log = s.kernel.log ++ ⟨.step tid (p.signalFor tid), .ok ()⟩ :: (new ++ more) := by
    intro more hmore
    rw [hmore, hlog, List.append_assoc, List.cons_append]
  cases hrest with
  | ended hlog' htracer' hsteps =>
    exact .ended (hlogs _ hlog') (by rw [htracer', htracer, State.withProcess_withProcess])
      (.again h hsteps)
  | tired hlog' htracer' htires =>
    exact .tired (hlogs _ hlog') (by rw [htracer', htracer, State.withProcess_withProcess])
      (.again h htires)

/-! ### What stays -/

/-- The threads of a process stay when one is added. -/
theorem Process.mem_insertThread_of_mem {t u : Thread} {ts : List Thread} (ht : t ∈ ts) :
    t ∈ insertThread u ts := by
  induction ts with
  | nil => exact absurd ht List.not_mem_nil
  | cons v r ih =>
    rw [insertThread]
    split
    · exact ht
    · split
      · exact List.mem_cons_of_mem _ ht
      · rcases List.mem_cons.mp ht with rfl | hr
        · exact List.mem_cons_self
        · exact List.mem_cons_of_mem v (ih hr)

/-- A thread that is there and does not run, in a process with a step plan. -/
structure Poised (tid : Nat) (plan : Option StepPlan) (p : Process) : Prop where
  known : p.hasThread tid = true
  halted : tid ∉ p.runningThreads
  plan : p.plan = plan

namespace Poised

variable {tid : Nat} {plan : Option StepPlan} {p p' : Process} {new : List Answered}

theorem modifyThread (h : Poised tid plan p) (u : Nat) {f : Thread → Thread}
    (htid : ∀ t, (f t).tid = t.tid) (hrunning : ∀ t, (f t).running = true → t.running = true) :
    Poised tid plan (p.modifyThread u f) := by
  refine ⟨?_, fun hmem => h.halted (p.mem_runningThreads_of_modifyThread htid hrunning hmem), h.plan⟩
  obtain ⟨t, ht, hid⟩ := List.any_eq_true.mp h.known
  refine List.any_eq_true.mpr ⟨_, List.mem_map_of_mem ht, ?_⟩
  split
  · rwa [htid]
  · exact hid

theorem addThread (h : Poised tid plan p) (u : Nat) : Poised tid plan (p.addThread u) := by
  refine ⟨?_, fun hmem => h.halted (p.mem_runningThreads_of_addThread hmem), h.plan⟩
  obtain ⟨t, ht, hid⟩ := List.any_eq_true.mp h.known
  exact List.any_eq_true.mpr ⟨t, Process.mem_insertThread_of_mem ht, hid⟩

theorem removeThread (h : Poised tid plan p) {u : Nat} (hu : u ≠ tid) :
    Poised tid plan (p.removeThread u) := by
  refine ⟨?_, fun hmem => h.halted (p.mem_runningThreads_of_removeThread hmem), h.plan⟩
  obtain ⟨t, ht, hid⟩ := List.any_eq_true.mp h.known
  refine List.any_eq_true.mpr ⟨t, List.mem_filter.mpr ⟨ht, ?_⟩, hid⟩
  rw [eq_of_beq hid]
  exact decide_eq_true hu.symm

theorem seeStop (h : Poised tid plan p) (u : Nat) : Poised tid plan (p.seeStop u) := by
  rw [Process.seeStop]
  split
  · exact h
  · exact h.modifyThread u (fun _ => rfl) fun _ => id

theorem unsignal (h : Poised tid plan p) (u : Nat) : Poised tid plan (p.unsignal u) :=
  h.modifyThread u (fun _ => rfl) fun _ => id

/-- A thread that does not run gives access to memory. -/
theorem exists_memoryThread (h : Poised tid plan p) : ∃ u, p.memoryThread? = some u := by
  obtain ⟨t, ht, hid⟩ := List.any_eq_true.mp h.known
  have hstopped : t.running = false := by
    refine eq_false_of_ne_true fun hrunning => h.halted ?_
    exact Process.mem_runningThreads.mpr ⟨t, ht, hrunning, eq_of_beq hid⟩
  rw [Process.memoryThread?]
  split
  · exact ⟨_, rfl⟩
  · have hsome : (p.threads.find? fun t => !t.running).isSome = true :=
      List.find?_isSome.mpr ⟨t, ht, by rw [hstopped]; rfl⟩
    obtain ⟨u, hu⟩ := Option.isSome_iff_exists.mp hsome
    exact ⟨u.tid, by rw [hu]; rfl⟩

end Poised

/-- Nothing becomes of a process while a new thread is awaited. -/
theorem process_of_firstHalts {u : Nat} {p p' : Process} {new : List Answered} {a : Unit}
    (h : Awaits (some u) FirstHalt p new a p') : p' = p := by
  induction h with
  | last h => exact h.2.2
  | next h _ ih => exact ih.trans h.2.2

theorem Announces.poised {tid u v : Nat} {plan : Option StepPlan} {p p' : Process} {new : List Answered}
    (h : Announces u p new v p') (hp : Poised tid plan p) : Poised tid plan p' := by
  cases h with
  | known hknown => exact hp.modifyThread u (fun _ => rfl) fun _ => Bool.noConfusion
  | unknown hunknown hwaits =>
    rw [process_of_firstHalts hwaits]
    exact (hp.addThread v).modifyThread u (fun _ => rfl) fun _ => Bool.noConfusion

/-- What is made of a status leaves the thread that steps, unless it is gone. -/
theorem StepVerdict.poised {tid : Nat} {plan : Option StepPlan} {status : WaitStatus}
    {v : Option (Option Stepped)} {new : List Answered} {p p' : Process}
    (h : StepVerdict tid status v new p p') (hv : v ≠ some (some .gone)) (hp : Poised tid plan p) :
    Poised tid plan p' := by
  cases h with
  | done u => exact hp
  | expected u hstops => exact hp.seeStop tid
  | stop u hstops => exact hp
  | quiet u _ hquiet => exact hp.modifyThread tid (fun _ => rfl) fun _ => id
  | signal u _ hstop htrap hloud => exact hp.modifyThread tid (fun _ => rfl) fun _ => id
  | cloned u h => exact h.poised hp
  | event u _ hclone hexit => exact hp
  | exiting u => exact hp
  | continued u => exact hp
  | exited u code => exact absurd rfl hv
  | signaled u signal => exact absurd rfl hv

theorem poised_of_awaits {tid : Nat} {plan : Option StepPlan} {a : Option Stepped}
    {new : List Answered} {p p' : Process} (h : Awaits (some tid) (StepVerdict tid) p new a p')
    (ha : a ≠ some .gone) (hp : Poised tid plan p) : Poised tid plan p' := by
  induction h with
  | last h => exact h.poised (fun heq => ha (Option.some.inj heq)) hp
  | next h _ ih => exact ih ha (h.poised (Option.some_ne_none _).symm hp)

/-- A step leaves the thread and the plan, unless the thread is gone. -/
theorem StepsOff.poised {tid : Nat} {plan : Option StepPlan} {stepped : Stepped}
    {new : List Answered} {p p' : Process} (h : StepsOff tid p new stepped p')
    (hstepped : stepped ≠ .gone) (hp : Poised tid plan p) : Poised tid plan p' := by
  induction h with
  | last h => exact poised_of_awaits h (fun heq => hstepped (Option.some.inj heq)) (hp.unsignal tid)
  | again h _ ih => exact ih hstepped (poised_of_awaits h (Option.some_ne_none _).symm (hp.unsignal tid))

namespace Tracing

variable {s : System (Logged κ)} {p : Process} [Kernel κ] [Kernel.Lawful κ]

theorem goes_judgeStep (hp : s.tracer.process = some p) (tid : Nat) (status : WaitStatus) :
    Ends (judgeStep tid status) s (Goes s fun v new p' => StepVerdict tid status v new p p') := by
  rw [judgeStep.eq_def]
  split
  · exact goes_pure hp (.done _ p)
  · refine Goes.bind (goes_consumeStop hp tid) (fun expected => ?_) ?_
    · split
      · exact Moves.pure _
      · exact Moves.pure _
    rintro _ _ _ t ⟨rfl, rfl, rfl⟩ ht
    have hprocess : t.tracer.process = some (p.seeStop tid) := by rw [ht]; rfl
    split
    · rename_i hstops
      exact goes_pure hprocess (.expected _ (of_decide_eq_true hstops))
    · rename_i hnone
      have hzero : p.stopsFor tid = 0 := by simpa using hnone
      have hseen : p.seeStop tid = p := if_pos hzero
      refine goes_pure hprocess ?_
      rw [hseen]
      exact .stop _ hzero
  · rename_i signal htrap hstop
    refine Goes.bind (goes_modifyThread hp tid _) (fun _ => ?_) ?_
    · split
      · exact Moves.pure _
      · exact Moves.pure _
    rintro _ _ _ t ⟨rfl, rfl⟩ ht
    have hprocess : t.tracer.process = some (p.modifyThread tid (Thread.keeping signal)) := by
      rw [ht]
      rfl
    split
    · rename_i hquiet
      exact goes_pure hprocess (.quiet _ p hquiet)
    · rename_i hloud
      exact goes_pure hprocess (.signal _ p hstop htrap (eq_false_of_ne_true hloud))
  · split
    · rename_i hclone
      subst hclone
      refine Goes.bind (goes_threadCloned hp tid) (fun _ => Moves.pure _) ?_
      rintro u new p' t h ht
      refine goes_pure (by rw [ht]; rfl) ?_
      rw [List.append_nil]
      exact .cloned _ h
    · rename_i hclone
      split
      · rename_i hexit
        subst hexit
        refine Goes.bind (goes_letExit hp tid) (fun _ => Moves.pure _) ?_
        rintro _ _ _ t ⟨rfl, rfl⟩ ht
        exact goes_pure (by rw [ht]; rfl) (.exiting _ _)
      · rename_i hexit
        exact goes_pure hp (.event _ p hclone hexit)
  · refine Goes.bind (goes_threadGone hp tid _) (fun _ => Moves.pure _) ?_
    rintro _ _ _ t ⟨rfl, rfl⟩ ht
    exact goes_pure (by rw [ht]; rfl) (.exited _ _ p)
  · refine Goes.bind (goes_threadGone hp tid _) (fun _ => Moves.pure _) ?_
    rintro _ _ _ t ⟨rfl, rfl⟩ ht
    exact goes_pure (by rw [ht]; rfl) (.signaled _ _ p)
  · exact goes_pure hp (.continued _ p)

theorem serves_stepFrom (tid count : Nat) : ∀ {s : System (Logged κ)} {p : Process},
    s.tracer.process = some p → Ends (stepFrom tid count) s fun r s' =>
      Serves s s' → StepsFrom tid count s p r s' := by
  induction count with
  | zero =>
    intro s p hp _
    exact .tired (List.append_nil _).symm (State.withProcess_eq_self hp).symm (.nil p)
  | succ count ih =>
    intro s p hp
    refine (ends_takeSignal hp tid).bind_eq fun t ht => ?_
    have hprocess : t.tracer.process = some (p.unsignal tid) := by rw [ht.2]; rfl
    refine Ends.mono (P := fun r s' => Serves t s' → StepsFrom tid (count + 1) s p r s') ?_
      fun r s' h hserves => h ⟨hserves.survives, ht.1 ▸ hserves.granted⟩
    refine Goes.serve (goes_attempt hprocess rfl) (fun answer => ?_) ?_
    · split
      · exact Moves.pure _
      · exact Moves.throw _
      · refine (moves_await _ (moves_judgeStep tid)).bind fun result => ?_
        split
        · exact Moves.pure _
        · exact moves_stepFrom tid count
        · exact (moves_threadGone tid none).bind fun _ => Moves.pure _
        · exact Moves.throw _
    rintro _ _ _ u ⟨_, rfl, rfl, rfl⟩ hlog hu
    refine Goes.serve (goes_await (J := StepVerdict tid) (moves_judgeStep tid) (moves_judgeStep tid)
      (by rw [hu]; rfl) fun status v q hv => goes_judgeStep (by rw [hv]; rfl) tid status)
      (fun result => ?_) ?_
    · split
      · exact Moves.pure _
      · exact moves_stepFrom tid count
      · exact (moves_threadGone tid none).bind fun _ => Moves.pure _
      · exact Moves.throw _
    rintro _ new q v ⟨stepped, rfl, hawaits⟩ hlog' hv
    have hlogs : v.kernel.log = s.kernel.log ++ ⟨.step tid (p.signalFor tid), .ok ()⟩ :: new := by
      rw [hlog', hlog, ht.1, List.append_assoc]
      rfl
    have htracer : v.tracer = s.tracer.withProcess q := by
      rw [hv, hu, ht.2]
      rfl
    cases stepped with
    | some stepped => exact fun _ => .ended hlogs htracer (.last hawaits)
    | none =>
      refine (ih (by rw [hv]; rfl)).mono fun r s' h hserves => ?_
      exact .again hlogs htracer hawaits (h hserves)

/-- A step of a thread comes to an end, or it is given up after it was interrupted too often. -/
theorem serves_singleStep (tid : Nat) (hp : s.tracer.process = some p) :
    Ends (singleStep tid) s fun r s' => Serves s s' → StepsFrom tid maxSteps s p r s' :=
  serves_stepFrom tid maxSteps hp

end Tracing

end DebugAdapter.Tracer
