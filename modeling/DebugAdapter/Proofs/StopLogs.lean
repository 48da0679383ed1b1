import DebugAdapter.Proofs.CallLogs

/-!
# Stopping a process, call by call

A thread that is stopped may report anything before the stop signal arrives. `Verdict` lists what the
tracer makes of each status, with the calls that it makes for it and what it notes about the process;
`StopsThread` and `StopsThreads` are what stopping one thread and several comes to. A thread that reports
a trap at an enabled breakpoint is moved back to the address of the breakpoint.

Main statement: `goes_stopAll`.
-/

namespace DebugAdapter

open Debuggee
open Linux
open Operation

/-- A status that leaves a thread stopped. -/
def Linux.WaitStatus.isHalt : WaitStatus → Bool
  | stopped .. | event .. => true
  | _ => false

namespace Tracer

open Tracing (Awaits Trap)

/-! ### What is noted -/

namespace Thread

/-- A thread that was stopped. -/
def halted (t : Thread) : Thread := { t with running := false }

/-- A thread that gets a signal when it runs next. -/
def keeping (signal : Signal) (t : Thread) : Thread := { t with pendingSignal := some signal }

/-- A thread that was sent a stop signal. -/
def expecting (t : Thread) : Thread := { t with expectedStops := t.expectedStops + 1 }

end Thread

/-- How many stop signals to a thread were not seen yet. -/
def Process.stopsFor (p : Process) (tid : Nat) : Nat :=
  ((p.thread? tid).map (·.expectedStops)).getD 0

/-- What is noted of a process when a thread was stopped by a stop signal. -/
def Process.seeStop (p : Process) (tid : Nat) : Process :=
  if p.stopsFor tid = 0 then p
  else p.modifyThread tid fun t => { t with expectedStops := t.expectedStops - 1 }

variable {κ : Type}

/-! ### What is made of a status -/

/-- How the cause of a trap is found. -/
inductive Diagnosis (t : BreakpointTable) (tid : Nat) : Trap → List Answered → Prop
  | breakpoint {code : Int} {regs : Machine.RegisterFile} (hcode : code = 1 ∨ code = 0x80)
      (henabled : t.isEnabledAt (regs.pc - 1) = true) :
      Diagnosis t tid (.breakpoint (regs.pc - 1))
        [⟨.signalCode tid, .ok code⟩, ⟨.getRegisters tid, .ok regs⟩]
  | programTrap {code : Int} {regs : Machine.RegisterFile} (hcode : code = 1 ∨ code = 0x80)
      (henabled : t.isEnabledAt (regs.pc - 1) = false) :
      Diagnosis t tid .programTrap [⟨.signalCode tid, .ok code⟩, ⟨.getRegisters tid, .ok regs⟩]
  | step : Diagnosis t tid .step [⟨.signalCode tid, .ok (2 : Int)⟩]
  | signal {code : Int} (hcode : ¬(code = 1 ∨ code = 0x80)) (hstep : code ≠ 2) :
      Diagnosis t tid .signal [⟨.signalCode tid, .ok code⟩]

/-- A wait for a new thread ends with the first status that leaves it stopped. -/
def FirstHalt (status : WaitStatus) (v : Option Unit) (new : List Answered) (p p' : Process) : Prop :=
  v = (if status.isHalt then some () else none) ∧ new = [] ∧ p' = p

/-- What becomes of a process when a thread announces a new one. -/
inductive Announces (tid : Nat) (p : Process) : List Answered → Nat → Process → Prop
  | known {u : Nat} (hknown : p.hasThread u = true) :
      Announces tid p [⟨.eventMessage tid, .ok u⟩] u (p.modifyThread tid Thread.halted)
  | unknown {u : Nat} {waits : List Answered} {q : Process} (hunknown : p.hasThread u = false)
      (hwaits : Awaits (some u) FirstHalt p waits () q) :
      Announces tid p (⟨.eventMessage tid, .ok u⟩ :: waits) u
        ((q.addThread u).modifyThread tid Thread.halted)

/-- What is made of a status of a thread that is to stop: whether the thread is there, or nothing if
the wait goes on. -/
inductive Verdict (t : BreakpointTable) (tid : Nat) :
    WaitStatus → Option Bool → List Answered → Process → Process → Prop
  | stop (u : Nat) (p : Process) : Verdict t tid (.stopped u .stop) (some true) [] p (p.seeStop tid)
  /-- The thread stands behind the trap instruction of a breakpoint: it is moved back. -/
  | rewound (u : Nat) (p : Process) {a : UInt64} {found : List Answered}
      (hfound : Diagnosis t tid (.breakpoint a) found) (regs : Machine.RegisterFile) :
      Verdict t tid (.stopped u .trap) (some true)
        (found ++ [⟨.getRegisters tid, .ok regs⟩, ⟨.setRegisters tid (regs.set .rip a), .ok ()⟩]) p p
  | trapped (u : Nat) (p : Process) {trap : Trap} {found : List Answered}
      (hfound : Diagnosis t tid trap found) (htrap : trap = .step ∨ trap = .programTrap) :
      Verdict t tid (.stopped u .trap) (some true) found p p
  | trapSignal (u : Nat) (p : Process) {found : List Answered}
      (hfound : Diagnosis t tid .signal found) :
      Verdict t tid (.stopped u .trap) (some true) found p
        (p.modifyThread tid (Thread.keeping .trap))
  | signal (u : Nat) (p : Process) {signal : Signal} (hstop : signal ≠ .stop) (htrap : signal ≠ .trap) :
      Verdict t tid (.stopped u signal) (some true) [] p (p.modifyThread tid (Thread.keeping signal))
  | cloned (u : Nat) {p p' : Process} {new : List Answered} {v : Nat}
      (h : Announces tid p new v p') :
      Verdict t tid (.event u WaitStatus.cloneEvent) (some true) new p p'
  | event (u : Nat) (p : Process) {n : Nat} (hclone : n ≠ WaitStatus.cloneEvent)
      (hexit : n ≠ WaitStatus.exitEvent) : Verdict t tid (.event u n) (some true) [] p p
  /-- A thread that is about to exit goes on until it is gone. -/
  | exiting (u : Nat) (p : Process) :
      Verdict t tid (.event u WaitStatus.exitEvent) none [⟨.resume tid none, .ok ()⟩] p p
  | continued (u : Nat) (p : Process) : Verdict t tid (.continued u) none [] p p
  | exited (u : Nat) (code : Int) (p : Process) :
      Verdict t tid (.exited u code) (some false) [] p (p.removeThread tid)
  | signaled (u : Nat) (signal : Signal) (p : Process) :
      Verdict t tid (.signaled u signal) (some false) [] p (p.removeThread tid)

/-- What becomes of a process when one of its threads is stopped. -/
inductive StopsThread (t : BreakpointTable) (tid : Nat) (p : Process) :
    List Answered → Process → Prop
  | present {new : List Answered} {q : Process}
      (h : Awaits (some tid) (Verdict t tid) (p.modifyThread tid Thread.expecting) new true q) :
      StopsThread t tid p (⟨.killThread p.pid tid .stop, .ok ()⟩ :: new)
        (q.modifyThread tid Thread.halted)
  | ended {new : List Answered} {q : Process}
      (h : Awaits (some tid) (Verdict t tid) (p.modifyThread tid Thread.expecting) new false q) :
      StopsThread t tid p (⟨.killThread p.pid tid .stop, .ok ()⟩ :: new) q

/-- What becomes of a process when threads of it are stopped in turn. -/
inductive StopsThreads (t : BreakpointTable) :
    List Nat → Process → List Answered → Process → Prop
  | nil (p : Process) : StopsThreads t [] p [] p
  | cons {tid : Nat} {rest : List Nat} {p q p' : Process} {new more : List Answered}
      (h : StopsThread t tid p new q) (hrest : StopsThreads t rest q more p') :
      StopsThreads t (tid :: rest) p (new ++ more) p'

namespace Tracing

variable {s : System (Logged κ)} {p : Process}

theorem goes_modifyThread (hp : s.tracer.process = some p) (tid : Nat) (f : Thread → Thread) :
    Ends (modifyThread tid f) s (Goes s fun _ new p' => new = [] ∧ p' = p.modifyThread tid f) :=
  goes_modifyProcess hp _

theorem goes_consumeStop (hp : s.tracer.process = some p) (tid : Nat) :
    Ends (consumeStop tid) s (Goes s fun expected new p' =>
      expected = decide (p.stopsFor tid ≠ 0) ∧ new = [] ∧ p' = p.seeStop tid) := by
  rw [consumeStop, expectedStops, bind_assoc, ends_tracer_bind, pure_bind, hp, Process.seeStop]
  show Ends (if p.stopsFor tid = 0 then _ else _) s _
  split
  · rename_i hnone
    exact goes_pure hp ⟨(decide_eq_false (not_not_intro hnone)).symm, rfl, rfl⟩
  · rename_i hsome
    refine Goes.bind (goes_modifyThread hp tid _) (fun _ => Moves.pure _) ?_
    rintro _ _ _ t ⟨rfl, rfl⟩ ht
    exact goes_pure (by rw [ht]; rfl) ⟨(decide_eq_true hsome).symm, rfl, rfl⟩

theorem goes_threadGone (hp : s.tracer.process = some p) (tid : Nat) (status : Option Int) :
    Ends (threadGone tid status) s (Goes s fun _ new p' => new = [] ∧ p' = p.removeThread tid) := by
  rw [threadGone, ends_tracer_bind, hp]
  dsimp only
  rw [modifyProcess, ends_modifyTracer_bind, hp]
  split
  · exact .gone rfl (List.prefix_refl _)
  · exact .done (List.append_nil _).symm rfl ⟨rfl, rfl⟩

variable [Kernel κ]

theorem goes_registersOf (hp : s.tracer.process = some p) (tid : Nat) :
    Ends (registersOf tid) s (Goes s fun regs new p' =>
      new = [⟨.getRegisters tid, .ok regs⟩] ∧ p' = p) :=
  goes_require hp .ptrace rfl

theorem goes_pcOf (hp : s.tracer.process = some p) (tid : Nat) :
    Ends (pcOf tid) s (Goes s fun pc new p' => ∃ regs : Machine.RegisterFile,
      pc = regs.pc ∧ new = [⟨.getRegisters tid, .ok regs⟩] ∧ p' = p) := by
  refine Goes.bind (goes_registersOf hp tid) (fun _ => Moves.pure _) ?_
  rintro regs _ _ t ⟨rfl, rfl⟩ ht
  exact goes_pure (by rw [ht]; rfl) ⟨regs, rfl, rfl, rfl⟩

theorem goes_setPc (hp : s.tracer.process = some p) (tid : Nat) (pc : UInt64) :
    Ends (setPc tid pc) s (Goes s fun _ new p' => p' = p ∧ ∃ regs : Machine.RegisterFile,
      new = [⟨.getRegisters tid, .ok regs⟩, ⟨.setRegisters tid (regs.set .rip pc), .ok ()⟩]) := by
  refine Goes.bind (goes_registersOf hp tid)
    (fun _ => moves_require_of_attempt _ (moves_probe rfl)) ?_
  rintro regs _ _ t ⟨rfl, rfl⟩ ht
  refine (goes_require (by rw [ht]; rfl) .ptrace rfl).mono fun r s' h => h.mono ?_
  rintro _ _ _ ⟨rfl, rfl⟩
  exact ⟨rfl, regs, rfl⟩

theorem goes_trapOf (hp : s.tracer.process = some p) (tid : Nat) :
    Ends (trapOf tid) s (Goes s fun trap new p' =>
      p' = p ∧ Diagnosis s.tracer.breakpoints tid trap new) := by
  refine Goes.bind (goes_attempt hp rfl) (fun answer => ?_) ?_
  · split
    · exact Moves.pure _
    · exact Moves.throw _
    · split
      · refine (moves_pcOf tid).bind fun _ => moves_tracer.bind fun _ => ?_
        split
        · exact Moves.pure _
        · exact Moves.pure _
      · split
        · exact Moves.pure _
        · exact Moves.pure _
  · rintro _ _ p t ⟨code, rfl, rfl, rfl⟩ ht
    have hprocess : t.tracer.process = some p := by rw [ht]; rfl
    dsimp only
    split
    · rename_i hcode
      refine Goes.bind (goes_pcOf hprocess tid) (fun _ => moves_tracer.bind fun _ => ?_) ?_
      · split
        · exact Moves.pure _
        · exact Moves.pure _
      · rintro _ _ _ u ⟨regs, rfl, rfl, rfl⟩ hu
        have hbreakpoints : u.tracer.breakpoints = s.tracer.breakpoints := by rw [hu, ht]; rfl
        rw [ends_tracer_bind, hbreakpoints]
        split
        · rename_i henabled
          exact goes_pure (by rw [hu]; rfl) ⟨rfl, .breakpoint hcode henabled⟩
        · rename_i henabled
          exact goes_pure (by rw [hu]; rfl) ⟨rfl, .programTrap hcode (eq_false_of_ne_true henabled)⟩
    · rename_i hcode
      split
      · rename_i hstep
        subst hstep
        exact goes_pure hprocess ⟨rfl, .step⟩
      · rename_i hstep
        exact goes_pure hprocess ⟨rfl, .signal hcode hstep⟩

theorem goes_letExit (hp : s.tracer.process = some p) (tid : Nat) :
    Ends (letExit tid) s (Goes s fun _ new p' => new = [⟨.resume tid none, .ok ()⟩] ∧ p' = p) := by
  refine Goes.bind (goes_attempt hp rfl) (fun _ => Moves.pure _) ?_
  rintro _ _ _ t ⟨_, rfl, rfl, rfl⟩ ht
  exact goes_pure (by rw [ht]; rfl) ⟨rfl, rfl⟩

/-! ### Waits -/

variable [Kernel.Lawful κ]

theorem goes_threadCloned (hp : s.tracer.process = some p) (tid : Nat) :
    Ends (threadCloned tid) s (Goes s fun u new p' => Announces tid p new u p') := by
  have hmark : ∀ u : Nat, Moves Lengthens (do
      markStopped tid
      return u : Tracing (Logged κ) Nat) := fun _ => (moves_markStopped tid).bind fun _ => Moves.pure _
  have hadd : ∀ u : Nat, Moves Lengthens (do
      modifyProcess (·.addThread u)
      markStopped tid
      return u : Tracing (Logged κ) Nat) := fun u =>
    Moves.bind (moves_haltProcess (fun _ => rfl) fun p _ => p.mem_runningThreads_of_addThread)
      fun _ => hmark u
  refine Goes.bind (goes_require hp .ptrace rfl) (fun u => ?_) ?_
  · refine moves_process.bind fun p => ?_
    split
    · refine (moves_await _ fun status => ?_).bind fun started => ?_
      · split <;> exact Moves.pure _
      · split
        · exact hadd u
        · exact Moves.throw _
    · exact hmark u
  rintro u _ p t ⟨rfl, rfl⟩ ht
  have hprocess : t.tracer.process = some p := by rw [ht]; rfl
  rw [ends_process_bind hprocess]
  split
  · rename_i hunknown
    refine Goes.bind (goes_await (J := FirstHalt) (fun status => ?_) (fun status => ?_) hprocess
      fun status v q hv => ?_) (fun started => ?_) ?_
    · split <;> exact Moves.pure _
    · split <;> exact Moves.pure _
    · have hq : v.tracer.process = some q := by rw [hv]; rfl
      cases status <;> exact goes_pure hq ⟨rfl, rfl, rfl⟩
    · split
      · exact hadd u
      · exact Moves.throw _
    · rintro _ waits q v ⟨_, rfl, hwaits⟩ hv
      refine Goes.bind (goes_modifyProcess (by rw [hv]; rfl) _) (fun _ => hmark u) ?_
      rintro _ _ _ w ⟨rfl, rfl⟩ hw
      refine Goes.bind (goes_modifyThread (by rw [hw]; rfl) tid _) (fun _ => Moves.pure _) ?_
      rintro _ _ _ x ⟨rfl, rfl⟩ hx
      refine goes_pure (by rw [hx]; rfl) ?_
      simp only [List.append_nil]
      exact .unknown (by simpa using hunknown) hwaits
  · rename_i hknown
    refine Goes.bind (goes_modifyThread hprocess tid _) (fun _ => Moves.pure _) ?_
    rintro _ _ _ v ⟨rfl, rfl⟩ hv
    exact goes_pure (by rw [hv]; rfl) (.known (by simpa using hknown))

theorem goes_settle (hp : s.tracer.process = some p) (tid : Nat) (status : WaitStatus) :
    Ends (settle tid status) s (Goes s fun v new p' =>
      Verdict s.tracer.breakpoints tid status v new p p') := by
  rw [settle.eq_def]
  split
  · refine Goes.bind (goes_consumeStop hp tid) (fun _ => Moves.pure _) ?_
    rintro _ _ _ t ⟨-, rfl, rfl⟩ ht
    exact goes_pure (by rw [ht]; rfl) (.stop _ p)
  · refine Goes.bind (goes_trapOf hp tid) (fun trap => ?_) ?_
    · cases trap with
      | breakpoint address => exact (moves_setPc tid address).bind fun _ => Moves.pure _
      | step => exact Moves.pure _
      | programTrap => exact Moves.pure _
      | signal => exact (moves_keepSignal tid _).bind fun _ => Moves.pure _
    · rintro trap found p t ⟨rfl, hfound⟩ ht
      have hprocess : t.tracer.process = some p := by rw [ht]; rfl
      cases trap with
      | breakpoint a =>
        refine Goes.bind (goes_setPc hprocess tid a) (fun _ => Moves.pure _) ?_
        rintro _ _ _ u ⟨rfl, regs, rfl⟩ hu
        refine goes_pure (by rw [hu]; rfl) ?_
        rw [List.append_nil]
        exact .rewound _ _ hfound regs
      | step =>
        refine goes_pure hprocess ?_
        rw [List.append_nil]
        exact .trapped _ _ hfound (Or.inl rfl)
      | programTrap =>
        refine goes_pure hprocess ?_
        rw [List.append_nil]
        exact .trapped _ _ hfound (Or.inr rfl)
      | signal =>
        refine Goes.bind (goes_modifyThread hprocess tid _) (fun _ => Moves.pure _) ?_
        rintro _ _ _ u ⟨rfl, rfl⟩ hu
        refine goes_pure (by rw [hu]; rfl) ?_
        rw [List.append_nil, List.append_nil]
        exact .trapSignal _ _ hfound
  · rename_i hstop htrap
    refine Goes.bind (goes_modifyThread hp tid _) (fun _ => Moves.pure _) ?_
    rintro _ _ _ t ⟨rfl, rfl⟩ ht
    exact goes_pure (by rw [ht]; rfl) (.signal _ p hstop htrap)
  · split
    · rename_i hclone
      subst hclone
      refine Goes.bind (goes_threadCloned hp tid) (fun _ => Moves.pure _) ?_
      rintro u new p' t h ht
      refine goes_pure (by rw [ht]; rfl) ?_
      rw [List.append_nil]
      exact .cloned _ h
    · rename_i hclone
      split
      · rename_i hexit
        subst hexit
        refine Goes.bind (goes_letExit hp tid) (fun _ => Moves.pure _) ?_
        rintro _ _ _ t ⟨rfl, rfl⟩ ht
        exact goes_pure (by rw [ht]; rfl) (.exiting _ _)
      · rename_i hexit
        exact goes_pure hp (.event _ p hclone hexit)
  · refine Goes.bind (goes_threadGone hp tid _) (fun _ => Moves.pure _) ?_
    rintro _ _ _ t ⟨rfl, rfl⟩ ht
    exact goes_pure (by rw [ht]; rfl) (.exited _ _ p)
  · refine Goes.bind (goes_threadGone hp tid _) (fun _ => Moves.pure _) ?_
    rintro _ _ _ t ⟨rfl, rfl⟩ ht
    exact goes_pure (by rw [ht]; rfl) (.signaled _ _ p)
  · exact goes_pure hp (.continued _ p)

theorem goes_awaitStop (hp : s.tracer.process = some p) (tid : Nat) :
    Ends (awaitStop tid) s (Goes s fun _ new p' => ∃ present q,
      Awaits (some tid) (Verdict s.tracer.breakpoints tid) p new present q ∧
        p' = if present then q.modifyThread tid Thread.halted else q) := by
  refine Goes.bind (goes_await (moves_settle tid) (moves_settle tid) hp
    (J := Verdict s.tracer.breakpoints tid) fun status t q ht => ?_) (fun result => ?_) ?_
  · have h := goes_settle (s := t) (p := q) (by rw [ht]; rfl) tid status
    rw [show t.tracer.breakpoints = s.tracer.breakpoints by rw [ht]; rfl] at h
    exact h
  · split
    · exact moves_markStopped tid
    · exact Moves.pure _
    · exact moves_threadGone tid _
    · exact Moves.throw _
  · rintro _ new q t ⟨present, rfl, hawaits⟩ ht
    have hprocess : t.tracer.process = some q := by rw [ht]; rfl
    cases present with
    | true =>
      refine (goes_modifyThread hprocess tid _).mono fun _ _ h => h.mono ?_
      rintro _ _ _ ⟨rfl, rfl⟩
      rw [List.append_nil]
      exact ⟨true, q, hawaits, rfl⟩
    | false =>
      refine goes_pure hprocess ?_
      rw [List.append_nil]
      exact ⟨false, q, hawaits, rfl⟩

theorem goes_stopThread (hp : s.tracer.process = some p) (tid : Nat) :
    Ends (stopThread tid) s (Goes s fun _ new p' =>
      StopsThread s.tracer.breakpoints tid p new p') := by
  rw [stopThread, ends_process_bind hp]
  refine Goes.bind (goes_attempt hp rfl) (fun answer => ?_) ?_
  · split
    · exact (moves_expectStop tid).bind fun _ => moves_awaitStop tid
    · exact moves_threadGone tid _
    · exact Moves.throw _
  rintro _ _ _ t ⟨_, rfl, rfl, rfl⟩ ht
  refine Goes.bind (goes_modifyThread (by rw [ht]; rfl) tid _) (fun _ => moves_awaitStop tid) ?_
  rintro _ _ _ u ⟨rfl, rfl⟩ hu
  have hbreakpoints : u.tracer.breakpoints = s.tracer.breakpoints := by rw [hu, ht]; rfl
  refine (goes_awaitStop (by rw [hu]; rfl) tid).mono fun _ _ h => h.mono ?_
  rw [hbreakpoints]
  rintro _ new p' ⟨present, q, hawaits, rfl⟩
  cases present with
  | true => exact .present hawaits
  | false => exact .ended hawaits

theorem goes_stopThreads (tids : List Nat) : ∀ {s : System (Logged κ)} {p : Process},
    s.tracer.process = some p → Ends (stopThreads tids) s (Goes s fun _ new p' =>
      StopsThreads s.tracer.breakpoints tids p new p') := by
  induction tids with
  | nil => exact fun hp => goes_pure hp (.nil _)
  | cons tid rest ih =>
    intro s p hp
    refine Goes.bind (goes_stopThread hp tid) (fun _ => moves_hasProcess.bind fun present => ?_) ?_
    · split
      · exact moves_stopThreads rest
      · exact Moves.pure _
    · intro _ new q t hstops ht
      have hprocess : t.tracer.process = some q := by rw [ht]; rfl
      have hbreakpoints : t.tracer.breakpoints = s.tracer.breakpoints := by rw [ht]; rfl
      rw [hasProcess, bind_assoc, ends_tracer_bind, pure_bind, hprocess]
      refine (ih hprocess).mono fun _ _ h => h.mono fun _ more p' hrest => ?_
      rw [hbreakpoints] at hrest
      exact .cons hstops hrest

/-- A process is stopped by stopping each of its threads that runs. -/
theorem goes_stopAll (hp : s.tracer.process = some p) :
    Ends stopAll s (Goes s fun _ new p' =>
      StopsThreads s.tracer.breakpoints p.runningThreads p new p') := by
  rw [stopAll, ends_tracer_bind, hp]
  exact goes_stopThreads p.runningThreads hp

end Tracing

end Tracer

end DebugAdapter
