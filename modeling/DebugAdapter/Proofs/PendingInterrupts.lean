import DebugAdapter.Proofs.InterruptedLooks
import DebugAdapter.Proofs.ProcessStarts
import DebugAdapter.Proofs.PublicRelations
import DebugAdapter.Proofs.Puppet

/-!
# Interrupts that are under way

An interrupt sends a stop signal to one thread, and the stop of the process is published when it comes.
Until then the interrupt is under way: a thread runs that a stop signal is to come for. Requests about
breakpoints stop all threads meanwhile and let them go on, and a look handles whatever the threads report.
An act that does not leave the interrupt under way has an excuse for each thread that a stop signal was to
come for: the thread has ended, the kernel refused a call, the signal came unawaited and was swallowed, or
the thread did not get through a step.

Main statement: `interrupts_of_history`.
-/

namespace DebugAdapter.Tracer

open Debuggee
open Engine.Traced (Engine)
open Linux
open Operation

variable {κ α : Type}

/-- A thread runs, and a stop signal that the tracer sent to it is to come. -/
def System.Bears (s : System κ) (b : Nat) : Prop :=
  ∃ t ∈ s.threads, t.tid = b ∧ t.running = true ∧ 0 < t.expectedStops

instance (s : System κ) (b : Nat) : Decidable (s.Bears b) :=
  inferInstanceAs (Decidable (∃ t ∈ s.threads, t.tid = b ∧ t.running = true ∧ 0 < t.expectedStops))

/-- A process that an interrupt was asked of, by a stop signal to a thread. -/
def Process.interrupted (p : Process) (tid : Nat) : Process :=
  { p.modifyThread tid fun t => { t with expectedStops := t.expectedStops + 1 } with
    interruptRequested := true }

/-- If an interrupt was asked for, a stop signal is to come. -/
def System.Underway (s : System κ) : Prop :=
  s.Asked → ∃ b, s.Bears b

/-- A look at the process is not aside. -/
def Act.isAside : Act → Bool
  | look => false
  | perform r => r.isAside

/-- Why a stop signal to a thread may not come after an act. -/
inductive Excuse (a : Act) (b : Nat) (new : List Mishap) : Prop
  | ended (h : .ended b ∈ new)
  | unawaited (h : .unawaited b ∈ new)
  /-- Requests that are aside get over it when they cannot access memory. -/
  | refused {c : SystemCall} (h : .refused c ∈ new) (hmemory : c.isMemory = true → a.isAside = false)
  /-- The most times that a step is started were not enough. -/
  | exhausted (h : Tracing.maxSteps ≤ new.countP (Mishap.isStepOf b))

/-- An act ends an interrupt that was under way, and no stop is reported. -/
structure Loses (a : Act) (s s' : System (Minuted κ)) : Prop where
  before : s.Asked
  bearer : ∃ b, s.Bears b
  after : s'.Asked
  bare : ∀ b, ¬ s'.Bears b
  excuse : ∀ b, s.Bears b → Excuse a b (s.since s')

/-- The ways of a tracer from a state on while an interrupt stays asked for. -/
inductive Waits [Kernel κ] (drift : κ → κ → Prop) (s₀ : System κ) : System κ → Prop
  | start : Waits drift s₀ s₀
  | act {s : System κ} (a : Act) : Waits drift s₀ s → (s.through [a]).Asked →
      Waits drift s₀ (s.through [a])
  /-- The events are taken. -/
  | collect {s : System κ} : Waits drift s₀ s →
      Waits drift s₀ { s with tracer := { s.tracer with events := [] } }
  | elapse {s : System κ} {k : κ} : drift s.kernel k → Waits drift s₀ s →
      Waits drift s₀ { s with kernel := k }

section Bearers

variable {s s' : System κ} {b : Nat}

theorem bears_iff : s.Bears b ↔ s.Owed b 1 true :=
  exists_congr fun _ => and_congr_right fun _ => and_congr_right fun _ =>
    ⟨fun h => ⟨h.2, fun _ => h.1⟩, fun h => ⟨h.2 rfl, h.1⟩⟩

theorem System.Bears.owed (h : s.Bears b) : s.Owed b 1 false :=
  (bears_iff.mp h).any

theorem System.Bears.running (h : s.Bears b) : ∃ p, s.tracer.process = some p ∧
    b ∈ p.runningThreads ∧ p.isRunning = true := by
  obtain ⟨t, ht, rfl, hrunning, -⟩ := h
  rcases hp : s.tracer.process with _ | p
  · rw [threads_of_gone hp] at ht
    exact absurd ht List.not_mem_nil
  · rw [threads_of_present hp] at ht
    exact ⟨p, rfl, Process.mem_runningThreads.mpr ⟨t, ht, hrunning, rfl⟩,
      List.any_eq_true.mpr ⟨t, ht, hrunning⟩⟩

theorem bears_of_process (h : s'.tracer.process = s.tracer.process) (hb : s.Bears b) : s'.Bears b := by
  obtain ⟨t, ht, hrest⟩ := hb
  exact ⟨t, (threads_of_process h).symm ▸ ht, hrest⟩

end Bearers

variable {s s' t : System (Minuted κ)} {b : Nat} {U : Nat → Prop} {C : List Mishap → Prop}

theorem Parted.excuse {a : Act} {new : List Mishap} (h : Parted b new) : Excuse a b new := by
  rcases h with h | h | ⟨c, hmemory, h⟩
  · exact .ended h
  · exact .unawaited h
  · exact .refused h fun hc => absurd (hmemory.symm.trans hc) Bool.false_ne_true

theorem Lapse.excuse {a : Act} (ha : a.isAside = false) {new : List Mishap} (h : Lapse b new) :
    Excuse a b new := by
  rcases h with h | ⟨c, h⟩ | h
  · exact h.excuse
  · exact .refused h fun _ => ha
  · exact .exhausted h

/-! ### Acts -/

/-- An act that asks for no interrupt leaves one under way, but for an excuse. -/
structure Minds (a : Act) (s s' : System (Minuted κ)) : Prop where
  asked : s'.Asked → s.Asked
  bears : s'.Asked → ∀ b, s.Bears b → s'.Bears b ∨ Excuse a b (s.since s')

theorem Minds.of_process {a : Act} (h : s'.tracer.process = s.tracer.process) : Minds a s s' :=
  ⟨asked_of_process h, fun _ _ hb => Or.inl (bears_of_process h hb)⟩

theorem Minds.of_not_asked {a : Act} (h : ¬ s'.Asked) : Minds a s s' :=
  ⟨fun hs' => absurd hs' h, fun hs' => absurd hs' h⟩

/-- While no thread runs that a stop signal is to come for, only the asking matters. -/
theorem Minds.of_bears {a : Act} (hasked : s'.Asked → s.Asked)
    (h : ∀ b, s.Bears b → s'.Bears b ∨ s'.tracer.process = none ∨ Excuse a b (s.since s')) :
    Minds a s s' :=
  ⟨hasked, fun hs' b hb => (h b hb).imp_right fun h =>
    h.resolve_left fun hnone => not_asked_of_gone hnone hs'⟩

namespace Tracing

variable [Kernel κ] [Kernel.Lawful κ]

/-! #### Requests that are aside -/

omit [Kernel.Lawful κ] in
instance : WorkRelation (SameProcess : System κ → System κ → Prop) where
  enable _ _ _ := ⟨rfl⟩
  disable _ _ _ := ⟨rfl⟩
  work _ _ := ⟨rfl⟩

omit [Kernel.Lawful κ] in
/-- When threads go on each of them does, unless a call is refused. -/
theorem restarts_continueThreads (tids : List Nat) : ∀ s : System (Minuted κ),
    Ends (tids.forM continueThread) s fun r s' =>
      Dealt (fun _ => False) (Failing Refused) s r s' ∧ ∀ b ∈ tids, Restarts b s s' := by
  induction tids with
  | nil => exact fun s => ⟨.ok (StepRelation.refl s) _, fun _ h => absurd h List.not_mem_nil⟩
  | cons tid rest ih =>
    intro s
    refine (dealt_continueThread (U := fun _ => False) (C := Refused) tid s).bind ?_ ?_
    · rintro ⟨⟩ t ht
      refine (ih t).mono fun r s' h => ⟨.after ht.1.toCarries h.1, fun b hb => ?_⟩
      rcases List.mem_cons.mp hb with rfl | hb
      · exact ht.2.before ht.1.minutes h.1.toCarries
      · exact .after ht.1.toCarries h.1.minutes h.1.gone (h.2 b hb)
    · rintro e t ⟨ht, -⟩
      refine ⟨⟨ht.toCarries, ht.reason⟩, fun b _ n _ => Or.inr ?_⟩
      exact ht.reason.imp_right fun h => Or.inr (Or.inr (h e rfl))

omit [Kernel.Lawful κ] in
/-- Work is done, and a thread that does not run and that a stop signal is to come for goes on. -/
theorem restarts_afterWork {work : Nat → Tracing (Minuted κ) α}
    (hwork : ∀ access, Moves (Carries fun _ => False) (work access)) (hhalted : Halted b s) :
    Ends (memoryThread >>= fun access => outcome (work access) >>= fun result =>
      goOn true >>= fun _ => ofOutcome result) s fun _ s' =>
        Carries (fun _ => False) s s' ∧ Restarts b s s' := by
  refine (ends_memoryThread_of_halted hhalted).bind ?_ ?_
  · rintro access _ ⟨rfl, -⟩
    rw [ends_outcome_bind]
    refine (hwork access s).mono fun result t ht => ?_
    have hgoOn : Ends (goOn true) t fun _ u => Carries (fun _ => False) t u ∧ Restarts b t u := by
      rcases hp : t.tracer.process with _ | p
      · rw [goOn, if_pos rfl, ends_process_bind_none hp]
        exact ⟨StepRelation.refl t, fun _ _ => Or.inr (Or.inl hp)⟩
      · rw [goOn, if_pos rfl, ends_process_bind hp]
        refine (restarts_continueThreads _ t).mono fun r u h => ⟨h.1.toCarries, fun n howed => ?_⟩
        obtain ⟨v, hv, htid, -⟩ := id howed
        rw [threads_of_present hp] at hv
        exact h.2 b (List.mem_map.mpr ⟨v, hv, htid⟩) n howed
    have hall : Ends (goOn true) t fun _ u => Carries (fun _ => False) s u ∧ Restarts b s u :=
      hgoOn.mono fun _ _ h => ⟨StepRelation.trans ht h.1, .after ht h.1.minutes h.1.gone h.2⟩
    exact hall.bind (fun _ _ h => h) fun _ _ h => h
  · rintro e _ ⟨rfl, hunowed⟩
    exact ⟨StepRelation.refl s, fun n howed => absurd howed (hunowed e rfl _ _)⟩

/-- A thread that a stop signal is to come for is among those that are stopped. -/
theorem starts_stopAll_of_bears (hb : s.Bears b) : Ends stopAll s fun r t =>
    Starts (fun _ => True) s t ∧ (t.tracer.process = none ∨ Failing Refused r (s.since t)) ∧
      (r = .ok () → Halted b t) := by
  obtain ⟨p, hp, hmem, -⟩ := hb.running
  refine ((starts_stopAll (fun _ => True.intro) hp (List.ne_nil_of_mem hmem)).and (halted_stopAll s)).mono
    fun r t h => ⟨h.1.1, h.1.2, fun hr q hq => ?_⟩
  rw [runningThreads_of_halted (h.2.2 hr q hq)]
  exact List.not_mem_nil

/-- Work with all threads stopped: a thread that a stop signal is to come for goes on after it. -/
theorem bears_withAllStopped {work : Nat → Tracing (Minuted κ) α}
    (hwork : ∀ access, Moves (Carries fun _ => False) (work access)) (hb : s.Bears b) :
    Ends (withAllStopped work) s fun _ s' =>
      s'.Bears b ∨ s'.tracer.process = none ∨ Parted b (s.since s') := by
  obtain ⟨p, hp, hmem, hrunning⟩ := hb.running
  rw [ends_withAllStopped hp, access, bind_assoc, ends_process_bind hp, hrunning]
  simp only [if_true, bind_assoc]
  refine (starts_stopAll_of_bears hb).bind ?_ ?_
  · rintro ⟨⟩ t ⟨ht, -, hhalted⟩
    -- The signal of the interrupt is still counted, besides the one that stopped the thread.
    refine (restarts_afterWork hwork (hhalted rfl)).mono ?_
    rintro r s' ⟨hs', hrestarts⟩
    rw [since_append ht.minutes hs'.minutes]
    rcases ht.counted hb.owed with howed | hnone | hparted
    · rcases hrestarts 1 howed with howed | hnone | hparted
      · exact Or.inl (bears_iff.mpr (howed.mono (Nat.le_add_right _ _)))
      · exact Or.inr (Or.inl hnone)
      · exact Or.inr (Or.inr (Lasting.before hparted))
    · exact Or.inr (Or.inl (hs'.gone hnone))
    · exact Or.inr (Or.inr (Lasting.after hparted))
  · rintro e t ⟨-, hreason, -⟩
    exact Or.inr (hreason.imp_right fun h => Or.inr (Or.inr (h e rfl)))

omit [Kernel κ] [Kernel.Lawful κ] in
/-- Input goes to the process as it is. -/
theorem bears_writeInput (data : Bytes) (hb : s.Bears b) :
    Ends (writeInput data) s fun _ s' => s'.Bears b := by
  rcases hp : s.tracer.process with _ | p
  · rw [writeInput, ends_process_bind_none hp]
    exact hb
  · rw [writeInput, ends_process_bind hp]
    obtain ⟨t, ht, hrest⟩ := hb
    split
    · exact ⟨t, ht, hrest⟩
    · rw [threads_of_present hp] at ht
      refine ⟨t, ?_, hrest⟩
      show t ∈ ((s.tracer.process.map _).map fun p : Process => p.threads).getD []
      rw [hp]
      exact ht

/-- A request that is aside leaves an interrupt under way. -/
theorem minds_aside {r : Request} (hr : r.isAside = true) (s : System (Minuted κ)) :
    Ends (Engine.operation r) s fun _ s' => Minds (.perform r) s s' := by
  have hasked : Ends (Engine.operation r) s fun _ s' => s'.Asked → s.Asked :=
    (moves_operation_of_isAside (R := Carries fun _ => True) hr s).mono fun _ _ h => h.asked
  have hminds : ∀ {t : System (Minuted κ)}, (t.Asked → s.Asked) ∧ (∀ b, s.Bears b → t.Bears b ∨
      t.tracer.process = none ∨ Parted b (s.since t)) → Minds (.perform r) s t := fun h =>
    .of_bears h.1 fun b hb => (h.2 b hb).imp_right (Or.imp_right Parted.excuse)
  refine (hasked.and ?_).mono fun _ _ => hminds
  have hsame : ∀ {α : Type} {m : Tracing (Minuted κ) α}, Moves SameProcess m → Ends m s fun _ s' =>
      ∀ b, s.Bears b → s'.Bears b ∨ s'.tracer.process = none ∨ Parted b (s.since s') :=
    fun hm => (hm s).mono fun _ _ h b hb => Or.inl (bears_of_process h.process hb)
  cases r with
  | connectRemote url plugin => exact hsame (Moves.throw _)
  | threads => exact hsame moves_threads
  | setBreakpoint address => exact fun b hb => bears_withAllStopped (fun _ => moves_work _ (.addUser _ _)) hb
  | removeBreakpoint id =>
    refine fun b hb => bears_withAllStopped (fun access => ?_) hb
    refine (moves_work _ (.removeUser access id)).bind fun removed => ?_
    split
    · exact Moves.throw _
    · exact Moves.pure _
  | removeAllBreakpoints =>
    exact fun b hb => bears_withAllStopped (fun _ => moves_work _ (.removeAllUser _)) hb
  | readMemory address length => exact hsame (moves_readMemory address length)
  | writeMemory address data => exact hsame (moves_writeMemory address data)
  | registers tid frame => exact hsame (moves_registers tid frame)
  | setRegister tid frame name value => exact hsame (moves_setRegister tid frame name value)
  | callStack tid => exact hsame (moves_callStack tid)
  | disassemble address count => exact hsame (moves_disassemble address count)
  | modules => exact hsame moves_modules
  | mainModule => exact hsame moves_mainModule
  | entryPoint => exact hsame moves_entryPoint
  | findReferences address => exact hsame (moves_findReferences address)
  | writeStdin data => exact fun b hb => Or.inl (bears_writeInput data hb)
  | readStdout limit => exact hsame (moves_readOutput .stdout limit)
  | readStderr limit => exact hsame (moves_readOutput .stderr limit)
  | _ => cases hr

/-! #### Interrupts -/

omit [Kernel.Lawful κ] in
/-- What an interrupt comes to: without a running thread nothing happens, else a stop signal is sent to
one. -/
theorem ends_interrupt {s : System κ} {Q : Except DebugError Unit → System κ → Prop}
    (hnone : Q (.error .notStarted) s)
    (hidle : ∀ p, s.tracer.process = some p → p.runningThreads = [] → Q (.ok ()) s)
    (hrefused : ∀ e k, Q (.error e) { s with kernel := k })
    (hsent : ∀ p tid k, s.tracer.process = some p → tid ∈ p.runningThreads →
      Q (.ok ()) ⟨k, { s.tracer with process := some (p.interrupted tid) }⟩) :
    Ends interrupt s Q := by
  rcases hp : s.tracer.process with _ | p
  · rw [interrupt, ends_process_bind_none hp]
    exact hnone
  · rw [interrupt, ends_process_bind hp]
    dsimp only
    split
    · rename_i hnotarget
      split at hnotarget
      · cases hnotarget
      · exact hidle p hp (List.head?_eq_none_iff.mp hnotarget)
    · rename_i tid htarget
      have htid : tid ∈ p.runningThreads := by
        split at htarget
        · rename_i hmain
          cases htarget
          exact List.contains_iff_mem.mp hmain
        · exact List.mem_of_head? htarget
      rw [ends_bind, ends_require]
      rcases (Kernel.perform (.killThread p.pid tid .stop) s.kernel).1 with e | ⟨⟩
      · exact hrefused _ _
      · let k : κ := (Kernel.perform (.killThread p.pid tid .stop) s.kernel).2
        have hsend : Ends (expectStop tid >>= fun _ =>
            modifyProcess fun p => { p with interruptRequested := true }) { s with kernel := k } fun r s' =>
              r = .ok () ∧ s' = ⟨k, { s.tracer with process := some (p.interrupted tid) }⟩ := by
          refine ⟨rfl, ?_⟩
          show System.mk k { s.tracer with process := (s.tracer.process.map _).map _ } = _
          rw [hp]
          rfl
        refine hsend.mono ?_
        rintro r s' ⟨rfl, rfl⟩
        exact hsent p tid k hp htid

omit [Kernel κ] [Kernel.Lawful κ] in
/-- A stop signal is to come for the thread that it was sent to, and for those that one was to come for. -/
theorem bears_interrupted {s s' : System κ} {p : Process} {tid : Nat} (hp : s.tracer.process = some p)
    (htid : tid ∈ p.runningThreads) (hp' : s'.tracer.process = some (p.interrupted tid)) :
    s'.Asked ∧ s'.Bears tid ∧ ∀ b, s.Bears b → s'.Bears b := by
  have hthreads : ∀ t ∈ p.threads, ∃ t' ∈ s'.threads, t'.tid = t.tid ∧ t'.running = t.running ∧
      t.expectedStops ≤ t'.expectedStops ∧ (t.tid = tid → 0 < t'.expectedStops) := by
    intro t ht
    rw [threads_of_present hp']
    refine ⟨_, List.mem_map.mpr ⟨t, ht, rfl⟩, ?_⟩
    split
    · exact ⟨rfl, rfl, Nat.le_succ _, fun _ => Nat.succ_pos _⟩
    · rename_i hne
      exact ⟨rfl, rfl, Nat.le_refl _, fun h => absurd h hne⟩
  refine ⟨?_, ?_, ?_⟩
  · rw [System.Asked, hp']
    rfl
  · obtain ⟨t, ht, hrunning, heq⟩ := Process.mem_runningThreads.mp htid
    obtain ⟨t', ht', htid', hrunning', -, hcount⟩ := hthreads t ht
    exact ⟨t', ht', htid'.trans heq, hrunning'.trans hrunning, hcount heq⟩
  · rintro b ⟨t, ht, hb, hrunning, hcount⟩
    rw [threads_of_present hp] at ht
    obtain ⟨t', ht', htid', hrunning', hle, -⟩ := hthreads t ht
    exact ⟨t', ht', htid'.trans hb, hrunning'.trans hrunning, Nat.lt_of_lt_of_le hcount hle⟩

omit [Kernel.Lawful κ] in
/-- An interrupt that is accepted is under way, and one that was under way stays so. -/
theorem bears_interrupt (s : System κ) : Ends interrupt s fun r s' =>
    (∀ b, s.Bears b → s'.Bears b) ∧ (s'.Asked → s.Asked ∨ ∃ b, s'.Bears b) ∧
      (r = .ok () → (∃ t ∈ s.threads, t.running = true) → s'.Asked ∧ ∃ b, s'.Bears b) := by
  refine ends_interrupt ⟨fun _ => id, Or.inl, ?_⟩ (fun p hp hidle => ⟨fun _ => id, Or.inl, ?_⟩)
    (fun e k => ⟨fun _ => bears_of_process rfl, fun h => Or.inl h, ?_⟩) fun p tid k hp htid => ?_
  · rintro ⟨⟩
  · rintro - ⟨t, ht, hrunning⟩
    rw [threads_of_present hp] at ht
    have hmem := Process.mem_runningThreads.mpr ⟨t, ht, hrunning, rfl⟩
    rw [hidle] at hmem
    exact absurd hmem List.not_mem_nil
  · rintro ⟨⟩
  · let s' : System κ := ⟨k, { s.tracer with process := some (p.interrupted tid) }⟩
    have hs' : s'.tracer.process = some (p.interrupted tid) := rfl
    obtain ⟨hasked, hbears, hkept⟩ := bears_interrupted hp htid hs'
    exact ⟨hkept, fun _ => Or.inr ⟨tid, hbears⟩, fun _ _ => ⟨hasked, tid, hbears⟩⟩

/-! #### The end of the process -/

omit [Kernel.Lawful κ] in
/-- A process that is killed stays as it is until it is gone. -/
theorem minds_kill (a : Act) (s : System (Minuted κ)) : Ends kill s fun _ s' => Minds a s s' := by
  rcases hp : s.tracer.process with _ | p
  · rw [kill, ends_process_bind_none hp]
    exact .of_process rfl
  · rw [kill, ends_process_bind hp]
    dsimp only
    have hsignal : Moves SameTracer (require (.syscall "kill") (.kill p.pid .kill) :
        Tracing (Minuted κ) Unit) := moves_require_of_attempt _ (moves_probe rfl)
    have hawait : Moves SameTracer (await none (judgeKill p.pid) :
        Tracing (Minuted κ) (Except OsError Int)) := moves_await none (moves_judgeKill p.pid)
    have hsame : ∀ {t : System (Minuted κ)}, SameTracer s t → Minds a s t :=
      fun h => .of_process (congrArg State.process h.tracer)
    refine (hsignal s).bind (fun _ t ht => ?_) fun _ _ => hsame
    refine (hawait t).bind (fun result u hu => ?_) fun _ _ hu => hsame (StepRelation.trans ht hu)
    split
    · exact .of_not_asked (not_asked_of_gone rfl)
    · exact .of_not_asked (not_asked_of_gone rfl)
    · exact hsame (StepRelation.trans ht hu)

omit [Kernel.Lawful κ] in
theorem carries_cancelPlan : Moves (Carries U) (cancelPlan : Tracing (Minuted κ) Unit) := by
  refine moves_tracer.bind fun t => ?_
  split
  · exact Moves.pure _
  · refine Moves.bind (Moves.modify fun s => ?_) fun _ => ?_
    · rcases hp : s.tracer.process with _ | p
      · exact .of_gone rfl (Option.map_eq_none_iff.mpr hp)
      · exact .of_change hp (congrArg (Option.map _) hp) rfl rfl fun _ => id
    · split
      · exact (moves_attemptPatching (carries_patching (Patching.moves_removePlanned _ _))).bind
          fun _ => Moves.pure _
      · exact Moves.pure _

theorem deals_drainStops [Reason C] (hU : ∀ tid, U tid) :
    Deals U C (drainStops : Tracing (Minuted κ) Unit) := by
  have hthreads : ∀ tids : List Nat,
      Deals U C (tids.forM (drainThread · maxDrains) : Tracing (Minuted κ) Unit) := by
    intro tids
    induction tids with
    | nil => exact .pure _
    | cons tid rest ih => exact (deals_drainThread (hU tid) _).bind fun _ => ih
  exact deals_process.bind fun _ => hthreads _

/-- What the tracer put into a process is taken back, or there is a reason that it is not. -/
theorem dealt_takeBack (hb : s.Bears b) :
    Ends takeBack s (Dealt (fun _ => True) (fun r new => r ≠ .ok true → Lapse b new) s) := by
  obtain ⟨p, hp, -⟩ := hb.running
  rw [takeBack, ends_process_bind hp]
  refine (starts_stopAll_of_bears hb).bind ?_ ?_
  · rintro ⟨⟩ t ⟨ht, -, hhalted⟩
    rw [hasProcess, bind_assoc, ends_tracer_bind, pure_bind]
    split
    · rename_i hsome
      obtain ⟨q, hq⟩ := Option.isSome_iff_exists.mp hsome
      have hcarries : Ends cancelPlan t fun _ u => Carries (fun _ => True) t u := carries_cancelPlan t
      have hcancel : Ends cancelPlan t fun r u =>
          r = .ok () ∧ Starts (fun _ => True) s u ∧ Halted b u := by
        refine ((ends_cancelPlan hq).and hcarries).mono fun r u hu => ?_
        refine ⟨hu.1.1, ht.trans hu.2, fun q' hq' => ?_⟩
        cases hu.1.2.1.symm.trans hq'
        exact hhalted rfl q hq
      refine hcancel.bind_eq fun u hu => (ends_memoryThread_of_halted hu.2).bind ?_ ?_
      · rintro access _ ⟨rfl, -⟩
        have hpatches : Ends (patching .ptrace (Patching.disableAll access)) u
            (Dealt (fun _ => True) (Failing (Lapse b)) s) :=
          (deals_patching _ (Patching.blames_disableAll access) u).mono fun _ _ h =>
            .after hu.1.toCarries (h.mono fun hr e he => Or.inr (Or.inl (hr e he)))
        -- Draining may swallow signals, but only of a process that is let go of then.
        refine Dealt.bind hpatches (fun e _ h _ => h e rfl) fun _ v hv => ?_
        have hdrain : Ends drainStops v (Dealt (fun _ => True) (Failing (Lapse b)) s) :=
          (deals_drainStops (fun _ => True.intro) v).mono fun _ _ => .after hv.toCarries
        refine Dealt.bind hdrain (fun e _ h _ => h e rfl) fun _ w hw => ?_
        exact ⟨hw.toCarries, Or.inr fun h => absurd rfl h⟩
      · rintro e _ ⟨rfl, hunowed⟩
        refine ⟨hu.1.toCarries, ?_⟩
        rcases hu.1.counted hb.owed with howed | hnone | hparted
        · exact absurd howed (hunowed e rfl _ _)
        · exact Or.inl hnone
        · exact Or.inr fun _ => Or.inl hparted
    · rename_i hnone
      exact ⟨ht.toCarries, Or.inl (Option.not_isSome_iff_eq_none.mp hnone)⟩
  · rintro e t ⟨ht, hreason, -⟩
    exact ⟨ht.toCarries, hreason.imp_right fun h _ => Reason.refused (h e rfl)⟩

/-- A process is detached from, unless a stop signal may be lost. -/
theorem minds_detach {a : Act} (ha : a.isAside = false) (s : System (Minuted κ)) :
    Ends detach s fun _ s' => Minds a s s' := by
  rw [detach_eq]
  have hreason : Ends takeBack s fun r t =>
      ∀ b, s.Bears b → r ≠ .ok true → t.tracer.process = none ∨ Lapse b (s.since t) := by
    intro b hb hr
    exact (dealt_takeBack hb).reason.imp_right fun h => h hr
  have htakeBack : Ends takeBack s fun r t => (t.Asked → s.Asked) ∧
      ∀ b, s.Bears b → r ≠ .ok true → t.tracer.process = none ∨ Lapse b (s.since t) :=
    ((moves_takeBack (R := Carries fun _ => True) carries_cancelPlan s).mono fun _ _ h => h.asked).and
      hreason
  have hstays : ∀ {r : Except DebugError Bool} {t : System (Minuted κ)}, (t.Asked → s.Asked) ∧
      (∀ b, s.Bears b → r ≠ .ok true → t.tracer.process = none ∨ Lapse b (s.since t)) →
      r ≠ .ok true → Minds a s t := fun h hr =>
    .of_bears h.1 fun b hb => Or.inr ((h.2 b hb hr).imp_right (Lapse.excuse ha))
  refine htakeBack.bind (fun going t h => ?_) fun e t h => hstays h (by rintro ⟨⟩)
  cases going with
  | true =>
    refine (ends_letGo t).mono fun r s' h => .of_not_asked (not_asked_of_gone ?_)
    rw [h.2]
  | false => exact hstays h (by rintro ⟨⟩)

theorem minds_destroy {a : Act} (ha : a.isAside = false) (s : System (Minuted κ)) :
    Ends destroy s fun _ s' => Minds a s s' :=
  ends_destroy (fun _ => .of_process rfl) (fun _ _ _ => minds_kill a s) fun _ _ _ => minds_detach ha s

/-! #### Runs and steps -/

/-- Nothing is asked for. -/
def Unasks (s : System (Minuted κ)) (_ : Except DebugError Unit) (s' : System (Minuted κ)) : Prop :=
  s'.Asked → s.Asked

instance : OutcomeRelation (Carries fun _ => True : System (Minuted κ) → System (Minuted κ) → Prop)
    Unasks where
  quiet _ h := h.asked
  after h h' hs := h.asked (h' hs)
  report stop s := (spent_reportStop stop s).mono fun _ _ h hs => (h.asked hs).1

theorem precedes_stepThreadUnasks (tid : Nat) :
    Precedes (Carries fun _ => True) Unasks (stepThread tid : Tracing (Minuted κ) Stepped) :=
  .of_moves (moves_stepThread tid)

theorem unasks_resume : Comes Unasks (resume : Tracing (Minuted κ) Unit) :=
  comes_resume precedes_stepThreadUnasks fun _ _ => .of_process rfl rfl

theorem unasks_runPlan (plan : StepPlan) : Comes Unasks (runPlan plan : Tracing (Minuted κ) Unit) := by
  intro s
  refine ends_runPlan plan s (fun _ => id) fun access p hp => ?_
  refine (WorkRelation.work (R := Carries fun _ => True) (.addPlanned access plan.address) s).mono
    fun r q hq => ?_
  cases r with
  | error e => exact hq.asked
  | ok _ =>
    have hplanning : Carries (fun _ => True) s (planning (withBreakpoints s q) p plan) := by
      have hpatched : (withBreakpoints s q).tracer.process = some p := hp
      exact StepRelation.trans hq (.of_change hpatched rfl rfl rfl fun _ => id)
    have hpublish : ∀ t : System (Minuted κ), t.tracer.process ≠ none →
        Ends (publish .stepping) t fun _ t' => Carries (fun _ => True) t t' := fun _ _ => .of_process rfl rfl
    refine (comes_resumeAs precedes_stepThreadUnasks hpublish ?_).mono fun _ _ =>
      OutcomeRelation.after hplanning
    rintro ⟨⟩

theorem unasks_step (tid : Nat) (kind : StepKind) :
    Comes Unasks (step tid kind : Tracing (Minuted κ) Unit) :=
  comes_step unasks_runPlan (fun tid reason s _ => comes_stepInstruction precedes_stepThreadUnasks tid
    reason (s := s) (.of_process rfl rfl)) tid kind

omit [Kernel κ] [Kernel.Lawful κ] in
/-- What a process has to be stopped for is refused while a stop signal is to come. -/
theorem minds_of_stopped {a : Act} {f : Process → Tracing (Minuted κ) Unit}
    (hf : Comes Unasks (stoppedProcess >>= f)) (s : System (Minuted κ)) :
    Ends (stoppedProcess >>= f) s fun _ s' => Minds a s s' := by
  -- A thread with a signal to come runs, so the process is not stopped and the request changes nothing.
  by_cases hbears : ∃ b, s.Bears b
  · obtain ⟨b, hb⟩ := hbears
    obtain ⟨p, hp, -, hrunning⟩ := hb.running
    exact (ends_stoppedProcess_bind_running hp hrunning f _).mpr (.of_process rfl)
  · exact (hf s).mono fun _ _ hasked => .of_bears hasked fun b hb => absurd ⟨b, hb⟩ hbears

/-! #### Starts of a process -/

omit [Kernel.Lawful κ] in
/-- A process that was made is reported with no interrupt asked for. -/
theorem minds_beginning (a : Act) (state : ProcessState) (s : System (Minuted κ)) :
    Beginning state s fun _ s' => Minds a s s' where
  refused _ := .of_process rfl
  failed hp _ _ := .of_not_asked (not_asked_of_gone hp)
  started _ p stop _ _ hhalted _ := by
    refine (ends_reportStop_halted stop rfl hhalted).mono ?_
    rintro r s' ⟨-, q, hq⟩
    refine .of_not_asked fun hasked => ?_
    rw [System.Asked, hq.process, Option.any_some, hq.interrupt] at hasked
    cases hasked

/-- An act that is no interrupt leaves one under way, but for an excuse. -/
theorem minds_act {a : Act} (ha : a ≠ .perform .interrupt) (s : System (Minuted κ)) :
    Ends a.operation s fun _ s' => Minds a s s' := by
  have hdiscard : ∀ {α : Type} {m : Tracing (Minuted κ) α}, Ends m s (fun _ s' => Minds a s s') →
      Ends (do let _ ← m : Tracing (Minuted κ) Unit) s fun _ s' => Minds a s s' :=
    (ends_discard _ s (Minds a s)).mpr
  cases a with
  | look =>
    refine hdiscard ((upholds_look s).mono fun _ s' h => ⟨h.asked, fun hs' b hb => ?_⟩)
    rcases h.owed hs' b 1 (bears_iff.mp hb) with howed | hnone | hlapse
    · exact Or.inl (bears_iff.mpr howed)
    · exact absurd hs' (not_asked_of_gone hnone)
    · exact Or.inr (hlapse.excuse rfl)
  | perform r =>
    cases r with
    | launch info => exact ends_launchToEntry info (minds_beginning _ _ s)
    | attach pid => exact hdiscard (ends_attach pid (minds_beginning _ _ s))
    | resume => exact hdiscard (minds_of_stopped unasks_resume s)
    | step tid kind =>
      have hstep := unasks_step (κ := κ) tid kind
      refine hdiscard ?_
      show Ends (step tid kind) s _
      rw [step, stoppedThread, bind_assoc] at hstep ⊢
      exact minds_of_stopped hstep s
    | interrupt => exact absurd rfl ha
    | kill => exact hdiscard (minds_kill _ s)
    | detach => exact hdiscard (minds_detach rfl s)
    | destroy => exact hdiscard (minds_destroy rfl s)
    | _ => exact hdiscard (minds_aside rfl s)

end Tracing

/-! ### Histories -/

section Histories

variable [Kernel κ] [Kernel.Lawful κ]

/-- An interrupt that is under way stays so or an act loses it, for a reason that concerns every thread
which a stop signal was to come for. -/
theorem underway_act (a : Act) (h : s.Underway) :
    Ends a.operation s fun _ s' => s'.Underway ∨ Loses a s s' := by
  by_cases ha : a = .perform .interrupt
  · subst ha
    refine (Tracing.ends_discard Tracing.interrupt s fun s' => s'.Underway ∨ Loses _ s s').mpr ?_
    refine (Tracing.bears_interrupt s).mono fun _ s' hs' => Or.inl fun hasked => ?_
    refine (hs'.2.1 hasked).elim (fun hbefore => ?_) id
    obtain ⟨b, hb⟩ := h hbefore
    exact ⟨b, hs'.1 b hb⟩
  · refine (Tracing.minds_act ha s).mono fun _ s' hs' => ?_
    by_cases hbears : ∃ b, s'.Bears b
    · exact Or.inl fun _ => hbears
    · by_cases hasked : s'.Asked
      · have hbefore := hs'.asked hasked
        refine Or.inr ⟨hbefore, h hbefore, hasked, fun b hb => hbears ⟨b, hb⟩, ?_⟩
        exact fun b hb => (hs'.bears hasked b hb).resolve_left fun hb => hbears ⟨b, hb⟩
      · exact Or.inl fun h => absurd h hasked

/-- From a state on where an interrupt is under way if it was asked for, this is so until one is lost. -/
theorem underway_or_lost {s₀ : System (Minuted κ)} {es : List Event} (h : History Minuted.Drifts s₀ es s)
    (h₀ : s₀.Underway) : s.Underway ∨ ∃ a es' t, History Minuted.Drifts s₀ es' t ∧
      Loses a t (t.through [a]) ∧ Waits Minuted.Drifts (t.through [a]) s := by
  -- The invariant is the whole disjunction: after a loss only a report or a new interrupt ends the wait.
  induction h with
  | start => exact Or.inl h₀
  | @act es s a hs ih =>
    rcases ih with hunderway | ⟨b, es', t, ht, hloses, hwaits⟩
    · refine (underway_act a hunderway).imp_right fun hloses => ?_
      exact ⟨a, es, s, hs, hloses, .start⟩
    · by_cases hasked : (s.through [a]).Asked
      · exact Or.inr ⟨b, es', t, ht, hloses, hwaits.act a hasked⟩
      · exact Or.inl fun h => absurd h hasked
  | collect _ ih =>
    rcases ih with hunderway | ⟨b, es', t, ht, hloses, hwaits⟩
    · exact Or.inl fun hasked => hunderway hasked
    · exact Or.inr ⟨b, es', t, ht, hloses, hwaits.collect⟩
  | elapse hdrift _ ih =>
    rcases ih with hunderway | ⟨b, es', t, ht, hloses, hwaits⟩
    · exact Or.inl fun hasked => hunderway hasked
    · exact Or.inr ⟨b, es', t, ht, hloses, hwaits.elapse hdrift⟩

/-- Along a history an interrupt that was asked for is under way, or it was lost and no stop was reported
since. An act loses it only for a reason that concerns every thread which a stop signal was to come for. An
interrupt that a running process accepts is under way. -/
theorem interrupts_of_history {program : Option String} {k : κ} {es : List Event}
    (h : History Minuted.Drifts ⟨.new k, .new program⟩ es s) :
    (s.Underway ∨ ∃ a es' t, History Minuted.Drifts ⟨.new k, .new program⟩ es' t ∧
      Loses a t (t.through [a]) ∧ Waits Minuted.Drifts (t.through [a]) s) ∧
    (∀ a : Act, s.Underway → Ends a.operation s fun _ s' => s'.Underway ∨ Loses a s s') ∧
    (Ends Tracing.interrupt s fun r s' => r = .ok () → (∃ t ∈ s.threads, t.running = true) →
      s'.Asked ∧ ∃ b, s'.Bears b) ∧
    (∀ r : Request, Ends (Engine.operation r) s fun _ s' =>
      History Minuted.Drifts ⟨.new k, .new program⟩ es s') ∧
    Ends Tracing.poll s fun _ s' => History Minuted.Drifts ⟨.new k, .new program⟩ es s' := by
  refine ⟨underway_or_lost h fun hasked => ?_, fun a => underway_act a, ?_, h.request, h.poll⟩
  · cases hasked
  · exact (Tracing.bears_interrupt s).mono fun _ _ hs' => hs'.2.2

end Histories

/-- A stage with one thread that is before a call. -/
def threshold : System (Minuted Stage) :=
  ⟨.new {
    Stage.bare [.stopped 1 .stop] [] with
    bytes := fun a => if a = 0x1000 then 0xe8 else 0
    registers := fun _ => Machine.RegisterFile.zero.set .rip 0x1000 },
  .new none⟩

/-- The thread runs up to the return of the call, and an interrupt is asked for. -/
def interrupted : System (Minuted Stage) :=
  threshold.through [.perform (.attach 1), .perform (.step 1 .over), .perform .interrupt]

theorem interrupts_pending : History Minuted.Drifts threshold [] interrupted ∧ interrupted.Asked ∧
    interrupted.Underway ∧ (Ends (Act.perform (.setBreakpoint 0x2000)).operation interrupted fun _ s' =>
      s'.Underway ∨ Loses (.perform (.setBreakpoint 0x2000)) interrupted s') := by
  have h : History Minuted.Drifts threshold [] interrupted := .through _ .start
  have hunderway : interrupted.Underway := fun _ => ⟨1, by decide +kernel⟩
  exact ⟨h, by decide +kernel, hunderway, (interrupts_of_history h).2.1 _ hunderway⟩

/-- The thread meets the breakpoint of the plan in a call from within, and its stop signal comes while it
steps off. -/
def System.reentered (s : System (Minuted Stage)) : System (Minuted Stage) :=
  { s with kernel := { s.kernel with kernel := { s.kernel.kernel with
      registers := fun _ => Machine.RegisterFile.zero.set .rip 0x1006
      waits := [.stopped 1 .stop, .stopped 1 .trap]
      polls := [.stopped 1 .trap] } } }

/-- An interrupt that was accepted is lost: the step off the breakpoint swallows the stop signal, and the
thread runs on. -/
theorem interrupt_swallowed : ∃ s : System (Minuted Stage), History Minuted.Drifts threshold [] s ∧
    s.Asked ∧ s.threads.map (fun t => (t.tid, t.running, t.expectedStops)) = [(1, true, 0)] := by
  have hreentered : ∀ s : System (Minuted Stage), History Minuted.Drifts threshold [] s →
      History Minuted.Drifts threshold [] s.reentered :=
    fun s => .elapse (k := s.reentered.kernel) ⟨rfl, rfl⟩
  refine ⟨interrupted.reentered.through [.look], .through _ ?_, by decide +kernel, by decide +kernel⟩
  exact hreentered _ (.through _ .start)

end DebugAdapter.Tracer
