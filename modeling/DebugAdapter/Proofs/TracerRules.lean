import DebugAdapter.Proofs.Operation
import DebugAdapter.Tracer.Inspection

/-!
# Rules for operations of a tracer

What the elementary operations of a tracer do, in the form that proofs about `do` blocks use.
-/

namespace DebugAdapter.Tracer

open Debuggee
open Linux
open Operation (Ends ends_bind)

variable {κ : Type}

/-! ### Threads -/

/-- The threads of the process. -/
def System.threads {κ : Type} (s : System κ) : List Thread :=
  (s.tracer.process.map (·.threads)).getD []

theorem threads_of_gone {s : System κ} (h : s.tracer.process = none) : s.threads = [] := by
  rw [System.threads, h]
  rfl

theorem threads_of_present {s : System κ} {p : Process} (h : s.tracer.process = some p) :
    s.threads = p.threads := by
  rw [System.threads, h]
  rfl

/-- A system with the same process has the same threads. -/
theorem threads_of_process {s s' : System κ} (h : s'.tracer.process = s.tracer.process) :
    s'.threads = s.threads := by
  rw [System.threads, h, System.threads]

theorem mem_threads_of_thread? {s : System κ} {tid : Nat} {t : Thread}
    (h : s.tracer.process.bind (·.thread? tid) = some t) : t ∈ s.threads ∧ t.tid = tid := by
  obtain ⟨p, hp, ht⟩ := Option.bind_eq_some_iff.mp h
  have htid : (t.tid == tid) = true := List.find?_some (p := fun v : Thread => v.tid == tid) ht
  rw [threads_of_present hp]
  exact ⟨List.mem_of_find?_eq_some ht, eq_of_beq htid⟩

namespace Tracing

theorem threads_modifyThread {tid : Nat} (f : Thread → Thread) (s : System κ) :
    Ends (modifyThread tid f) s fun r s' => r = .ok () ∧ s'.kernel = s.kernel ∧
      s'.threads = s.threads.map fun t => if t.tid = tid then f t else t := by
  refine ⟨rfl, rfl, ?_⟩
  show ((s.tracer.process.map _).map _).getD [] = _
  rw [System.threads]
  rcases s.tracer.process with _ | p
  · rfl
  · rfl

/-! ### Elementary operations -/

/-- The breakpoints of a system, with the kernel through which they are patched. -/
def breakpointsOf (s : System κ) : Patched κ := ⟨s.kernel, s.tracer.breakpoints⟩

/-- A system after work on its breakpoints. -/
def withBreakpoints (s : System κ) (p : Patched κ) : System κ :=
  ⟨p.kernel, { s.tracer with breakpoints := p.table }⟩

@[simp] theorem breakpointsOf_withBreakpoints (s : System κ) (p : Patched κ) :
    breakpointsOf (withBreakpoints s p) = p := rfl

@[simp] theorem process_withBreakpoints (s : System κ) (p : Patched κ) :
    (withBreakpoints s p).tracer.process = s.tracer.process := rfl

@[simp] theorem ends_tracer_bind {β : Type} (f : State → Tracing κ β) (s : System κ)
    (Q : Except DebugError β → System κ → Prop) :
    Ends (tracer >>= f) s Q ↔ Ends (f s.tracer) s Q :=
  Operation.ends_get_bind _ s Q

@[simp] theorem ends_modifyTracer (f : State → State) (s : System κ)
    (Q : Except DebugError Unit → System κ → Prop) :
    Ends (modifyTracer f) s Q ↔ Q (.ok ()) { s with tracer := f s.tracer } := Iff.rfl

@[simp] theorem ends_modifyTracer_bind {β : Type} (f : State → State) (g : Unit → Tracing κ β)
    (s : System κ) (Q : Except DebugError β → System κ → Prop) :
    Ends (modifyTracer f >>= g) s Q ↔ Ends (g ()) { s with tracer := f s.tracer } Q :=
  Operation.ends_modify_bind _ g s Q

theorem ends_attempt_bind [Kernel κ] {β : Type} (c : SystemCall)
    (f : Except OsError c.Answer → Tracing κ β) (s : System κ)
    (Q : Except DebugError β → System κ → Prop) :
    Ends (attempt c >>= f) s Q ↔
      Ends (f (Kernel.perform c s.kernel).1) { s with kernel := (Kernel.perform c s.kernel).2 } Q :=
  ends_bind _ f s Q

/-- A call whose failure is an error. -/
theorem ends_require [Kernel κ] (error : OsError → DebugError) (c : SystemCall) (s : System κ)
    (Q : Except DebugError c.Answer → System κ → Prop) :
    Ends (require error c) s Q ↔
      Q ((Kernel.perform c s.kernel).1.mapError error)
        { s with kernel := (Kernel.perform c s.kernel).2 } := by
  rw [require, ends_attempt_bind]
  cases (Kernel.perform c s.kernel).1 with
  | ok a => exact Iff.rfl
  | error e => exact Iff.rfl

theorem ends_programOf_bind [Kernel κ] {β : Type} (pid : Nat) (f : Option String → Tracing κ β)
    (s : System κ) (Q : Except DebugError β → System κ → Prop) :
    Ends (programOf pid >>= f) s Q
      ↔ Ends (f (Kernel.linkTarget? s.kernel (processPath pid "exe"))) s Q :=
  ends_bind _ f s Q

theorem ends_files_bind [Kernel κ] {β : Type} (f : Files → Tracing κ β) (s : System κ)
    (Q : Except DebugError β → System κ → Prop) :
    Ends (files >>= f) s Q ↔ Ends (f (Kernel.file s.kernel)) s Q :=
  ends_bind _ f s Q

theorem ends_onModules_bind {α β : Type} (m : StateM ModuleRegistry α) (f : α → Tracing κ β)
    (s : System κ) (Q : Except DebugError β → System κ → Prop) :
    Ends (onModules m >>= f) s Q ↔ Ends (f (m.run s.tracer.modules).1)
      { s with tracer := { s.tracer with modules := (m.run s.tracer.modules).2 } } Q :=
  ends_bind _ f s Q

theorem ends_attemptPatching {α : Type} (p : Patching κ α) (s : System κ)
    (Q : Except DebugError (Except OsError α) → System κ → Prop) :
    Ends (attemptPatching p) s Q
      ↔ Ends p (breakpointsOf s) fun r t => Q (.ok r) (withBreakpoints s t) := Iff.rfl

/-- Work on the breakpoints is work on their part of the system. -/
theorem ends_patching {α : Type} (error : OsError → DebugError) (p : Patching κ α) (s : System κ)
    (Q : Except DebugError α → System κ → Prop) :
    Ends (patching error p) s Q
      ↔ Ends p (breakpointsOf s) fun r t => Q (r.mapError error) (withBreakpoints s t) := by
  rw [patching, ends_bind, ends_attemptPatching, Ends, Ends]
  cases (p.run.run (breakpointsOf s)).1 with
  | ok a => exact Iff.rfl
  | error e => exact Iff.rfl

/-- A system with a process that does not run. -/
structure Stopped (s : System κ) (p : Process) (tid : Nat) : Prop where
  process : s.tracer.process = some p
  halted : p.isRunning = false
  /-- A thread through which memory is accessed. -/
  thread : p.memoryThread? = some tid

theorem ends_process_bind {β : Type} {s : System κ} {p : Process}
    (hp : s.tracer.process = some p) (f : Process → Tracing κ β)
    (Q : Except DebugError β → System κ → Prop) :
    Ends (process >>= f) s Q ↔ Ends (f p) s Q := by
  have hprocess : ∀ P : Except DebugError Process → System κ → Prop,
      Ends process s P ↔ P (.ok p) s := by
    intro P
    rw [process, ends_tracer_bind, hp]
    rfl
  rw [ends_bind, hprocess]

/-- Without a process, what needs one fails. -/
theorem ends_process_bind_none {β : Type} {s : System κ} (hp : s.tracer.process = none)
    (f : Process → Tracing κ β) (Q : Except DebugError β → System κ → Prop) :
    Ends (process >>= f) s Q ↔ Q (.error .notStarted) s := by
  have hprocess : ∀ P : Except DebugError Process → System κ → Prop,
      Ends process s P ↔ P (.error .notStarted) s := by
    intro P
    rw [process, ends_tracer_bind, hp]
    rfl
  rw [ends_bind, hprocess]

theorem ends_stoppedProcess_bind {β : Type} {s : System κ} {p : Process} {tid : Nat}
    (h : Stopped s p tid) (f : Process → Tracing κ β)
    (Q : Except DebugError β → System κ → Prop) :
    Ends (stoppedProcess >>= f) s Q ↔ Ends (f p) s Q := by
  have hprocess : ∀ P : Except DebugError Process → System κ → Prop,
      Ends stoppedProcess s P ↔ P (.ok p) s := by
    intro P
    rw [stoppedProcess, ends_process_bind h.process, h.halted]
    rfl
  rw [ends_bind, hprocess]

/-- While the process runs, what needs it stopped fails. -/
theorem ends_stoppedProcess_bind_running {β : Type} {s : System κ} {p : Process}
    (hp : s.tracer.process = some p) (hrunning : p.isRunning = true) (f : Process → Tracing κ β)
    (Q : Except DebugError β → System κ → Prop) :
    Ends (stoppedProcess >>= f) s Q ↔ Q (.error .processRunning) s := by
  have hprocess : ∀ P : Except DebugError Process → System κ → Prop,
      Ends stoppedProcess s P ↔ P (.error .processRunning) s := by
    intro P
    rw [stoppedProcess, ends_process_bind hp, hrunning]
    rfl
  rw [ends_bind, hprocess]

/-- A process that is there and does not run stays as it is when it is looked for. -/
theorem ends_stoppedProcess (s : System κ) : Ends stoppedProcess s fun r s' =>
    s = s' ∧ ∀ p, r = .ok p → s.tracer.process = some p := by
  rcases hp : s.tracer.process with _ | p
  · rw [stoppedProcess, ends_process_bind_none hp]
    exact ⟨rfl, nofun⟩
  · rw [stoppedProcess, ends_process_bind hp]
    split
    · exact ⟨rfl, nofun⟩
    · refine ⟨rfl, ?_⟩
      rintro _ ⟨⟩
      rfl

theorem ends_memoryThread_bind {β : Type} {s : System κ} {p : Process} {tid : Nat}
    (h : Stopped s p tid) (f : Nat → Tracing κ β)
    (Q : Except DebugError β → System κ → Prop) :
    Ends (memoryThread >>= f) s Q ↔ Ends (f tid) s Q := by
  have hthread : ∀ P : Except DebugError Nat → System κ → Prop,
      Ends memoryThread s P ↔ P (.ok tid) s := by
    intro P
    rw [memoryThread, ends_process_bind h.process, h.thread]
    rfl
  rw [ends_bind, hthread]

/-- Nothing changes when a thread that gives access to memory is looked for. -/
theorem ends_memoryThread (s : System κ) : Ends memoryThread s fun r s' =>
    s = s' ∧ ∀ tid, r = .ok tid → s.tracer.process ≠ none := by
  rcases hp : s.tracer.process with _ | p
  · rw [memoryThread, ends_process_bind_none hp]
    exact ⟨rfl, nofun⟩
  · rw [memoryThread, ends_process_bind hp]
    split
    · exact ⟨rfl, fun _ _ => nofun⟩
    · exact ⟨rfl, fun _ _ => nofun⟩

/-- What a wait does, by what is made of each status: `I` holds while the wait goes on. -/
theorem ends_awaitFrom_of [Kernel κ] {α : Type} {tid : Option Nat}
    {judge : WaitStatus → Tracing κ (Option α)} {I : System κ → Prop}
    {Q : Except DebugError (Except OsError α) → System κ → Prop}
    (hnone : ∀ s, I s → Q (.ok (.error .noChild)) s)
    (herror : ∀ s e, I s → (Kernel.perform (.wait tid) s.kernel).1 = .error e →
      Q (.ok (.error e)) { s with kernel := (Kernel.perform (.wait tid) s.kernel).2 })
    (hstatus : ∀ s status, I s → (Kernel.perform (.wait tid) s.kernel).1 = .ok status →
      Ends (judge status) { s with kernel := (Kernel.perform (.wait tid) s.kernel).2 } fun r s' =>
        match r with
        | .ok none => I s'
        | .ok (some a) => Q (.ok (.ok a)) s'
        | .error e => Q (.error e) s') (fuel : Nat) :
    ∀ s, I s → Ends (awaitFrom tid judge fuel) s Q := by
  induction fuel with
  | zero => exact hnone
  | succ fuel ih =>
    intro s hs
    rw [awaitFrom, ends_attempt_bind]
    rcases hanswer : (Kernel.perform (.wait tid) s.kernel).1 with e | status
    · exact herror s e hs hanswer
    · refine (hstatus s status hs hanswer).bind (fun verdict s' h => ?_) fun _ _ h => h
      cases verdict with
      | some a => exact h
      | none => exact ih s' h

theorem ends_await_of [Kernel κ] {α : Type} {tid : Option Nat}
    {judge : WaitStatus → Tracing κ (Option α)} {I : System κ → Prop}
    {Q : Except DebugError (Except OsError α) → System κ → Prop}
    (hnone : ∀ s, I s → Q (.ok (.error .noChild)) s)
    (herror : ∀ s e, I s → (Kernel.perform (.wait tid) s.kernel).1 = .error e →
      Q (.ok (.error e)) { s with kernel := (Kernel.perform (.wait tid) s.kernel).2 })
    (hstatus : ∀ s status, I s → (Kernel.perform (.wait tid) s.kernel).1 = .ok status →
      Ends (judge status) { s with kernel := (Kernel.perform (.wait tid) s.kernel).2 } fun r s' =>
        match r with
        | .ok none => I s'
        | .ok (some a) => Q (.ok (.ok a)) s'
        | .error e => Q (.error e) s') {s : System κ} (hs : I s) : Ends (await tid judge) s Q := by
  rw [await, Operation.ends_get_bind]
  exact ends_awaitFrom_of hnone herror hstatus _ s hs

end Tracing

end DebugAdapter.Tracer
