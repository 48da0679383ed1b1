import DebugAdapter.Proofs.TracerRules
import DebugAdapter.Tracer.Lifecycle
import DebugAdapter.Tracer.Statuses

/-!
# Relations that a tracer moves along

A tracer changes in few ways: it makes system calls, it changes what it knows of its process, it
forgets a process that is gone or whose image was replaced, and it patches memory. Classes say which
of these steps a relation bears, and each operation is shown once to move along all relations that
bear its steps, whatever the kernel answers.

Two families meet here. One is about single steps: a `HaltRelation` bears what happens while threads
are stopped, a `QuietRelation` also that they go on, a `ThreadRelation` also all that a tracer notes
about it, a `TracerRelation` also what statuses of the process do, and a `RequestRelation` all work
on breakpoints that requests ask for. The other one takes the dealings with one thread as a whole,
for relations that its steps leave for a moment: a `ConductRelation` bears that a thread is stopped,
drained and let go on, a `ReportRelation` also that a stop is reported, a `SteppingRelation` that a
thread is stepped, and a `DeedRelation` all of this and all work on breakpoints.
-/

namespace DebugAdapter

namespace Linux

/-- The thread that a status is about. -/
def WaitStatus.tid : WaitStatus → Nat
  | stopped tid _ | event tid _ | exited tid _ | signaled tid _ | continued tid => tid

namespace SystemCall

/-- A look at a thread or a change of its registers: nothing that is reported later depends on it. -/
def isLook : SystemCall → Bool
  | peek .. | getRegisters _ | setRegisters .. | signalCode _ => true
  | _ => false

/-- A write to memory. -/
def isPoke : SystemCall → Bool
  | poke .. => true
  | _ => false

/-- A call that neither writes to memory nor looks for a status without waiting nor steps a thread. -/
def isProbe : SystemCall → Bool
  | poke .. | poll | step .. => false
  | _ => true

theorem isProbe_of_isLook {c : SystemCall} (h : c.isLook = true) : c.isProbe = true := by
  cases c with
  | poke tid addr word => cases h
  | poll => cases h
  | step tid signal => cases h
  | _ => rfl

theorem isPoke_of_isProbe {c : SystemCall} (h : c.isProbe = true) : c.isPoke = false := by
  cases c with
  | poke tid addr word => cases h
  | _ => rfl

theorem ne_poll_of_isProbe {c : SystemCall} (h : c.isProbe = true) : c ≠ poll := by
  rintro rfl
  cases h

end SystemCall

end Linux

namespace Debuggee.Event

/-- An event about modules. -/
def isOfModules : Event → Bool
  | modulesLoaded _ | modulesUnloaded _ => true
  | _ => false

end Debuggee.Event

namespace Tracer

open Debuggee
open Linux
open Operation

/-- A tracer whose process is gone. -/
def State.exited (t : State) (status : Option Int) : State :=
  { t with
    process := none
    breakpoints := .empty
    modules := t.modules.clear
    snapshot := { t.snapshot with stop := none, exit := status, state := .exited }
    events := t.events ++ [.stateChanged .exited] }

/-! ### Steps of a tracer -/

/-- A relation between systems that no look at a thread leaves. -/
class LookRelation {κ : Type} [Kernel κ] (R : System κ → System κ → Prop) : Prop extends
    StepRelation R where
  look : ∀ (c : SystemCall) (s : System κ), c.isLook = true →
    R s { s with kernel := (Kernel.perform c s.kernel).2 }

/-- A relation between systems that a tracer does not leave with what concerns no thread. -/
class AsideRelation {κ : Type} [Kernel κ] (R : System κ → System κ → Prop) : Prop extends
    LookRelation R where
  /-- Images of modules, references and output change; nothing is sent. -/
  aside : ∀ (s : System κ) (t : State), t.process = s.tracer.process →
    t.snapshot = s.tracer.snapshot → t.breakpoints = s.tracer.breakpoints →
    (s.tracer.output = .empty → t.output = .empty) → t.events = s.tracer.events →
    t.modules.modules = s.tracer.modules.modules → R s { s with tracer := t }
  /-- The modules are looked at again. -/
  sync : Moves R (Tracing.syncModules : Tracing κ Unit)

/-- A relation between systems that does not matter to modules and to events about them. -/
class ModulesRelation {κ : Type} [Kernel κ] (R : System κ → System κ → Prop) : Prop extends
    LookRelation R where
  /-- Modules, references and output change, and events about modules are sent. -/
  modules : ∀ (s : System κ) (t : State), t.process = s.tracer.process →
    t.snapshot = s.tracer.snapshot → t.breakpoints = s.tracer.breakpoints →
    (s.tracer.output = .empty → t.output = .empty) →
    (∃ es, t.events = s.tracer.events ++ es ∧ ∀ e ∈ es, e.isOfModules = true) →
    R s { s with tracer := t }

/-- A relation between systems that a tracer does not leave with what it notes about a thread, but for
whether the thread runs. -/
class NoteRelation {κ : Type} [Kernel κ] (R : System κ → System κ → Prop) : Prop extends
    LookRelation R where
  note : ∀ (tid : Nat) (f : Thread → Thread), (∀ t, (f t).tid = t.tid) →
    (∀ t, (f t).running = t.running) → Moves R (Tracing.modifyThread tid f : Tracing κ Unit)

/-- A relation between systems that no system call leaves but a write to memory, a look for a status and
the step of a thread. -/
class ProbeRelation {κ : Type} [Kernel κ] (R : System κ → System κ → Prop) : Prop extends
    StepRelation R where
  probe : ∀ (c : SystemCall) (s : System κ), c.isProbe = true →
    R s { s with kernel := (Kernel.perform c s.kernel).2 }

/-- A relation between systems that the system call does not leave which steps a thread. -/
class StepCallRelation {κ : Type} [Kernel κ] (R : System κ → System κ → Prop) : Prop extends
    StepRelation R where
  stepCall : ∀ (tid : Nat) (signal : Option Signal) (s : System κ),
    R s { s with kernel := (Kernel.perform (.step tid signal) s.kernel).2 }

/-- A relation between systems that a tracer does not leave while it stops threads, as far as it
publishes nothing but the end of the process. -/
class HaltRelation {κ : Type} [Kernel κ] (R : System κ → System κ → Prop) : Prop extends
    AsideRelation R, ProbeRelation R where
  /-- Changes of what is known of the process: no thread goes on. -/
  halt : ∀ (s : System κ) (p p' : Process), s.tracer.process = some p → p'.plan = p.plan →
    (∀ tid ∈ p'.runningThreads, tid ∈ p.runningThreads) →
    R s { s with tracer := { s.tracer with process := some p' } }
  /-- The process is gone. -/
  exited : ∀ (s : System κ) (status : Option Int), s.tracer.process ≠ none →
    R s { s with tracer := s.tracer.exited status }

/-- A relation between systems that a tracer does not leave while it stops threads and lets them go
on, as far as it publishes nothing but the end of the process. -/
class QuietRelation {κ : Type} [Kernel κ] (R : System κ → System κ → Prop) : Prop extends
    AsideRelation R, ProbeRelation R where
  /-- Changes of what is known of the process; its step plan stays. -/
  process : ∀ (s : System κ) (p p' : Process), s.tracer.process = some p → p'.plan = p.plan →
    R s { s with tracer := { s.tracer with process := some p' } }
  /-- The process is gone. -/
  exited : ∀ (s : System κ) (status : Option Int), s.tracer.process ≠ none →
    R s { s with tracer := s.tracer.exited status }

/-- A relation between systems that no system call leaves but a look for a status. -/
class CallRelation {κ : Type} [Kernel κ] (R : System κ → System κ → Prop) : Prop extends
    StepRelation R where
  call : ∀ (c : SystemCall) (s : System κ), c ≠ .poll →
    R s { s with kernel := (Kernel.perform c s.kernel).2 }

/-- A relation between systems that a tracer does not leave while it stops threads and lets them go
on. -/
class ThreadRelation {κ : Type} [Kernel κ] (R : System κ → System κ → Prop) : Prop extends
    CallRelation R where
  /-- Changes of what is known; neither a process nor output appears. -/
  tracer : ∀ (s : System κ) (t : State), t.breakpoints = s.tracer.breakpoints →
    (s.tracer.process = none → t.process = none) →
    (s.tracer.output = .empty → t.output = .empty) → R s { s with tracer := t }
  /-- The process is gone, and its breakpoints with it. -/
  exit : ∀ (s : System κ) (t : State), t.process = none → t.breakpoints = .empty →
    t.output = s.tracer.output → R s { s with tracer := t }

/-- A relation between systems that no step of a tracer leaves but those that set breakpoints or lift
patches. -/
class TracerRelation {κ : Type} [Kernel κ] (R : System κ → System κ → Prop) : Prop extends
    ThreadRelation R where
  /-- A look for a status that announces no new image. -/
  poll : ∀ s : System κ,
    (∀ tid, (Kernel.perform .poll s.kernel).1 ≠ .ok (some (.event tid WaitStatus.execEvent))) →
      R s { s with kernel := (Kernel.perform .poll s.kernel).2 }
  /-- The image of the process was replaced, and its breakpoints are gone with it. -/
  image : ∀ (s : System κ) (t : State) (tid : Nat),
    (Kernel.perform .poll s.kernel).1 = .ok (some (.event tid WaitStatus.execEvent)) →
    (s.tracer.process = none → t.process = none) → t.breakpoints = .empty →
    t.output = s.tracer.output → R s ⟨(Kernel.perform .poll s.kernel).2, t⟩
  /-- The breakpoint of a step plan goes. -/
  unplan : ∀ (tid : Nat) (a : UInt64) (s : System κ),
    Ends (Patching.removePlanned tid a) (Tracing.breakpointsOf s) fun _ p =>
      R s (Tracing.withBreakpoints s p)

/-- A relation between systems that does not matter to patches which come and go. -/
class ToggleRelation {κ : Type} [Kernel κ] (R : System κ → System κ → Prop) : Prop extends
    StepRelation R where
  enable : ∀ (tid : Nat) (a : UInt64) (s : System κ),
    Ends (Patching.enable tid a) (Tracing.breakpointsOf s) fun _ p =>
      R s (Tracing.withBreakpoints s p)
  disable : ∀ (tid : Nat) (a : UInt64) (s : System κ),
    Ends (Patching.disable tid a) (Tracing.breakpointsOf s) fun _ p =>
      R s (Tracing.withBreakpoints s p)

/-- A relation that bears patches to be lifted and planted again. -/
class TogglingRelation {κ : Type} [Kernel κ] (R : System κ → System κ → Prop) : Prop extends
    TracerRelation R, ToggleRelation R

/-- Work on breakpoints, and on memory under them, that requests ask for. -/
inductive Patching.Requested {κ : Type} [Kernel κ] : {α : Type} → Patching κ α → Prop
  | addUser (tid : Nat) (a : UInt64) : Requested (addUser tid a)
  | removeUser (tid id : Nat) : Requested (removeUser tid id)
  | removeAllUser (tid : Nat) : Requested (removeAllUser tid)
  | addPlanned (tid : Nat) (a : UInt64) : Requested (addPlanned tid a)
  | disableAll (tid : Nat) : Requested (disableAll tid)
  | rewrite (tid : Nat) (a : UInt64) (data : Bytes) : Requested (rewrite tid a data)

/-- A relation between systems that does not matter to any work on breakpoints. -/
class WorkRelation {κ : Type} [Kernel κ] (R : System κ → System κ → Prop) : Prop extends
    ToggleRelation R where
  work : ∀ {α : Type} {p : Patching κ α}, p.Requested → ∀ s : System κ,
    Ends p (Tracing.breakpointsOf s) fun _ t => R s (Tracing.withBreakpoints s t)

/-- A relation that no request leaves, unless it starts a process. -/
class RequestRelation {κ : Type} [Kernel κ] (R : System κ → System κ → Prop) : Prop extends
    TogglingRelation R, WorkRelation R

/-! ### Dealings with a thread -/

/-- A relation between systems that a tracer does not leave with a whole dealing with a thread. -/
class ConductRelation {κ : Type} [Kernel κ] (R : System κ → System κ → Prop) : Prop extends
    AsideRelation R where
  /-- Input is sent to the process. -/
  input : ∀ (s : System κ) (p : Process) (q : Option InputQueue), s.tracer.process = some p →
    R s { s with tracer := { s.tracer with process := some { p with input := q } } }
  continueThread : ∀ tid, Moves R (Tracing.continueThread tid : Tracing κ Unit)
  drainThread : ∀ tid count, Moves R (Tracing.drainThread tid count : Tracing κ Unit)
  stopThread : ∀ tid, Moves R (Tracing.stopThread tid : Tracing κ Unit)

/-- A relation between systems that a tracer does not leave when it steps a thread. -/
class SteppingRelation {κ : Type} [Kernel κ] (R : System κ → System κ → Prop) : Prop extends
    StepRelation R where
  singleStep : ∀ tid, Moves R (Tracing.singleStep tid : Tracing κ Stepped)

/-- A relation between systems that a tracer does not leave with what it publishes. -/
class ShownRelation {κ : Type} [Kernel κ] (R : System κ → System κ → Prop) : Prop extends
    StepRelation R where
  /-- The threads of the process and its breakpoints stay. -/
  shown : ∀ (s : System κ) (t : State), t.breakpoints = s.tracer.breakpoints →
    t.process.map (fun p => (p.pid, p.threads))
      = s.tracer.process.map (fun p => (p.pid, p.threads)) →
    (s.tracer.output = .empty → t.output = .empty) → R s { s with tracer := t }

/-- A relation between systems that a tracer does not leave when it reports a stop. -/
class ReportRelation {κ : Type} [Kernel κ] (R : System κ → System κ → Prop) : Prop extends
    ConductRelation R, ShownRelation R where
  /-- The breakpoint of a step plan goes. -/
  unplan : ∀ (tid : Nat) (a : UInt64) (s : System κ),
    Ends (Patching.removePlanned tid a) (Tracing.breakpointsOf s) fun _ p =>
      R s (Tracing.withBreakpoints s p)

/-- A relation between systems that no request leaves which deals with threads as a whole. -/
class DeedRelation {κ : Type} [Kernel κ] (R : System κ → System κ → Prop) : Prop extends
    ReportRelation R, SteppingRelation R, WorkRelation R

/-! ### Threads that run -/

namespace Process

theorem mem_runningThreads {p : Process} {tid : Nat} :
    tid ∈ p.runningThreads ↔ ∃ t ∈ p.threads, t.running = true ∧ t.tid = tid := by
  simp only [runningThreads, List.mem_map, List.mem_filter, and_assoc]

theorem mem_runningThreads_of_modifyThread {p : Process} {tid u : Nat} {f : Thread → Thread}
    (htid : ∀ t, (f t).tid = t.tid) (hrunning : ∀ t, (f t).running = true → t.running = true)
    (h : u ∈ (p.modifyThread tid f).runningThreads) : u ∈ p.runningThreads := by
  obtain ⟨t', ht', hrun, rfl⟩ := mem_runningThreads.mp h
  obtain ⟨t, ht, rfl⟩ := List.mem_map.mp ht'
  refine mem_runningThreads.mpr ⟨t, ht, ?_⟩
  split at hrun
  · rename_i heq
    exact ⟨hrunning t hrun, by rw [if_pos heq, htid]⟩
  · rename_i hne
    exact ⟨hrun, by rw [if_neg hne]⟩

theorem mem_runningThreads_of_removeThread {p : Process} {tid u : Nat}
    (h : u ∈ (p.removeThread tid).runningThreads) : u ∈ p.runningThreads := by
  obtain ⟨t, ht, hrun, rfl⟩ := mem_runningThreads.mp h
  exact mem_runningThreads.mpr ⟨t, (List.mem_filter.mp ht).1, hrun, rfl⟩

theorem mem_insertThread {t u : Thread} {ts : List Thread} (h : t ∈ insertThread u ts) :
    t = u ∨ t ∈ ts := by
  induction ts with
  | nil => exact Or.inl (List.mem_singleton.mp h)
  | cons v r ih =>
    rw [insertThread] at h
    split at h
    · exact Or.inr h
    · split at h
      · exact List.mem_cons.mp h
      · rcases List.mem_cons.mp h with rfl | hr
        · exact Or.inr List.mem_cons_self
        · exact (ih hr).imp_right (List.mem_cons_of_mem v)

/-- A new thread does not run. -/
theorem mem_runningThreads_of_addThread {p : Process} {tid u : Nat}
    (h : u ∈ (p.addThread tid).runningThreads) : u ∈ p.runningThreads := by
  obtain ⟨t, ht, hrun, rfl⟩ := mem_runningThreads.mp h
  rcases mem_insertThread ht with rfl | ht
  · cases hrun
  · exact mem_runningThreads.mpr ⟨t, ht, hrun, rfl⟩

end Process

namespace Tracing

variable {κ α : Type} {R : System κ → System κ → Prop}

/-! ### Access to the state -/

section Access

variable [StepRelation R]

theorem moves_tracer : Moves R (tracer : Tracing κ State) :=
  Moves.get.bind fun _ => Moves.pure _

theorem moves_ofOutcome (r : Except DebugError α) : Moves R (ofOutcome r : Tracing κ α) :=
  fun s => StepRelation.refl s

theorem moves_process : Moves R (process : Tracing κ Process) := by
  refine moves_tracer.bind fun t => ?_
  split
  · exact Moves.pure _
  · exact Moves.throw _

theorem moves_hasProcess : Moves R (hasProcess : Tracing κ Bool) :=
  moves_tracer.bind fun _ => Moves.pure _

theorem moves_stoppedProcess : Moves R (stoppedProcess : Tracing κ Process) := by
  refine moves_process.bind fun p => ?_
  split
  · exact Moves.throw _
  · exact Moves.pure _

theorem moves_memoryThread : Moves R (memoryThread : Tracing κ Nat) := by
  refine moves_process.bind fun p => ?_
  split
  · exact Moves.pure _
  · exact Moves.throw _

theorem moves_stoppedThread (tid : Nat) : Moves R (stoppedThread tid : Tracing κ Nat) := by
  refine moves_stoppedProcess.bind fun p => ?_
  dsimp only
  split
  · exact Moves.pure _
  · exact Moves.throw _

theorem moves_expectedStops (tid : Nat) : Moves R (expectedStops tid : Tracing κ Nat) :=
  moves_tracer.bind fun _ => Moves.pure _

end Access

/-- An outcome that is looked at is no failure. -/
theorem moves_outcome {m : Tracing κ α} (h : Moves R m) : Moves R (outcome m) :=
  h

theorem moves_attemptPatching {p : Patching κ α}
    (h : ∀ s, Ends p (breakpointsOf s) fun _ t => R s (withBreakpoints s t)) :
    Moves R (attemptPatching p) :=
  h

theorem moves_patching (error : OsError → DebugError) {p : Patching κ α}
    (h : ∀ s, Ends p (breakpointsOf s) fun _ t => R s (withBreakpoints s t)) :
    Moves R (patching error p) := by
  intro s
  rw [ends_patching]
  exact h s

variable [Kernel κ]

section Reads

variable [StepRelation R]

theorem moves_files : Moves R (files : Tracing κ Files) :=
  Moves.get.bind fun _ => Moves.pure _

theorem moves_programOf (pid : Nat) : Moves R (programOf pid : Tracing κ (Option String)) :=
  Moves.get.bind fun _ => Moves.pure _

/-- A call whose failure is an error does no more than the call. -/
theorem moves_require_of_attempt (error : OsError → DebugError) {c : SystemCall}
    (h : Moves R (attempt c : Tracing κ (Except OsError c.Answer))) :
    Moves R (require error c : Tracing κ c.Answer) := by
  refine h.bind fun answer => ?_
  split
  · exact Moves.pure _
  · exact Moves.throw _

end Reads

instance [CallRelation R] : ProbeRelation R where
  probe c s hc := CallRelation.call c s (SystemCall.ne_poll_of_isProbe hc)

instance [CallRelation R] : StepCallRelation R where
  stepCall tid signal s := CallRelation.call (.step tid signal) s nofun

/-- The tracer stays as it is. -/
structure SameTracer (s s' : System κ) : Prop where
  tracer : s'.tracer = s.tracer

instance : CallRelation (SameTracer : System κ → System κ → Prop) where
  refl _ := ⟨rfl⟩
  trans h h' := ⟨h'.tracer.trans h.tracer⟩
  call _ _ _ := ⟨rfl⟩

instance [ProbeRelation R] : LookRelation R where
  look c s hc := ProbeRelation.probe c s (SystemCall.isProbe_of_isLook hc)

section Looks

variable [LookRelation R]

theorem moves_attempt_of_isLook {c : SystemCall} (hc : c.isLook = true) :
    Moves R (attempt c : Tracing κ (Except OsError c.Answer)) :=
  fun s => LookRelation.look c s hc

theorem moves_registersOf (tid : Nat) :
    Moves R (registersOf tid : Tracing κ Machine.RegisterFile) :=
  moves_require_of_attempt _ (moves_attempt_of_isLook rfl)

theorem moves_pcOf (tid : Nat) : Moves R (pcOf tid : Tracing κ UInt64) :=
  (moves_registersOf tid).bind fun _ => Moves.pure _

theorem moves_spOf (tid : Nat) : Moves R (spOf tid : Tracing κ UInt64) :=
  (moves_registersOf tid).bind fun _ => Moves.pure _

theorem moves_setPc (tid : Nat) (pc : UInt64) : Moves R (setPc tid pc : Tracing κ Unit) :=
  (moves_registersOf tid).bind fun _ => moves_require_of_attempt _ (moves_attempt_of_isLook rfl)

theorem moves_isAtBreakpoint (tid : Nat) : Moves R (isAtBreakpoint tid : Tracing κ Bool) := by
  refine (moves_attempt_of_isLook rfl).bind fun answer => ?_
  split
  · exact moves_tracer.bind fun _ => Moves.pure _
  · exact Moves.pure _

theorem moves_trapOf (tid : Nat) : Moves R (trapOf tid : Tracing κ Trap) := by
  refine (moves_attempt_of_isLook rfl).bind fun answer => ?_
  split
  · exact Moves.pure _
  · exact Moves.throw _
  · split
    · refine (moves_pcOf tid).bind fun pc => moves_tracer.bind fun t => ?_
      split
      · exact Moves.pure _
      · exact Moves.pure _
    · split
      · exact Moves.pure _
      · exact Moves.pure _

theorem moves_completesPlan (tid : Nat) (address : UInt64) :
    Moves R (completesPlan tid address : Tracing κ Bool) := by
  refine moves_process.bind fun p => ?_
  split
  · exact Moves.pure _
  · split
    · exact (moves_spOf tid).bind fun _ => Moves.pure _
    · exact Moves.pure _

end Looks

section Modules

variable [ModulesRelation R]

theorem moves_changeModules (m : StateM ModuleRegistry α) :
    Moves R (onModules m : Tracing κ α) := by
  refine moves_tracer.bind fun t => ?_
  have hmodify : Moves R (modifyTracer fun u => { u with modules := (m.run t.modules).2 }) :=
    Moves.modify fun s => ModulesRelation.modules s _ rfl rfl rfl id
      ⟨[], (List.append_nil _).symm, fun _ h => absurd h List.not_mem_nil⟩
  exact hmodify.bind fun _ => Moves.pure _

theorem moves_emit_of_isOfModules {e : Event} (h : e.isOfModules = true) :
    Moves R (emit e : Tracing κ Unit) :=
  Moves.modify fun s => ModulesRelation.modules s _ rfl rfl rfl id
    ⟨[e], rfl, fun _ he => List.eq_of_mem_singleton he ▸ h⟩

instance : AsideRelation R where
  aside s t hprocess hsnapshot hbreakpoints houtput hevents _ :=
    ModulesRelation.modules s t hprocess hsnapshot hbreakpoints houtput
      ⟨[], hevents.trans (List.append_nil _).symm, fun _ h => absurd h List.not_mem_nil⟩
  sync := by
    refine moves_tracer.bind fun t => ?_
    split
    · exact Moves.pure _
    · refine moves_files.bind fun files => (moves_changeModules _).bind fun changes => ?_
      split
      · exact Moves.pure _
      · split
        · split
          · exact (moves_emit_of_isOfModules rfl).bind fun _ => moves_emit_of_isOfModules rfl
          · exact moves_emit_of_isOfModules rfl
        · split
          · exact (moves_emit_of_isOfModules rfl).bind fun _ => Moves.pure _
          · exact Moves.pure _

end Modules

section Aside

variable [AsideRelation R]

/-- Work on the images of modules leaves the modules that are known. -/
theorem moves_onModules {m : StateM ModuleRegistry α}
    (hm : ∀ r, (m.run r).2.modules = r.modules) : Moves R (onModules m : Tracing κ α) :=
  fun s => AsideRelation.aside s { s.tracer with modules := _ } rfl rfl rfl id rfl (hm _)

theorem moves_syncModules : Moves R (syncModules : Tracing κ Unit) :=
  AsideRelation.sync

end Aside

section Calls

variable [CallRelation R]

theorem moves_attempt {c : SystemCall} (hc : c ≠ .poll) :
    Moves R (attempt c : Tracing κ (Except OsError c.Answer)) :=
  fun s => CallRelation.call c s hc

end Calls

section Threads

variable [ThreadRelation R]

theorem moves_modifyTracer {f : State → State} (hbreakpoints : ∀ t, (f t).breakpoints = t.breakpoints)
    (hprocess : ∀ t, t.process = none → (f t).process = none)
    (houtput : ∀ t, (f t).output = t.output) : Moves R (modifyTracer f : Tracing κ Unit) :=
  Moves.modify fun s => ThreadRelation.tracer s (f s.tracer) (hbreakpoints _) (hprocess _)
    (houtput _).trans

end Threads

instance [ThreadRelation R] : ShownRelation R where
  shown s t hbreakpoints hprocess houtput := by
    refine ThreadRelation.tracer s t hbreakpoints (fun hnone => ?_) houtput
    rw [hnone] at hprocess
    exact Option.map_eq_none_iff.mp hprocess

instance [ThreadRelation R] : ModulesRelation R where
  modules s t hprocess _ hbreakpoints houtput _ :=
    ThreadRelation.tracer s t hbreakpoints hprocess.trans houtput

instance [ThreadRelation R] : QuietRelation R where
  process s _ _ hp _ := ThreadRelation.tracer s _ rfl (fun hnone => nomatch hnone.symm.trans hp) id
  exited s status _ := ThreadRelation.exit s (s.tracer.exited status) rfl rfl rfl

/-! ### Publishing -/

section Shown

variable [ShownRelation R]

theorem moves_emit (e : Event) : Moves R (emit e : Tracing κ Unit) :=
  Moves.modify fun s => ShownRelation.shown s _ rfl rfl id

theorem moves_modifySnapshot (f : Snapshot → Snapshot) :
    Moves R (modifySnapshot f : Tracing κ Unit) :=
  Moves.modify fun s => ShownRelation.shown s _ rfl rfl id

theorem moves_publish (state : ProcessState) : Moves R (publish state : Tracing κ Unit) :=
  (moves_modifySnapshot _).bind fun _ => moves_emit _

/-- What is noted of a process apart from its threads. -/
theorem moves_noteProcess {f : Process → Process} (hpid : ∀ p, (f p).pid = p.pid)
    (hthreads : ∀ p, (f p).threads = p.threads) : Moves R (modifyProcess f : Tracing κ Unit) := by
  refine Moves.modify fun s => ShownRelation.shown s _ rfl ?_ id
  show (s.tracer.process.map f).map _ = _
  rw [Option.map_map]
  refine congrArg (Option.map · s.tracer.process) (funext fun p => ?_)
  exact Prod.ext (hpid p) (hthreads p)

end Shown

/-! ### Threads -/

section Probe

variable [ProbeRelation R]

theorem moves_probe {c : SystemCall} (hc : c.isProbe = true) :
    Moves R (attempt c : Tracing κ (Except OsError c.Answer)) :=
  fun s => ProbeRelation.probe c s hc

theorem moves_awaitFrom (tid : Option Nat) {judge : WaitStatus → Tracing κ (Option α)}
    (h : ∀ status, Moves R (judge status)) (fuel : Nat) :
    Moves R (awaitFrom tid judge fuel) := by
  induction fuel with
  | zero => exact Moves.pure _
  | succ fuel ih =>
    refine (moves_probe rfl).bind fun answer => ?_
    split
    · exact Moves.pure _
    · refine (h _).bind fun verdict => ?_
      split
      · exact Moves.pure _
      · exact ih

theorem moves_await (tid : Option Nat) {judge : WaitStatus → Tracing κ (Option α)}
    (h : ∀ status, Moves R (judge status)) : Moves R (await tid judge) :=
  Moves.get.bind fun _ => moves_awaitFrom tid h _

theorem moves_letExit (tid : Nat) : Moves R (letExit tid : Tracing κ Unit) :=
  (moves_probe rfl).bind fun _ => Moves.pure _

end Probe

section Notes

variable [NoteRelation R]

theorem moves_keepSignal (tid : Nat) (signal : Signal) :
    Moves R (keepSignal tid signal : Tracing κ Unit) :=
  NoteRelation.note tid _ (fun _ => rfl) fun _ => rfl

theorem moves_takeSignal (tid : Nat) : Moves R (takeSignal tid : Tracing κ (Option Signal)) := by
  have htake : Moves R (modifyThread tid fun t => { t with pendingSignal := none } :
      Tracing κ Unit) := NoteRelation.note tid _ (fun _ => rfl) fun _ => rfl
  exact moves_tracer.bind fun _ => htake.bind fun _ => Moves.pure _

theorem moves_expectStop (tid : Nat) : Moves R (expectStop tid : Tracing κ Unit) :=
  NoteRelation.note tid _ (fun _ => rfl) fun _ => rfl

theorem moves_consumeStop (tid : Nat) : Moves R (consumeStop tid : Tracing κ Bool) := by
  refine (moves_expectedStops tid).bind fun count => ?_
  split
  · exact Moves.pure _
  · have hcount : Moves R (modifyThread tid fun t => { t with expectedStops := t.expectedStops - 1 } :
        Tracing κ Unit) := NoteRelation.note tid _ (fun _ => rfl) fun _ => rfl
    exact hcount.bind fun _ => Moves.pure _

/-- A step that is started again and again. -/
theorem moves_stepFrom_of {tid : Nat}
    (hstep : ∀ signal, Moves R (attempt (.step tid signal) : Tracing κ (Except OsError Unit)))
    (hjudge : Moves R (await (some tid) (judgeStep tid) :
      Tracing κ (Except OsError (Option Stepped))))
    (hgone : Moves R (threadGone tid none : Tracing κ Unit)) (count : Nat) :
    Moves R (stepFrom tid count : Tracing κ Stepped) := by
  induction count with
  | zero => exact Moves.throw _
  | succ count ih =>
    refine (moves_takeSignal tid).bind fun signal => (hstep signal).bind fun answer => ?_
    split
    · exact Moves.pure _
    · exact Moves.throw _
    · refine hjudge.bind fun result => ?_
      split
      · exact Moves.pure _
      · exact ih
      · exact hgone.bind fun _ => Moves.pure _
      · exact Moves.throw _

end Notes

section Halt

variable [HaltRelation R]

/-- A change of a process in which no thread goes on. -/
theorem moves_haltProcess {f : Process → Process} (hplan : ∀ p, (f p).plan = p.plan)
    (hrunning : ∀ p, ∀ tid ∈ (f p).runningThreads, tid ∈ p.runningThreads) :
    Moves R (modifyProcess f : Tracing κ Unit) := by
  refine Moves.modify fun s => ?_
  show R s { s with tracer := { s.tracer with process := s.tracer.process.map f } }
  rcases hp : s.tracer.process with _ | p
  · rw [Option.map_none, ← hp]
    exact StepRelation.refl s
  · exact HaltRelation.halt s p (f p) hp (hplan p) (hrunning p)

theorem moves_haltThread (tid : Nat) {f : Thread → Thread} (htid : ∀ t, (f t).tid = t.tid)
    (hrunning : ∀ t, (f t).running = true → t.running = true) :
    Moves R (modifyThread tid f : Tracing κ Unit) :=
  moves_haltProcess (fun _ => rfl) fun p _ => p.mem_runningThreads_of_modifyThread htid hrunning

theorem moves_markStopped (tid : Nat) : Moves R (markStopped tid : Tracing κ Unit) :=
  moves_haltThread _ (fun _ => rfl) fun _ h => nomatch h

instance : NoteRelation R where
  note _ _ htid hrunning := moves_haltThread _ htid fun t h => (hrunning t).symm.trans h

/-- A process that was there is gone. -/
theorem ends_processExited (status : Option Int) {s : System κ} (hs : s.tracer.process ≠ none) :
    Ends (processExited status) s fun _ s' => R s s' :=
  HaltRelation.exited s status hs

theorem moves_threadGone (tid : Nat) (status : Option Int) :
    Moves R (threadGone tid status : Tracing κ Unit) := by
  intro s
  rw [threadGone, ends_tracer_bind]
  split
  · exact StepRelation.refl s
  · rename_i p hp
    rw [modifyProcess, ends_modifyTracer_bind, hp, Option.map_some]
    have hremove := HaltRelation.halt (R := R) s p (p.removeThread tid) hp rfl
      fun _ => p.mem_runningThreads_of_removeThread
    split
    · refine (ends_processExited (R := R) status (Option.some_ne_none _)).mono ?_
      exact fun _ _ h => StepRelation.trans hremove h
    · exact hremove

theorem moves_threadCloned (tid : Nat) : Moves R (threadCloned tid : Tracing κ Nat) := by
  have hrest : ∀ new : Nat, Moves R (do
      markStopped tid
      return new : Tracing κ Nat) :=
    fun new => (moves_markStopped tid).bind fun _ => Moves.pure _
  refine (moves_require_of_attempt _ (moves_probe rfl)).bind fun new => ?_
  refine moves_process.bind fun p => ?_
  split
  · refine (moves_await _ fun status => ?_).bind fun started => ?_
    · split
      · exact Moves.pure _
      · exact Moves.pure _
      · exact Moves.pure _
    · split
      · exact Moves.bind (moves_haltProcess (fun _ => rfl)
        fun p _ => p.mem_runningThreads_of_addThread) fun _ => hrest new
      · exact Moves.throw _
  · exact hrest new

/-! ### Stopping -/

theorem moves_settle (tid : Nat) (status : WaitStatus) :
    Moves R (settle tid status : Tracing κ (Option Bool)) := by
  rw [settle.eq_def]
  split
  · exact (moves_consumeStop tid).bind fun _ => Moves.pure _
  · refine (moves_trapOf tid).bind fun trap => ?_
    cases trap with
    | breakpoint address => exact (moves_setPc tid address).bind fun _ => Moves.pure _
    | step => exact Moves.pure _
    | programTrap => exact Moves.pure _
    | signal => exact (moves_keepSignal tid _).bind fun _ => Moves.pure _
  · exact (moves_keepSignal tid _).bind fun _ => Moves.pure _
  · split
    · exact (moves_threadCloned tid).bind fun _ => Moves.pure _
    · split
      · exact (moves_letExit tid).bind fun _ => Moves.pure _
      · exact Moves.pure _
  · exact (moves_threadGone tid _).bind fun _ => Moves.pure _
  · exact (moves_threadGone tid _).bind fun _ => Moves.pure _
  · exact Moves.pure _

theorem moves_awaitStop (tid : Nat) : Moves R (awaitStop tid : Tracing κ Unit) := by
  refine (moves_await _ (moves_settle tid)).bind fun result => ?_
  split
  · exact moves_markStopped tid
  · exact Moves.pure _
  · exact moves_threadGone tid _
  · exact Moves.throw _

theorem moves_stopThread (tid : Nat) : Moves R (stopThread tid : Tracing κ Unit) := by
  refine moves_process.bind fun p => (moves_probe rfl).bind fun answer => ?_
  split
  · exact (moves_expectStop tid).bind fun _ => moves_awaitStop tid
  · exact moves_threadGone tid _
  · exact Moves.throw _

/-! ### Runs and steps of threads -/

theorem moves_judgeStep (tid : Nat) (status : WaitStatus) :
    Moves R (judgeStep tid status : Tracing κ (Option (Option Stepped))) := by
  rw [judgeStep.eq_def]
  split
  · exact Moves.pure _
  · refine (moves_consumeStop tid).bind fun expected => ?_
    split
    · exact Moves.pure _
    · exact Moves.pure _
  · refine (moves_keepSignal tid _).bind fun _ => ?_
    split
    · exact Moves.pure _
    · exact Moves.pure _
  · split
    · exact (moves_threadCloned tid).bind fun _ => Moves.pure _
    · split
      · exact (moves_letExit tid).bind fun _ => Moves.pure _
      · exact Moves.pure _
  · exact (moves_threadGone tid _).bind fun _ => Moves.pure _
  · exact (moves_threadGone tid _).bind fun _ => Moves.pure _
  · exact Moves.pure _

section Steps

variable [StepCallRelation R]

theorem moves_stepFrom (tid count : Nat) : Moves R (stepFrom tid count : Tracing κ Stepped) :=
  moves_stepFrom_of (fun signal s => StepCallRelation.stepCall tid signal s)
    (moves_await _ (moves_judgeStep tid)) (moves_threadGone tid none) count

theorem moves_singleStep (tid : Nat) : Moves R (singleStep tid : Tracing κ Stepped) :=
  moves_stepFrom tid _

instance : SteppingRelation R where
  singleStep := moves_singleStep

end Steps

end Halt

section Quiet

variable [QuietRelation R]

instance : HaltRelation R where
  halt s p p' hp hplan _ := QuietRelation.process s p p' hp hplan
  exited := QuietRelation.exited

/-- A change of a process that keeps its step plan. -/
theorem moves_changeProcess {f : Process → Process} (hplan : ∀ p, (f p).plan = p.plan) :
    Moves R (modifyProcess f : Tracing κ Unit) := by
  refine Moves.modify fun s => ?_
  show R s { s with tracer := { s.tracer with process := s.tracer.process.map f } }
  rcases hp : s.tracer.process with _ | p
  · rw [Option.map_none, ← hp]
    exact StepRelation.refl s
  · exact QuietRelation.process s p (f p) hp (hplan p)

theorem moves_continueThread (tid : Nat) : Moves R (continueThread tid : Tracing κ Unit) := by
  refine moves_tracer.bind fun t => ?_
  dsimp only
  split
  · refine (moves_takeSignal tid).bind fun signal => (moves_probe rfl).bind fun answer => ?_
    split
    · exact moves_changeProcess fun _ => rfl
    · exact Moves.pure _
    · exact Moves.throw _
  · exact Moves.pure _

theorem moves_drainThread (tid count : Nat) : Moves R (drainThread tid count : Tracing κ Unit) := by
  induction count with
  | zero => exact Moves.pure _
  | succ count ih =>
    refine (moves_expectedStops tid).bind fun waiting => ?_
    split
    · exact Moves.pure _
    · exact (moves_continueThread tid).bind fun _ => (moves_awaitStop tid).bind fun _ => ih

end Quiet

instance [QuietRelation R] : ConductRelation R where
  input s p _ hp := QuietRelation.process s p _ hp rfl
  continueThread := moves_continueThread
  drainThread := moves_drainThread
  stopThread := moves_stopThread

/-! ### Many threads -/

section Conduct

variable [ConductRelation R]

theorem moves_stopThreads (tids : List Nat) :
    Moves R (stopThreads tids : Tracing κ Unit) := by
  induction tids with
  | nil => exact Moves.pure _
  | cons tid r ih =>
    refine (ConductRelation.stopThread tid).bind fun _ => moves_hasProcess.bind fun present => ?_
    split
    · exact ih
    · exact Moves.pure _

theorem moves_stopAll : Moves R (stopAll : Tracing κ Unit) := by
  refine moves_tracer.bind fun t => ?_
  split
  · exact Moves.pure _
  · exact moves_stopThreads _

theorem moves_continueThreads (tids : List Nat) :
    Moves R (tids.forM continueThread : Tracing κ Unit) :=
  Moves.forM fun tid _ => ConductRelation.continueThread tid

/-- Work with all threads stopped. -/
theorem moves_withAllStopped {work : Nat → Tracing κ α} (h : ∀ tid, Moves R (work tid)) :
    Moves R (withAllStopped work) := by
  refine moves_process.bind fun p => ?_
  dsimp only
  split
  · refine moves_stopAll.bind fun _ => moves_memoryThread.bind fun tid => ?_
    refine (moves_outcome (h tid)).bind fun result => moves_process.bind fun p => ?_
    exact (moves_continueThreads _).bind fun _ => moves_ofOutcome result
  · refine moves_memoryThread.bind fun tid => ?_
    exact (moves_outcome (h tid)).bind fun result => moves_ofOutcome result

end Conduct

end Tracing

end DebugAdapter.Tracer
