import DebugAdapter.Engine.Traced
import DebugAdapter.Proofs.TracerRequests

/-!
# Acts of a tracer

What a tracer does is a sequence of acts: it looks for one status and handles it, or it performs a
request. The requests are acts themselves but for a launch that does not stop at the entry, which is a
launch that does, and then a resume. `Steps` are acts in a row; between two of them events may be
taken, and the kernel may go on by itself. Polling, taking events and every request are made of such
steps, so what holds after each act holds wherever a tracer can be seen. A `History` also keeps what
was taken of the events.
-/

namespace DebugAdapter

/-- A request that neither starts the process nor moves or ends it. -/
def Debuggee.Request.isAside : Request → Bool
  | .launch _ | .attach _ | .resume | .interrupt | .kill | .detach | .destroy | .step .. => false
  | _ => true

namespace Tracer

open Debuggee
open Engine.Traced (Engine)
open Linux
open Operation

variable {κ : Type} [Kernel κ]

namespace Tracing

theorem moves_operation_of_isAside {R : System κ → System κ → Prop} [ConductRelation R]
    [WorkRelation R] {r : Request} (hr : r.isAside = true) :
    Moves R (Engine.operation r : Tracing κ r.Answer) := by
  cases r with
  | connectRemote url plugin => exact Moves.throw _
  | threads => exact moves_threads
  | setBreakpoint address => exact moves_setBreakpoint address
  | removeBreakpoint id => exact moves_removeBreakpoint id
  | removeAllBreakpoints => exact moves_removeAllBreakpoints
  | readMemory address length => exact moves_readMemory address length
  | writeMemory address data => exact moves_writeMemory address data
  | registers tid frame => exact moves_registers tid frame
  | setRegister tid frame name value => exact moves_setRegister tid frame name value
  | callStack tid => exact moves_callStack tid
  | disassemble address count => exact moves_disassemble address count
  | modules => exact moves_modules
  | mainModule => exact moves_mainModule
  | entryPoint => exact moves_entryPoint
  | findReferences address => exact moves_findReferences address
  | writeStdin data => exact moves_writeInput data
  | readStdout limit => exact moves_readOutput .stdout limit
  | readStderr limit => exact moves_readOutput .stderr limit
  | _ => cases hr

end Tracing

/-- What a tracer does in one go. -/
inductive Act where
  /-- One status is looked for and handled. -/
  | look
  /-- A request; a launch goes up to the stop at the entry. -/
  | perform (r : Request)

/-- What an act does. -/
def Act.operation : Act → Tracing κ Unit
  | look => do
    let _ ← Tracing.look
  | perform (.launch info) => Tracing.launchToEntry info
  | perform r => do
    let _ ← Engine.operation r

/-- A request that is no launch is an act. -/
theorem Act.operation_perform {r : Request} (hr : ∀ info, r ≠ .launch info) :
    ((perform r).operation : Tracing κ Unit) = (do
      let _ ← Engine.operation r) := by
  cases r with
  | launch info => exact absurd rfl (hr info)
  | _ => rfl

/-- Acts in a row. -/
inductive Steps : System κ → System κ → Prop
  | refl (s : System κ) : Steps s s
  | act {s t : System κ} (a : Act) : Steps s t → Steps s (a.operation.run.run t).2
  /-- The events are taken. -/
  | collect {s t : System κ} : Steps s t →
      Steps s { t with tracer := { t.tracer with events := [] } }
  /-- The kernel goes on by itself. -/
  | elapse {s t : System κ} (k : κ) : Steps s t → Steps s { t with kernel := k }

instance : StepRelation (Steps : System κ → System κ → Prop) where
  refl := Steps.refl
  trans {s t u} h h' := by
    induction h' with
    | refl => exact h
    | act a _ ih => exact ih.act a
    | collect _ ih => exact ih.collect
    | elapse k _ ih => exact ih.elapse k

/-- An act moves along relations of requests that bear a process to be taken charge of. -/
theorem Act.moves {R : System κ → System κ → Prop} [RequestRelation R]
    (hadopt : ∀ p : Process, Moves R (Tracing.adopt p : Tracing κ Unit)) (a : Act) :
    Moves R (a.operation : Tracing κ Unit) := by
  have hdiscard : ∀ {α : Type} {m : Tracing κ α}, Moves R m → Moves R (do
      let _ ← m : Tracing κ Unit) := fun h => h.bind fun _ => Moves.pure _
  cases a with
  | look => exact hdiscard (Tracing.moves_look Tracing.moves_trapSeen)
  | perform r =>
    cases r with
    | launch info => exact Tracing.moves_launchToEntry hadopt info
    | attach pid => exact hdiscard (Tracing.moves_attach hadopt pid)
    | resume => exact hdiscard Tracing.moves_resume
    | interrupt => exact hdiscard Tracing.moves_interrupt
    | kill => exact hdiscard Tracing.moves_kill
    | detach => exact hdiscard (Tracing.moves_detach Tracing.moves_forget)
    | destroy => exact hdiscard (Tracing.moves_destroy Tracing.moves_forget)
    | step tid kind => exact hdiscard (Tracing.moves_step tid kind)
    | _ => exact hdiscard (Tracing.moves_operation_of_isAside rfl)

namespace Tracing

omit [Kernel κ] in
/-- A result that nobody looks at. -/
theorem ends_discard {α : Type} (m : Tracing κ α) (s : System κ) (Q : System κ → Prop) :
    Ends (do let _ ← m : Tracing κ Unit) s (fun _ s' => Q s') ↔ Ends m s fun _ s' => Q s' := by
  rw [ends_bind]
  refine ends_congr fun r s' => ?_
  cases r with
  | ok a => exact Iff.rfl
  | error e => exact Iff.rfl

section Acts

variable {R : System κ → System κ → Prop} [StepRelation R]
  (hact : ∀ a : Act, Moves R (a.operation : Tracing κ Unit))

include hact

/-- Polling is made of acts. -/
theorem moves_poll_of_acts : Moves R (poll : Tracing κ Unit) := by
  have hlook : Moves R (look : Tracing κ Bool) :=
    fun s => (ends_discard look s (R s)).mp (hact .look s)
  have hpoll : ∀ fuel, Moves R (pollFrom fuel : Tracing κ Unit) := by
    intro fuel
    induction fuel with
    | zero => exact Moves.pure _
    | succ fuel ih =>
      rw [pollFrom_succ]
      refine hlook.bind fun more => ?_
      cases more with
      | true => exact ih
      | false => exact Moves.pure _
  exact Moves.get.bind fun _ => hpoll _

/-- Every request is made of acts. -/
theorem moves_operation_of_acts (r : Request) :
    Moves R (Engine.operation r : Tracing κ r.Answer) := by
  have hother : ∀ r : Request, (∀ info, r ≠ .launch info) →
      Moves R (Engine.operation r : Tracing κ r.Answer) := by
    intro r hr s
    have hperform := hact (.perform r) s
    rw [Act.operation_perform hr] at hperform
    exact (ends_discard (Engine.operation r) s (R s)).mp hperform
  cases r with
  | launch info =>
    show Moves R (launch info : Tracing κ Unit)
    rw [launch_eq]
    refine (hact (.perform (.launch info))).bind fun _ => ?_
    split
    · exact Moves.pure _
    · exact hother .resume nofun
  | _ => exact hother _ nofun

end Acts

/-- What an act does is a step. -/
theorem steps_act (a : Act) : Moves Steps (a.operation : Tracing κ Unit) :=
  fun s => (Steps.refl s).act a

theorem steps_poll : Moves Steps (poll : Tracing κ Unit) :=
  moves_poll_of_acts steps_act

theorem steps_operation (r : Request) : Moves Steps (Engine.operation r : Tracing κ r.Answer) :=
  moves_operation_of_acts steps_act r

end Tracing

/-! ### Histories -/

/-- The ways of a tracer from a state on: the events that were taken, and the system that is reached.
Between two acts the kernel goes on by itself as `drift` allows. -/
inductive History (drift : κ → κ → Prop) (s₀ : System κ) : List Event → System κ → Prop
  | start : History drift s₀ [] s₀
  | act {es : List Event} {s : System κ} (a : Act) : History drift s₀ es s →
      History drift s₀ es (a.operation.run.run s).2
  /-- The events are taken. -/
  | collect {es : List Event} {s : System κ} : History drift s₀ es s →
      History drift s₀ (es ++ s.tracer.events) { s with tracer := { s.tracer with events := [] } }
  | elapse {es : List Event} {s : System κ} {k : κ} : drift s.kernel k → History drift s₀ es s →
      History drift s₀ es { s with kernel := k }

namespace History

variable {drift : κ → κ → Prop} {s₀ : System κ}

/-- What goes on along a history. -/
structure Continues (drift : κ → κ → Prop) (s₀ s s' : System κ) : Prop where
  history : ∀ es, History drift s₀ es s → History drift s₀ es s'

instance : StepRelation (Continues drift s₀) where
  refl _ := ⟨fun _ => id⟩
  trans h h' := ⟨fun es hs => h'.history es (h.history es hs)⟩

theorem continues_act (a : Act) : Moves (Continues drift s₀) (a.operation : Tracing κ Unit) :=
  fun _ => ⟨fun _ hs => hs.act a⟩

/-- Polling and requests go on along histories. -/
theorem request {es : List Event} {s : System κ} (h : History drift s₀ es s) (r : Request) :
    Ends (Engine.operation r) s fun _ s' => History drift s₀ es s' :=
  (Tracing.moves_operation_of_acts continues_act r s).mono fun _ _ hs => hs.history es h

theorem poll {es : List Event} {s : System κ} (h : History drift s₀ es s) :
    Ends Tracing.poll s fun _ s' => History drift s₀ es s' :=
  (Tracing.moves_poll_of_acts continues_act s).mono fun _ _ hs => hs.history es h

end History

/-- The system after some acts. -/
def System.through (acts : List Act) (s : System κ) : System κ :=
  acts.foldl (fun s a => (a.operation.run.run s).2) s

theorem History.through {drift : κ → κ → Prop} {s₀ : System κ} {es : List Event} (acts : List Act) :
    ∀ {s : System κ}, History drift s₀ es s → History drift s₀ es (s.through acts) := by
  induction acts with
  | nil => exact id
  | cons a acts ih => exact fun h => ih (h.act a)

end Tracer

end DebugAdapter
