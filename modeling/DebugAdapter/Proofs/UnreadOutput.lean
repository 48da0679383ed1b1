import DebugAdapter.Engine.Simulated
import DebugAdapter.Proofs.DiscreetEngines
import DebugAdapter.Proofs.TracedEngine

/-!
# Engines whose output may go unread

The simulated engine keeps what its processes write until somebody reads it, and nothing else that
it does depends on that: `SameButOutput` is a relation for which it is discreet. A target without
its output answers as the target does (`Target.answer_unread`), so targets that differ in it cannot
be told apart.

No operation of a tracer makes output, so over the tracing engine there is nothing that one notifier
could read and another one leave (`SameAndQuiet`).
-/

namespace DebugAdapter

namespace Engine.Simulated

open Debuggee

namespace Target

/-- A target without the output that was not read yet. -/
def unread (t : Target) : Target := { t with stdout := [] }

/-- An outcome without the output that was not read yet. -/
def Outcome.unread {α : Type} (o : Outcome α) : Outcome α := (o.1, o.2.unread)

section Outcomes

variable {α : Type} (t : Target)

@[simp] theorem unread_done (a : α) : (t.done a).unread = t.unread.done a := rfl

@[simp] theorem unread_start (knobs : Knobs) (reason : Option StopReason) :
    (t.start knobs reason).unread = t.unread.start knobs reason := by
  cases reason with
  | none => rfl
  | some r => rfl

@[simp] theorem unread_whileStopped (f : Outcome α) :
    (t.whileStopped f).unread = t.unread.whileStopped f.unread := by
  rw [whileStopped, whileStopped, show t.unread.stoppedError? = t.stoppedError? from rfl]
  rcases t.stoppedError? with _ | e
  · rfl
  · rfl

@[simp] theorem unread_withProcess (f : Outcome α) :
    (t.withProcess f).unread = t.unread.withProcess f.unread := by
  rw [withProcess, withProcess, show t.unread.hasProcess = t.hasProcess from rfl]
  rcases t.hasProcess with _ | _
  · rfl
  · rfl

@[simp] theorem unread_withMemory (addr : UInt64) (length : Nat) (f : Nat → Outcome α) :
    (t.withMemory addr length f).unread =
      t.unread.withMemory addr length fun start => (f start).unread := by
  rw [withMemory, withMemory]
  rcases memoryAt? addr length with _ | start
  · rfl
  · rfl

end Outcomes

/-- A request that reads no output is answered without regard to it. -/
theorem answer_unread (knobs : Knobs) (t : Target) {r : Request} (hr : r.readsOutput = false) :
    t.unread.answer knobs r = (t.answer knobs r).unread := by
  cases r with
  | readStdout limit => cases hr
  | readStderr limit => cases hr
  | launch info =>
    rw [answer, answer, apply_ite Outcome.unread, unread_done, unread_start]
    rfl
  | attach pid =>
    rw [answer, answer, apply_ite Outcome.unread, unread_done, unread_start]
    rfl
  | connectRemote url plugin => rfl
  | resume =>
    rw [answer, answer, unread_whileStopped, apply_ite Outcome.unread]
    rfl
  | interrupt =>
    rw [answer, answer, apply_ite Outcome.unread, apply_ite Outcome.unread]
    rfl
  | kill =>
    rw [answer, answer, unread_withProcess]
    rfl
  | detach =>
    rw [answer, answer, unread_withProcess]
    rfl
  | destroy =>
    rw [answer, answer, apply_ite Outcome.unread]
    rfl
  | step tid kind =>
    rw [answer, answer, unread_whileStopped, apply_ite Outcome.unread]
    dsimp only
    rw [apply_ite Outcome.unread]
    rfl
  | threads =>
    rw [answer, answer, show t.unread.pid = t.pid from rfl, show t.unread.stop = t.stop from rfl]
    rcases t.pid with _ | pid
    · rfl
    · rfl
  | setBreakpoint addr => rfl
  | removeBreakpoint id =>
    rw [answer, answer, apply_ite Outcome.unread]
    rfl
  | removeAllBreakpoints => rfl
  | readMemory addr length =>
    rw [answer, answer, unread_withMemory]
    rfl
  | writeMemory addr data =>
    rw [answer, answer, unread_withMemory]
    rfl
  | registers tid frame =>
    rw [answer, answer, unread_whileStopped, apply_ite Outcome.unread, apply_ite Outcome.unread]
    rfl
  | setRegister tid frame name value =>
    rw [answer, answer, unread_whileStopped, apply_ite Outcome.unread, apply_ite Outcome.unread]
    dsimp only
    rw [apply_ite Outcome.unread]
    rfl
  | callStack tid =>
    rw [answer, answer, apply_ite Outcome.unread, unread_whileStopped]
    rfl
  | disassemble addr count =>
    rw [answer, answer, unread_withMemory]
    rfl
  | modules => rfl
  | mainModule => rfl
  | entryPoint => rfl
  | findReferences addr =>
    rw [answer, answer, apply_ite Outcome.unread]
    rfl
  | writeStdin data =>
    rw [answer, answer, apply_ite Outcome.unread]
    rfl

/-- Queries do not tell what was not read. -/
theorem observe_unread (t : Target) (q : Query) :
    t.unread.observe q = ((t.observe q).1, (t.observe q).2.unread) := by
  cases q with
  | _ => rfl

/-- Reads leave the rest of a target alone. -/
theorem unread_answer (knobs : Knobs) (t : Target) {r : Request} (hr : r.readsOutput = true) :
    (t.answer knobs r).2.unread = t.unread := by
  cases r with
  | readStdout limit => rfl
  | readStderr limit => rfl
  | _ => cases hr

end Target

namespace Engine

/-- An engine without the output of its targets that was not read yet. -/
def unread (e : Engine) : Engine := { e with targets := e.targets.map Target.unread }

/-- Engines that differ at most in output that was not read yet. -/
def SameButOutput (e f : Engine) : Prop := e.unread = f.unread

theorem getElem?_unread (e : Engine) (t : Handle) :
    e.unread.targets[t]? = e.targets[t]?.map Target.unread :=
  List.getElem?_map

/-- A target is replaced. -/
theorem unread_set (e : Engine) (t : Handle) (target : Target) :
    ({ e with targets := e.targets.set t target } : Engine).unread =
      { e.unread with targets := e.unread.targets.set t target.unread } :=
  congrArg (fun ts => { e with targets := ts }) (List.map_set ..)

/-- A target that is replaced by one that differs in its output. -/
theorem unread_set_of_eq {e : Engine} {t : Handle} {target target' : Target}
    (ht : e.targets[t]? = some target) (h : target'.unread = target.unread) :
    ({ e with targets := e.targets.set t target' } : Engine).unread = e.unread := by
  have hat : e.unread.targets[t]? = some target.unread := by
    rw [getElem?_unread, ht, Option.map_some]
  obtain ⟨hlt, hget⟩ := List.getElem?_eq_some_iff.mp hat
  rw [unread_set, h, ← hget, List.set_getElem_self]

theorem answer_unread (e : Engine) {c : Call} (hc : c.readsOutput = false) :
    e.unread.answer c = ((e.answer c).1, (e.answer c).2.unread) := by
  cases c with
  | createTarget executable arch =>
    rw [answer, answer, show e.unread.knobs = e.knobs from rfl]
    split
    · rfl
    · simp [unread, Target.create, Target.unread]
  | rawCommand focus line => rfl
  | complete line position => rfl
  | request t r =>
    rw [answer, answer, getElem?_unread]
    rcases ht : e.targets[t]? with _ | target
    · rfl
    · dsimp only [Option.map_some]
      rw [show e.unread.knobs = e.knobs from rfl, Target.answer_unread e.knobs target hc,
        unread_set]
      rfl

theorem observe_unread (e : Engine) (t : Handle) (q : Query) :
    e.unread.observe t q = ((e.observe t q).1, (e.observe t q).2.unread) := by
  rw [observe, observe, getElem?_unread]
  rcases ht : e.targets[t]? with _ | target
  · rfl
  · dsimp only [Option.map_some]
    rw [Target.observe_unread, unread_set]

/-- Reads of output change no more than that. -/
theorem sameButOutput_answer (e : Engine) (t : Handle) {r : Request} (hr : r.readsOutput = true) :
    SameButOutput e (e.answer (.request t r)).2 := by
  rw [answer]
  rcases ht : e.targets[t]? with _ | target
  · rfl
  · exact (unread_set_of_eq ht (Target.unread_answer e.knobs target hr)).symm

/-- Looking at the details of a stop or of an exit changes nothing. -/
theorem sameButOutput_observe (e : Engine) (t : Handle) {q : Query} (hq : q.tellsDetails = true) :
    SameButOutput e (e.observe t q).2 := by
  rw [observe]
  rcases ht : e.targets[t]? with _ | target
  · rfl
  · cases q with
    | stopInfo => exact (unread_set_of_eq ht rfl).symm
    | exitStatus => exact (unread_set_of_eq ht rfl).symm
    | _ => cases hq

/-- The interpreter of the engine reads no output. -/
theorem asks_interpret (focus : Focus) (line : String) :
    (interpret focus line).Asks fun r => r.readsOutput = false := by
  rw [interpret]
  split
  · exact trivial
  · split
    · split
      · exact trivial
      · exact ⟨rfl, fun _ => trivial⟩
    · exact trivial

end Engine

open Engine

/-- The simulated engine is discreet. -/
instance : Discreet SameButOutput where
  symm h := Eq.symm h
  notifierError _ := rfl
  perform {e f} c hc h := by
    have hanswer : e.unread.answer c = f.unread.answer c := congrArg (fun e => e.answer c) h
    rw [answer_unread e hc, answer_unread f hc] at hanswer
    exact Prod.mk.inj hanswer
  inquiry {e focus line i} h := by
    cases h
    show Inquiry.Asks _ (if e.inspects then Console.execute focus line else interpret focus line)
    split
    · exact Console.asks_execute_quiet focus line
    · exact asks_interpret focus line
  observe {e f} t q h := by
    have hanswer : e.unread.observe t q = f.unread.observe t q :=
      congrArg (fun e => e.observe t q) h
    rw [observe_unread, observe_unread] at hanswer
    exact Prod.mk.inj hanswer
  output t _ hr h := h.trans (sameButOutput_answer _ t hr)
  details t _ hq h := h.trans (sameButOutput_observe _ t hq)

end Engine.Simulated

namespace Tracer

open Debuggee
open Linux
open Operation

variable {κ : Type}

/-- Where there is no output, none appears. -/
def Silent (s s' : System κ) : Prop := s.tracer.output = .empty → s'.tracer.output = .empty

/-- Where there is no output, reading it changes nothing. -/
theorem readOutput_empty (stream : OutputStream) (limit : Nat) {s : System κ}
    (h : s.tracer.output = .empty) : ((Tracing.readOutput stream limit).run.run s).2 = s := by
  have houtput : (s.tracer.output.take stream limit).2 = s.tracer.output := by
    rw [h]
    exact Tracing.take_empty stream limit
  show { s with tracer := { s.tracer with output := (s.tracer.output.take stream limit).2 } } = s
  rw [houtput]

variable [Kernel κ]

instance : RequestRelation (Silent : System κ → System κ → Prop) where
  refl _ h := h
  trans h h' hs := h' (h hs)
  call _ _ _ h := h
  poll _ _ h := h
  tracer _ _ _ _ houtput := houtput
  exit _ _ _ _ houtput := houtput.trans
  image _ _ _ _ _ _ houtput := houtput.trans
  unplan _ _ _ h := h
  enable _ _ _ h := h
  disable _ _ _ h := h
  work _ _ h := h

theorem silent_adopt (p : Process) : Moves Silent (Tracing.adopt p : Tracing κ Unit) := by
  have hadopt : Moves Silent (Tracing.modifyTracer fun t =>
      { t with process := some p, breakpoints := .empty, modules := t.modules.clear } :
      Tracing κ Unit) :=
    Moves.modify fun _ h => h
  exact hadopt.bind fun _ => Tracing.moves_modifySnapshot _

theorem silent_operation (r : Request) :
    Moves Silent (Engine.Traced.Engine.operation r : Tracing κ r.Answer) := by
  rcases hr : r.starts with _ | _
  · exact Engine.Traced.Engine.moves_operation hr
  · exact Engine.Traced.Engine.moves_operation_of_starts silent_adopt hr

end Tracer

namespace Engine.Traced

open Debuggee
open Linux
open Operation
open Tracer

variable {κ : Type}

namespace Engine

/-- There is no output to be read. -/
def Quiet (e : Engine κ) : Prop := ∀ target ∈ e.targets, target.state.output = .empty

/-- The same engine, without output to be read. -/
def SameAndQuiet (e f : Engine κ) : Prop := e = f ∧ e.Quiet

variable {e : Engine κ}

theorem quiet_set (h : e.Quiet) (k : κ) (t : Handle) {target : Target}
    (htarget : target.state.output = .empty) : Quiet ⟨k, e.targets.set t target⟩ := by
  intro u hu
  rcases List.mem_or_eq_of_mem_set hu with hu | rfl
  · exact h u hu
  · exact htarget

theorem quiet_onTarget {α : Type} {op : Tracing κ α} (hop : Moves Silent op) (h : e.Quiet)
    (t : Handle) : (e.onTarget t op).2.Quiet := by
  rw [onTarget]
  rcases ht : e.targets[t]? with _ | target
  · exact h
  · have hsilent : Silent ⟨e.kernel, target.state⟩ (op.run.run ⟨e.kernel, target.state⟩).2 :=
      hop ⟨e.kernel, target.state⟩
    exact quiet_set h _ t (hsilent (h target (List.mem_of_getElem? ht)))

/-- Reading output where there is none changes nothing. -/
theorem onTarget_readOutput (h : e.Quiet) (t : Handle) (stream : OutputStream) (limit : Nat) :
    (e.onTarget t (Tracing.readOutput stream limit)).2 = e := by
  rw [onTarget]
  rcases ht : e.targets[t]? with _ | target
  · rfl
  · have hrun := readOutput_empty stream limit (s := ⟨e.kernel, target.state⟩)
      (h target (List.mem_of_getElem? ht))
    obtain ⟨hlt, hget⟩ := List.getElem?_eq_some_iff.mp ht
    rcases hop : (Tracing.readOutput stream limit).run.run ⟨e.kernel, target.state⟩ with ⟨r, s⟩
    rw [hop] at hrun
    dsimp only at hrun ⊢
    rw [hop, hrun]
    dsimp only
    rw [← hget, List.set_getElem_self]

variable [Kernel κ]

theorem quiet_answer (h : e.Quiet) (t : Handle) (r : Request) : (e.answer t r).2.Quiet := by
  have hrequest := quiet_onTarget (silent_operation r) h t
  rw [answer]
  dsimp only
  split
  · exact quiet_onTarget (Tracing.moves_poll Tracing.moves_trapSeen) hrequest t
  · exact hrequest

theorem quiet_create (h : e.Quiet) (executable : Option String) (arch : Arch) :
    (e.create executable arch).2.Quiet := by
  rw [create]
  split
  · exact h
  · split
    · exact h
    · intro target htarget
      rcases List.mem_append.mp htarget with htarget | htarget
      · exact h target htarget
      · cases List.mem_singleton.mp htarget
        rfl

theorem quiet_observe (h : e.Quiet) (t : Handle) (q : Query) :
    (DebugEngine.observe t q e).2.Quiet := by
  cases q with
  | subscribe =>
    show (e.subscribe t).2.Quiet
    rw [subscribe]
    rcases ht : e.targets[t]? with _ | target
    · exact h
    · exact quiet_set h e.kernel t (h target (List.mem_of_getElem? ht))
  | events =>
    show (e.takeEvents t).2.Quiet
    rw [takeEvents_snd]
    exact quiet_onTarget (moves_take Tracing.moves_trapSeen) h t
  | processId => exact h
  | state => exact h
  | stopInfo => exact h
  | exitStatus => exact h

end Engine

open Engine

variable [Kernel κ]

/-- The tracing engine is discreet. -/
instance : Discreet (SameAndQuiet : Engine κ → Engine κ → Prop) where
  symm := by
    rintro e f ⟨rfl, h⟩
    exact ⟨rfl, h⟩
  notifierError _ := rfl
  perform := by
    rintro e f c - ⟨rfl, h⟩
    refine ⟨rfl, rfl, ?_⟩
    cases c with
    | createTarget executable arch => exact quiet_create h executable arch
    | rawCommand focus line => exact h
    | complete line position => exact h
    | request t r => exact quiet_answer h t r
  inquiry {e focus line i} h := by
    cases h
    exact Console.asks_execute_quiet focus line
  observe := by
    rintro e f t q ⟨rfl, h⟩
    exact ⟨rfl, rfl, quiet_observe h t q⟩
  output := by
    rintro e f t r hr ⟨rfl, h⟩
    cases r with
    | readStdout limit => exact ⟨(onTarget_readOutput h t .stdout limit).symm, h⟩
    | readStderr limit => exact ⟨(onTarget_readOutput h t .stderr limit).symm, h⟩
    | _ => cases hr
  details := by
    rintro e f t q hq ⟨rfl, h⟩
    cases q with
    | stopInfo => exact ⟨rfl, h⟩
    | exitStatus => exact ⟨rfl, h⟩
    | _ => cases hq

end Engine.Traced

end DebugAdapter
