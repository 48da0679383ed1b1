import DebugAdapter.Console
import DebugAdapter.Proofs.SessionRules

/-!
# What inquiries ask for

An inquiry puts requests to a target, and what it does to an engine is what these requests do. The
commands of the console only look at the target: none of them starts a process, lets it run, or
reads its output.
-/

namespace DebugAdapter

namespace Debuggee

variable {α β : Type} {P Q : Request → Prop}

/-- A request after which a process is somewhere else. -/
def Request.departs : Request → Bool
  | resume | step .. => true
  | _ => false

/-- All requests of an inquiry have a property, whatever the answers are. -/
def Inquiry.Asks (P : Request → Prop) : Inquiry α → Prop
  | .done _ => True
  | .request _ r next => P r ∧ ∀ answer, (next answer).Asks P
  | .query _ _ next => ∀ answer, (next answer).Asks P

theorem Inquiry.Asks.mono {i : Inquiry α} (hi : i.Asks P) (h : ∀ r, P r → Q r) : i.Asks Q := by
  induction i with
  | done a => exact trivial
  | request t r next ih => exact ⟨h r hi.1, fun answer => ih answer (hi.2 answer)⟩
  | query t q next ih => exact fun answer => ih answer (hi answer)

theorem Inquiry.Asks.bind {i : Inquiry α} {f : α → Inquiry β} (hi : i.Asks P)
    (hf : ∀ a, (f a).Asks P) : (i >>= f).Asks P := by
  induction i with
  | done a => exact hf a
  | request t r next ih => exact ⟨hi.1, fun answer => ih answer (hi.2 answer)⟩
  | query t q next ih => exact fun answer => ih answer (hi answer)

/-- Running an inquiry moves the engine along a relation that its requests and all queries do not
leave. -/
theorem Inquiry.Asks.run {ε : Type} [DebugEngine ε] {E : ε → ε → Prop} [Operation.StepRelation E]
    {i : Inquiry α} (hi : i.Asks P)
    (hrequest : ∀ (t : Handle) (r : Request) (e : ε), P r →
      E e (DebugEngine.perform (.request t r) e).2)
    (hquery : ∀ (t : Handle) (q : Query) (e : ε), E e (DebugEngine.observe t q e).2) :
    ∀ e : ε, E e (i.run e).2 := by
  induction i with
  | done a => exact fun e => Operation.StepRelation.refl e
  | request t r next ih =>
    intro e
    have hcall := hrequest t r e hi.1
    rw [Inquiry.run]
    rcases hperform : DebugEngine.perform (.request t r) e with ⟨(err | text) | answer, e'⟩
    · rw [hperform] at hcall
      exact Operation.StepRelation.trans hcall (ih _ (hi.2 _) e')
    · rw [hperform] at hcall
      exact hcall
    · rw [hperform] at hcall
      exact Operation.StepRelation.trans hcall (ih _ (hi.2 _) e')
  | query t q next ih =>
    intro e
    exact Operation.StepRelation.trans (hquery t q e) (ih _ (hi _) _)

end Debuggee

namespace Console

open Debuggee

variable {α β : Type}

/-- A request neither starts a process, nor reads its output, nor lets it run. -/
structure OnlyLooks (r : Request) : Prop where
  starts : r.starts = false
  readsOutput : r.readsOutput = false
  departs : r.departs = false

/-- An action of the console only looks at targets. -/
def Looks (x : Action α) : Prop := Inquiry.Asks OnlyLooks x.run

theorem Looks.bind {x : Action α} {f : α → Action β} (hx : Looks x) (hf : ∀ a, Looks (f a)) :
    Looks (x >>= f) := by
  refine Inquiry.Asks.bind hx fun r => ?_
  cases r with
  | ok a => exact hf a
  | error e => exact trivial

theorem looks_pure (a : α) : Looks (pure a : Action α) := trivial

theorem looks_refuse (text : String) : Looks (refuse text : Action α) := trivial

theorem looks_request (t : Handle) {r : Request} (hr : OnlyLooks r) :
    Looks (request t r) :=
  ⟨hr, fun _ => trivial⟩

theorem looks_observe (t : Handle) (q : Query) : Looks (observe t q) := fun _ => trivial

theorem looks_number (word : String) : Looks (number word) := by
  rw [number]
  split
  · exact looks_pure _
  · exact looks_refuse _

theorem looks_target (focus : Focus) : Looks (target focus) := by
  rw [target]
  split
  · exact looks_pure _
  · exact looks_refuse _

theorem looks_selectedThread (focus : Focus) : Looks (selectedThread focus) := by
  refine (looks_target focus).bind fun t => ?_
  split
  · exact looks_pure _
  · refine (looks_observe t .stopInfo).bind fun stop => ?_
    split
    · exact looks_pure _
    · exact looks_refuse _

theorem looks_runCommand (focus : Focus) (cmd : Command) (args : List String) :
    Looks (runCommand focus cmd args) := by
  cases cmd with
  | help => exact looks_pure _
  | state =>
    refine (looks_target focus).bind fun t => (looks_observe t .state).bind fun _ => ?_
    refine (looks_observe t .processId).bind fun _ => (looks_observe t .stopInfo).bind fun _ => ?_
    exact (looks_observe t .exitStatus).bind fun _ => looks_pure _
  | registers =>
    refine (looks_selectedThread focus).bind fun tid => (looks_target focus).bind fun t => ?_
    exact (looks_request t ⟨rfl, rfl, rfl⟩).bind fun _ => looks_pure _
  | memory =>
    rw [runCommand.eq_def]
    dsimp only
    split
    · refine (looks_number _).bind fun _ => (looks_number _).bind fun _ => ?_
      exact (looks_target focus).bind fun t => (looks_request t ⟨rfl, rfl, rfl⟩).bind fun _ =>
        looks_pure _
    · exact looks_refuse _
  | disassemble =>
    have hshow : ∀ (addr : UInt64) (count : Nat), Looks (do
        let is ← request (← target focus) (.disassemble addr count)
        return lines (is.map fun i => Text.trimEnd
          (Text.hexWord i.address ++ ": " ++ i.mnemonic ++ " " ++ i.operands))) :=
      fun _ _ => (looks_target focus).bind fun t => (looks_request t ⟨rfl, rfl, rfl⟩).bind fun _ =>
        looks_pure _
    rw [runCommand.eq_def]
    dsimp only
    split
    · exact (looks_number _).bind fun _ => (looks_pure _).bind fun _ => hshow _ _
    · exact (looks_number _).bind fun _ => (looks_number _).bind fun _ =>
        (looks_pure _).bind fun _ => hshow _ _
    · exact (looks_refuse _).bind fun _ => hshow _ _
  | threads =>
    refine (looks_target focus).bind fun t => (looks_observe t .stopInfo).bind fun _ => ?_
    exact (looks_request t ⟨rfl, rfl, rfl⟩).bind fun _ => looks_pure _
  | backtrace =>
    refine (looks_selectedThread focus).bind fun tid => (looks_target focus).bind fun t => ?_
    exact (looks_request t ⟨rfl, rfl, rfl⟩).bind fun _ => looks_pure _
  | modules =>
    exact (looks_target focus).bind fun t => (looks_request t ⟨rfl, rfl, rfl⟩).bind fun _ =>
      looks_pure _

theorem looks_run (focus : Focus) (line : String) : Looks (run focus line) := by
  rw [run]
  split
  · exact looks_pure _
  · split
    · exact looks_runCommand _ _ _
    · exact looks_refuse _

theorem looks_execute (focus : Focus) (line : String) : (execute focus line).Asks OnlyLooks := by
  refine Inquiry.Asks.bind (looks_run focus line) fun r => ?_
  cases r with
  | ok output => exact trivial
  | error text => exact trivial

/-- A line of the console puts no request that starts a process. -/
theorem asks_execute (focus : Focus) (line : String) :
    (execute focus line).Asks fun r => r.starts = false :=
  (looks_execute focus line).mono fun _ => OnlyLooks.starts

/-- A line of the console reads no output. -/
theorem asks_execute_quiet (focus : Focus) (line : String) :
    (execute focus line).Asks fun r => r.readsOutput = false :=
  (looks_execute focus line).mono fun _ => OnlyLooks.readsOutput

/-- A line of the console lets no process run. -/
theorem asks_execute_resting (focus : Focus) (line : String) :
    (execute focus line).Asks fun r => r.departs = false :=
  (looks_execute focus line).mono fun _ => OnlyLooks.departs

end Console

end DebugAdapter
