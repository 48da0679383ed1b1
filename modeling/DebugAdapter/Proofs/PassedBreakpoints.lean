import DebugAdapter.Proofs.EntryOutcomes
import DebugAdapter.Proofs.ThreadRegisters

/-!
# Breakpoints that are passed

A thread passes the breakpoint that it stands at in three parts: the byte that belongs there is put back,
the thread steps, and the trap instruction is put in place again. `Oversteps` tells how this goes, call by
call, where no call is refused. In the end the trap instruction is in place, unless the step was given up
or the thread is gone.

Main statement: `serves_stepThread`.
-/

namespace DebugAdapter.Tracer

open Debuggee
open Linux
open Linux.KeepsRegisters (standing)
open Machine (RegisterFile)
open Operation

variable {κ : Type} [Kernel κ]

/-- The calls that put the byte back that belongs at an address. -/
def liftCalls (tid : Nat) (a word : UInt64) (saved : UInt8) : List Answered :=
  [⟨.peek tid a, .ok word⟩, ⟨.poke tid a (withLowByte word saved), .ok ()⟩]

/-- The calls that put the trap instruction in place at an address. -/
def plantCalls (tid : Nat) (a word : UInt64) : List Answered :=
  [⟨.peek tid a, .ok word⟩, ⟨.poke tid a (withLowByte word Breakpoint.trapByte), .ok ()⟩]

/-! ### Patches -/

namespace Patching

variable {q : Patched (Logged κ)} {a : UInt64} {b : Breakpoint}

theorem served_disable (tid : Nat) (hb : q.table.find? a = some b) (hon : b.enabled = true) :
    Ends (disable tid a) q fun r q' => ∃ new, q'.kernel.log = q.kernel.log ++ new ∧
      ((∀ x ∈ new, x.answer.isOk = true) → ∃ word, r = .ok () ∧ new = liftCalls tid a word b.saved ∧
        q'.table = q.table.lift a) := by
  rw [disable, ends_get_bind, hb]
  dsimp only
  rw [hon, if_neg (by decide)]
  refine (logged_call (.peek tid a) q).bind ?_ ?_
  · rintro word q₁ ⟨htable₁, hlog₁⟩
    refine (logged_call (.poke tid a (withLowByte word b.saved)) q₁).bind ?_ ?_
    · rintro ⟨⟩ q₂ ⟨htable₂, hlog₂⟩
      refine ⟨liftCalls tid a word b.saved, ?_, fun _ => ⟨word, rfl, rfl, ?_⟩⟩
      · show q₂.kernel.log = _
        rw [hlog₂, hlog₁, List.append_assoc]
        rfl
      · show q₂.table.lift a = _
        rw [htable₂, htable₁]
    · rintro e q₂ ⟨-, hlog₂⟩
      refine ⟨_, by rw [hlog₂, hlog₁, List.append_assoc], fun hok => ?_⟩
      cases hok _ (List.mem_append_right _ (List.mem_singleton.mpr rfl))
  · rintro e q₁ ⟨-, hlog₁⟩
    refine ⟨_, hlog₁, fun hok => ?_⟩
    cases hok _ (List.mem_singleton.mpr rfl)

theorem served_enable (tid : Nat) (hb : q.table.find? a = some b) (hoff : b.enabled = false) :
    Ends (enable tid a) q fun r q' => ∃ new, q'.kernel.log = q.kernel.log ++ new ∧
      ((∀ x ∈ new, x.answer.isOk = true) → ∃ word, r = .ok () ∧ new = plantCalls tid a word ∧
        q'.table.isEnabledAt a = true) := by
  rw [enable, ends_get_bind, hb]
  dsimp only
  rw [hoff, if_neg (by decide)]
  refine (logged_call (.peek tid a) q).bind ?_ ?_
  · rintro word q₁ ⟨htable₁, hlog₁⟩
    rw [ends_modifyTable_bind]
    refine (logged_call (.poke tid a (withLowByte word Breakpoint.trapByte)) _).bind ?_ ?_
    · rintro ⟨⟩ q₂ ⟨htable₂, hlog₂⟩
      refine ⟨plantCalls tid a word, ?_, fun _ => ⟨word, rfl, rfl, ?_⟩⟩
      · show q₂.kernel.log = _
        rw [hlog₂, hlog₁, List.append_assoc]
        rfl
      · have hfind : q₂.table.find? a = some { b with saved := word.toUInt8 } := by
          rw [htable₂, htable₁]
          exact (BreakpointTable.find?_modify_self (f := fun b => { b with saved := word.toUInt8 })
            (fun _ => rfl) q.table a).trans (congrArg (Option.map _) hb)
        have hfind' := BreakpointTable.find?_modify_self (f := fun b => { b with enabled := true })
          (fun _ => rfl) q₂.table a
        rw [hfind] at hfind'
        exact congrArg (Option.any Breakpoint.enabled) hfind'
    · rintro e q₂ ⟨-, hlog₂⟩
      refine ⟨_, by rw [hlog₂, hlog₁, List.append_assoc], fun hok => ?_⟩
      cases hok _ (List.mem_append_right _ (List.mem_singleton.mpr rfl))
  · rintro e q₁ ⟨-, hlog₁⟩
    refine ⟨_, hlog₁, fun hok => ?_⟩
    cases hok _ (List.mem_singleton.mpr rfl)

end Patching

/-! ### Steps -/

/-- How a thread steps over the breakpoint that it stands at, where no call is refused; `saved` is the
byte that belongs there. -/
inductive Oversteps (tid : Nat) (a : UInt64) (saved : UInt8) (s : System (Logged κ)) (p : Process) :
    Except DebugError Stepped → System (Logged κ) → Prop
  /-- The thread stepped, or a signal came instead, and the trap instruction is in place again. -/
  | planted {t : System (Logged κ)} {regs : RegisterFile} {u : Nat} {word word' : UInt64}
      {steps : List Answered} {stepped : Stepped} {p' : Process}
      (hsteps : StepsOff tid p steps stepped p') (hpresent : stepped ≠ .gone)
      (hlog : t.kernel.log = s.kernel.log ++
        (⟨.getRegisters tid, .ok regs⟩ ::
          (liftCalls tid a word saved ++ (steps ++ plantCalls u a word'))))
      (htracer : t.tracer = { s.tracer with process := some p', breakpoints := t.tracer.breakpoints })
      (henabled : t.tracer.breakpoints.isEnabledAt a = true) : Oversteps tid a saved s p (.ok stepped) t
  | gone {r : Except DebugError Stepped} {t : System (Logged κ)} {regs : RegisterFile} {word : UInt64}
      {steps : List Answered} {p' : Process}
      (hsteps : StepsOff tid p steps .gone p') (hr : ∀ stepped, r = .ok stepped → stepped = .gone)
      (hlog : s.kernel.log ++ (⟨.getRegisters tid, .ok regs⟩ :: (liftCalls tid a word saved ++ steps))
        <+: t.kernel.log)
      (htracer : t.tracer = { s.tracer with process := some p', breakpoints := t.tracer.breakpoints }) :
      Oversteps tid a saved s p r t
  /-- The step was given up. -/
  | tired {t : System (Logged κ)} {regs : RegisterFile} {word : UInt64} {steps : List Answered}
      {p' : Process} (htires : TiresOut tid Tracing.maxSteps p steps p')
      (hlog : t.kernel.log = s.kernel.log ++
        (⟨.getRegisters tid, .ok regs⟩ :: (liftCalls tid a word saved ++ steps)))
      (htracer : t.tracer = { s.tracer with process := some p', breakpoints := t.tracer.breakpoints }) :
      Oversteps tid a saved s p (.error (.stepNotCompleted Tracing.maxSteps)) t

namespace Tracing

variable {s : System (Logged κ)} {p : Process} {a : UInt64} {b : Breakpoint}

omit [Kernel κ] in
/-- Work on breakpoints, where no call is refused. -/
theorem served_patching (error : OsError → DebugError) {m : Patching (Logged κ) Unit}
    {P : List Answered → BreakpointTable → Prop}
    (h : Ends m (breakpointsOf s) fun r q => ∃ new, q.kernel.log = s.kernel.log ++ new ∧
      ((∀ x ∈ new, x.answer.isOk = true) → r = .ok () ∧ P new q.table)) :
    Ends (patching error m) s fun r t => s.kernel.log <+: t.kernel.log ∧ (Serves s t → r = .ok () ∧
      ∃ new, t.kernel.log = s.kernel.log ++ new ∧
        t.tracer = { s.tracer with breakpoints := t.tracer.breakpoints } ∧
        P new t.tracer.breakpoints) := by
  rw [ends_patching]
  refine h.mono ?_
  rintro r q ⟨new, hlog, hnew⟩
  refine ⟨⟨new, hlog.symm⟩, fun hserves => ?_⟩
  obtain ⟨new', hlog', hok⟩ := hserves.granted
  cases List.append_cancel_left (hlog.symm.trans hlog')
  obtain ⟨rfl, hP⟩ := hnew hok
  exact ⟨rfl, new, hlog, rfl, hP⟩

/-- The end of a step over a breakpoint: the trap instruction is put in place again. -/
def plantBack (a : UInt64) (stepped : Stepped) : Tracing κ Stepped := do
  if ← hasProcess then
    patching .ptrace (Patching.enable (← memoryThread) a)
  return stepped

theorem moves_plantBack (a : UInt64) (stepped : Stepped) :
    Moves Lengthens (plantBack a stepped : Tracing (Logged κ) Stepped) := by
  refine moves_hasProcess.bind fun present => ?_
  split
  · refine moves_memoryThread.bind fun access => ?_
    exact (moves_patching _ (ToggleRelation.enable access a)).bind fun _ => Moves.pure _
  · exact Moves.pure _

theorem stepThread_eq (tid : Nat) : (stepThread tid : Tracing κ Stepped) = (do
    let pc ← pcOf tid
    if (← tracer).breakpoints.isEnabledAt pc then
      patching .ptrace (Patching.disable tid pc)
      let stepped ← singleStep tid
      plantBack pc stepped
    else singleStep tid) := rfl

/-- A breakpoint may stay lifted after a thread is gone that stepped over it. -/
theorem ends_plantBack (a : UInt64) (stepped : Stepped) (s : System (Logged κ)) :
    Ends (plantBack a stepped) s fun r t => (∀ stepped', r = .ok stepped' → stepped' = stepped) ∧
      s.kernel.log <+: t.kernel.log ∧
      t.tracer = { s.tracer with breakpoints := t.tracer.breakpoints } := by
  have hsame : ∀ r : Except DebugError Stepped, (∀ stepped', r = .ok stepped' → stepped' = stepped) →
      (∀ stepped', r = .ok stepped' → stepped' = stepped) ∧ s.kernel.log <+: s.kernel.log ∧
        s.tracer = { s.tracer with breakpoints := s.tracer.breakpoints } :=
    fun _ hr => ⟨hr, List.prefix_refl _, rfl⟩
  rw [plantBack, hasProcess, bind_assoc, ends_tracer_bind, pure_bind]
  split
  · refine (ends_memoryThread s).bind ?_ ?_
    · rintro access _ ⟨rfl, -⟩
      rw [ends_bind, ends_patching]
      refine (Patching.moves_enable (P := Patched.Lengthens) access a _).mono fun r q hlog => ?_
      cases r with
      | ok _ => exact ⟨by rintro _ ⟨⟩; rfl, hlog, rfl⟩
      | error e => exact ⟨by rintro _ ⟨⟩, hlog, rfl⟩
    · rintro e _ ⟨rfl, -⟩
      exact hsame _ (by rintro _ ⟨⟩)
  · exact hsame _ (by rintro _ ⟨⟩; rfl)

/-- The trap instruction is put in place again, through any thread that does not run. -/
theorem serves_plantBack {tid : Nat} {plan : Option StepPlan} (hp : s.tracer.process = some p)
    (hpoised : Poised tid plan p) (hb : s.tracer.breakpoints.find? a = some b) (hoff : b.enabled = false)
    (stepped : Stepped) : Ends (plantBack a stepped) s fun r t => Serves s t →
      r = .ok stepped ∧ ∃ u word, t.kernel.log = s.kernel.log ++ plantCalls u a word ∧
        t.tracer = { s.tracer with breakpoints := t.tracer.breakpoints } ∧
        t.tracer.breakpoints.isEnabledAt a = true := by
  obtain ⟨access, haccess⟩ := hpoised.exists_memoryThread
  rw [plantBack, hasProcess, bind_assoc, ends_tracer_bind, pure_bind, hp, Option.isSome_some, if_pos rfl,
    memoryThread, bind_assoc, ends_process_bind hp, haccess]
  dsimp only
  rw [pure_bind]
  refine serves_bind (served_patching (s := s) .ptrace (P := fun new table => ∃ word,
    new = plantCalls access a word ∧ table.isEnabledAt a = true) ?_) (fun _ => Moves.pure _) ?_
    fun e t h => by cases h.1
  · refine (Patching.served_enable (q := breakpointsOf s) access hb hoff).mono ?_
    rintro r q ⟨new, hlog, hnew⟩
    refine ⟨new, hlog, fun hok => ?_⟩
    obtain ⟨word, hr, hplant, henabled⟩ := hnew hok
    exact ⟨hr, word, hplant, henabled⟩
  · rintro _ t ⟨-, _, hlog, ht, word, rfl, henabled⟩ _
    exact ⟨rfl, access, word, hlog, ht, henabled⟩

variable [KeepsRegisters κ] [Kernel.Lawful κ] {tid : Nat} {plan : Option StepPlan} {regs : RegisterFile}

/-- A thread steps over the breakpoint that it stands at. -/
theorem serves_stepThread (hp : s.tracer.process = some p) (hpoised : Poised tid plan p)
    (hregs : standing s.kernel tid = some regs) (ha : regs.pc = a)
    (hb : s.tracer.breakpoints.find? a = some b) (hon : b.enabled = true) :
    Ends (stepThread tid) s fun r t => Serves s t → Oversteps tid a b.saved s p r t := by
  rw [stepThread_eq]
  refine Goes.serve_and ((goes_pcOf hp tid).and (sees_pcOf hregs)) (fun pc => ?_) ?_
  · refine moves_tracer.bind fun t => ?_
    split
    · refine (moves_patching _ (ToggleRelation.disable tid pc)).bind fun _ => ?_
      exact (moves_singleStep tid).bind fun stepped => moves_plantBack pc stepped
    · exact moves_singleStep tid
  rintro pc _ p t ⟨read, -, rfl, rfl⟩ hlog ht hsees
  have hpc : pc = a := (hsees.answer pc rfl).trans ha
  subst hpc
  have hsame : t.tracer = s.tracer := ht.trans (State.withProcess_eq_self hp)
  have hfind : t.tracer.breakpoints.find? pc = some b := by rw [hsame]; exact hb
  have henabled : t.tracer.breakpoints.isEnabledAt pc = true := by
    rw [BreakpointTable.isEnabledAt, hfind]
    exact hon
  rw [ends_tracer_bind, if_pos henabled]
  refine serves_bind (served_patching (s := t) .ptrace (P := fun new table => ∃ word,
    new = liftCalls tid pc word b.saved ∧ table = t.tracer.breakpoints.lift pc) ?_) (fun _ => ?_) ?_
    fun e u h => by cases h.1
  · refine (Patching.served_disable (q := breakpointsOf t) tid hfind hon).mono ?_
    rintro r q ⟨new, hlog, hnew⟩
    refine ⟨new, hlog, fun hok => ?_⟩
    obtain ⟨word, hr, hlift, htable⟩ := hnew hok
    exact ⟨hr, word, hlift, htable⟩
  · exact (moves_singleStep tid).bind fun stepped => moves_plantBack pc stepped
  rintro _ u ⟨-, _, hlog', hu, word, rfl, hlifted⟩
  have hlogs : u.kernel.log = s.kernel.log ++
      (⟨.getRegisters tid, .ok read⟩ :: liftCalls tid pc word b.saved) := by
    rw [hlog', hlog, List.append_assoc]
    rfl
  have htracer : u.tracer = { s.tracer with breakpoints := u.tracer.breakpoints } := by
    rw [hu, hsame]
  have hprocess : u.tracer.process = some p := by
    rw [htracer]
    exact hp
  have hlift : u.tracer.breakpoints.find? pc = some { b with enabled := false } := by
    rw [hlifted]
    exact (BreakpointTable.find?_modify_self (f := fun b => { b with enabled := false })
      (fun _ => rfl) _ pc).trans (congrArg (Option.map _) hfind)
  refine serves_bind (P := StepsFrom tid maxSteps u p) ?_ (moves_plantBack pc) ?_ ?_
  · exact ((moves_singleStep (R := Lengthens) tid u).and (serves_singleStep tid hprocess)).mono
      fun r v h => ⟨h.1.log, h.2⟩
  · rintro stepped v hstepped
    obtain ⟨steps, p', hlog'', hv, hsteps⟩ : ∃ steps p', v.kernel.log = u.kernel.log ++ steps ∧
        v.tracer = u.tracer.withProcess p' ∧ StepsOff tid p steps stepped p' := by
      cases hstepped with
      | ended hlog htracer h => exact ⟨_, _, hlog, htracer, h⟩
    have hlogs' : v.kernel.log = s.kernel.log ++
        (⟨.getRegisters tid, .ok read⟩ :: (liftCalls tid pc word b.saved ++ steps)) := by
      rw [hlog'', hlogs, List.append_assoc]
      rfl
    have hv' : v.tracer = { s.tracer with process := some p', breakpoints := v.tracer.breakpoints } := by
      rw [hv, htracer]
      rfl
    by_cases hgone : stepped = .gone
    · subst hgone
      refine (ends_plantBack pc .gone v).mono ?_
      rintro r w ⟨hr, hlog, hw⟩ _
      exact .gone hsteps hr (hlogs' ▸ hlog) (by rw [hw, hv'])
    · refine (serves_plantBack (s := v) (by rw [hv]; rfl) (hsteps.poised hgone hpoised)
        (b := { b with enabled := false }) (by rw [hv]; exact hlift) rfl stepped).mono ?_
      rintro r w h hserves
      obtain ⟨rfl, access, word', hplant, hw, hon'⟩ := h hserves
      have hlogs'' : w.kernel.log = s.kernel.log ++ (⟨.getRegisters tid, .ok read⟩ ::
          (liftCalls tid pc word b.saved ++ (steps ++ plantCalls access pc word'))) := by
        rw [hplant, hlogs', List.append_assoc, List.cons_append, List.append_assoc]
      exact .planted hsteps hgone hlogs'' (by rw [hw, hv']) hon'
  · rintro e v htired
    cases htired with
    | @tired _ steps p' hlog'' hv htires =>
      have hlogs' : v.kernel.log = s.kernel.log ++
          (⟨.getRegisters tid, .ok read⟩ :: (liftCalls tid pc word b.saved ++ steps)) := by
        rw [hlog'', hlogs, List.append_assoc]
        rfl
      exact .tired htires hlogs' (by rw [hv, htracer]; rfl)

end Tracing

end DebugAdapter.Tracer
