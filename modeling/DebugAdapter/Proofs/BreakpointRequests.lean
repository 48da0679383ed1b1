import DebugAdapter.Proofs.BreakpointIds
import DebugAdapter.Proofs.PatchCells

/-!
# Requests about breakpoints

A request about breakpoints stops a running process, works on the table through a stopped thread and
lets the process go on. Stopping and going on leave the table alone (`Rests`), so the request does
to it what the work does: `Course` splits a request accordingly. What the work does is said here for
every kernel, whatever its answers are.
-/

namespace DebugAdapter.Tracer

open Debuggee
open Linux
open Operation

/-! ### Stopping and going on -/

/-- While there is a process, its breakpoints stay. -/
structure Rests {κ : Type} (s s' : System κ) : Prop where
  process : s.tracer.process = none → s'.tracer.process = none
  breakpoints : s'.tracer.process ≠ none → s'.tracer.breakpoints = s.tracer.breakpoints

variable {κ : Type} [Kernel κ]

instance : ThreadRelation (Rests : System κ → System κ → Prop) where
  refl _ := ⟨id, fun _ => rfl⟩
  trans h h' :=
    { process := fun hs => h'.process (h.process hs)
      breakpoints := fun hu =>
        (h'.breakpoints hu).trans (h.breakpoints fun hnone => hu (h'.process hnone)) }
  call _ _ _ := ⟨id, fun _ => rfl⟩
  tracer _ _ hbreakpoints hprocess _ := ⟨hprocess, fun _ => hbreakpoints⟩
  exit _ _ hprocess _ _ := ⟨fun _ => hprocess, fun h => absurd hprocess h⟩

namespace Tracing

variable {α : Type}

/-- The first part of a request: a running process stops, and a thread gives access to memory. -/
def access : Tracing κ Nat := do
  if (← process).isRunning then stopAll
  memoryThread

/-- A thread gives access to memory. -/
def Accessible (s : System κ) : Prop := ∃ tid, Ends access s fun r _ => r = .ok tid

/-- The last part of a request: a process goes on if it was running. -/
def goOn (wasRunning : Bool) : Tracing κ Unit := do
  if wasRunning then (← process).threadIds.forM continueThread

theorem ends_withAllStopped {s : System κ} {p : Process} (hp : s.tracer.process = some p)
    (work : Nat → Tracing κ α) (Q : Except DebugError α → System κ → Prop) :
    Ends (withAllStopped work) s Q ↔ Ends (access >>= fun tid => outcome (work tid) >>= fun result =>
      goOn p.isRunning >>= fun _ => ofOutcome result) s Q := by
  rw [withAllStopped, ends_process_bind hp, access, bind_assoc, ends_process_bind hp]
  cases p.isRunning with
  | true => simp only [goOn, if_true, bind_assoc]
  | false => simp only [goOn, Bool.false_eq_true, if_false, pure_bind]

section Relations

variable {R : System κ → System κ → Prop} [ThreadRelation R]

theorem moves_access : Moves R (access : Tracing κ Nat) := by
  refine moves_process.bind fun p => ?_
  split
  · exact moves_stopAll.bind fun _ => moves_memoryThread
  · exact moves_memoryThread

theorem moves_goOn (wasRunning : Bool) : Moves R (goOn wasRunning : Tracing κ Unit) := by
  cases wasRunning with
  | true => exact moves_process.bind fun p => moves_continueThreads _
  | false => exact Moves.pure _

end Relations

omit [Kernel κ] in
theorem ends_outcome_bind {β : Type} (m : Tracing κ α) (f : Except DebugError α → Tracing κ β)
    (s : System κ) (Q : Except DebugError β → System κ → Prop) :
    Ends (outcome m >>= f) s Q ↔ Ends m s fun r s' => Ends (f r) s' Q :=
  ends_bind _ f s Q

/-- A halted process needs neither to be stopped nor to go on. -/
theorem ends_withAllStopped_halted {s : System κ} {p : Process} (hp : s.tracer.process = some p)
    (hhalted : p.isRunning = false) (work : Nat → Tracing κ α)
    (Q : Except DebugError α → System κ → Prop) :
    Ends (withAllStopped work) s Q ↔ Ends (memoryThread >>= work) s Q := by
  rw [ends_withAllStopped hp, access, bind_assoc, ends_process_bind hp, hhalted]
  simp only [Bool.false_eq_true, if_false, pure_bind, goOn]
  rw [ends_bind, ends_bind]
  refine ends_congr fun r s' => ?_
  rcases r with e | tid
  · exact Iff.rfl
  · dsimp only
    rw [ends_outcome_bind]
    exact Iff.rfl

/-- Access to memory is through a thread of a process. -/
theorem process_of_access (s : System κ) : Ends (access : Tracing κ Nat) s fun r s' =>
    ∀ tid, r = .ok tid → s'.tracer.process ≠ none := by
  have hmemory : ∀ s₁ : System κ, Ends (memoryThread : Tracing κ Nat) s₁ fun r s' =>
      ∀ tid, r = .ok tid → s'.tracer.process ≠ none := by
    intro s₁
    rcases hp : s₁.tracer.process with _ | p
    · rw [memoryThread, ends_process_bind_none hp]
      rintro _ ⟨⟩
    · rw [memoryThread, ends_process_bind hp]
      split
      · intro tid _ hnone
        cases hnone.symm.trans hp
      · rintro _ ⟨⟩
  rcases hp : s.tracer.process with _ | p
  · rw [access, ends_process_bind_none hp]
    rintro _ ⟨⟩
  · rw [access, ends_process_bind hp]
    split
    · exact (moves_stopAll (R := Rests) s).bind (fun _ s₁ _ => hmemory s₁) fun _ _ _ => by rintro _ ⟨⟩
    · exact hmemory s

/-- How a request about breakpoints goes, by what its work does. -/
inductive Course (R : System κ → System κ → Prop) (work : Nat → Tracing κ α) (s : System κ) :
    Except DebugError α → System κ → Prop
  /-- There is no access to memory. -/
  | refused {e : DebugError} {s' : System κ} : Ends access s (fun r u => r = .error e ∧ u = s') →
      R s s' → Course R work s (.error e) s'
  /-- The work is done, and a thread may fail to go on then. -/
  | done {p : Process} {tid : Nat} {s₁ s₂ s' : System κ} {result r : Except DebugError α} :
      s.tracer.process = some p → Ends access s (fun r u => r = .ok tid ∧ u = s₁) → R s s₁ →
      s₁.tracer.process ≠ none → Ends (work tid) s₁ (fun r u => r = result ∧ u = s₂) →
      Ends (goOn p.isRunning) s₂ (fun g u => u = s' ∧ (r = result ∨ ∃ e, g = .error e ∧ r = .error e)) →
      R s₂ s' → Course R work s r s'

theorem course_withAllStopped {R : System κ → System κ → Prop} [ThreadRelation R]
    (work : Nat → Tracing κ α) (s : System κ) :
    Ends (withAllStopped work) s (Course R work s) := by
  rcases hp : s.tracer.process with _ | p
  · rw [withAllStopped, ends_process_bind_none hp]
    refine .refused ?_ (StepRelation.refl s)
    rw [access, ends_process_bind_none hp]
    exact ⟨rfl, rfl⟩
  · rw [ends_withAllStopped hp]
    have haccess : Ends (access : Tracing κ Nat) s fun r s₁ =>
        (R s s₁ ∧ ∀ tid, r = .ok tid → s₁.tracer.process ≠ none) ∧
          Ends access s fun r' u => r' = r ∧ u = s₁ :=
      ((moves_access s).and (process_of_access s)).and ⟨rfl, rfl⟩
    refine haccess.bind ?_ fun e s₁ h => .refused h.2 h.1.1
    rintro tid s₁ ⟨⟨hR, hprocess⟩, heq⟩
    rw [ends_outcome_bind]
    have hwork : Ends (work tid) s₁ fun result s₂ => Ends (work tid) s₁ fun r u => r = result ∧ u = s₂ :=
      ⟨rfl, rfl⟩
    refine hwork.mono fun result s₂ hwork => ?_
    have hgoOn : Ends (goOn p.isRunning : Tracing κ Unit) s₂ fun g s' => R s₂ s' ∧
        Ends (goOn p.isRunning) s₂ fun g' u => g' = g ∧ u = s' :=
      (moves_goOn p.isRunning s₂).and ⟨rfl, rfl⟩
    refine hgoOn.bind ?_ ?_
    · rintro _ s' ⟨hR', hg⟩
      have hcourse : Course R work s result s' :=
        .done hp heq hR (hprocess tid rfl) hwork (hg.mono fun _ _ h => ⟨h.2, Or.inl rfl⟩) hR'
      cases result with
      | ok a => exact hcourse
      | error e => exact hcourse
    · rintro e s' ⟨hR', hg⟩
      exact .done hp heq hR (hprocess tid rfl) hwork (hg.mono fun _ _ h => ⟨h.2, Or.inr ⟨e, h.1, rfl⟩⟩) hR'

end Tracing

/-! ### Work on one entry -/

/-- A patch comes or goes: its entry changes, but not what it stands for. -/
structure Toggles (a : UInt64) (p p' : Patched κ) : Prop where
  modify : ∃ f : Breakpoint → Breakpoint,
    (∀ b, (f b).address = b.address ∧ (f b).userId = b.userId ∧ (f b).planned = b.planned) ∧
      p'.table = p.table.modify a f

/-- Every entry stays but the one at an address. -/
structure Elsewhere (a : UInt64) (p p' : Patched κ) : Prop where
  find? : ∀ x, x ≠ a → p'.table.find? x = p.table.find? x

instance (a : UInt64) : StepRelation (Toggles a : Patched κ → Patched κ → Prop) where
  refl p := ⟨id, fun _ => ⟨rfl, rfl, rfl⟩, (BreakpointTable.modify_id p.table a).symm⟩
  trans h h' := by
    obtain ⟨f, hf, hmodify⟩ := h.modify
    obtain ⟨g, hg, hmodify'⟩ := h'.modify
    refine ⟨fun b => g (f b), fun b => ?_, ?_⟩
    · obtain ⟨haddress, hid, hplanned⟩ := hf b
      obtain ⟨haddress', hid', hplanned'⟩ := hg (f b)
      exact ⟨haddress'.trans haddress, hid'.trans hid, hplanned'.trans hplanned⟩
    · rw [hmodify', hmodify, BreakpointTable.modify_modify fun b => (hf b).1]

instance (a : UInt64) : StepRelation (Elsewhere a : Patched κ → Patched κ → Prop) where
  refl _ := ⟨fun _ _ => rfl⟩
  trans h h' := ⟨fun x hx => (h'.find? x hx).trans (h.find? x hx)⟩

omit [Kernel κ] in
theorem Toggles.elsewhere {a : UInt64} {p p' : Patched κ} (h : Toggles a p p') :
    Elsewhere a p p' := by
  obtain ⟨f, hf, hmodify⟩ := h.modify
  refine ⟨fun x hx => ?_⟩
  rw [hmodify, BreakpointTable.find?_modify_of_ne (fun b => (hf b).1) _ hx]

namespace Patching

open BreakpointTable

section Entry

variable (a : UInt64)

omit [Kernel κ] in
theorem toggles_modify {f : Breakpoint → Breakpoint}
    (hf : ∀ b, (f b).address = b.address ∧ (f b).userId = b.userId ∧ (f b).planned = b.planned) :
    Moves (Toggles a) (modifyTable (·.modify a f) : Patching κ Unit) :=
  Moves.modify fun _ => ⟨f, hf, rfl⟩

theorem toggles_call (c : SystemCall) :
    Moves (Toggles a) (calls (call c) : Patching κ c.Answer) :=
  fun p => ⟨id, fun _ => ⟨rfl, rfl, rfl⟩, (modify_id p.table a).symm⟩

theorem toggles_enable (tid : Nat) : Moves (Toggles a) (enable tid a : Patching κ Unit) := by
  refine Moves.get.bind fun p => ?_
  split
  · exact Moves.pure _
  · split
    · exact Moves.pure _
    · refine Moves.bind (toggles_call a _) fun word => ?_
      refine Moves.bind (toggles_modify a fun _ => ⟨rfl, rfl, rfl⟩) fun _ => ?_
      exact Moves.bind (toggles_call a _) fun _ => toggles_modify a fun _ => ⟨rfl, rfl, rfl⟩

theorem toggles_disable (tid : Nat) : Moves (Toggles a) (disable tid a : Patching κ Unit) := by
  refine Moves.get.bind fun p => ?_
  split
  · exact Moves.pure _
  · split
    · exact Moves.pure _
    · refine Moves.bind (toggles_call a _) fun word => ?_
      exact Moves.bind (toggles_call a _) fun _ => toggles_modify a fun _ => ⟨rfl, rfl, rfl⟩

theorem elsewhere_release (tid : Nat) {f : Breakpoint → Breakpoint}
    (hf : ∀ b, (f b).address = b.address) :
    Moves (Elsewhere a) (release tid a f : Patching κ Unit) := by
  have herase : Moves (Elsewhere a) (modifyTable (·.erase a) : Patching κ Unit) :=
    Moves.modify fun p => ⟨fun x hx => (find?_erase p.table a x).trans (if_neg hx)⟩
  have hmodify : Moves (Elsewhere a) (modifyTable (·.modify a f) : Patching κ Unit) :=
    Moves.modify fun p => ⟨fun _ hx => find?_modify_of_ne hf p.table hx⟩
  refine hmodify.bind fun _ => Moves.get.bind fun p => ?_
  split
  · exact Moves.pure _
  · split
    · exact ((toggles_disable a tid).mono fun _ _ h => h.elsewhere).bind fun _ => herase
    · exact Moves.pure _

theorem elsewhere_addUser (tid : Nat) :
    Moves (Elsewhere a) (addUser tid a : Patching κ BreakpointInfo) := by
  have hinsert : Moves (Elsewhere a) (modifyTable (·.insert a) : Patching κ Unit) :=
    Moves.modify fun p => ⟨fun _ hx => find?_insert_of_ne p.table hx⟩
  have henable : Moves (Elsewhere a) (enable tid a : Patching κ Unit) :=
    (toggles_enable a tid).mono fun _ _ h => h.elsewhere
  refine hinsert.bind fun _ => henable.bind fun _ => Moves.get.bind fun p => ?_
  dsimp only
  split
  · exact Moves.pure _
  · refine Moves.bind (Moves.modify fun q => ⟨fun x hx => ?_⟩) fun _ => Moves.pure _
    exact find?_modify_of_ne (f := fun b => { b with userId := some (p.table.lastId + 1) })
      (fun _ => rfl) q.table hx

end Entry

/-- Once a breakpoint of the user is released, there is none at its address. -/
theorem userAt_of_release (tid : Nat) (a : UInt64) {f : Breakpoint → Breakpoint}
    (hf : ∀ b, (f b).address = b.address) (hunset : ∀ b, (f b).userId = none)
    (p : Patched κ) : Ends (release tid a f) p fun r p' =>
      r = .ok () → p'.table.userAt a = none := by
  have hunset : (p.table.modify a f).userAt a = none := by
    rw [userAt_modify hf, if_pos rfl]
    cases p.table.find? a with
    | none => rfl
    | some b => exact hunset b
  rw [release, ends_modifyTable_bind, ends_get_bind]
  split
  · exact fun _ => hunset
  · split
    · refine Ends.bind (P := fun _ _ => True) True.intro ?_ fun _ _ _ => nofun
      intro _ p₁ _
      rw [ends_modifyTable, userAt_erase, if_pos rfl]
      exact fun _ => rfl
    · exact fun _ => hunset

/-- Removing a breakpoint takes the entry away for which the id stands, if there is one. -/
theorem ends_removeUser (tid id : Nat) {p : Patched κ} (hp : p.table.WellFormed) :
    Ends (removeUser tid id) p fun r p' =>
      (∀ x, p.table.userAt x ≠ some id → p'.table.find? x = p.table.find? x) ∧
      (r = .ok true → ∃ x, p.table.userAt x = some id ∧ p'.table.userAt x = none) ∧
      (r = .ok false → ∀ x, p.table.userAt x ≠ some id) := by
  rw [removeUser, ends_get_bind]
  split
  · rename_i hnone
    refine ⟨fun _ _ => rfl, nofun, fun _ x hx => ?_⟩
    exact findUser?_of_userAt hx hnone
  · rename_i b hb
    obtain ⟨-, hid⟩ := userAt_of_findUser? hp.sorted hb
    have helsewhere := elsewhere_release b.address tid
      (f := fun b => { b with userId := none }) (fun _ => rfl) p
    have hgone := userAt_of_release tid b.address
      (f := fun b => { b with userId := none }) (fun _ => rfl) (fun _ => rfl) p
    have hrest : ∀ p', Elsewhere b.address p p' → ∀ x, p.table.userAt x ≠ some id →
        p'.table.find? x = p.table.find? x := by
      intro p' h x hx
      exact h.find? x fun heq => hx (heq ▸ hid)
    refine (helsewhere.and hgone).bind ?_ ?_
    · rintro _ p' ⟨h, hnone⟩
      exact ⟨hrest p' h, fun _ => ⟨b.address, hid, hnone rfl⟩, nofun⟩
    · rintro e p' ⟨h, -⟩
      exact ⟨hrest p' h, nofun, nofun⟩

/-- A breakpoint that was set has its id at its address. -/
theorem ends_addUser (tid : Nat) (a : UInt64) {p : Patched κ} (hp : p.table.Sorted) :
    Ends (addUser tid a) p fun r p' => ∀ info, r = .ok info → p'.table.userAt a = some info.id := by
  rw [addUser, ends_modifyTable_bind]
  refine (toggles_enable a tid _).bind ?_ fun _ _ _ => nofun
  intro _ p₁ h
  rw [ends_get_bind]
  dsimp only
  split
  · rename_i id hid
    rintro info ⟨⟩
    exact hid
  · rw [ends_modifyTable_bind]
    rintro info ⟨⟩
    show (p₁.table.assign a).userAt a = _
    obtain ⟨f, hf, hmodify⟩ := h.modify
    rw [userAt_assign, if_pos rfl, hmodify, find?_modify_self fun b => (hf b).1,
      find?_insert_self hp]
    rfl

end Patching

/-! ### Requests -/

namespace Tracing

open BreakpointTable

/-- A request that succeeds leaves the table as its work leaves it. -/
theorem Course.of_ok {α : Type} {work : Nat → Tracing κ α} {s s' : System κ} {a : α}
    (h : Course Rests work s (.ok a) s') (hprocess : s'.tracer.process ≠ none) :
    ∃ tid s₁ s₂, s₁.tracer.breakpoints = s.tracer.breakpoints ∧
      Ends (work tid) s₁ (fun r u => r = .ok a ∧ u = s₂) ∧
      s'.tracer.breakpoints = s₂.tracer.breakpoints := by
  cases h with
  | @done p tid s₁ s₂ _ result _ _ _ hrests hprocess₁ hwork hgoOn hrests' =>
    obtain ⟨-, rfl | ⟨e, -, he⟩⟩ := hgoOn
    · exact ⟨tid, s₁, s₂, hrests.breakpoints hprocess₁, hwork, hrests'.breakpoints hprocess⟩
    · cases he

/-- A breakpoint that was set has its id at its address. -/
theorem ends_setBreakpoint (a : UInt64) {s : System κ} (hs : s.tracer.breakpoints.WellFormed) :
    Ends (setBreakpoint a) s fun r s' => ∀ info, r = .ok info → s'.tracer.process ≠ none →
      s'.tracer.breakpoints.userAt a = some info.id := by
  refine (course_withAllStopped (R := Rests) _ s).mono ?_
  rintro r s' hcourse info rfl hprocess
  obtain ⟨tid, s₁, s₂, htable, hwork, htable'⟩ := hcourse.of_ok hprocess
  have hsorted : (breakpointsOf s₁).table.Sorted := by
    show s₁.tracer.breakpoints.Sorted
    rw [htable]
    exact hs.sorted
  have hset := ends_patching (fun _ => .memoryAccess a) (Patching.addUser tid a) s₁
    fun r u => ∀ info, r = .ok info → u.tracer.breakpoints.userAt a = some info.id
  obtain ⟨hresult, rfl⟩ := hwork
  rw [htable']
  refine hset.mpr ?_ info hresult
  refine (Patching.ends_addUser tid a hsorted).mono fun r p h info hinfo => ?_
  cases r with
  | error e => cases hinfo
  | ok found => exact h info (congrArg Except.ok (Except.ok.inj hinfo))

/-- A breakpoint that was removed is gone, and every other entry is still there. -/
theorem ends_removeBreakpoint (id : Nat) {s : System κ} (hs : s.tracer.breakpoints.WellFormed) :
    Ends (removeBreakpoint id) s fun r s' => r = .ok () → s'.tracer.process ≠ none →
      (∀ x, s.tracer.breakpoints.userAt x ≠ some id →
        s'.tracer.breakpoints.find? x = s.tracer.breakpoints.find? x) ∧
      ∃ x, s.tracer.breakpoints.userAt x = some id ∧ s'.tracer.breakpoints.userAt x = none := by
  refine (course_withAllStopped (R := Rests) _ s).mono ?_
  rintro r s' hcourse rfl hprocess
  obtain ⟨tid, s₁, s₂, htable, hwork, htable'⟩ := hcourse.of_ok hprocess
  have hwf : (breakpointsOf s₁).table.WellFormed := by
    show s₁.tracer.breakpoints.WellFormed
    rwa [htable]
  rw [← htable, htable']
  have hremove : Ends (patching .ptrace (Patching.removeUser tid id)) s₁ fun r u =>
      r = .ok true → (∀ x, s₁.tracer.breakpoints.userAt x ≠ some id →
        u.tracer.breakpoints.find? x = s₁.tracer.breakpoints.find? x) ∧
      ∃ x, s₁.tracer.breakpoints.userAt x = some id ∧ u.tracer.breakpoints.userAt x = none := by
    rw [ends_patching]
    refine (Patching.ends_removeUser tid id hwf).mono fun r p h hr => ?_
    cases r with
    | error e => cases hr
    | ok found =>
      cases hr
      exact ⟨h.1, h.2.1 rfl⟩
  have hthen : Ends (do
      if !(← patching .ptrace (Patching.removeUser tid id)) then throw (.breakpointNotFound id))
      s₁ fun r u => r = .ok () → (∀ x, s₁.tracer.breakpoints.userAt x ≠ some id →
        u.tracer.breakpoints.find? x = s₁.tracer.breakpoints.find? x) ∧
      ∃ x, s₁.tracer.breakpoints.userAt x = some id ∧ u.tracer.breakpoints.userAt x = none := by
    refine hremove.bind ?_ fun _ _ _ => nofun
    intro removed u h
    cases removed with
    | true => exact fun _ => h rfl
    | false => exact nofun
  obtain ⟨hresult, rfl⟩ := hwork
  exact hthen hresult

end Tracing

/-! ### Memory -/

section Memory

open BreakpointTable
open WordMemory (memory)

variable [WordMemory κ]

/-- Removing a breakpoint changes memory at its address only. -/
theorem Patching.memory_removeUser (tid id : Nat) {p : Patched κ} (hp : p.table.WellFormed) :
    Ends (removeUser tid id) p fun _ p' => ∀ x, p.table.userAt x ≠ some id →
      memory p'.kernel x = memory p.kernel x := by
  rw [removeUser, ends_get_bind]
  split
  · exact fun _ _ => rfl
  · rename_i b hb
    obtain ⟨-, hid⟩ := userAt_of_findUser? hp.sorted hb
    let p₁ : Patched κ := { p with table := p.table.modify b.address fun b => { b with userId := none } }
    have hsorted : p₁.table.Sorted :=
      hp.sorted.modify (f := fun b => { b with userId := none }) (fun _ => rfl) b.address
    have hrelease : Ends (release tid b.address fun b => { b with userId := none }) p fun _ p' =>
        ∀ x, x ≠ b.address → memory p'.kernel x = memory p.kernel x := by
      rw [release, ends_modifyTable_bind, ends_get_bind]
      split
      · exact fun _ _ => rfl
      · split
        · refine (ends_disable tid b.address hsorted).bind_eq fun p₂ h x hx => ?_
          have hcell := h.cell x
          rw [atAddress, if_neg hx] at hcell
          exact congrArg Cell.byte hcell
        · exact fun _ _ => rfl
    refine hrelease.bind ?_ ?_
    · exact fun _ p' h x hx => h x fun heq => hx (heq ▸ hid)
    · exact fun _ p' h x hx => h x fun heq => hx (heq ▸ hid)

/-- Removing a breakpoint of a halted process changes memory at its address only. -/
theorem Tracing.memory_removeBreakpoint (id : Nat) {s : System κ} {p : Process}
    (hs : s.tracer.breakpoints.WellFormed) (hp : s.tracer.process = some p)
    (hhalted : p.isRunning = false) :
    Ends (removeBreakpoint id) s fun _ s' => s'.tracer.process = some p ∧
      ∀ x, s.tracer.breakpoints.userAt x ≠ some id →
        memory s'.kernel x = memory s.kernel x := by
  rw [removeBreakpoint, ends_withAllStopped_halted hp hhalted, memoryThread, bind_assoc,
    ends_process_bind hp]
  split
  · rename_i tid _
    rw [pure_bind]
    have hremove : Ends (patching .ptrace (Patching.removeUser tid id)) s fun _ s' =>
        s'.tracer.process = some p ∧ ∀ x, s.tracer.breakpoints.userAt x ≠ some id →
          memory s'.kernel x = memory s.kernel x := by
      rw [ends_patching]
      exact (Patching.memory_removeUser tid id (p := breakpointsOf s) hs).mono fun _ _ h => ⟨hp, h⟩
    refine hremove.bind ?_ fun _ _ h => h
    intro removed s' h
    cases removed with
    | true => exact h
    | false => exact h
  · exact ⟨hp, fun _ _ => rfl⟩

end Memory

end DebugAdapter.Tracer
