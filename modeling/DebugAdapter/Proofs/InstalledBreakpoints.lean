import DebugAdapter.Proofs.PatchRelations
import DebugAdapter.Proofs.StopReports

/-!
# Breakpoints that are in place

A breakpoint of the user is in place if its entry says so and memory holds the trap. Nothing that a
tracer does to threads touches it (`Undisturbed`), and what ends or begins a step plan leaves it in
place (`Spares`), as long as the process does not write there itself. Only a step of a thread that
stands on it lifts it. If the step fails it stays lifted (`Mislays`): the user still has it, but
memory holds the byte that belongs there.

Main statement: `mislays_stepThread`.
-/

namespace DebugAdapter

open Debuggee
open Linux
open Operation

/-- A kernel under which only writes of a tracer change memory at some addresses. -/
class Linux.Untouched (κ : Type) [Kernel κ] [WordMemory κ] (A : UInt64 → Prop) : Prop where
  memory_perform : ∀ (c : SystemCall) (k : κ) (x : UInt64), c.isPoke = false → A x →
    WordMemory.memory (Kernel.perform c k).2 x = WordMemory.memory k x

namespace Tracer

/-! ### Cells -/

namespace Cell

variable {id : Nat} {v : UInt8} {c : Cell}

/-- A breakpoint of the user is in place, over the byte that belongs there. -/
structure Installed (id : Nat) (v : UInt8) (c : Cell) : Prop where
  byte : c.byte = Breakpoint.trapByte
  entry : ∃ b, c.entry = some b ∧ b.userId = some id ∧ b.saved = v ∧ b.enabled = true

/-- A breakpoint of the user is lifted: the byte that belongs there is in place. -/
structure Lifted (id : Nat) (v : UInt8) (c : Cell) : Prop where
  byte : c.byte = v
  entry : ∃ b, c.entry = some b ∧ b.userId = some id ∧ b.enabled = false

theorem Installed.plant (h : c.Installed id v) : c.plant.Installed id v := by
  obtain ⟨b, hb, -, -, henabled⟩ := h.entry
  have hplant : c.plant = c := by
    rw [Cell.plant, hb]
    exact if_pos henabled
  rw [hplant]
  exact h

theorem Installed.lift (h : c.Installed id v) : c.lift.Lifted id v := by
  obtain ⟨b, hb, hid, rfl, henabled⟩ := h.entry
  have hlift : c.lift = ⟨b.saved, some { b with enabled := false }⟩ := by
    rw [Cell.lift, hb]
    exact if_pos henabled
  rw [hlift]
  exact ⟨rfl, _, rfl, hid, rfl⟩

/-- A breakpoint that was lifted is in place again once it is planted. -/
theorem Lifted.plant (h : c.Lifted id v) : c.plant.Installed id v := by
  obtain ⟨b, hb, hid, henabled⟩ := h.entry
  have hplant : c.plant
      = ⟨Breakpoint.trapByte, some { b with saved := c.byte, enabled := true }⟩ := by
    rw [Cell.plant, hb]
    exact if_neg (ne_true_of_eq_false henabled)
  rw [hplant]
  exact ⟨rfl, _, rfl, hid, h.byte, rfl⟩

/-- What an entry stands for beside the user does not matter. -/
theorem Installed.map {f : Breakpoint → Breakpoint} (h : c.Installed id v)
    (hf : ∀ b, (f b).userId = b.userId ∧ (f b).saved = b.saved ∧ (f b).enabled = b.enabled) :
    (Cell.mk c.byte (c.entry.map f)).Installed id v := by
  obtain ⟨b, hb, hid, hsaved, henabled⟩ := h.entry
  obtain ⟨hid', hsaved', henabled'⟩ := hf b
  refine ⟨h.byte, f b, ?_, hid'.trans hid, hsaved'.trans hsaved, henabled'.trans henabled⟩
  rw [hb]
  rfl

end Cell

/-! ### Work on breakpoints -/

/-- The entries stay in order. -/
structure Tidies {κ : Type} (p p' : Patched κ) : Prop where
  sorted : p.table.Sorted → p'.table.Sorted

instance {κ : Type} [Kernel κ] : PatchRelation (Tidies : Patched κ → Patched κ → Prop) where
  refl _ := ⟨id⟩
  trans h h' := ⟨fun hp => h'.sorted (h.sorted hp)⟩
  peek _ _ _ := ⟨id⟩
  poke _ _ _ _ := ⟨id⟩
  table p t h := by
    refine ⟨fun hp => ?_⟩
    cases h with
    | insert a => exact hp.insert a
    | modify a haddress _ => exact hp.modify haddress a
    | assign a =>
      let f : Breakpoint → Breakpoint := fun b => { b with userId := some (p.table.lastId + 1) }
      exact hp.modify (f := f) (fun _ => rfl) a
    | erase a => exact hp.erase a
    | clear => exact List.Pairwise.nil

namespace Patching

variable {κ : Type} [Kernel κ] [WordMemory κ]

/-- Breakpoints of the user that are in place stay so. -/
def Preserves (p p' : Patched κ) : Prop :=
  ∀ x id v, (p.cell x).Installed id v → (p'.cell x).Installed id v

/-- A change of an entry that matters only to step plans. -/
theorem preserves_modify (a : UInt64) {f : Breakpoint → Breakpoint} (p : Patched κ)
    (haddress : ∀ b, (f b).address = b.address)
    (hf : ∀ b, (f b).userId = b.userId ∧ (f b).saved = b.saved ∧ (f b).enabled = b.enabled) :
    Preserves p { p with table := p.table.modify a f } := by
  intro x id v h
  rw [Patched.cell]
  show (Cell.mk _ ((p.table.modify a f).find? x)).Installed id v
  rw [BreakpointTable.find?_modify haddress]
  split
  · exact h.map hf
  · exact h

theorem preserves_insert (a : UInt64) {p : Patched κ} (hp : p.table.Sorted) :
    Preserves p { p with table := p.table.insert a } := by
  intro x id v h
  obtain ⟨b, hb, -⟩ := h.entry
  have hfind : (p.table.insert a).find? x = p.table.find? x := by
    by_cases hx : x = a
    · have hb : p.table.find? a = some b := hx ▸ hb
      rw [hx, BreakpointTable.find?_insert_self hp, hb]
      rfl
    · exact BreakpointTable.find?_insert_of_ne p.table hx
  rw [Patched.cell]
  show (Cell.mk _ ((p.table.insert a).find? x)).Installed id v
  rw [hfind]
  exact h

/-- The end of a step plan leaves the breakpoints of the user in place. -/
theorem preserves_removePlanned (tid : Nat) (a : UInt64) {p : Patched κ} (hp : p.table.Sorted) :
    Ends (removePlanned tid a) p fun _ p' => Preserves p p' := by
  have hunset := preserves_modify a (f := fun b => { b with planned := false }) p (fun _ => rfl)
    fun _ => ⟨rfl, rfl, rfl⟩
  have hsorted := hp.modify (f := fun b => { b with planned := false }) (fun _ => rfl) a
  rw [removePlanned, release, ends_modifyTable_bind, ends_get_bind]
  split
  · exact hunset
  · rename_i b hb
    split
    · rename_i hidle
      -- An idle entry is none of the user.
      have hnone : ∀ id v, ¬(p.cell a).Installed id v := by
        intro id v h
        obtain ⟨b', hb', hid, -⟩ := (hunset a id v h).entry
        cases hb.symm.trans hb'
        rw [Breakpoint.isIdle, Breakpoint.isUser, hid] at hidle
        cases hidle
      refine (ends_disable tid a hsorted).bind_eq fun p' hlift => ?_
      intro x id v h
      have hx : x ≠ a := fun hx => hnone id v (hx ▸ h)
      have hcell : (p'.cell x).Installed id v := by
        rw [hlift.cell, atAddress, if_neg hx]
        exact hunset x id v h
      rw [Patched.cell]
      show (Cell.mk _ ((p'.table.erase a).find? x)).Installed id v
      rw [BreakpointTable.find?_erase, if_neg hx]
      exact hcell
    · exact hunset

/-- The beginning of a step plan leaves the breakpoints of the user in place. -/
theorem preserves_addPlanned (tid : Nat) (a : UInt64) {p : Patched κ} (hp : p.table.Sorted) :
    Ends (addPlanned tid a) p fun r p' => r = .ok () ∧ Preserves p p' := by
  rw [addPlanned, ends_modifyTable_bind, ends_modifyTable_bind]
  have hsorted := (hp.insert a).modify (f := fun b => { b with planned := true }) (fun _ => rfl) a
  refine (ends_enable tid a hsorted).mono ?_
  rintro r p' ⟨rfl, hplant⟩
  refine ⟨rfl, fun x id v h => ?_⟩
  have hset := preserves_modify a (f := fun b => { b with planned := true })
    { p with table := p.table.insert a } (fun _ => rfl) (fun _ => ⟨rfl, rfl, rfl⟩) x id v
    (preserves_insert a hp x id v h)
  rw [hplant.cell, atAddress]
  split
  · exact hset.plant
  · exact hset

end Patching

/-! ### Systems -/

section Systems

variable {κ : Type} [Kernel κ]

/-- The entries of the table stay in order. -/
structure Sorts (s s' : System κ) : Prop where
  sorted : s.tracer.breakpoints.Sorted → s'.tracer.breakpoints.Sorted

omit [Kernel κ] in
theorem sorts_of_moves {α : Type} {m : Patching κ α} (hm : Moves Tidies m) (s : System κ) :
    Ends m (Tracing.breakpointsOf s) fun _ p => Sorts s (Tracing.withBreakpoints s p) :=
  (hm (Tracing.breakpointsOf s)).mono fun _ _ h => ⟨h.sorted⟩

instance : RequestRelation (Sorts : System κ → System κ → Prop) where
  refl _ := ⟨id⟩
  trans h h' := ⟨fun hs => h'.sorted (h.sorted hs)⟩
  call _ _ _ := ⟨id⟩
  poll _ _ := ⟨id⟩
  tracer _ _ hbreakpoints _ _ := ⟨fun hs => (congrArg BreakpointTable.Sorted hbreakpoints).mpr hs⟩
  exit _ _ _ hbreakpoints _ :=
    ⟨fun _ => (congrArg BreakpointTable.Sorted hbreakpoints).mpr BreakpointTable.sorted_empty⟩
  image _ _ _ _ _ hbreakpoints _ :=
    ⟨fun _ => (congrArg BreakpointTable.Sorted hbreakpoints).mpr BreakpointTable.sorted_empty⟩
  unplan tid a := sorts_of_moves (Patching.moves_removePlanned tid a)
  enable tid a := sorts_of_moves (Patching.moves_enable tid a)
  disable tid a := sorts_of_moves (Patching.moves_disable tid a)
  work h := sorts_of_moves h.moves

variable [WordMemory κ] {A B : UInt64 → Prop} {s t s' : System κ}

/-- What there is at an address. -/
def System.cell (s : System κ) (x : UInt64) : Cell := (Tracing.breakpointsOf s).cell x

/-- While there is a process its breakpoints stay, and so does memory at some addresses. -/
structure Undisturbed (A : UInt64 → Prop) (s s' : System κ) : Prop extends
    Rests s s', Sorts s s' where
  memory : s'.tracer.process ≠ none → ∀ x, A x →
    WordMemory.memory s'.kernel x = WordMemory.memory s.kernel x

/-- While there is a process its breakpoints of the user at some addresses stay in place. -/
structure Spares (A : UInt64 → Prop) (s s' : System κ) : Prop extends Sorts s s' where
  process : s.tracer.process = none → s'.tracer.process = none
  installed : s'.tracer.process ≠ none → s.tracer.breakpoints.Sorted →
    ∀ x id v, A x → (s.cell x).Installed id v → (s'.cell x).Installed id v

/-- One breakpoint of the user is lifted, and all others at some addresses stay in place. -/
structure Mislays (A : UInt64 → Prop) (a : UInt64) (s s' : System κ) : Prop extends
    Spares (fun x => A x ∧ x ≠ a) s s' where
  lifted : s'.tracer.process ≠ none → s.tracer.breakpoints.Sorted → A a →
    ∀ id v, (s.cell a).Installed id v → (s'.cell a).Lifted id v

instance : StepRelation (Undisturbed A : System κ → System κ → Prop) where
  refl s := ⟨StepRelation.refl s, StepRelation.refl s, fun _ _ _ => rfl⟩
  trans h h' :=
    ⟨StepRelation.trans h.toRests h'.toRests, StepRelation.trans h.toSorts h'.toSorts,
      fun hu x hx => (h'.memory hu x hx).trans (h.memory (fun hnone => hu (h'.process hnone)) x hx)⟩

instance [Untouched κ A] : ProbeRelation (Undisturbed A : System κ → System κ → Prop) where
  probe c s hc :=
    ⟨ProbeRelation.probe c s hc, ProbeRelation.probe c s hc, fun _ x hx =>
      Untouched.memory_perform c s.kernel x (SystemCall.isPoke_of_isProbe hc) hx⟩

instance [Untouched κ A] : StepCallRelation (Undisturbed A : System κ → System κ → Prop) where
  stepCall tid signal s :=
    ⟨StepCallRelation.stepCall tid signal s, StepCallRelation.stepCall tid signal s, fun _ x hx =>
      Untouched.memory_perform (.step tid signal) s.kernel x rfl hx⟩

instance [Untouched κ A] : ModulesRelation (Undisturbed A : System κ → System κ → Prop) where
  modules s t hprocess hsnapshot hbreakpoints houtput hevents :=
    ⟨ModulesRelation.modules s t hprocess hsnapshot hbreakpoints houtput hevents,
      ModulesRelation.modules s t hprocess hsnapshot hbreakpoints houtput hevents,
      fun _ _ _ => rfl⟩

instance [Untouched κ A] : QuietRelation (Undisturbed A : System κ → System κ → Prop) where
  process s p p' hp hplan :=
    ⟨QuietRelation.process s p p' hp hplan, QuietRelation.process s p p' hp hplan, fun _ _ _ => rfl⟩
  exited s status hs :=
    ⟨QuietRelation.exited s status hs, QuietRelation.exited s status hs, fun _ _ _ => rfl⟩

theorem Undisturbed.cell (h : Undisturbed A s s') (hs' : s'.tracer.process ≠ none) {x : UInt64}
    (hx : A x) : s'.cell x = s.cell x := by
  show Cell.mk (WordMemory.memory s'.kernel x) (s'.tracer.breakpoints.find? x) = _
  rw [h.memory hs' x hx, h.breakpoints hs']
  rfl

theorem Undisturbed.spares (h : Undisturbed A s s') : Spares A s s' := by
  refine ⟨h.toSorts, h.process, fun hs' _ x id v hx hcell => ?_⟩
  rw [h.cell hs' hx]
  exact hcell

theorem Spares.mono (h : Spares A s s') (hBA : ∀ x, B x → A x) : Spares B s s' :=
  ⟨h.toSorts, h.process, fun hs' hsorted x id v hx => h.installed hs' hsorted x id v (hBA x hx)⟩

instance : StepRelation (Spares A : System κ → System κ → Prop) where
  refl s := ⟨StepRelation.refl s, id, fun _ _ _ _ _ _ h => h⟩
  trans {s t u} h h' := by
    refine ⟨StepRelation.trans h.toSorts h'.toSorts, fun hs => h'.process (h.process hs), ?_⟩
    intro hu hsorted x id v hx hcell
    have ht : t.tracer.process ≠ none := fun hnone => hu (h'.process hnone)
    exact h'.installed hu (h.sorted hsorted) x id v hx (h.installed ht hsorted x id v hx hcell)

/-- What spares breakpoints may come before one is lifted. -/
theorem Mislays.after {a : UInt64} (h : Spares A s t) (h' : Mislays A a t s') :
    Mislays A a s s' := by
  have hspares : Spares (fun x => A x ∧ x ≠ a) s t := h.mono fun _ hx => hx.1
  refine ⟨StepRelation.trans hspares h'.toSpares, fun hs' hsorted ha id v hcell => ?_⟩
  have ht : t.tracer.process ≠ none := fun hnone => hs' (h'.process hnone)
  exact h'.lifted hs' (h.sorted hsorted) ha id v (h.installed ht hsorted a id v ha hcell)

/-- Where no breakpoint of the user is in place, none is lifted. -/
theorem Mislays.spares {a : UInt64} (h : Mislays A a s s')
    (ha : ∀ id v, ¬(s.cell a).Installed id v) : Spares A s s' := by
  refine ⟨h.toSorts, h.process, fun hs' hsorted x id v hx hcell => ?_⟩
  exact h.installed hs' hsorted x id v ⟨hx, fun heq => ha id v (heq ▸ hcell)⟩ hcell

instance [Untouched κ A] : ProbeRelation (Spares A : System κ → System κ → Prop) where
  probe c s hc := (ProbeRelation.probe c s hc : Undisturbed A s _).spares

instance [Untouched κ A] : StepCallRelation (Spares A : System κ → System κ → Prop) where
  stepCall tid signal s := (StepCallRelation.stepCall tid signal s : Undisturbed A s _).spares

instance [Untouched κ A] : ModulesRelation (Spares A : System κ → System κ → Prop) where
  modules s t hprocess hsnapshot hbreakpoints houtput hevents :=
    (ModulesRelation.modules s t hprocess hsnapshot hbreakpoints houtput hevents :
      Undisturbed A s _).spares

instance [Untouched κ A] : QuietRelation (Spares A : System κ → System κ → Prop) where
  process s p p' hp hplan := (QuietRelation.process s p p' hp hplan : Undisturbed A s _).spares
  exited s status hs := (QuietRelation.exited s status hs : Undisturbed A s _).spares

theorem Cell.Installed.isUserAt {x : UInt64} {id : Nat} {v : UInt8}
    (h : (s.cell x).Installed id v) : s.tracer.breakpoints.isUserAt x = true := by
  obtain ⟨b, hb, hid, -⟩ := h.entry
  have hfind : s.tracer.breakpoints.find? x = some b := hb
  rw [BreakpointTable.isUserAt, hfind]
  exact congrArg Option.isSome hid

/-- Work on the breakpoints of a table in order that leaves those of the user in place. -/
theorem spares_patching {α : Type} {m : Patching κ α} (hm : Moves Tidies m)
    (h : s.tracer.breakpoints.Sorted → Ends m (Tracing.breakpointsOf s) fun _ p =>
      Patching.Preserves (Tracing.breakpointsOf s) p) :
    Ends m (Tracing.breakpointsOf s) fun _ p => Spares A s (Tracing.withBreakpoints s p) :=
  ⟨sorts_of_moves hm s, id, fun _ hsorted x id v _ => h hsorted x id v⟩

instance [Untouched κ A] : ReportRelation (Spares A : System κ → System κ → Prop) where
  shown s t hbreakpoints hprocess houtput := by
    refine Undisturbed.spares ⟨ShownRelation.shown s t hbreakpoints hprocess houtput,
      ShownRelation.shown s t hbreakpoints hprocess houtput, fun _ _ _ => rfl⟩
  unplan tid a s :=
    spares_patching (Patching.moves_removePlanned tid a)
      (Patching.preserves_removePlanned tid a (p := Tracing.breakpointsOf s))

/-! ### Steps over breakpoints -/

namespace Tracing

variable [Untouched κ A] {tid : Nat} {pc : UInt64}

omit [Untouched κ A] in
/-- Work on breakpoints that does the same at each address whatever there is. -/
theorem cells_patching (error : OsError → DebugError) {m : Patching κ Unit}
    {f : UInt64 → Cell → Cell} (hm : Ends m (breakpointsOf s) fun r p => r = .ok () ∧ Acts f (breakpointsOf s) p) :
    Ends (patching error m) s fun r t => r = .ok () ∧ t.tracer.process = s.tracer.process ∧
      t.tracer.breakpoints.Sorted ∧ ∀ x, t.cell x = f x (s.cell x) := by
  rw [ends_patching]
  refine hm.mono ?_
  rintro _ p ⟨rfl, hacts⟩
  exact ⟨rfl, rfl, hacts.sorted, hacts.cell⟩

/-- A step of a thread lifts the breakpoint under it, and plants it again if the step succeeds. -/
theorem cells_stepThread (hs : s.tracer.breakpoints.Sorted)
    (hpc : Ends (pcOf tid) s fun r _ => r = .ok pc) :
    Ends (stepThread tid) s fun r t => t.tracer.process ≠ none → ∀ x, A x →
      match r with
      | .ok _ => t.cell x = s.cell x ∨ t.cell x = (s.cell x).lift.plant
      | .error _ => t.cell x = atAddress pc Cell.lift x (s.cell x) := by
  have hlook : Ends (pcOf tid) s fun r s₁ => r = .ok pc ∧ Undisturbed A s s₁ ∧ SameTracer s s₁ :=
    hpc.and ((moves_pcOf tid s).and (moves_pcOf tid s))
  rw [stepThread]
  refine hlook.bind_eq ?_
  rintro s₁ ⟨h₁, ⟨htracer⟩⟩
  rw [ends_tracer_bind, htracer]
  split
  · have hs₁ : s₁.tracer.breakpoints.Sorted := h₁.sorted hs
    refine (cells_patching .ptrace (Patching.ends_disable tid pc hs₁)).bind_eq ?_
    rintro s₂ ⟨hprocess₂, hs₂, hcell₂⟩
    have hcell₃ : ∀ {s₃ : System κ}, Undisturbed A s₂ s₃ → s₃.tracer.process ≠ none → ∀ x, A x →
        s₃.cell x = atAddress pc Cell.lift x (s.cell x) := by
      intro s₃ h₃ hpresent x hx
      have hpresent₁ : s₁.tracer.process ≠ none :=
        fun hnone => hpresent (h₃.process (hprocess₂.trans hnone))
      rw [h₃.cell hpresent hx, hcell₂, h₁.cell hpresent₁ hx]
    refine (moves_singleStep (R := Undisturbed A) tid s₂).bind (fun stepped s₃ h₃ => ?_) ?_
    · rw [hasProcess, bind_assoc, ends_tracer_bind, pure_bind]
      rcases hp : s₃.tracer.process with _ | p
      · exact fun hpresent => absurd hp hpresent
      · have hpresent₃ : s₃.tracer.process ≠ none := by
          rw [hp]
          exact Option.some_ne_none p
        have hthread : Ends memoryThread s₃ fun _ t => s₃ = t :=
          (ends_memoryThread s₃).mono fun _ _ h => h.1
        refine hthread.bind ?_ ?_
        · rintro access _ rfl
          have hs₃ : s₃.tracer.breakpoints.Sorted := h₃.sorted hs₂
          refine (cells_patching .ptrace (Patching.ends_enable access pc hs₃)).bind_eq ?_
          rintro s₄ ⟨-, -, hcell₄⟩
          rw [ends_pure]
          intro _ x hx
          rw [hcell₄, hcell₃ h₃ hpresent₃ x hx, atAddress, atAddress]
          by_cases hat : x = pc
          · rw [if_pos hat, if_pos hat]
            exact Or.inr rfl
          · rw [if_neg hat, if_neg hat]
            exact Or.inl rfl
        · rintro e _ rfl
          exact hcell₃ h₃
    · exact fun e s₃ h₃ => hcell₃ h₃
  · rename_i henabled
    -- Nothing is lifted where no trap is in place.
    have hlift : ∀ x, atAddress pc Cell.lift x (s.cell x) = s.cell x := by
      intro x
      rw [atAddress]
      split
      · rename_i hx
        rw [hx]
        exact Cell.lift_of_not_trapped (eq_false_of_ne_true henabled)
      · rfl
    refine (moves_singleStep (R := Undisturbed A) tid s₁).mono fun r t h hpresent x hx => ?_
    have hcell : t.cell x = s.cell x := (StepRelation.trans h₁ h).cell hpresent hx
    cases r with
    | ok stepped => exact Or.inl hcell
    | error e => exact hcell.trans (hlift x).symm

/-- A step that fails loses the breakpoint under the thread, and no other. -/
theorem mislays_stepThread (hpc : Ends (pcOf tid) s fun r _ => r = .ok pc) :
    Ends (stepThread tid) s fun r t =>
      match r with
      | .ok _ => Spares A s t
      | .error _ => Mislays A pc s t := by
  have hmoves : Ends (stepThread tid) s fun _ t => Calm s t ∧ Sorts s t :=
    (moves_stepThread tid s).and (moves_stepThread tid s)
  refine (hmoves.and (Ends.imp fun hs => cells_stepThread (A := A) hs hpc)).mono ?_
  rintro r t ⟨⟨hcalm, hsorts⟩, hcells⟩
  cases r with
  | ok stepped =>
    refine ⟨hsorts, hcalm.process, fun ht hs x id v hx h => ?_⟩
    rcases hcells hs ht x hx with heq | heq
    · rw [heq]
      exact h
    · rw [heq]
      exact h.lift.plant
  | error e =>
    refine ⟨⟨hsorts, hcalm.process, fun ht hs x id v hx h => ?_⟩, fun ht hs ha id v h => ?_⟩
    · rw [hcells hs ht x hx.1, atAddress, if_neg hx.2]
      exact h
    · rw [hcells hs ht pc ha, atAddress, if_pos rfl]
      exact h.lift

/-- A step leaves the breakpoints of the user in place, unless it fails after the one under the
thread was lifted. -/
theorem spares_stepThread (tid : Nat) (s : System κ) : Ends (stepThread tid) s fun r t =>
    Spares A s t ∨ ∃ pc e, r = .error e ∧ Ends (pcOf tid) s (fun r _ => r = .ok pc) ∧
      Mislays A pc s t := by
  rcases hread : ((pcOf tid : Tracing κ UInt64).run.run s).1 with e | pc
  · have hpc : Ends (pcOf tid) s fun r t => r = .error e ∧ Spares A s t :=
      Ends.and hread (moves_pcOf tid s)
    exact hpc.bind (fun _ _ h => nomatch h.1) fun _ _ h => Or.inl h.2
  · refine (mislays_stepThread (A := A) hread).mono fun r t h => ?_
    cases r with
    | ok stepped => exact Or.inl h
    | error e => exact Or.inr ⟨pc, e, rfl, hread, h⟩

end Tracing

end Systems

end Tracer

end DebugAdapter
