import DebugAdapter.Proofs.BreakpointRequests
import DebugAdapter.Proofs.PatchTransparency
import DebugAdapter.Proofs.ProcessImages

/-!
# Armed tables

Without step plans, and while no thread steps over a patch, every entry of a breakpoint table is a
breakpoint of the user with its trap in place: the table is `Armed`. Requests about breakpoints keep
it so and change the ids of the user in the obvious way, if memory can be accessed and threads go on
when they are told to.
-/

namespace DebugAdapter

open Debuggee
open Linux
open Operation

/-- A kernel that lets a thread go on unless the thread is gone. -/
class Linux.Resumes (κ : Type) [Kernel κ] : Prop where
  noProcess_of_error : ∀ (tid : Nat) (signal : Option Signal) (k : κ) (e : OsError),
    (Kernel.perform (.resume tid signal) k).1 = .error e → e = .noProcess

instance {κ : Type} [Kernel κ] [Linux.Resumes κ] : Linux.Resumes (Counted κ) where
  noProcess_of_error tid signal k := Linux.Resumes.noProcess_of_error tid signal k.kernel

namespace Tracer

/-! ### Tables -/

namespace BreakpointTable

/-- Every entry is a breakpoint of the user with its trap in place. -/
def Armed (t : BreakpointTable) : Prop :=
  ∀ x b, t.find? x = some b → b.isUser = true ∧ b.enabled = true ∧ b.planned = false

/-- The trap of a breakpoint of the user is in place at an address. -/
def Trapped (t : BreakpointTable) (x : UInt64) : Prop :=
  ∃ b, t.find? x = some b ∧ b.isUser = true ∧ b.enabled = true

/-- An armed table stays armed, with the same breakpoints. -/
structure Steady (t t' : BreakpointTable) : Prop where
  armed : t.Armed → t'.Armed
  userAt : t.Armed → ∀ x, t'.userAt x = t.userAt x

instance : StepRelation Steady where
  refl _ := ⟨id, fun _ _ => rfl⟩
  trans h h' :=
    { armed := fun ht => h'.armed (h.armed ht)
      userAt := fun ht x => (h'.userAt (h.armed ht) x).trans (h.userAt ht x) }

theorem armed_of_find? {t t' : BreakpointTable} (h : t.Armed) (hfind : ∀ x, t'.find? x = t.find? x) :
    t'.Armed := by
  intro x b hb
  rw [hfind] at hb
  exact h x b hb

theorem armed_of_entries {t : BreakpointTable} (h : t.entries = []) : t.Armed := by
  intro x b hb
  rw [find?, h] at hb
  cases hb

/-- In an armed table the traps are at the breakpoints of the user. -/
theorem Armed.trapped_iff {t : BreakpointTable} (h : t.Armed) (x : UInt64) :
    t.Trapped x ↔ ∃ id, t.userAt x = some id := by
  constructor
  · rintro ⟨b, hb, huser, -⟩
    obtain ⟨id, hid⟩ := Option.isSome_iff_exists.mp huser
    refine ⟨id, ?_⟩
    rw [userAt, hb]
    exact hid
  · rintro ⟨id, hid⟩
    obtain ⟨b, hb, -⟩ := Option.bind_eq_some_iff.mp hid
    obtain ⟨huser, henabled, -⟩ := h x b hb
    exact ⟨b, hb, huser, henabled⟩

/-- A breakpoint is set: it is armed, and an id that was given out for its address before is given
out again. -/
structure Sets (a : UInt64) (id : Nat) (t t' : BreakpointTable) : Prop where
  armed : t'.Armed
  userAt : ∀ x, t'.userAt x = if x = a then some id else t.userAt x
  same : ∀ i, t.userAt a = some i → i = id

/-- A breakpoint is removed. -/
structure Removes (a : UInt64) (t t' : BreakpointTable) : Prop where
  armed : t'.Armed
  userAt : ∀ x, t'.userAt x = if x = a then none else t.userAt x

end BreakpointTable

namespace Patching

open BreakpointTable

variable {κ : Type} [Kernel κ]

/-! ### Patches -/

/-- Once a breakpoint is enabled, its trap is in place. -/
theorem enabled_of_enable (tid : Nat) (a : UInt64) (p : Patched κ) :
    Ends (enable tid a) p fun r p' => r = .ok () →
      ∀ b, p'.table.find? a = some b → b.enabled = true := by
  rw [enable, ends_get_bind]
  rcases hb : p.table.find? a with _ | b
  · intro _ b hb'
    cases hb.symm.trans hb'
  · dsimp only
    split
    · rename_i henabled
      intro _ b' hb'
      cases hb.symm.trans hb'
      exact henabled
    · refine Ends.bind (P := fun _ _ => True) True.intro ?_ fun _ _ _ => by rintro ⟨⟩
      intro word p₁ _
      rw [ends_modifyTable_bind]
      refine Ends.bind (P := fun _ _ => True) True.intro ?_ fun _ _ _ => by rintro ⟨⟩
      intro _ p₂ _
      rw [ends_modifyTable]
      intro _ b' hb'
      rw [find?_modify_self (f := fun b => { b with enabled := true }) fun _ => rfl] at hb'
      obtain ⟨b₂, -, rfl⟩ := Option.map_eq_some_iff.mp hb'
      rfl

/-- The end of a step plan means nothing to an armed table. -/
theorem ends_removePlanned (tid : Nat) (a : UInt64) {p : Patched κ} (hp : p.table.Armed) :
    Ends (removePlanned tid a) p fun _ p' => Steady p.table p'.table := by
  let t := p.table.modify a fun b => { b with planned := false }
  have hfind : ∀ x, t.find? x = p.table.find? x := by
    intro x
    rw [find?_modify (f := fun b => { b with planned := false }) fun _ => rfl]
    split
    · rcases hb : p.table.find? x with _ | b
      · rfl
      · obtain ⟨-, -, hplanned⟩ := hp x b hb
        show some { b with planned := false } = some b
        rw [← hplanned]
    · rfl
  have hsteady : Steady p.table t :=
    ⟨fun h => armed_of_find? h hfind, fun _ x => by rw [userAt, userAt, hfind]⟩
  rw [removePlanned, release, ends_modifyTable_bind, ends_get_bind]
  split
  · exact hsteady
  · rename_i b hb
    obtain ⟨huser, -⟩ := hsteady.armed hp a b hb
    rw [Breakpoint.isIdle, huser]
    exact hsteady

section ExecCount

variable [ExecCount κ]

theorem steady_removePlanned (tid : Nat) (a : UInt64) :
    Moves (Patches Steady) (removePlanned tid a : Patching κ Unit) := by
  intro p
  have hpatches : Patches Extends p _ := moves_removePlanned tid a p
  refine ⟨hpatches.execs, fun hwf => ⟨(hpatches.table hwf).1, ?_, ?_⟩⟩
  · exact fun harmed => (ends_removePlanned tid a harmed).armed harmed
  · exact fun harmed => (ends_removePlanned tid a harmed).userAt harmed

end ExecCount

/-- The entry of a breakpoint that was set, if the table was armed. -/
theorem ends_addUser_entry (tid : Nat) (a : UInt64) {p : Patched κ} (hsorted : p.table.Sorted)
    (hp : p.table.Armed) : Ends (addUser tid a) p fun r p' =>
      (∀ info, r = .ok info → ∀ b, p'.table.find? a = some b →
        b.enabled = true ∧ b.planned = false) ∧
      ∀ i info, p.table.userAt a = some i → r = .ok info → i = info.id := by
  have hplanned : ((p.table.find? a).getD (.new a)).planned = false := by
    rcases hb : p.table.find? a with _ | b
    · rfl
    · exact (hp a b hb).2.2
  rw [addUser, ends_modifyTable_bind]
  refine ((toggles_enable a tid _).and (enabled_of_enable tid a _)).bind ?_ ?_
  · rintro _ p₁ ⟨htoggles, henabled⟩
    obtain ⟨f, hf, hmodify⟩ := htoggles.modify
    have hfind : p₁.table.find? a = some (f ((p.table.find? a).getD (.new a))) := by
      rw [hmodify, find?_modify_self fun b => (hf b).1, find?_insert_self hsorted]
      rfl
    have hentry := henabled rfl _ hfind
    have huser : (p₁.table.find? a).bind (·.userId) = p.table.userAt a := by
      rw [hfind, Option.bind_some, (hf _).2.1, userAt]
      rcases p.table.find? a with _ | b
      · rfl
      · rfl
    rw [ends_get_bind]
    dsimp only
    rw [huser]
    rcases p.table.userAt a with _ | id
    · dsimp only
      rw [ends_modifyTable_bind]
      refine ⟨?_, by rintro _ _ ⟨⟩⟩
      intro _ _ b hb
      have hassigned := find?_assign p₁.table a a
      rw [if_pos rfl, hfind] at hassigned
      cases hassigned.symm.trans hb
      exact ⟨hentry, (hf _).2.2.trans hplanned⟩
    · refine ⟨?_, ?_⟩
      · intro _ _ b hb
        cases hfind.symm.trans hb
        exact ⟨hentry, (hf _).2.2.trans hplanned⟩
      · rintro i _ ⟨⟩ ⟨⟩
        rfl
  · exact fun _ _ _ => ⟨by rintro _ ⟨⟩, by rintro _ _ _ ⟨⟩⟩

section Memory

variable [WordMemory κ]

/-- Setting a breakpoint in an armed table succeeds. -/
theorem ends_addUser_armed (tid : Nat) (a : UInt64) {p : Patched κ} (hsorted : p.table.Sorted)
    (hp : p.table.Armed) : Ends (addUser tid a) p fun r p' =>
      ∃ id, r = .ok ⟨id, a⟩ ∧ Sets a id p.table p'.table := by
  have hhides := hides_addUser tid a hsorted
  have helsewhere := elsewhere_addUser a tid p
  have huser := ends_addUser tid a hsorted
  refine ((((hhides.and helsewhere).and huser).and (ends_addUser_entry tid a hsorted hp)).mono ?_)
  rintro r p' ⟨⟨⟨⟨⟨id, rfl⟩, -⟩, helsewhere⟩, huser⟩, hentry, hsame⟩
  have hid : p'.table.userAt a = some id := huser ⟨id, a⟩ rfl
  refine ⟨id, rfl, ?_, ?_, fun i hi => hsame i ⟨id, a⟩ hi rfl⟩
  · intro x b hb
    by_cases hx : x = a
    · subst hx
      obtain ⟨henabled, hplanned⟩ := hentry ⟨id, x⟩ rfl b hb
      rw [userAt, hb] at hid
      have hisUser : b.isUser = true := by
        rw [Breakpoint.isUser, show b.userId = some id from hid]
        rfl
      exact ⟨hisUser, henabled, hplanned⟩
    · rw [helsewhere.find? x hx] at hb
      exact hp x b hb
  · intro x
    split
    · rename_i hx
      rw [hx, hid]
    · rename_i hx
      rw [userAt, userAt, helsewhere.find? x hx]

theorem removes_of_find? {t t' : BreakpointTable} {a : UInt64} (h : t.Armed)
    (hgone : t'.find? a = none) (hfind : ∀ x, x ≠ a → t'.find? x = t.find? x) : Removes a t t' := by
  refine ⟨?_, ?_⟩
  · intro x b hb
    by_cases hx : x = a
    · subst hx
      cases hgone.symm.trans hb
    · rw [hfind x hx] at hb
      exact h x b hb
  · intro x
    split
    · rename_i hx
      rw [hx, userAt, hgone]
      rfl
    · rename_i hx
      rw [userAt, userAt, hfind x hx]

/-- Ending the use of an entry in an armed table removes it. -/
theorem ends_release_armed (tid : Nat) (a : UInt64) {p : Patched κ} (hsorted : p.table.Sorted)
    (hp : p.table.Armed) : Ends (release tid a fun b => { b with userId := none }) p fun r p' =>
      r = .ok () ∧ p'.table.Sorted ∧ Removes a p.table p'.table := by
  have hhides := hides_release tid a (fun b => { b with userId := none })
    (fun _ => ⟨rfl, rfl, rfl⟩) hsorted
  have helsewhere := elsewhere_release a tid (f := fun b => { b with userId := none })
    (fun _ => rfl) p
  have hgone : Ends (release tid a fun b => { b with userId := none }) p fun r p' =>
      r = .ok () → p'.table.find? a = none := by
    rw [release, ends_modifyTable_bind, ends_get_bind]
    split
    · rename_i hnone
      exact fun _ => hnone
    · rename_i b hb
      rw [find?_modify_self (f := fun b => { b with userId := none }) fun _ => rfl] at hb
      obtain ⟨b₀, hb₀, rfl⟩ := Option.map_eq_some_iff.mp hb
      obtain ⟨-, -, hplanned⟩ := hp a b₀ hb₀
      have hidle : Breakpoint.isIdle { b₀ with userId := none } = true := by
        rw [Breakpoint.isIdle, Breakpoint.isUser, hplanned]
        rfl
      rw [if_pos hidle]
      refine Ends.bind (P := fun _ _ => True) True.intro ?_ fun _ _ _ => by rintro ⟨⟩
      intro _ p₁ _
      rw [ends_modifyTable, find?_erase, if_pos rfl]
      exact fun _ => rfl
  refine ((hhides.and helsewhere).and hgone).mono ?_
  rintro r p' ⟨⟨⟨rfl, hhides⟩, helsewhere⟩, hgone⟩
  exact ⟨rfl, hhides.sorted, removes_of_find? hp (hgone rfl) helsewhere.find?⟩

/-- Removing a breakpoint from an armed table succeeds. -/
theorem ends_removeUser_armed (tid id : Nat) {p : Patched κ} (hwf : p.table.WellFormed)
    (hp : p.table.Armed) : Ends (removeUser tid id) p fun r p' =>
      (∃ a, p.table.userAt a = some id ∧ r = .ok true ∧ Removes a p.table p'.table) ∨
      ((∀ a, p.table.userAt a ≠ some id) ∧ r = .ok false ∧ p' = p) := by
  rw [removeUser, ends_get_bind]
  split
  · rename_i hnone
    exact Or.inr ⟨fun a ha => findUser?_of_userAt ha hnone, rfl, rfl⟩
  · rename_i b hb
    obtain ⟨-, hid⟩ := userAt_of_findUser? hwf.sorted hb
    refine (ends_release_armed tid b.address hwf.sorted hp).bind_eq ?_
    rintro p' ⟨-, h⟩
    exact Or.inl ⟨b.address, hid, rfl, h⟩

/-- Removing every breakpoint from an armed table leaves none. -/
theorem ends_removeAllUser_armed (tid : Nat) {p : Patched κ} (hsorted : p.table.Sorted)
    (hp : p.table.Armed) : Ends (removeAllUser tid) p fun r p' =>
      r = .ok () ∧ p'.table.Armed ∧ ∀ x, p'.table.userAt x = none := by
  have hforM : ∀ (as : List UInt64) {q : Patched κ}, q.table.Sorted → q.table.Armed →
      Ends (as.forM fun a => release tid a fun b => { b with userId := none }) q fun r p' =>
        r = .ok () ∧ p'.table.Armed ∧
          ∀ x, p'.table.userAt x = if x ∈ as then none else q.table.userAt x := by
    intro as
    induction as with
    | nil => exact fun _ hq => ⟨rfl, hq, fun x => (if_neg List.not_mem_nil).symm⟩
    | cons a r ih =>
      intro q hsorted hq
      refine (ends_release_armed tid a hsorted hq).bind_eq ?_
      rintro q₁ ⟨hsorted₁, h₁⟩
      refine (ih hsorted₁ h₁.armed).mono ?_
      rintro _ p' ⟨rfl, harmed, huser⟩
      refine ⟨rfl, harmed, fun x => ?_⟩
      rw [huser, h₁.userAt]
      by_cases hx : x = a
      · simp [hx]
      · simp [hx]
  rw [removeAllUser, ends_get_bind]
  refine (hforM _ hsorted hp).mono ?_
  rintro r p' ⟨rfl, harmed, huser⟩
  refine ⟨rfl, harmed, fun x => ?_⟩
  rw [huser]
  split
  · rfl
  · rename_i hx
    rcases hid : p.table.userAt x with _ | id
    · rfl
    · obtain ⟨b, hb, hbid⟩ := Option.bind_eq_some_iff.mp hid
      refine absurd (List.mem_map.mpr ⟨(id, x), List.mem_filterMap.mpr ⟨b, mem_of_find? hb, ?_⟩, rfl⟩) hx
      rw [hbid, address_of_find? hb]
      rfl

end Memory

end Patching

/-! ### Requests -/

namespace Tracing

open BreakpointTable

variable {κ α : Type} [Kernel κ]

section Resumes

variable [Resumes κ]

theorem ends_continueThread (tid : Nat) (s : System κ) :
    Ends (continueThread tid) s fun r _ => r = .ok () := by
  rw [continueThread, ends_tracer_bind]
  dsimp only
  split
  · refine Ends.bind_ok (P := fun _ _ => True) ⟨_, rfl, True.intro⟩ fun signal s₁ _ => ?_
    rw [ends_attempt_bind]
    have hresumes := Resumes.noProcess_of_error tid signal s₁.kernel
    rcases hresume : (Kernel.perform (.resume tid signal) s₁.kernel).1 with e | _
    · cases hresumes e hresume
      rfl
    · rfl
  · rfl

theorem ends_goOn {s : System κ} (hs : s.tracer.process ≠ none) (wasRunning : Bool) :
    Ends (goOn wasRunning) s fun r _ => r = .ok () := by
  have hforM : ∀ (tids : List Nat) (s : System κ),
      Ends (tids.forM continueThread) s fun r _ => r = .ok () := by
    intro tids
    induction tids with
    | nil => exact fun s => rfl
    | cons tid r ih =>
      intro s
      exact Ends.bind_eq (P := fun _ => True) ⟨ends_continueThread tid s, True.intro⟩
        fun s₁ _ => ih s₁
  cases wasRunning with
  | false => rfl
  | true =>
    obtain ⟨p, hp⟩ := Option.ne_none_iff_exists'.mp hs
    show Ends (process >>= fun p => p.threadIds.forM continueThread) s _
    rw [ends_process_bind hp]
    exact hforM _ s

/-- How a request about breakpoints goes if threads go on when they are told to. -/
inductive Settled (work : Nat → Tracing κ α) (s : System κ) : Except DebugError α → System κ → Prop
  /-- There is no access to memory. -/
  | refused {e : DebugError} {s' : System κ} : Ends access s (fun r _ => r = .error e) →
      Rests s s' → Settled work s (.error e) s'
  /-- The reply is that of the work. -/
  | done {tid : Nat} {s₁ s₂ s' : System κ} {r : Except DebugError α} :
      Ends access s (fun r _ => r = .ok tid) → s₁.tracer.breakpoints = s.tracer.breakpoints →
      Ends (work tid) s₁ (fun r' u => r' = r ∧ u = s₂) →
      (s'.tracer.process ≠ none → s'.tracer.breakpoints = s₂.tracer.breakpoints) →
      Settled work s r s'

theorem settled_withAllStopped {work : Nat → Tracing κ α}
    (hwork : ∀ tid s, Ends (work tid) s fun _ s' => s'.tracer.process = s.tracer.process)
    (s : System κ) : Ends (withAllStopped work) s (Settled work s) := by
  refine (course_withAllStopped (R := Rests) work s).mono ?_
  intro r s' hcourse
  cases hcourse with
  | refused haccess hrests => exact .refused (haccess.mono fun _ _ h => h.1) hrests
  | @done p tid s₁ s₂ s' result r _ haccess hrests hprocess hresult hgoOn hrests' =>
    have hs₂ : s₂.tracer.process ≠ none := by
      obtain ⟨-, rfl⟩ := hresult
      rw [hwork tid s₁]
      exact hprocess
    obtain ⟨hok, -, rfl | ⟨e, he, -⟩⟩ := (ends_goOn hs₂ p.isRunning).and hgoOn
    · exact .done (haccess.mono fun _ _ h => h.1) (hrests.breakpoints hprocess) hresult
        hrests'.breakpoints
    · cases hok.symm.trans he

omit [Kernel κ] [Resumes κ] in
theorem process_patching (error : OsError → DebugError) (m : Patching κ α) (s : System κ) :
    Ends (patching error m) s fun _ s' => s'.tracer.process = s.tracer.process := by
  rw [ends_patching]
  exact (rfl : Ends m (breakpointsOf s) fun _ p => (withBreakpoints s p).tracer.process = _)

variable [WordMemory κ] {s : System κ} (hwf : s.tracer.breakpoints.WellFormed)
  (harmed : s.tracer.breakpoints.Armed)

include hwf harmed

theorem ends_setBreakpoint_armed (a : UInt64) : Ends (setBreakpoint a) s fun r s' =>
    s'.tracer.process ≠ none →
      match r with
      | .ok info => Sets a info.id s.tracer.breakpoints s'.tracer.breakpoints
      | .error _ => s'.tracer.breakpoints = s.tracer.breakpoints := by
  refine (settled_withAllStopped (fun _ _ => process_patching _ _ _) s).mono ?_
  intro r s' hsettled hprocess
  cases hsettled with
  | refused _ hrests => exact hrests.breakpoints hprocess
  | @done tid s₁ s₂ _ r _ htable hwork htable' =>
    have hset : Ends (patching (fun _ => .memoryAccess a) (Patching.addUser tid a)) s₁ fun r u =>
        ∃ id, r = .ok ⟨id, a⟩ ∧ Sets a id s₁.tracer.breakpoints u.tracer.breakpoints := by
      rw [ends_patching]
      refine (Patching.ends_addUser_armed tid a (p := breakpointsOf s₁) ?_ ?_).mono ?_
      · exact (htable ▸ hwf : s₁.tracer.breakpoints.WellFormed).sorted
      · exact (htable ▸ harmed : s₁.tracer.breakpoints.Armed)
      · rintro r p ⟨id, rfl, hsets⟩
        exact ⟨id, rfl, hsets⟩
    obtain ⟨⟨id, hid, hsets⟩, hr, rfl⟩ := hset.and hwork
    cases hid.symm.trans hr
    rw [htable' hprocess, ← htable]
    exact hsets

theorem ends_removeAllBreakpoints_armed : Ends removeAllBreakpoints s fun r s' =>
    s'.tracer.process ≠ none →
      match r with
      | .ok _ => s'.tracer.breakpoints.Armed ∧ ∀ x, s'.tracer.breakpoints.userAt x = none
      | .error _ => s'.tracer.breakpoints = s.tracer.breakpoints := by
  refine (settled_withAllStopped (fun _ _ => process_patching _ _ _) s).mono ?_
  intro r s' hsettled hprocess
  cases hsettled with
  | refused _ hrests => exact hrests.breakpoints hprocess
  | @done tid s₁ s₂ _ r _ htable hwork htable' =>
    have hremove : Ends (patching .ptrace (Patching.removeAllUser tid)) s₁ fun r u =>
        r = .ok () ∧ u.tracer.breakpoints.Armed ∧ ∀ x, u.tracer.breakpoints.userAt x = none := by
      rw [ends_patching]
      refine (Patching.ends_removeAllUser_armed tid (p := breakpointsOf s₁) ?_ ?_).mono ?_
      · exact (htable ▸ hwf : s₁.tracer.breakpoints.WellFormed).sorted
      · exact (htable ▸ harmed : s₁.tracer.breakpoints.Armed)
      · rintro r p ⟨rfl, h⟩
        exact ⟨rfl, h⟩
    obtain ⟨⟨hid, h⟩, hr, rfl⟩ := hremove.and hwork
    cases hid.symm.trans hr
    rw [htable' hprocess]
    exact h

/-- Removing a breakpoint succeeds exactly if it is there and memory can be accessed. -/
theorem ends_removeBreakpoint_armed (id : Nat) : Ends (removeBreakpoint id) s fun r s' =>
    (r = .ok () ↔ (∃ a, s.tracer.breakpoints.userAt a = some id) ∧ Accessible s) ∧
    (s'.tracer.process ≠ none →
      match r with
      | .ok _ => ∃ a, s.tracer.breakpoints.userAt a = some id ∧
          Removes a s.tracer.breakpoints s'.tracer.breakpoints
      | .error _ => s'.tracer.breakpoints = s.tracer.breakpoints) := by
  have hprocess : ∀ (tid : Nat) (u : System κ), Ends (do
      if !(← patching .ptrace (Patching.removeUser tid id)) then throw (.breakpointNotFound id))
      u fun _ u' => u'.tracer.process = u.tracer.process := by
    intro tid u
    refine (process_patching .ptrace (Patching.removeUser tid id) u).bind ?_ fun _ _ h => h
    intro removed u' h
    cases removed with
    | true => exact h
    | false => exact h
  refine (settled_withAllStopped hprocess s).mono ?_
  intro r s' hsettled
  cases hsettled with
  | @refused e _ haccess hrests =>
    refine ⟨⟨nofun, ?_⟩, hrests.breakpoints⟩
    rintro ⟨-, tid, htid⟩
    cases haccess.symm.trans htid
  | @done tid s₁ s₂ _ r haccess htable hwork htable' =>
    have hwf₁ : s₁.tracer.breakpoints.WellFormed := htable ▸ hwf
    have harmed₁ : s₁.tracer.breakpoints.Armed := htable ▸ harmed
    have hremove : Ends (do
        if !(← patching .ptrace (Patching.removeUser tid id)) then throw (.breakpointNotFound id))
        s₁ fun r u =>
          (∃ a, s₁.tracer.breakpoints.userAt a = some id ∧ r = .ok () ∧
            Removes a s₁.tracer.breakpoints u.tracer.breakpoints) ∨
          ((∀ a, s₁.tracer.breakpoints.userAt a ≠ some id) ∧ (∃ e, r = .error e) ∧
            u.tracer.breakpoints = s₁.tracer.breakpoints) := by
      have hpatching : Ends (patching .ptrace (Patching.removeUser tid id)) s₁ fun r u =>
          (∃ a, s₁.tracer.breakpoints.userAt a = some id ∧ r = .ok true ∧
            Removes a s₁.tracer.breakpoints u.tracer.breakpoints) ∨
          ((∀ a, s₁.tracer.breakpoints.userAt a ≠ some id) ∧ r = .ok false ∧
            u.tracer.breakpoints = s₁.tracer.breakpoints) := by
        rw [ends_patching]
        refine (Patching.ends_removeUser_armed tid id (p := breakpointsOf s₁) hwf₁ harmed₁).mono ?_
        rintro r p (⟨a, ha, rfl, h⟩ | ⟨ha, rfl, rfl⟩)
        · exact Or.inl ⟨a, ha, rfl, h⟩
        · exact Or.inr ⟨ha, rfl, rfl⟩
      refine hpatching.bind ?_ ?_
      · rintro removed u (⟨a, ha, ⟨⟩, h⟩ | ⟨ha, ⟨⟩, h⟩)
        · exact Or.inl ⟨a, ha, rfl, h⟩
        · exact Or.inr ⟨ha, ⟨_, rfl⟩, h⟩
      · rintro e u (⟨a, ha, ⟨⟩, h⟩ | ⟨ha, ⟨⟩, h⟩)
    rw [htable] at hremove
    obtain ⟨⟨a, ha, hok, h⟩ | ⟨ha, ⟨e, he⟩, h⟩, hr, rfl⟩ := hremove.and hwork
    · cases hok.symm.trans hr
      refine ⟨⟨fun _ => ⟨⟨a, ha⟩, tid, haccess⟩, fun _ => rfl⟩, fun hpresent => ?_⟩
      rw [htable' hpresent]
      exact ⟨a, ha, h⟩
    · cases he.symm.trans hr
      refine ⟨⟨nofun, ?_⟩, fun hpresent => ?_⟩
      · rintro ⟨⟨a, ha'⟩, -⟩
        exact absurd ha' (ha a)
      · rw [htable' hpresent]
        exact h

end Resumes

end Tracing

end Tracer

end DebugAdapter
