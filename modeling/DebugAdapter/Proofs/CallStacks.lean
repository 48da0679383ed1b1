import DebugAdapter.Proofs.QuietLooks

/-!
# Call stacks and registers at a quiet process

The registers of a frame are found by unwinding the stack of their thread, as a call stack is. A call stack
may look at the modules first, and then describes the frames, for which images of modules are looked up:
beside the image for the innermost frame at most one for each other frame (`Displays`).

Main statements: `ends_registers` and `ends_callStack`.
-/

namespace DebugAdapter

open Debuggee
open Linux
open Machine (Frame RegisterFile)
open Operation

namespace Tracer

open ModuleRegistry (UpToDate)

variable {κ : Type} [Kernel κ]

/-! ### Registers of a frame -/

/-- The registers of a thread as they are in one of its frames. -/
def inFrame (regs : RegisterFile) (f : Frame) : RegisterFile :=
  ((regs.set .rip f.pc).set .rsp f.sp).set .rbp f.bp

/-- Registers as they are answered. -/
def listing (regs : RegisterFile) : List Register :=
  regs.toList.map fun x => ⟨x.1.name, x.2⟩

/-- In the innermost frame a thread has its own registers. -/
theorem inFrame_top (regs : RegisterFile) :
    inFrame regs ⟨regs.pc, regs.sp, regs.value .rbp⟩ = regs := by
  obtain ⟨value⟩ := regs
  refine congrArg RegisterFile.mk (funext fun r => ?_)
  simp only [RegisterFile.set, RegisterFile.pc, RegisterFile.sp]
  split
  · exact congrArg value (Eq.symm ‹_›)
  · split
    · exact congrArg value (Eq.symm ‹_›)
    · split
      · exact congrArg value (Eq.symm ‹_›)
      · rfl

theorem value_inFrame (regs : RegisterFile) (f : Frame) {r : Machine.Register}
    (hr : r ∉ [.rip, .rsp, .rbp]) : (inFrame regs f).value r = regs.value r := by
  simp only [List.mem_cons, List.not_mem_nil, or_false, not_or] at hr
  rw [inFrame, RegisterFile.value_set_ne _ hr.2.2, RegisterFile.value_set_ne _ hr.2.1,
    RegisterFile.value_set_ne _ hr.1]

/-- The thread that a number names. -/
def System.threadNamed (s : System κ) (tid : Nat) : Except DebugError Nat :=
  match s.tracer.process with
  | none => .error .notStarted
  | some p =>
    if p.isRunning then .error .processRunning
    else if p.hasThread (tid % halfLimit) then .ok (tid % halfLimit)
    else .error (.threadNotFound tid)

/-- The registers of the thread that a number names. -/
def System.registersNamed (s : System κ) (tid : Nat) : Except DebugError RegisterFile :=
  (s.threadNamed tid).bind s.registers

/-- The registers of a frame of a thread that has registers. -/
def System.registersIn (s : System κ) (k : Nat) (regs : RegisterFile) :
    Except DebugError (List Register) :=
  ((s.framesFrom regs)[k]?).elim (.error (.frameNotFound k)) fun f => .ok (listing (inFrame regs f))

/-- The frames of a thread start with the innermost one, and the others have a program counter. -/
theorem framesFrom_eq_cons (s : System κ) (regs : RegisterFile) :
    ∃ outer, s.framesFrom regs = ⟨regs.pc, regs.sp, regs.value .rbp⟩ :: outer ∧
      ∀ f ∈ outer, f.pc ≠ 0 := by
  have hwalk : Machine.Walk s.word? (s.layoutAt regs.pc) 127 (s.framesFrom regs) :=
    Machine.walk_callers 127 _ _
  refine ⟨_, rfl, fun f hf => ?_⟩
  obtain ⟨i, hi⟩ := List.mem_iff_getElem?.mp hf
  have hlt : i < (s.framesFrom regs).length :=
    Nat.lt_succ_of_lt (List.getElem?_eq_some_iff.mp hi).1
  exact (hwalk.next (List.getElem?_eq_getElem hlt) hi).2.1

namespace Tracing

variable {s : System κ}

omit [Kernel κ] in
theorem ends_stoppedThread (tid : Nat) (s : System κ) : Ends (stoppedThread tid) s fun r s' =>
    r = s.threadNamed tid ∧ s = s' := by
  rw [stoppedThread, stoppedProcess, System.threadNamed, bind_assoc]
  rcases hp : s.tracer.process with _ | p
  · rw [ends_process_bind_none hp]
    exact ⟨rfl, rfl⟩
  · rw [ends_process_bind hp]
    dsimp only
    cases p.isRunning with
    | true => exact ⟨rfl, rfl⟩
    | false =>
      show Ends (pure p >>= _) s _
      rw [pure_bind]
      cases p.hasThread (tid % halfLimit) with
      | true => exact ⟨rfl, rfl⟩
      | false => exact ⟨rfl, rfl⟩

/-- The frames of a thread whose registers were read before. -/
theorem ends_framesOf_registers (hstill : Tranquil s.kernel) {s₁ : System κ} (h₁ : Looked [] s s₁)
    {t : Nat} {regs : RegisterFile} (hregs : s.registers t = .ok regs) :
    Ends (framesOf t) s₁ fun r s' => r = .ok (s.framesFrom regs) ∧
      ∃ paths, (∀ p ∈ paths, p ∈ s.tracer.modules.pathsAt regs.pc) ∧ Looked paths s s' := by
  refine (ends_framesOf (h₁.tranquil hstill) t).mono ?_
  rintro r s' ⟨rfl, paths, hpaths, h₂⟩
  rw [h₁.registers hstill, hregs] at hpaths ⊢
  refine ⟨?_, paths, h₁.pathsAt regs.pc ▸ hpaths regs rfl, h₁.trans hstill h₂⟩
  rw [← h₁.framesFrom hstill (h₁.sameImages regs.pc)]
  rfl

/-- **The registers of a frame** are found in the memory that can be read. Besides memory, only the image
for the program counter of the thread is looked at. -/
theorem ends_registers (hstill : Tranquil s.kernel) (tid k : Nat) :
    Ends (registers tid k) s fun r s' => r = (s.registersNamed tid).bind (s.registersIn k) ∧
      ∃ paths, (∀ regs, s.registersNamed tid = .ok regs →
        ∀ p ∈ paths, p ∈ s.tracer.modules.pathsAt regs.pc) ∧ Looked paths s s' := by
  rw [registers]
  refine (ends_stoppedThread tid s).bind ?_ ?_
  · rintro t _ ⟨ht, rfl⟩
    rw [System.registersNamed, ← ht]
    refine (ends_registersOf t s).bind ?_ ?_
    · rintro regs s₁ ⟨hregs, h₁⟩
      show Ends _ s₁ fun r s' => r = (s.registers t).bind (s.registersIn k) ∧ ∃ paths,
        (∀ regs', s.registers t = .ok regs' → ∀ p ∈ paths, p ∈ s.tracer.modules.pathsAt regs'.pc) ∧
        Looked paths s s'
      rw [← hregs]
      show Ends _ s₁ fun r s' => r = s.registersIn k regs ∧ _
      split
      -- For the innermost frame nothing is unwound.
      · rename_i hk
        subst hk
        obtain ⟨outer, hframes, -⟩ := framesFrom_eq_cons s regs
        refine ⟨?_, [], fun _ _ => List.forall_mem_nil _, h₁⟩
        rw [System.registersIn, hframes]
        show _ = Except.ok (listing (inFrame regs _))
        rw [inFrame_top]
        rfl
      · refine (ends_framesOf_registers hstill h₁ hregs.symm).bind_eq ?_
        rintro s₂ ⟨paths, hpaths, h₂⟩
        have hown : ∀ regs', .ok regs = Except.ok (ε := DebugError) regs' →
            ∀ p ∈ paths, p ∈ s.tracer.modules.pathsAt regs'.pc := by
          rintro _ ⟨⟩
          exact hpaths
        rw [System.registersIn]
        rcases (s.framesFrom regs)[k]? with _ | f
        · exact ⟨rfl, paths, hown, h₂⟩
        · exact ⟨rfl, paths, hown, h₂⟩
    · rintro e s₁ ⟨hregs, h₁⟩
      show _ = (s.registers t).bind _ ∧ _
      rw [← hregs]
      exact ⟨rfl, [], fun _ _ => List.forall_mem_nil _, h₁⟩
  · rintro e _ ⟨ht, rfl⟩
    rw [System.registersNamed, ← ht]
    exact ⟨rfl, [], fun _ _ => List.forall_mem_nil _, .refl _⟩

/-! ### Surveys -/

/-- Modules may have been looked at again; the images of those that are there now were looked up under
their own paths. -/
structure Resurveyed (s s' : System κ) : Prop where
  kernel : s'.kernel = s.kernel
  process : s'.tracer.process = s.tracer.process
  breakpoints : s'.tracer.breakpoints = s.tracer.breakpoints
  distinct : Distinct s.tracer.modules.modules → Distinct s'.tracer.modules.modules
  capacity : s'.tracer.modules.images.capacity = s.tracer.modules.images.capacity
  upToDate : ∀ m ∈ s'.tracer.modules.modules, UpToDate (Kernel.file s.kernel) m.path s.tracer.modules →
    UpToDate (Kernel.file s.kernel) m.path s'.tracer.modules

theorem Resurveyed.refl (s : System κ) : Resurveyed s s :=
  ⟨rfl, rfl, rfl, id, rfl, fun _ _ => id⟩

theorem ends_syncModules_refresh (s : System κ) : Ends syncModules s fun _ s' =>
    s'.tracer.modules = s.tracer.modules ∨ ∃ main map, s'.tracer.modules =
      ((ModuleRegistry.refresh (Kernel.file s.kernel) main map).run.run s.tracer.modules).2 := by
  rw [syncModules, ends_tracer_bind]
  split
  · exact .inl rfl
  · rename_i p hp
    rw [ends_files_bind]
    show Ends (onModules (ModuleRegistry.refresh _ _ _).run >>= _) s _
    rw [ends_onModules_bind]
    split
    · exact .inr ⟨_, _, rfl⟩
    · refine (ends_sendChanges _ _).mono fun _ s' h => ?_
      rw [h.2]
      exact .inr ⟨_, _, rfl⟩

theorem ends_syncModules_resurveyed (s : System κ) : Ends syncModules s fun r s' =>
    r = .ok () ∧ Resurveyed s s' := by
  -- One says which modules are there now, the other one which images were looked up for them.
  refine ((ends_syncModules_synced s).and (ends_syncModules_refresh s)).mono ?_
  rintro r s' ⟨⟨hr, hsynced⟩, hrefresh⟩
  refine ⟨hr, ?_⟩
  cases hsynced with
  | unread _ heq => exact heq ▸ Resurveyed.refl s
  | read _ hsurveyed _ heq =>
    subst heq
    refine ⟨rfl, rfl, rfl, fun _ => hsurveyed.distinct, ?_, fun m hm hupToDate => ?_⟩
    · rcases hrefresh with hsame | ⟨main, map, hnext⟩
      · exact congrArg (·.images.capacity) hsame
      · obtain ⟨paths, himages, -⟩ := ModuleRegistry.refresh_images (Kernel.file s.kernel) main map
          s.tracer.modules
        rw [hnext, himages, ModuleRegistry.capacity_lookUpAll]
    · rcases hrefresh with hsame | ⟨main, map, hnext⟩
      · exact hsame ▸ hupToDate
      · obtain ⟨paths, himages, hpaths⟩ := ModuleRegistry.refresh_images (Kernel.file s.kernel) main map
          s.tracer.modules
        rw [← hnext] at himages hpaths
        intro image hmem
        rw [himages] at hmem
        exact hupToDate.lookUpAll (hpaths m hm) image hmem

/-! ### Call stacks -/

theorem ends_describeFrame (isInnermost : Bool) (f : Frame) (s : System κ) :
    Ends (describeFrame isInnermost f) s fun r s' => ∃ g, r = .ok g ∧ g.pc = f.pc ∧
      Looked (s.tracer.modules.pathsAt (if isInnermost then f.pc else f.pc - 1)) s s' := by
  refine (ends_symbolize _ s).bind_eq fun s₁ h₁ => ?_
  rw [ends_tracer_bind]
  exact ⟨_, rfl, rfl, h₁⟩

/-- Each outer frame is described by its program counter, and at most one image is looked up for it. -/
theorem ends_describeFrames (outer : List Frame) : ∀ s : System κ, Tranquil s.kernel →
    Ends (outer.mapM (describeFrame false)) s fun r s' =>
      ∃ gs, r = .ok gs ∧ gs.map (·.pc) = outer.map (·.pc) ∧
      ∃ paths, paths.length ≤ outer.length ∧
        (∀ p ∈ paths, ∃ m ∈ s.tracer.modules.modules, m.path = p) ∧ Looked paths s s' := by
  induction outer with
  | nil => exact fun s _ => ⟨[], rfl, rfl, [], Nat.le_refl 0, List.forall_mem_nil _, .refl s⟩
  | cons f outer ih =>
    intro s hstill
    rw [List.mapM_cons]
    refine (ends_describeFrame false f s).bind_ok ?_
    rintro g s₁ ⟨hpc, h₁⟩
    refine (ih s₁ (h₁.tranquil hstill)).bind_ok ?_
    rintro gs s₂ ⟨hpcs, paths, hlength, hpaths, h₂⟩
    refine ⟨g :: gs, rfl, congrArg₂ List.cons hpc hpcs, _, ?_, ?_, h₁.trans hstill h₂⟩
    · have hone := s.tracer.modules.length_pathsAt_le (if false then f.pc else f.pc - 1)
      rw [List.length_append, List.length_cons]
      omega
    · refine List.forall_mem_append.mpr ⟨fun p hp => ?_, fun p hp => ?_⟩
      · obtain ⟨m, -, hm, hpath⟩ := ModuleRegistry.exists_of_mem_pathsAt hp
        exact ⟨m, hm, hpath⟩
      · rw [← h₁.modules]
        exact hpaths p hp

/-- The innermost frame is described first. -/
theorem ends_describeStack (top : Frame) (outer : List Frame) {s : System κ}
    (hstill : Tranquil s.kernel) :
    Ends (do
        let innermost ← describeFrame true top
        let others ← outer.mapM (describeFrame false)
        return innermost :: others : Tracing κ (List StackFrame)) s fun r s' =>
      ∃ gs, r = .ok gs ∧ gs.map (·.pc) = (top :: outer).map (·.pc) ∧
      ∃ after, after.length ≤ outer.length ∧
        (∀ p ∈ after, ∃ m ∈ s.tracer.modules.modules, m.path = p) ∧
        Looked (s.tracer.modules.pathsAt top.pc ++ after) s s' := by
  refine (ends_describeFrame true top s).bind_ok ?_
  rintro innermost s₁ ⟨hpc, h₁⟩
  refine (ends_describeFrames outer s₁ (h₁.tranquil hstill)).bind_ok ?_
  rintro others s₂ ⟨hpcs, after, hlength, hafter, h₂⟩
  refine ⟨innermost :: others, rfl, congrArg₂ List.cons hpc hpcs, after, hlength, ?_,
    h₁.trans hstill h₂⟩
  rw [← h₁.modules]
  exact hafter

/-- What a call stack shows: frames as they are found once the modules are known. Before the frames are
described only the image for the innermost one is looked up; it is described first, and at most one image is
looked up for each of the others. -/
structure Displays (s₁ : System κ) (regs : RegisterFile) (frames : List StackFrame) (s' : System κ) :
    Prop where
  pcs : frames.map (·.pc) = (s₁.framesFrom regs).map (·.pc)
  looked : ∃ before after, (∀ p ∈ before, p ∈ s₁.tracer.modules.pathsAt regs.pc) ∧
    after.length < frames.length ∧ (∀ p ∈ after, ∃ m ∈ s₁.tracer.modules.modules, m.path = p) ∧
    Looked (before ++ (s₁.tracer.modules.pathsAt regs.pc ++ after)) s₁ s'

/-- How a call stack ends once the modules are known: it fails only without registers. -/
structure Answers (s₁ : System κ) (regs : Except DebugError RegisterFile)
    (r : Except DebugError (List StackFrame)) (s' : System κ) : Prop where
  failed : ∀ e, regs = .error e → r = .error e ∧ ∃ paths, Looked paths s₁ s'
  shown : ∀ regs', regs = .ok regs' → ∃ frames, r = .ok frames ∧ Displays s₁ regs' frames s'

theorem ends_framesOf_describe {s : System κ} (hstill : Tranquil s.kernel) (t : Nat)
    {describe : List Frame → Tracing κ (List StackFrame)}
    (hdescribe : ∀ top outer, describe (top :: outer) = do
      let innermost ← describeFrame true top
      let others ← outer.mapM (describeFrame false)
      return innermost :: others) :
    Ends (framesOf t >>= describe) s (Answers s (s.registers t)) := by
  rcases hregs : s.registers t with e | regs
  · refine (ends_framesOf hstill t).bind ?_ ?_
    · rintro fs s₁ ⟨hfs, -⟩
      rw [hregs] at hfs
      cases hfs
    · rintro e' s₁ ⟨he, paths, -, h₁⟩
      rw [hregs] at he
      cases he
      refine ⟨?_, fun _ h => by cases h⟩
      rintro _ ⟨⟩
      exact ⟨rfl, paths, h₁⟩
  · refine (ends_framesOf_registers hstill (.refl s) hregs).bind_eq ?_
    rintro s₁ ⟨before, hbefore, h₁⟩
    obtain ⟨outer, hframes, -⟩ := framesFrom_eq_cons s regs
    rw [hframes, hdescribe]
    refine (ends_describeStack _ outer (h₁.tranquil hstill)).mono ?_
    rintro _ s' ⟨frames, rfl, hpcs, after, hlength, hafter, h₂⟩
    refine ⟨(fun _ h => by cases h), ?_⟩
    rintro _ ⟨⟩
    have hcount := congrArg List.length hpcs
    rw [List.length_map, List.length_map] at hcount
    rw [h₁.modules] at hafter
    have hlooked := h₁.trans hstill h₂
    rw [h₁.pathsAt] at hlooked
    exact ⟨frames, rfl, hframes ▸ hpcs, before, after, hbefore,
      hcount ▸ Nat.lt_succ_of_le hlength, hafter, hlooked⟩

/-- **A call stack** shows the frames that are found in the memory that can be read. The modules may have
been looked at again before. -/
theorem ends_callStack {x : System κ} (hstill : Tranquil x.kernel) (tid : Nat) :
    Ends (callStack tid) x fun r y => ∃ x₁, Resurveyed x x₁ ∧ Answers x₁ (x.registersNamed tid) r y := by
  rw [callStack]
  refine (ends_stoppedThread tid x).bind ?_ ?_
  · rintro t _ ⟨ht, rfl⟩
    have hnamed : x.registersNamed tid = x.registers t := by
      rw [System.registersNamed, ← ht]
      rfl
    rw [hnamed, ends_tracer_bind]
    extract_lets describe
    have hdescribe : ∀ u x₁, Resurveyed x x₁ → Ends (describe u) x₁ fun r y =>
        ∃ x₁, Resurveyed x x₁ ∧ Answers x₁ (x.registers t) r y := by
      intro u x₁ h₁
      have hregs : x.registers t = x₁.registers t := by
        rw [System.registers, System.registers, h₁.kernel]
      rw [hregs]
      exact (ends_framesOf_describe (h₁.kernel.symm ▸ hstill) t fun _ _ => rfl).mono
        fun _ _ h => ⟨x₁, h₁, h⟩
    -- The modules are looked at only if none are known.
    split
    · exact (ends_syncModules_resurveyed x).bind_eq (hdescribe ())
    · exact hdescribe () x (.refl x)
  · rintro e _ ⟨ht, rfl⟩
    have hnamed : x.registersNamed tid = .error e := by
      rw [System.registersNamed, ← ht]
      rfl
    rw [hnamed]
    refine ⟨x, .refl x, ?_, fun _ h => by cases h⟩
    rintro _ ⟨⟩
    exact ⟨rfl, [], .refl x⟩

end Tracing

end Tracer

end DebugAdapter
