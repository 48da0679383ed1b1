import DebugAdapter.Proofs.CallChains
import DebugAdapter.Proofs.KeptImages
import Mathlib.Logic.Relation

/-!
# Looks at a quiet process

A kernel is tranquil while reading memory and registers changes nothing of what can be read. Then the code and
the frames that a tracer finds are those of one and the same memory, whatever was read before, and all that
a look leaves is the images that it looked up (`Looked`).

Main statement: `ends_framesOf`.
-/

namespace DebugAdapter

open Debuggee
open Operation

namespace Linux

/-- A call that reads memory or registers. -/
def SystemCall.isRead : SystemCall → Bool
  | peek .. | getRegisters _ => true
  | _ => false

variable {κ : Type} [Kernel κ]

/-- A kernel before and after memory and registers were read. -/
def AfterReads : κ → κ → Prop :=
  Relation.ReflTransGen fun k k' => ∃ c : SystemCall, c.isRead = true ∧ k' = (Kernel.perform c k).2

/-- Memory, registers and files look the same. -/
structure LooksLike (k k' : κ) : Prop where
  answer : ∀ c : SystemCall, c.isRead = true → (Kernel.perform c k').1 = (Kernel.perform c k).1
  file : Kernel.file k' = Kernel.file k

/-- Reading changes nothing of what can be read. -/
def Tranquil (k : κ) : Prop := ∀ k', AfterReads k k' → LooksLike k k'

theorem AfterReads.refl (k : κ) : AfterReads k k := Relation.ReflTransGen.refl

theorem AfterReads.trans {k k₁ k₂ : κ} (h : AfterReads k k₁) (h' : AfterReads k₁ k₂) : AfterReads k k₂ :=
  Relation.ReflTransGen.trans h h'

theorem reads_perform {c : SystemCall} (hc : c.isRead = true) (k : κ) :
    AfterReads k (Kernel.perform c k).2 :=
  Relation.ReflTransGen.single ⟨c, hc, rfl⟩

theorem Tranquil.of_reads {k k' : κ} (h : Tranquil k) (hreads : AfterReads k k') : Tranquil k' := by
  intro k₂ hreads'
  have hlike := h k' hreads
  have hlike' := h k₂ (hreads.trans hreads')
  exact ⟨fun c hc => (hlike'.answer c hc).trans (hlike.answer c hc).symm,
    hlike'.file.trans hlike.file.symm⟩

/-- A kernel that no reading changes is tranquil. -/
theorem tranquil_of_still {k : κ}
    (h : ∀ c : SystemCall, c.isRead = true → (Kernel.perform c k).2 = k) : Tranquil k := by
  intro k' hreads
  have heq : k' = k := by
    induction hreads with
    | refl => rfl
    | tail _ hstep ih =>
      obtain ⟨c, hc, rfl⟩ := hstep
      rw [ih, h c hc]
  rw [heq]
  exact ⟨fun _ _ => rfl, rfl⟩

end Linux

open Linux
open Machine (Frame FrameLayout InstructionKind RegisterFile WordReader)

namespace Tracer

open ModuleRegistry (functionAt found lookUpAll)

variable {κ : Type} [Kernel κ]

/-! ### What a look leaves -/

/-- The kernel was read, and the images of paths were looked up. -/
structure Looked (paths : List String) (s s' : System κ) : Prop where
  reads : AfterReads s.kernel s'.kernel
  tracer : s'.tracer =
    { s.tracer with modules := lookUpAll (Kernel.file s.kernel) paths s.tracer.modules }

namespace Looked

variable {paths more : List String} {s s' s₂ : System κ}

theorem refl (s : System κ) : Looked [] s s := ⟨AfterReads.refl _, rfl⟩

theorem trans (hstill : Tranquil s.kernel) (h : Looked paths s s') (h' : Looked more s' s₂) :
    Looked (paths ++ more) s s₂ := by
  refine ⟨h.reads.trans h'.reads, ?_⟩
  rw [h'.tracer, h.tracer, (hstill _ h.reads).file, ModuleRegistry.lookUpAll_append]

theorem tranquil (h : Looked paths s s') (hstill : Tranquil s.kernel) : Tranquil s'.kernel :=
  hstill.of_reads h.reads

theorem process (h : Looked paths s s') : s'.tracer.process = s.tracer.process := by
  rw [h.tracer]

theorem breakpoints (h : Looked paths s s') : s'.tracer.breakpoints = s.tracer.breakpoints := by
  rw [h.tracer]

theorem modules (h : Looked paths s s') : s'.tracer.modules.modules = s.tracer.modules.modules := by
  rw [h.tracer]
  exact ModuleRegistry.modules_lookUpAll _ _ _

end Looked

/-! ### What is seen -/

/-- The words of memory. -/
def System.word? (s : System κ) : WordReader := fun a =>
  (s.tracer.process.bind (·.memoryThread?)).bind fun tid =>
    (Kernel.perform (.peek tid a) s.kernel).1.toOption

/-- The words in a row from an address on, up to the first that cannot be read. -/
def row (read : WordReader) (a : UInt64) : (count : Nat) → List UInt64
  | 0 => []
  | count + 1 =>
    match read a with
    | some w => w :: row read (a + 8) count
    | none => []

/-- The code at an address, without the patches. -/
def System.code (s : System κ) (a : UInt64) (length : Nat) : Except DebugError Bytes :=
  match s.tracer.process.map (·.memoryThread?) with
  | none => .error .notStarted
  | some none => .error .processRunning
  | some (some _) =>
    let data := ((row s.word? a (Memory.wordsFor length)).flatMap Bytes.ofWord).take length
    if data.isEmpty && 0 < length then .error (.memoryAccess a)
    else .ok (s.tracer.breakpoints.mask a data)

/-- The kind of the instruction at a program counter, as far as it can be read. -/
def System.kindAt (s : System κ) (pc : UInt64) : InstructionKind :=
  (((s.code pc Machine.maxLength).bind (Machine.classify · pc)).map (·.1)).toOption.getD .other

/-- The function that an address belongs to: its name and its address. -/
def System.functionAt (s : System κ) (a : UInt64) : Option (String × UInt64) :=
  ModuleRegistry.functionAt (Kernel.file s.kernel) a s.tracer.modules

/-- The layout of the frame of a function at a program counter. -/
def System.layoutAt (s : System κ) (pc : UInt64) : FrameLayout :=
  match s.kindAt pc with
  | .pushFramePointer | .ret => .entry
  | .setFramePointer => .bpPushed
  | .call | .other => if (s.functionAt pc).any (·.2 == pc) then .entry else .established

/-- The registers of a thread. -/
def System.registers (s : System κ) (tid : Nat) : Except DebugError RegisterFile :=
  (Kernel.perform (.getRegisters tid) s.kernel).1.mapError .ptrace

/-- The frames of a thread whose registers are known. -/
def System.framesFrom (s : System κ) (regs : RegisterFile) : List Frame :=
  (Machine.unwind (m := Id) s.word? (s.layoutAt regs.pc) ⟨regs.pc, regs.sp, regs.value .rbp⟩).run

/-- The images that are looked up for the function at an address are the same as before. -/
def SameImages (s s' : System κ) (a : UInt64) : Prop := ∀ path ∈ s.tracer.modules.pathsAt a,
  found (Kernel.file s.kernel) path s'.tracer.modules =
    found (Kernel.file s.kernel) path s.tracer.modules

namespace Looked

variable {paths : List String} {s s' : System κ}

theorem word? (h : Looked paths s s') (hstill : Tranquil s.kernel) : s'.word? = s.word? := by
  funext a
  simp only [System.word?, h.process, (hstill _ h.reads).answer (.peek _ a) rfl]

theorem kindAt (h : Looked paths s s') (hstill : Tranquil s.kernel) (pc : UInt64) :
    s'.kindAt pc = s.kindAt pc := by
  simp only [System.kindAt, System.code, h.process, h.breakpoints, h.word? hstill]

theorem registers (h : Looked paths s s') (hstill : Tranquil s.kernel) (tid : Nat) :
    s'.registers tid = s.registers tid := by
  rw [System.registers, System.registers, (hstill _ h.reads).answer (.getRegisters tid) rfl]

theorem sameImages (h : Looked [] s s') (a : UInt64) : SameImages s s' a := by
  intro path _
  rw [h.tracer]
  rfl

theorem functionAt (h : Looked paths s s') (hstill : Tranquil s.kernel) {a : UInt64}
    (hsame : SameImages s s' a) : s'.functionAt a = s.functionAt a := by
  rw [System.functionAt, (hstill _ h.reads).file]
  exact ModuleRegistry.functionAt_congr h.modules hsame

theorem layoutAt (h : Looked paths s s') (hstill : Tranquil s.kernel) {pc : UInt64}
    (hsame : SameImages s s' pc) : s'.layoutAt pc = s.layoutAt pc := by
  rw [System.layoutAt, System.layoutAt, h.kindAt hstill, h.functionAt hstill hsame]

/-- What is seen of the frames of a thread is the same as before. -/
theorem framesFrom (h : Looked paths s s') (hstill : Tranquil s.kernel) {regs : RegisterFile}
    (hsame : SameImages s s' regs.pc) : s'.framesFrom regs = s.framesFrom regs := by
  rw [System.framesFrom, System.framesFrom, h.layoutAt hstill hsame, h.word? hstill]

theorem pathsAt (h : Looked paths s s') (a : UInt64) :
    s'.tracer.modules.pathsAt a = s.tracer.modules.pathsAt a := by
  rw [ModuleRegistry.pathsAt, ModuleRegistry.pathsAt, ModuleRegistry.moduleAt, ModuleRegistry.moduleAt,
    h.modules]

end Looked

namespace Tracing

variable {s : System κ}

theorem ends_readWord (a : UInt64) (s : System κ) : Ends (readWord a) s fun r s' =>
    r = .ok (s.word? a) ∧ Looked [] s s' := by
  rw [readWord, ends_tracer_bind, System.word?]
  rcases s.tracer.process.bind (·.memoryThread?) with _ | tid
  · exact ⟨rfl, .refl s⟩
  · dsimp only
    rw [ends_attempt_bind]
    have hlooked : Looked [] s { s with kernel := (Kernel.perform (.peek tid a) s.kernel).2 } :=
      ⟨reads_perform rfl _, rfl⟩
    rw [Option.bind_some]
    rcases (Kernel.perform (.peek tid a) s.kernel).1 with e | w
    · exact ⟨rfl, hlooked⟩
    · exact ⟨rfl, hlooked⟩

/-- Words that are read in a row from a tranquil kernel. -/
theorem readSomeWords_run (tid : Nat) (count : Nat) : ∀ (a : UInt64) (k : κ), Tranquil k →
    ((Memory.readSomeWords tid a count).run k).1 =
        row (fun a => (Kernel.perform (.peek tid a) k).1.toOption) a count ∧
      AfterReads k ((Memory.readSomeWords tid a count).run k).2 := by
  induction count with
  | zero => exact fun _ k _ => ⟨rfl, AfterReads.refl k⟩
  | succ count ih =>
    intro a k hstill
    have hreads : AfterReads k (Kernel.perform (.peek tid a) k).2 := reads_perform rfl k
    rcases hperform : Kernel.perform (.peek tid a) k with ⟨r, k'⟩
    have hrun : ((call (.peek tid a) : Calls κ _).run).run k = (r, k') := hperform
    rw [hperform] at hreads
    rw [Memory.readSomeWords, StateT.run_bind, hrun, row, hperform]
    cases r with
    | error e => exact ⟨rfl, hreads⟩
    | ok w =>
      obtain ⟨hwords, hreads'⟩ := ih (a + 8) k' (hstill.of_reads hreads)
      -- The kernel is another one after each word, but it answers in the same way.
      have hsame : (fun a => (Kernel.perform (.peek tid a) k').1.toOption) =
          fun a => (Kernel.perform (.peek tid a) k).1.toOption :=
        funext fun a => congrArg _ ((hstill k' hreads).answer (.peek tid a) rfl)
      rw [hsame] at hwords
      exact ⟨congrArg (w :: ·) hwords, hreads.trans hreads'⟩

theorem ends_readCode (hstill : Tranquil s.kernel) (a : UInt64) (length : Nat) :
    Ends (readCode a length) s fun r s' => r = s.code a length ∧ Looked [] s s' := by
  rw [readCode, memoryThread, bind_assoc]
  rcases hp : s.tracer.process with _ | p
  · rw [ends_process_bind_none hp, System.code, hp]
    exact ⟨rfl, .refl s⟩
  · rw [ends_process_bind hp]
    rcases htid : p.memoryThread? with _ | tid
    · rw [System.code, hp, Option.map_some, htid]
      exact ⟨rfl, .refl s⟩
    · have hword : s.word? = fun a => (Kernel.perform (.peek tid a) s.kernel).1.toOption := by
        funext a
        rw [System.word?, hp, Option.bind_some, htid, Option.bind_some]
      obtain ⟨hrow, hreads⟩ := readSomeWords_run tid (Memory.wordsFor length) a s.kernel hstill
      obtain ⟨data, hdata⟩ : ∃ data, data = ((row s.word? a (Memory.wordsFor length)).flatMap
        Bytes.ofWord).take length := ⟨_, rfl⟩
      have hcode : s.code a length = if data.isEmpty && 0 < length then .error (.memoryAccess a)
          else .ok (s.tracer.breakpoints.mask a data) := by
        rw [System.code, hp, Option.map_some, htid, hdata]
      have hread : ((Memory.readAvailable tid a length).run s.kernel).1 = data := by
        rw [hdata, hword, ← hrow]
        rfl
      show Ends (pure tid >>= _) s _
      rw [pure_bind, hcode]
      refine Ends.bind_eq (a := data) (P := Looked [] s) ⟨congrArg _ hread, hreads, rfl⟩ fun s' hs' => ?_
      split
      · exact ⟨rfl, hs'⟩
      · show Ends (tracer >>= _) s' _
        rw [ends_tracer_bind, hs'.breakpoints]
        exact ⟨rfl, hs'⟩

/-- The kind of an instruction, which is like any other one's if it cannot be read. -/
theorem ends_kindAt (hstill : Tranquil s.kernel) (pc : UInt64) :
    Ends (tryCatch (return (← kindAt pc).1) fun _ => return .other : Tracing κ InstructionKind) s
      fun r s' => r = .ok (s.kindAt pc) ∧ Looked [] s s' := by
  have hkind : Ends (kindAt pc : Tracing κ _) s fun r s' =>
      r = (s.code pc Machine.maxLength).bind (Machine.classify · pc) ∧ Looked [] s s' := by
    refine (ends_readCode hstill pc Machine.maxLength).bind ?_ ?_
    · rintro code s' ⟨hcode, hs'⟩
      rw [← hcode]
      exact ⟨rfl, hs'⟩
    · rintro e s' ⟨hcode, hs'⟩
      rw [← hcode]
      exact ⟨rfl, hs'⟩
  rw [ends_tryCatch, ends_bind, System.kindAt]
  refine hkind.mono ?_
  rintro (e | kind) s' ⟨hr, hs'⟩
  · rw [← hr]
    exact ⟨rfl, hs'⟩
  · rw [← hr]
    exact ⟨rfl, hs'⟩

theorem ends_symbolize (a : UInt64) (s : System κ) : Ends (symbolize a) s fun r s' =>
    r = .ok (s.functionAt a) ∧ Looked (s.tracer.modules.pathsAt a) s s' := by
  rw [symbolize, ends_files_bind]
  refine ⟨rfl, AfterReads.refl _, ?_⟩
  exact congrArg (fun r => { s.tracer with modules := r })
    (congrArg Prod.snd (ModuleRegistry.symbolize_run (Kernel.file s.kernel) a s.tracer.modules))

theorem ends_layoutAt (hstill : Tranquil s.kernel) (pc : UInt64) :
    Ends (layoutAt pc) s fun r s' => r = .ok (s.layoutAt pc) ∧
      ∃ paths, (∀ p ∈ paths, p ∈ s.tracer.modules.pathsAt pc) ∧ Looked paths s s' := by
  rw [layoutAt]
  refine (ends_kindAt hstill pc).bind_eq fun s₁ h₁ => ?_
  have hunread : ∃ paths, (∀ p ∈ paths, p ∈ s.tracer.modules.pathsAt pc) ∧ Looked paths s s₁ :=
    ⟨[], List.forall_mem_nil _, h₁⟩
  rw [System.layoutAt]
  cases s.kindAt pc with
  | pushFramePointer => exact ⟨rfl, hunread⟩
  | ret => exact ⟨rfl, hunread⟩
  | setFramePointer => exact ⟨rfl, hunread⟩
  | _ =>
    -- A call or anything else: the start of the function decides.
    refine (ends_symbolize pc s₁).bind_eq fun s₂ h₂ => ?_
    rw [h₁.pathsAt] at h₂
    rw [h₁.functionAt hstill (h₁.sameImages pc)]
    have hlooked := h₁.trans hstill h₂
    rcases s.functionAt pc with _ | ⟨name, start⟩
    · exact ⟨rfl, _, fun _ => id, hlooked⟩
    · refine ⟨?_, _, fun _ => id, hlooked⟩
      simp only [Option.any_some, beq_iff_eq]
      rfl

/-! ### Unwinding -/

/-- An operation that only reads words, and does with them what another one does with a memory. -/
def Reflects (s : System κ) {α : Type} (m : Tracing κ α) (m' : Id α) : Prop :=
  ∀ s₁, Looked [] s s₁ → Ends m s₁ fun r s' => r = .ok m'.run ∧ Looked [] s s'

variable {α β : Type}

omit [Kernel κ] in
theorem reflects_pure [Kernel κ] (a : α) : Reflects s (pure a) (pure a) :=
  fun _ h => ⟨rfl, h⟩

theorem Reflects.bind {m : Tracing κ α} {m' : Id α} {f : α → Tracing κ β} {f' : α → Id β}
    (hm : Reflects s m m') (hf : ∀ a, Reflects s (f a) (f' a)) :
    Reflects s (m >>= f) (m' >>= f') := by
  intro s₁ h
  exact (hm s₁ h).bind_eq fun s₂ h₂ => hf _ s₂ h₂

theorem Reflects.optional_bind {m : OptionT (Tracing κ) α} {m' : OptionT Id α}
    {f : α → OptionT (Tracing κ) β} {f' : α → OptionT Id β} (hm : Reflects s m.run m'.run)
    (hf : ∀ a, Reflects s (f a).run (f' a).run) : Reflects s (m >>= f).run (m' >>= f').run := by
  rw [OptionT.run_bind, OptionT.run_bind]
  refine hm.bind fun found => ?_
  cases found with
  | none => exact reflects_pure none
  | some a => exact hf a

theorem reflects_readWord (hstill : Tranquil s.kernel) (a : UInt64) :
    Reflects s (readWord a) (s.word? a) := by
  intro s₁ h
  refine (ends_readWord a s₁).mono fun r s₂ h₂ => ?_
  rw [h.word? hstill] at h₂
  exact ⟨h₂.1, h.trans hstill h₂.2⟩

theorem reflects_caller (hstill : Tranquil s.kernel) (layout : FrameLayout) (f : Frame) :
    Reflects s (layout.caller readWord f).run (layout.caller (m := Id) s.word? f).run := by
  have hread := reflects_readWord hstill
  have hadd : ∀ (a : UInt64) (n : Nat),
      Reflects s (pure (Machine.checkedAdd a n)) (pure (Machine.checkedAdd a n)) :=
    fun _ _ => reflects_pure _
  cases layout with
  | entry =>
    exact .optional_bind (hread f.sp) fun _ => .optional_bind (hadd f.sp 8) fun _ => reflects_pure _
  | bpPushed =>
    exact .optional_bind (hadd f.sp 8) fun slot => .optional_bind (hread slot) fun _ =>
      .optional_bind (hadd f.sp 16) fun _ => .optional_bind (hread f.sp) fun _ => reflects_pure _
  | established =>
    have hframe := Reflects.optional_bind (hadd f.bp 8) fun slot =>
      .optional_bind (hread slot) fun pc => .optional_bind (hadd f.bp 16) fun sp =>
        .optional_bind (hread f.bp) fun bp => reflects_pure (some (Frame.mk pc sp bp))
    rw [FrameLayout.caller, FrameLayout.caller]
    split
    · exact .optional_bind (reflects_pure none) fun _ => hframe
    · exact hframe

theorem reflects_callers (hstill : Tranquil s.kernel) (room : Nat) :
    ∀ (inner : Frame) (candidate : Option Frame), Reflects s
      (Machine.callers readWord room inner candidate)
      (Machine.callers (m := Id) s.word? room inner candidate) := by
  induction room with
  | zero =>
    intro inner candidate
    cases candidate with
    | none => exact reflects_pure []
    | some f => exact reflects_pure []
  | succ room ih =>
    intro inner candidate
    cases candidate with
    | none => exact reflects_pure []
    | some f =>
      rw [Machine.callers, Machine.callers]
      split
      -- Whoever called has an established frame, wherever the walk started.
      · exact (reflects_caller hstill .established f).bind fun next =>
          (ih f next).bind fun _ => reflects_pure _
      · exact reflects_pure []

theorem reflects_unwind (hstill : Tranquil s.kernel) (layout : FrameLayout) (top : Frame) :
    Reflects s (Machine.unwind readWord layout top) (Machine.unwind (m := Id) s.word? layout top) :=
  (reflects_caller hstill layout top).bind fun next =>
    (reflects_callers hstill _ top next).bind fun _ => reflects_pure _

/-! ### Frames -/

theorem ends_registersOf (tid : Nat) (s : System κ) : Ends (registersOf tid) s fun r s' =>
    r = s.registers tid ∧ Looked [] s s' := by
  rw [registersOf, ends_require]
  exact ⟨rfl, reads_perform rfl _, rfl⟩

/-- **The frames of a thread** are found in the memory that can be read. Besides memory, only the image for
the program counter is looked at. -/
theorem ends_framesOf (hstill : Tranquil s.kernel) (tid : Nat) :
    Ends (framesOf tid) s fun r s' => r = (s.registers tid).map s.framesFrom ∧
      ∃ paths, (∀ regs, s.registers tid = .ok regs →
        ∀ p ∈ paths, p ∈ s.tracer.modules.pathsAt regs.pc) ∧ Looked paths s s' := by
  rw [framesOf, topFrame, bind_assoc]
  refine (ends_registersOf tid s).bind ?_ ?_
  · rintro regs s₁ ⟨hregs, h₁⟩
    rw [← hregs, pure_bind]
    refine (ends_layoutAt (h₁.tranquil hstill) regs.pc).bind_eq ?_
    rintro s₂ ⟨paths, hpaths, h₂⟩
    rw [h₁.pathsAt] at hpaths
    have hlooked : Looked paths s s₂ := h₁.trans hstill h₂
    rw [h₁.layoutAt hstill (h₁.sameImages regs.pc)]
    -- The stack is read after the layout is known, but its words are those from before.
    refine (reflects_unwind (hlooked.tranquil hstill) _ _ s₂ (.refl s₂)).mono ?_
    rintro r s₃ ⟨hr, h₃⟩
    rw [hlooked.word? hstill] at hr
    refine ⟨hr, paths, fun regs' hregs' => ?_, ?_⟩
    · cases hregs'
      exact hpaths
    · have htrans := hlooked.trans hstill h₃
      rwa [List.append_nil] at htrans
  · rintro e s₁ ⟨hregs, h₁⟩
    rw [← hregs]
    exact ⟨rfl, [], fun _ _ => List.forall_mem_nil _, h₁⟩

end Tracing

end Tracer

end DebugAdapter
