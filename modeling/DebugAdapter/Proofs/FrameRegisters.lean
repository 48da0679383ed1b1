import DebugAdapter.Proofs.CallStacks
import DebugAdapter.Proofs.Refocusing
import DebugAdapter.Proofs.TracedEngine

/-!
# Registers of frames

A call stack and the registers of its frames are found by unwinding twice. In between the frames are
described, for which images of modules are looked up; the layout of the innermost frame depends on the image
that it had before. So both agree as long as this image is not given up for others (`ImageLasts`): with at most
as many frames as images are kept, or if its file still holds it.

Main statement: `callStack_registers`.
-/

namespace DebugAdapter

open Debuggee
open Linux
open Machine (Frame RegisterFile WordReader)
open Operation

namespace Tracer

open ModuleRegistry (SpelledAs UpToDate found lookUpAll)

variable {κ : Type} [Kernel κ]

/-! ### Agreement -/

open Tracing (Resurveyed Displays)

/-- The image of the module in which a thread stands is not given up for those that its call stack needs:
there are at most as many frames as images are kept, or the image is the one in its file. -/
def ImageLasts (x y : System κ) (frames : List StackFrame) : Prop :=
  frames.length ≤ x.tracer.modules.images.capacity ∨
    ∀ top m, frames.head? = some top → y.tracer.modules.moduleAt top.pc = some m →
      UpToDate (Kernel.file x.kernel) m.path x.tracer.modules

variable {x x₁ y z : System κ} {regs : RegisterFile} {frames : List StackFrame} {tid : Nat}

theorem Tracing.Displays.sameImages (h : Displays x₁ regs frames y) (hsurvey : Resurveyed x x₁)
    (hdistinct : Distinct x.tracer.modules.modules) (hlasts : ImageLasts x y frames) :
    SameImages x₁ y regs.pc := by
  intro path hpath
  obtain ⟨before, after, hbefore, hlength, hafter, hlooked⟩ := h.looked
  obtain ⟨m, hmodule, hm, rfl⟩ := ModuleRegistry.exists_of_mem_pathsAt hpath
  have hown := ModuleRegistry.pathsAt_eq_singleton hpath
  have hself : ∀ p ∈ before, p = m.path := fun p hp => List.mem_singleton.mp (hown ▸ hbefore p hp)
  have hspelled : SpelledAs m.path after := by
    intro p hp hsame
    obtain ⟨n, hn, rfl⟩ := hafter p hp
    rw [(hsurvey.distinct hdistinct).eq_of_same hn hm hsame]
  -- Up to the description of the innermost frame nothing but its own image is looked up.
  have hkept : found (Kernel.file x₁.kernel) m.path (lookUpAll _ before x₁.tracer.modules) = _ :=
    ModuleRegistry.found_lookUpAll_self hself x₁.tracer.modules
  rw [hlooked.tracer, hown]
  show found _ m.path (lookUpAll _ (before ++ m.path :: after) _) = _
  rw [ModuleRegistry.lookUpAll_append, ← hkept]
  refine ModuleRegistry.found_lookUpAll hspelled ?_
  rw [ModuleRegistry.capacity_lookUpAll, hsurvey.capacity]
  -- From there on either too few images are looked up to lose it, or it can be read again.
  refine hlasts.imp (Nat.lt_of_lt_of_le hlength) fun hupToDate => ?_
  refine UpToDate.lookUpAll ?_ fun p hp _ => hself p hp
  rw [hsurvey.kernel]
  refine hsurvey.upToDate m hm ?_
  obtain ⟨outer, hframes, -⟩ := framesFrom_eq_cons x₁ regs
  -- The module is that of the first frame that is shown.
  have hpcs := h.pcs
  rw [hframes] at hpcs
  cases frames with
  | nil => cases hpcs
  | cons top rest =>
    have htop : top.pc = regs.pc := (List.cons.inj hpcs).1
    refine hupToDate top m rfl ?_
    rw [htop, ModuleRegistry.moduleAt, hlooked.modules]
    exact hmodule

namespace Looked

variable {paths : List String} {s s' : System κ}

theorem registersNamed (h : Looked paths s s') (hstill : Tranquil s.kernel) (tid : Nat) :
    s'.registersNamed tid = s.registersNamed tid := by
  have hregs : s'.registers = s.registers := funext (h.registers hstill)
  rw [System.registersNamed, System.registersNamed, hregs, System.threadNamed, System.threadNamed,
    h.process]

theorem registersIn (h : Looked paths s s') (hstill : Tranquil s.kernel) (k : Nat)
    (hsame : SameImages s s' regs.pc) : s'.registersIn k regs = s.registersIn k regs := by
  rw [System.registersIn, System.registersIn, h.framesFrom hstill hsame]

/-- Images that only the thread itself needs are the same after they were looked up. -/
theorem sameImages_self (h : Looked paths s s') {a : UInt64}
    (hpaths : ∀ p ∈ paths, p ∈ s.tracer.modules.pathsAt a) : SameImages s s' a := by
  intro path hpath
  have hown := ModuleRegistry.pathsAt_eq_singleton hpath
  rw [h.tracer]
  exact ModuleRegistry.found_lookUpAll_self
    (fun p hp => List.mem_singleton.mp (hown ▸ hpaths p hp)) s.tracer.modules

end Looked

/-- The registers of frames of a thread are read, any number of times. -/
def Rereads (tid : Nat) : System κ → System κ → Prop :=
  Relation.ReflTransGen fun s s' => ∃ k, s' = ((Tracing.registers tid k).run.run s).2

/-- Reading the registers of a thread looks up nothing but the image that it needs itself. -/
theorem Rereads.looked (h : Rereads tid y z) (hstill : Tranquil y.kernel)
    (hregs : y.registersNamed tid = .ok regs) :
    ∃ paths, (∀ p ∈ paths, p ∈ y.tracer.modules.pathsAt regs.pc) ∧ Looked paths y z := by
  induction h with
  | refl => exact ⟨[], nofun, .refl y⟩
  | tail _ hstep ih =>
    obtain ⟨k, rfl⟩ := hstep
    obtain ⟨paths, hpaths, hlooked⟩ := ih
    obtain ⟨-, more, hmore, hlooked'⟩ :=
      Tracing.ends_registers (hlooked.tranquil hstill) tid k
    rw [hlooked.registersNamed hstill] at hmore
    replace hmore := hmore regs hregs
    rw [hlooked.pathsAt] at hmore
    exact ⟨paths ++ more, List.forall_mem_append.mpr ⟨hpaths, hmore⟩, hlooked.trans hstill hlooked'⟩

/-- What the registers of the frames of a call stack are: each frame has its own program counter, stack
pointer and frame pointer, and all others are those of the thread. There are no other frames. -/
structure FrameRegisters (tid : Nat) (regs : RegisterFile) (frames : List StackFrame) (s : System κ) :
    Prop where
  answered : ∀ k f, frames[k]? = some f → Ends (Tracing.registers tid k) s fun r _ =>
    ∃ g : RegisterFile, r = .ok (listing g) ∧ g.value .rip = f.pc ∧ (k = 0 → g = regs) ∧
      ∀ q, q ∉ [.rip, .rsp, .rbp] → g.value q = regs.value q
  beyond : ∀ k, frames.length ≤ k → Ends (Tracing.registers tid k) s fun r _ =>
    r = .error (.frameNotFound k)

theorem frameRegisters_of {s : System κ} (hstill : Tranquil s.kernel)
    (hregs : s.registersNamed tid = .ok regs)
    (hpcs : frames.map (·.pc) = (s.framesFrom regs).map (·.pc)) :
    FrameRegisters tid regs frames s := by
  have hends : ∀ k, Ends (Tracing.registers tid k) s fun r _ => r = s.registersIn k regs := by
    intro k
    refine (Tracing.ends_registers hstill tid k).mono fun r _ h => ?_
    rw [h.1, hregs]
    rfl
  refine ⟨fun k f hf => (hends k).mono ?_, fun k hk => (hends k).mono ?_⟩
  · rintro _ _ rfl
    have hpc := congrArg (·[k]?) hpcs
    simp only [List.getElem?_map, hf, Option.map_some] at hpc
    obtain ⟨g, hg, hgpc⟩ := Option.map_eq_some_iff.mp hpc.symm
    rw [System.registersIn, hg]
    refine ⟨inFrame regs g, rfl, hgpc, fun hk => ?_, fun q hq => value_inFrame regs g hq⟩
    subst hk
    obtain ⟨outer, hframes, -⟩ := framesFrom_eq_cons s regs
    rw [hframes] at hg
    cases hg
    exact inFrame_top regs
  · rintro _ _ rfl
    have hlength := congrArg List.length hpcs
    rw [List.length_map, List.length_map] at hlength
    rw [System.registersIn, List.getElem?_eq_none (hlength ▸ hk)]
    rfl

theorem Tracing.Resurveyed.registersNamed (h : Resurveyed x x₁) (tid : Nat) :
    x₁.registersNamed tid = x.registersNamed tid := by
  have hregs : x₁.registers = x.registers := by
    funext t
    rw [System.registers, System.registers, h.kernel]
  rw [System.registersNamed, System.registersNamed, hregs, System.threadNamed, System.threadNamed,
    h.process]

omit [Kernel κ] in
theorem eq_of_threadNamed {t : Nat} (h : x.threadNamed tid = .ok t) : t = tid % halfLimit := by
  rw [System.threadNamed] at h
  split at h
  · cases h
  · split at h
    · cases h
    · split at h
      · exact (Except.ok.inj h).symm
      · cases h

theorem registers_of_registersNamed (h : x.registersNamed tid = .ok regs) :
    (Kernel.perform (.getRegisters (tid % halfLimit)) x.kernel).1 = .ok regs := by
  rw [System.registersNamed] at h
  rcases ht : x.threadNamed tid with e | t
  · rw [ht] at h
    cases h
  · rw [ht] at h
    have hregs : x.registers t = .ok regs := h
    rw [System.registers, eq_of_threadNamed ht] at hregs
    rcases hanswer : (Kernel.perform (.getRegisters (tid % halfLimit)) x.kernel).1 with e | regs'
    · rw [hanswer] at hregs
      cases hregs
    · rw [hanswer] at hregs
      cases hregs
      rfl

/-- What a call stack and the registers of frames after it have to do with each other. -/
structure Agreement (x : System κ) (tid : Nat) (r : Except DebugError (List StackFrame)) (y : System κ) :
    Prop where
  /-- Where there is no call stack, there are no registers, for the same reason. -/
  failed : ∀ e, r = .error e → ∀ i, Ends (Tracing.registers tid i) y fun r' _ => r' = .error e
  /-- Outer frames have a program counter, so there is a byte before it. -/
  outer : ∀ frames, r = .ok frames → ∃ top outer, frames = top :: outer ∧
    ∀ f ∈ outer, f.pc ≠ 0 ∧ (f.pc - 1).toNat + 1 = f.pc.toNat
  registers : ∀ frames, r = .ok frames → ImageLasts x y frames → ∃ regs,
    (Kernel.perform (.getRegisters (tid % halfLimit)) x.kernel).1 = .ok regs ∧
    ∀ z, Rereads tid y z → FrameRegisters tid regs frames z

/-- Below an address that is not zero there is another one. -/
theorem toNat_sub_one {a : UInt64} (h : a ≠ 0) : (a - 1).toNat + 1 = a.toNat := by
  have hpos : a.toNat ≠ 0 := fun hzero => h (UInt64.toNat_inj.mp hzero)
  have hone : (1 : UInt64) ≤ a := UInt64.le_iff_toNat_le.mpr (Nat.one_le_iff_ne_zero.mpr hpos)
  rw [UInt64.toNat_sub_of_le _ _ hone]
  exact Nat.succ_pred hpos

theorem Tracing.Displays.outer (h : Displays x₁ regs frames y) :
    ∃ top outer, frames = top :: outer ∧ ∀ f ∈ outer, f.pc ≠ 0 := by
  obtain ⟨outer, hframes, houter⟩ := framesFrom_eq_cons x₁ regs
  have hpcs := h.pcs
  rw [hframes] at hpcs
  cases frames with
  | nil => cases hpcs
  | cons top rest =>
    refine ⟨top, rest, rfl, fun f hf => ?_⟩
    have hmem : f.pc ∈ outer.map (·.pc) := (List.cons.inj hpcs).2 ▸ List.mem_map_of_mem hf
    obtain ⟨g, hg, hpc⟩ := List.mem_map.mp hmem
    exact hpc ▸ houter g hg

theorem agreement (hstill : Tranquil x.kernel) (hdistinct : Distinct x.tracer.modules.modules)
    (tid : Nat) : Ends (Tracing.callStack tid) x (Agreement x tid) := by
  refine (Tracing.ends_callStack hstill tid).mono ?_
  rintro r y ⟨x₁, hsurvey, hanswers⟩
  have hstill₁ : Tranquil x₁.kernel := hsurvey.kernel.symm ▸ hstill
  have hnamed := hsurvey.registersNamed tid
  rcases hregs : x.registersNamed tid with e | regs
  -- Without registers both operations stop before they unwind.
  · obtain ⟨rfl, paths, hlooked⟩ := hanswers.failed e hregs
    refine ⟨?_, nofun, nofun⟩
    rintro _ ⟨⟩ i
    refine (Tracing.ends_registers (hlooked.tranquil hstill₁) tid i).mono fun r _ h => ?_
    rw [h.1, hlooked.registersNamed hstill₁, hnamed, hregs]
    rfl
  · obtain ⟨frames, rfl, hshows⟩ := hanswers.shown regs hregs
    refine ⟨nofun, ?_, ?_⟩
    · rintro _ ⟨⟩
      obtain ⟨top, outer, hframes, houter⟩ := hshows.outer
      exact ⟨top, outer, hframes, fun f hf => ⟨houter f hf, toNat_sub_one (houter f hf)⟩⟩
    · rintro _ ⟨⟩ hlasts
      obtain ⟨before, after, -, -, -, hlooked⟩ := hshows.looked
      have hregs₁ : y.registersNamed tid = .ok regs := by
        rw [hlooked.registersNamed hstill₁, hnamed, hregs]
      have hframes : y.framesFrom regs = x₁.framesFrom regs :=
        hlooked.framesFrom hstill₁ (hshows.sameImages hsurvey hdistinct hlasts)
      have hstill₂ := hlooked.tranquil hstill₁
      refine ⟨regs, registers_of_registersNamed hregs, fun z hz => ?_⟩
      obtain ⟨paths, hpaths, hlooked'⟩ := hz.looked hstill₂ hregs₁
      refine frameRegisters_of (hlooked'.tranquil hstill₂) ?_ ?_
      · rw [hlooked'.registersNamed hstill₂, hregs₁]
      · rw [hlooked'.framesFrom hstill₂ (hlooked'.sameImages_self hpaths), hframes]
        exact hshows.pcs

open Engine.Traced (Engine)
open Session (currentThread selectFrame)

/-- A request that leaves the process where it is succeeds as its operation does. -/
theorem exists_answer_iff {e : Engine κ} {t : Handle} (hy : e.system? t = some y) (r : Request)
    (hr : Engine.movesProcess r = false) :
    (∃ answer, (DebugEngine.perform (.request t r) e).1 = .ok answer) ↔
      ∃ answer, Ends (Engine.operation r) y fun result _ => result = .ok answer := by
  rw [(Engine.perform_of_system hr hy).1]
  refine exists_congr fun answer => ?_
  show _ ↔ ((Engine.operation r).run.run y).1 = _
  rcases ((Engine.operation r).run.run y).1 with error | answer'
  · exact iff_of_false (by rintro ⟨_, ⟨⟩⟩) (by rintro ⟨_, ⟨⟩⟩)
  · exact ⟨fun h => by cases h; rfl, fun h => by cases h; rfl⟩

/-- The call stack that an engine answers with is that of the target. -/
theorem exists_perform_callStack {e : Engine κ} {t : Handle} (hx : e.system? t = some x) (tid : Nat) :
    ∃ r y engine, (Tracing.callStack tid).run.run x = (r, y) ∧
      DebugEngine.perform (.request t (.callStack tid)) e = (r.mapError .error, engine) ∧
      engine.system? t = some y := by
  obtain ⟨hresult, hsystem⟩ := Engine.perform_of_system (r := .callStack tid) rfl hx
  exact ⟨_, _, _, rfl, Prod.ext hresult rfl, hsystem⟩

/-- Selecting a frame succeeds exactly if the registers of the frame can be read. -/
theorem ends_selectFrame {s t : Session (Engine κ)} {a : Session.ActiveTarget}
    (ha : s.lifecycle = .active a) (htid : currentThread.run.run s = (.ok tid, t))
    (hx : t.engine.system? a.target = some x)
    (hagreement : Ends (Tracing.callStack tid) x (Agreement x tid))
    (hlasts : Ends (Tracing.callStack tid) x fun r y => ∀ frames, r = .ok frames → ImageLasts x y frames)
    (index : Nat) : Ends (selectFrame index) s fun r u => (∃ response, r = .ok response) ↔
      ∃ list, (DebugEngine.perform (.request a.target (.registers tid index)) u.engine).1 =
        .ok list := by
  have hcurrent : Ends currentThread s fun r u => r = .ok tid ∧ t = u := by
    rw [Ends, htid]
    exact ⟨rfl, rfl⟩
  rw [selectFrame]
  refine (hcurrent.and (Session.idles_currentThread (E := AnyEngine) s)).bind ?_ ?_
  · rintro _ _ ⟨⟨⟨⟩, rfl⟩, hidle⟩
    obtain ⟨n, hn⟩ := hidle.active ha
    obtain ⟨r, y, engine, hrun, hcall, hsystem⟩ := exists_perform_callStack hx tid
    rw [Ends, hrun] at hagreement hlasts
    rw [Session.ends_target_bind hn, ends_bind, Session.ends_request, hcall]
    -- Selecting a frame does nothing to the engine beyond the call stack.
    have hread := exists_answer_iff hsystem (.registers tid index) rfl
    cases r with
    | error e =>
      refine iff_of_false (by rintro ⟨_, ⟨⟩⟩) fun h => ?_
      obtain ⟨list, hlist⟩ := hread.mp h
      cases (hagreement.failed e rfl index).symm.trans hlist
    | ok frames =>
      obtain ⟨regs, -, hmatch⟩ := hagreement.registers frames rfl (hlasts frames rfl)
      have hregisters := hmatch y .refl
      show Ends (if index < frames.length then _ else _) _ _
      split
      · rename_i hindex
        obtain ⟨g, hg, -⟩ := hregisters.answered index _ (List.getElem?_eq_getElem hindex)
        rw [Session.modifyActive, ends_modify_bind]
        simp only [hn]
        exact iff_of_true ⟨_, rfl⟩ (hread.mpr ⟨_, hg⟩)
      · rename_i hindex
        refine iff_of_false (by rintro ⟨_, ⟨⟩⟩) fun h => ?_
        obtain ⟨list, hlist⟩ := hread.mp h
        cases (hregisters.beyond index (Nat.le_of_not_lt hindex)).symm.trans hlist
  · rintro _ _ ⟨⟨⟨⟩, -⟩, -⟩

/-- A tracer knows each file at most once. -/
theorem distinct_of_history {drift : κ → κ → Prop} {program : Option String} {k : κ} {es : List Event}
    (h : History drift ⟨k, .new program⟩ es x) : Distinct x.tracer.modules.modules := by
  obtain ⟨main, mappings, hsurveyed⟩ := (replayed_of_history h).surveyed
  exact hsurveyed.distinct

/-- **The registers of frames agree with the call stack** of a process that nothing disturbs, unless more
images are looked up than are kept: each frame of the call stack has registers, which differ from those of
the thread only where the frame is, and there are no others. So exactly the frames can be selected that have
registers. The modules of a tracer are always distinct (`distinct_of_history`). -/
theorem callStack_registers (hstill : Tranquil x.kernel)
    (hdistinct : Distinct x.tracer.modules.modules) (tid : Nat) :
    Ends (Tracing.callStack tid) x (Agreement x tid) ∧
    ∀ (s t : Session (Engine κ)) (a : Session.ActiveTarget), s.lifecycle = .active a →
      currentThread.run.run s = (.ok tid, t) → t.engine.system? a.target = some x →
      Ends (Tracing.callStack tid) x (fun r y => ∀ frames, r = .ok frames → ImageLasts x y frames) →
      ∀ index, Ends (selectFrame index) s fun r u => (∃ response, r = .ok response) ↔
        ∃ list, (DebugEngine.perform (.request a.target (.registers tid index)) u.engine).1 = .ok list :=
  have hagreement := agreement hstill hdistinct tid
  ⟨hagreement, fun _ _ _ ha htid hx hlasts index =>
    ends_selectFrame ha htid hx hagreement hlasts index⟩

/-! ### A process that stands still -/

/-- A kernel with one thread that stands still: the words of its memory, its registers, and the files. -/
structure Frozen where
  words : WordReader
  registers : RegisterFile
  files : Files

namespace Frozen

instance : Kernel Frozen where
  perform c k :=
    match c with
    | .peek _ a => ((k.words a).elim (.error .inputOutput) .ok, k)
    | .getRegisters _ => (.ok k.registers, k)
    | _ => (.error .noProcess, k)
  file k := k.files
  linkTarget? _ _ := none
  process? _ _ := none
  lookUp? _ _ := none
  outstanding _ := 0

theorem tranquil (k : Frozen) : Tranquil k := by
  refine tranquil_of_still fun c hc => ?_
  cases c with
  | peek => rfl
  | getRegisters => rfl
  | _ => cases hc

/-- The kernel and a tracer that is attached to the thread and knows some modules. -/
def attached (k : Frozen) (modules : ModuleRegistry) : System Frozen :=
  ⟨k, { State.new none with
    snapshot := ⟨.stopped, none, none, some 1⟩
    process := some ⟨1, false, none, [.new 1], none, false, none⟩
    modules }⟩

/-- A session with a tracer, whose only thread is selected. -/
def session (s : System Frozen) : Session (Engine Frozen) :=
  { Session.start (⟨s.kernel, [⟨s.tracer, true⟩]⟩ : Engine Frozen) .standard
      ⟨.binary, ⟨[], 0, fun _ offered => offered, some 0⟩, none⟩ with
    lifecycle := .active ⟨0, true, some 1, 0⟩ }

end Frozen

/-- A thread in the third of three calls. -/
def threeFrames : System Frozen :=
  Frozen.attached ⟨Machine.threeCalls,
    ((RegisterFile.zero.set .rip 0x1305).set .rsp 0x7ef0).set .rbp 0x7f00, fun _ => .error .noEntry⟩ .empty

/-- Each of three frames has registers and can be selected. -/
theorem registers_threeFrames :
    (Ends (Tracing.callStack 1) threeFrames fun r y => Agreement threeFrames 1 r y ∧
      ∃ frames, r = .ok frames ∧ frames.map (·.pc) = [0x1305, 0x1210, 0x1110] ∧
        ImageLasts threeFrames y frames) ∧
    ∀ index, Ends (selectFrame index) (Frozen.session threeFrames) fun r u =>
      (∃ response, r = .ok response) ↔
        ∃ list, (DebugEngine.perform (.request 0 (.registers 1 index)) u.engine).1 = .ok list := by
  have hpcs : ((Tracing.callStack 1).run.run threeFrames).1.toOption.map (·.map (·.pc)) =
      some [0x1305, 0x1210, 0x1110] := by decide +kernel
  have hframes : Ends (Tracing.callStack 1) threeFrames fun r y => ∃ frames, r = .ok frames ∧
      frames.map (·.pc) = [0x1305, 0x1210, 0x1110] ∧ ImageLasts threeFrames y frames := by
    rw [Ends]
    generalize (Tracing.callStack 1).run.run threeFrames = answer at hpcs ⊢
    obtain ⟨r, y⟩ := answer
    cases r with
    | error e => cases hpcs
    | ok frames =>
      have hmap : frames.map (·.pc) = [0x1305, 0x1210, 0x1110] := Option.some.inj hpcs
      have hlength : frames.length = 3 := by
        rw [← List.length_map (f := (·.pc)), hmap]
        rfl
      exact ⟨frames, rfl, hmap, .inl (hlength ▸ by decide)⟩
  obtain ⟨hagreement, hselect⟩ := callStack_registers (x := threeFrames) (Frozen.tranquil _) .nil 1
  refine ⟨hagreement.and hframes, hselect (Frozen.session threeFrames) _ _ rfl rfl rfl ?_⟩
  refine hframes.mono ?_
  rintro _ y ⟨frames, rfl, -, hlasts⟩ _ ⟨⟩
  exact hlasts

/-! ### A process with more modules in use than images are kept -/

/-- The path of a library. -/
def libraryPath (i : Nat) : String := "/" ++ toString i

/-- A library where it is loaded. -/
def library (i : Nat) : Module :=
  ⟨libraryPath i, none, UInt64.ofNat (0x100000 * (i + 1)), 0, 0x1000, []⟩

/-- The header of an object file in which there is nothing else. -/
def bareHeader : Bytes :=
  [0x7f, 0x45, 0x4c, 0x46, 2, 1, 1, 0, 0, 0, 0, 0, 0, 0, 0, 0, 3, 0, 62, 0, 1, 0, 0, 0] ++
    List.replicate 28 0 ++ [64, 0, 56, 0, 0, 0, 64, 0, 0, 0, 0, 0]

/-- Where a thread is in a library, the last of which is the 65th. -/
def placeIn (i : Nat) : UInt64 :=
  if i ≤ 64 then UInt64.ofNat (0x100000 * (i + 1) + 0x50) else 0

/-- A stack on which each of 64 libraries called the one before it. -/
def deepStack : WordReader := fun a =>
  if a < 0x8000 ∨ 0x8410 ≤ a then none
  else if a = 0x8000 ∨ a % 16 = 8 then some (placeIn ((a.toNat - 0x8000) / 16 + 1))
  else some (a + 16)

/-- A thread at the start of a function of a library. The image of the library is kept, but its file is
gone. -/
def deepCalls : System Frozen :=
  Frozen.attached ⟨deepStack, ((RegisterFile.zero.set .rip (placeIn 0)).set .rsp 0x8000).set .rbp 0x8010,
      fun path => if path = libraryPath 0 then .error .noEntry else .ok bareHeader⟩
    ⟨ModuleRegistry.empty.images.insert (Text.Path.components (libraryPath 0))
      ⟨none, 0, 0, [], [⟨0x50, 0x10, "f"⟩]⟩, (List.range 65).map library⟩

/-- The call stack shows 65 frames, but then the second one has the registers of the third, and the last one
has none. -/
theorem registers_forgotten : Tranquil deepCalls.kernel ∧ Distinct deepCalls.tracer.modules.modules ∧
    (∃ p, deepCalls.tracer.process = some p ∧ p.isRunning = false) ∧
    Ends (Tracing.callStack 1) deepCalls fun r y =>
      r.toOption.map (·.map (·.pc)) = some ((List.range 65).map placeIn) ∧
      Ends (Tracing.registers 1 1) y (fun r' _ =>
        r'.toOption.bind (·.find? (·.name = "rip")) = some ⟨"rip", placeIn 2⟩) ∧
      Ends (Tracing.registers 1 64) y (fun r' _ => r'.toOption = none) := by
  refine ⟨Frozen.tranquil _, ?_, ⟨_, rfl, rfl⟩, ?_⟩
  · unfold Distinct
    decide +kernel
  · unfold Ends
    decide +kernel

end Tracer

end DebugAdapter
