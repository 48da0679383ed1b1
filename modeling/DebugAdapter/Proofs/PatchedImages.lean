import DebugAdapter.Proofs.ProcessImages
import DebugAdapter.Proofs.Puppet
import DebugAdapter.Proofs.TracerActs

/-!
# Patches and images

A patch belongs to the image of the process that it was planted in: the byte that it hides was read
there. A tracer that looks for a status and gets that of a new image drops its breakpoints. A tracer that
waits for a thread, to stop it or to step it, may get the same status; it takes it for a stop then, or
starts the step again, and keeps its breakpoints. A `Dated` kernel keeps what was read of the present image,
and whether its announcement was met by a wait: unless it was, all bytes that a tracer hides under its
patches are of the present image (`Patched.Fresh`).

Main statement: `patches_of_history`.
-/

namespace DebugAdapter

open Debuggee
open Engine.Traced (Engine)
open Linux
open Operation

namespace Linux

/-- A status that announces a new image. -/
def WaitStatus.isExec : WaitStatus → Bool
  | event _ n => n == execEvent
  | _ => false

/-- A kernel with what was read of the present image. -/
structure Dated (κ : Type) where
  kernel : κ
  /-- The lowest bytes of the words that were read, with their addresses. -/
  reads : List (UInt64 × UInt8)
  /-- The present image was announced to someone who waited for a thread. -/
  missed : Bool

namespace Dated

variable {κ : Type}

/-- What is kept after an answer. -/
def note (k : Dated κ) : (c : SystemCall) → Except OsError c.Answer → κ → Dated κ
  | .peek _ a, .ok word, kernel => { k with kernel, reads := (a, word.toUInt8) :: k.reads }
  | .poll, .ok (some status), kernel =>
    if status.isExec then ⟨kernel, [], false⟩ else { k with kernel }
  | .wait _, .ok status, kernel => if status.isExec then ⟨kernel, [], true⟩ else { k with kernel }
  | _, _, kernel => { k with kernel }

/-- The kernel goes on by itself, and nothing is read. -/
structure Drifts (k k' : Dated κ) : Prop where
  reads : k'.reads = k.reads
  missed : k'.missed = k.missed

/-- No image was announced but to someone who waited, and no read is forgotten otherwise. -/
structure Grows (k k' : Dated κ) : Prop where
  missed : k'.missed = false → k.missed = false
  reads : k'.missed = false → ∀ x ∈ k.reads, x ∈ k'.reads

theorem Grows.of_eq {k k' : Dated κ} (hmissed : k'.missed = k.missed) (hreads : k'.reads = k.reads) :
    Grows k k' :=
  ⟨hmissed.symm.trans, fun _ _ hx => hreads.symm ▸ hx⟩

variable [Kernel κ]

instance : Kernel (Dated κ) where
  perform c k := ((Kernel.perform c k.kernel).1,
    k.note c (Kernel.perform c k.kernel).1 (Kernel.perform c k.kernel).2)
  file k := Kernel.file k.kernel
  linkTarget? k := Kernel.linkTarget? k.kernel
  process? k := Kernel.process? k.kernel
  lookUp? k := Kernel.lookUp? k.kernel
  outstanding k := Kernel.outstanding k.kernel

/-- The kernel that keeps what was read from now on. -/
def new (k : κ) : Dated κ := ⟨k, [], false⟩

theorem grows_perform {c : SystemCall} (hc : c ≠ .poll) (k : Dated κ) :
    Grows k (Kernel.perform c k).2 := by
  show Grows k (k.note c (Kernel.perform c k.kernel).1 (Kernel.perform c k.kernel).2)
  cases c with
  | poll => exact absurd rfl hc
  | peek tid a =>
    cases (Kernel.perform (.peek tid a) k.kernel).1 with
    | ok word => exact ⟨id, fun _ _ => List.mem_cons_of_mem _⟩
    | error e => exact .of_eq rfl rfl
  | wait tid =>
    cases (Kernel.perform (.wait tid) k.kernel).1 with
    | ok status =>
      rw [note]
      split
      · exact ⟨nofun, nofun⟩
      · exact .of_eq rfl rfl
    | error e => exact .of_eq rfl rfl
  | _ => exact .of_eq rfl rfl

theorem grows_poll {k : Dated κ}
    (h : ∀ tid, (Kernel.perform .poll k).1 ≠ .ok (some (.event tid WaitStatus.execEvent))) :
    Grows k (Kernel.perform .poll k).2 := by
  show Grows k (k.note .poll (Kernel.perform .poll k.kernel).1 (Kernel.perform .poll k.kernel).2)
  have h : ∀ tid, (Kernel.perform .poll k.kernel).1 ≠
      .ok (some (.event tid WaitStatus.execEvent)) := h
  rcases hpoll : (Kernel.perform .poll k.kernel).1 with e | _ | status
  · exact .of_eq rfl rfl
  · exact .of_eq rfl rfl
  · rw [note, if_neg]
    · exact .of_eq rfl rfl
    · intro hexec
      cases status with
      | event tid n =>
        cases beq_iff_eq.mp hexec
        exact h tid hpoll
      | _ => cases hexec

/-- Where a word was read, its lowest byte is noted. -/
theorem mem_reads_peek {tid : Nat} {a word : UInt64} {k : Dated κ}
    (h : (Kernel.perform (.peek tid a) k).1 = .ok word) :
    (a, word.toUInt8) ∈ (Kernel.perform (.peek tid a) k).2.reads := by
  show _ ∈ (k.note (.peek tid a) (Kernel.perform (.peek tid a) k.kernel).1 _).reads
  have h : (Kernel.perform (.peek tid a) k.kernel).1 = .ok word := h
  rw [h]
  exact List.mem_cons_self

end Dated

end Linux

namespace Tracer

variable {κ : Type}

/-! ### Work on breakpoints -/

/-- All bytes under patches are of the present image, unless that was announced to someone who
waited. -/
def Patched.Fresh (p : Patched (Dated κ)) : Prop :=
  p.kernel.missed = false → ∀ b ∈ p.table.entries, b.enabled = true →
    (b.address, b.saved) ∈ p.kernel.reads

/-- Patches stay fresh. -/
structure Refreshes (p p' : Patched (Dated κ)) : Prop where
  fresh : p.Fresh → p'.Fresh

theorem Refreshes.of_grows {k k' : Dated κ} (h : Dated.Grows k k') (t : BreakpointTable) :
    Refreshes ⟨k, t⟩ ⟨k', t⟩ :=
  ⟨fun hp hmissed b hb henabled =>
    h.reads hmissed _ (hp (h.missed hmissed) b hb henabled)⟩

theorem Patched.fresh_of_entries {p : Patched (Dated κ)} (h : p.table.entries = []) : p.Fresh := by
  intro _ b hb
  rw [h] at hb
  exact absurd hb List.not_mem_nil

variable [Kernel κ]

instance : MemoryRelation (Refreshes : Patched (Dated κ) → Patched (Dated κ) → Prop) where
  refl _ := ⟨id⟩
  trans h h' := ⟨fun hp => h'.fresh (h.fresh hp)⟩
  peek tid a p := .of_grows (Dated.grows_perform (c := .peek tid a) nofun _) p.table
  poke tid a word p := .of_grows (Dated.grows_perform (c := .poke tid a word) nofun _) p.table

theorem BreakpointTable.mem_modify {t : BreakpointTable} {a : UInt64} {f : Breakpoint → Breakpoint}
    {b' : Breakpoint} (h : b' ∈ (t.modify a f).entries) :
    ∃ b ∈ t.entries, (b.address = a ∧ b' = f b) ∨ (b.address ≠ a ∧ b' = b) := by
  obtain ⟨b, hb, rfl⟩ := List.mem_map.mp h
  refine ⟨b, hb, ?_⟩
  split
  · rename_i heq
    exact Or.inl ⟨heq, rfl⟩
  · rename_i hne
    exact Or.inr ⟨hne, rfl⟩

namespace Patching

/-- A trap is put in place over a byte that was just read. -/
theorem refreshes_enable (tid : Nat) (a : UInt64) :
    Moves Refreshes (enable tid a : Patching (Dated κ) Unit) := by
  intro p
  rw [enable, ends_get_bind]
  split
  · exact StepRelation.refl p
  · split
    · exact StepRelation.refl p
    · -- The byte that was read is noted when it is saved, and a write does not change that.
      have hpeek : Ends (calls (call (.peek tid a)) : Patching (Dated κ) UInt64) p fun r p₁ =>
          Refreshes p p₁ ∧ ∀ word, r = .ok word → (a, word.toUInt8) ∈ p₁.kernel.reads :=
        ⟨MemoryRelation.peek tid a p, fun word h => Dated.mem_reads_peek h⟩
      refine hpeek.bind ?_ fun _ _ h => h.1
      rintro word p₁ ⟨h₁, hread⟩
      have hread := hread word rfl
      rw [ends_modifyTable_bind]
      let p₂ : Patched (Dated κ) :=
        { p₁ with table := p₁.table.modify a fun b => { b with saved := word.toUInt8 } }
      have hsaved : ∀ b ∈ p₂.table.entries, b.address = a → b.saved = word.toUInt8 := by
        intro b' hb' haddress
        obtain ⟨b, -, ⟨-, rfl⟩ | ⟨hne, rfl⟩⟩ := BreakpointTable.mem_modify hb'
        · rfl
        · exact absurd haddress hne
      have h₂ : Refreshes p₁ p₂ := by
        refine ⟨fun hp hmissed b' hb' henabled => ?_⟩
        obtain ⟨b, hb, ⟨rfl, rfl⟩ | ⟨-, rfl⟩⟩ := BreakpointTable.mem_modify hb'
        · exact hread
        · exact hp hmissed b' hb henabled
      have hpoke : Ends (calls (call (.poke tid a (withLowByte word Breakpoint.trapByte))) :
          Patching (Dated κ) Unit) p₂ fun _ p₃ => Refreshes p₂ p₃ ∧ p₃.table = p₂.table ∧
            Dated.Grows p₂.kernel p₃.kernel :=
        ⟨MemoryRelation.poke tid a _ p₂, rfl, Dated.grows_perform (c := .poke tid a _) nofun _⟩
      have hbefore : Refreshes p p₂ := StepRelation.trans h₁ h₂
      refine hpoke.bind ?_ fun _ _ h => StepRelation.trans hbefore h.1
      rintro _ p₃ ⟨h₃, htable, hgrows⟩
      rw [ends_modifyTable]
      refine StepRelation.trans (StepRelation.trans hbefore h₃) ⟨fun hp hmissed b' hb' henabled => ?_⟩
      obtain ⟨b, hb, ⟨haddress, rfl⟩ | ⟨-, rfl⟩⟩ := BreakpointTable.mem_modify hb'
      · show (b.address, b.saved) ∈ p₃.kernel.reads
        rw [haddress, hsaved b (htable ▸ hb) haddress]
        exact hgrows.reads hmissed _ hread
      · exact hp hmissed b' hb henabled

end Patching

instance : EntryRelation (Refreshes : Patched (Dated κ) → Patched (Dated κ) → Prop) where
  enable := Patching.refreshes_enable
  ease p t h := by
    refine ⟨fun hp hmissed b' hb' henabled => ?_⟩
    cases h with
    | insert a =>
      rcases BreakpointTable.mem_insertEntry hb' with rfl | hb
      · cases henabled
      · exact hp hmissed b' hb henabled
    | modify a haddress _ hsaved hkept =>
      obtain ⟨b, hb, ⟨-, rfl⟩ | ⟨-, rfl⟩⟩ := BreakpointTable.mem_modify hb'
      · rw [haddress, hsaved]
        exact hp hmissed b hb (hkept b henabled)
      · exact hp hmissed b' hb henabled
    | assign a =>
      obtain ⟨b, hb, ⟨-, rfl⟩ | ⟨-, rfl⟩⟩ := BreakpointTable.mem_modify
        (t := p.table) (f := fun b => { b with userId := some (p.table.lastId + 1) }) hb'
      · exact hp hmissed b hb henabled
      · exact hp hmissed b' hb henabled
    | erase a => exact hp hmissed b' (List.mem_filter.mp hb').1 henabled
    | clear => exact absurd hb' List.not_mem_nil

/-! ### Acts -/

/-- What a system puts in place stays fresh. -/
structure Renews (s s' : System (Dated κ)) : Prop where
  fresh : (Tracing.breakpointsOf s).Fresh → (Tracing.breakpointsOf s').Fresh

omit [Kernel κ] in
theorem renews_of_moves {α : Type} {m : Patching (Dated κ) α} (h : Moves Refreshes m)
    (s : System (Dated κ)) :
    Ends m (Tracing.breakpointsOf s) fun _ p => Renews s (Tracing.withBreakpoints s p) :=
  (h (Tracing.breakpointsOf s)).mono fun _ _ hp => ⟨hp.fresh⟩

omit [Kernel κ] in
theorem Renews.of_grows {k k' : Dated κ} (h : Dated.Grows k k') (t : State) :
    Renews ⟨k, t⟩ ⟨k', t⟩ :=
  ⟨(Refreshes.of_grows h t.breakpoints).fresh⟩

instance : RequestRelation (Renews : System (Dated κ) → System (Dated κ) → Prop) where
  refl _ := ⟨id⟩
  trans h h' := ⟨fun hs => h'.fresh (h.fresh hs)⟩
  call c s hc := .of_grows (Dated.grows_perform hc _) s.tracer
  tracer s t hbreakpoints _ _ := by
    refine ⟨fun hs => ?_⟩
    rw [Tracing.breakpointsOf, hbreakpoints]
    exact hs
  exit _ _ _ hbreakpoints _ :=
    ⟨fun _ => Patched.fresh_of_entries (congrArg BreakpointTable.entries hbreakpoints)⟩
  poll s h := .of_grows (Dated.grows_poll h) s.tracer
  image _ _ _ _ _ hbreakpoints _ :=
    ⟨fun _ => Patched.fresh_of_entries (congrArg BreakpointTable.entries hbreakpoints)⟩
  unplan tid a := renews_of_moves (Patching.moves_removePlanned tid a)
  enable tid a := renews_of_moves (Patching.moves_enable tid a)
  disable tid a := renews_of_moves (Patching.moves_disable tid a)
  work h := renews_of_moves h.moves

namespace Tracing

theorem renews_adopt (p : Process) : Moves Renews (adopt p : Tracing (Dated κ) Unit) := by
  have hadopt : Moves Renews (modifyTracer fun t =>
      { t with process := some p, breakpoints := .empty, modules := t.modules.clear } :
      Tracing (Dated κ) Unit) :=
    Moves.modify fun s => ⟨fun _ => Patched.fresh_of_entries rfl⟩
  exact hadopt.bind fun _ => moves_modifySnapshot _

end Tracing

/-- Along a history all patches are fresh. -/
theorem fresh_of_history {program : Option String} {k : κ} {es : List Event} {s : System (Dated κ)}
    (h : History Dated.Drifts ⟨.new k, .new program⟩ es s) : (Tracing.breakpointsOf s).Fresh := by
  have hnew : (Tracing.breakpointsOf (⟨.new k, .new program⟩ : System (Dated κ))).Fresh :=
    Patched.fresh_of_entries rfl
  generalize (⟨.new k, .new program⟩ : System (Dated κ)) = s₀ at h hnew
  induction h with
  | start => exact hnew
  | @act es s a _ ih => exact (a.moves Tracing.renews_adopt s : Renews _ _).fresh ih
  | collect _ ih => exact ih
  | @elapse es s k hdrift _ ih =>
    exact (Renews.of_grows (.of_eq hdrift.missed hdrift.reads) s.tracer).fresh ih

/-! ### New images -/

section Images

variable {κ : Type}

/-- No process appears, and as long as the process is there its breakpoints stay. -/
structure Retains (s s' : System κ) : Prop where
  process : s.tracer.process = none → s'.tracer.process = none
  breakpoints : s'.tracer.process ≠ none → s'.tracer.breakpoints = s.tracer.breakpoints

variable [Kernel κ]

instance : ModulesRelation (Retains : System κ → System κ → Prop) where
  refl _ := ⟨id, fun _ => rfl⟩
  trans h h' := ⟨fun hs => h'.process (h.process hs), fun hu =>
    (h'.breakpoints hu).trans (h.breakpoints fun ht => hu (h'.process ht))⟩
  look _ _ _ := ⟨id, fun _ => rfl⟩
  modules _ _ hprocess _ hbreakpoints _ _ := ⟨hprocess.trans, fun _ => hbreakpoints⟩

instance : QuietRelation (Retains : System κ → System κ → Prop) where
  probe _ _ _ := ⟨id, fun _ => rfl⟩
  process _ _ _ hp _ := ⟨fun hnone => (nomatch hnone.symm.trans hp), fun _ => rfl⟩
  exited _ _ _ := ⟨fun _ => rfl, fun h => absurd rfl h⟩

instance : StepCallRelation (Retains : System κ → System κ → Prop) where
  stepCall _ _ _ := ⟨id, fun _ => rfl⟩

/-- A look that finds a new image of the process drops all breakpoints. -/
theorem Tracing.ends_look_image {s : System κ} {tid : Nat} (hs : s.tracer.process ≠ none)
    (hpoll : (Kernel.perform .poll s.kernel).1 = .ok (some (.event tid WaitStatus.execEvent))) :
    Ends look s fun _ s' => s'.tracer.breakpoints.entries = [] := by
  obtain ⟨p, hp⟩ := Option.ne_none_iff_exists'.mp hs
  have hreport : Moves Barren (do
      markStopped p.pid
      reportStop ⟨p.pid, .exec⟩ : Tracing κ Unit) :=
    (moves_markStopped p.pid).bind fun _ => moves_reportStop _
  refine ends_look (fun hnone => absurd hnone hs) (fun _ hquiet => absurd hpoll (hquiet _))
    (fun _ hgone => nomatch hgone.symm.trans hpoll) fun _ status hstatus => ?_
  cases hstatus.symm.trans hpoll
  let t : System κ := { s with kernel := (Kernel.perform .poll s.kernel).2 }
  exact ends_imageReplaced_of (s := t) hp fun p' _ => (hreport _).mono fun _ _ h => h.entries rfl

end Images

/-- What becomes of patches when the image of the process is replaced: as long as no such status was
met by someone who waited for a thread, each byte under a patch was read in the present image. A look
that finds the status drops all breakpoints. A step and a stop of all threads that meet it keep them. -/
theorem patches_of_history {program : Option String} {k : κ} {es : List Event} {s : System (Dated κ)}
    (h : History Dated.Drifts ⟨.new k, .new program⟩ es s) :
    (Tracing.breakpointsOf s).Fresh ∧
    (∀ tid, s.tracer.process ≠ none →
      (Kernel.perform .poll s.kernel).1 = .ok (some (.event tid WaitStatus.execEvent)) →
      Ends Act.look.operation s fun _ s' => s'.tracer.breakpoints.entries = []) ∧
    (∀ tid, Ends (Tracing.singleStep tid) s fun _ s' => Retains s s') ∧
    (Ends Tracing.stopAll s fun _ s' => Retains s s') ∧
    (Ends Tracing.drainStops s fun _ s' => Retains s s') ∧
    (∀ r : Request, Ends (Engine.operation r) s fun _ s' =>
      History Dated.Drifts ⟨.new k, .new program⟩ es s') ∧
    Ends Tracing.poll s fun _ s' => History Dated.Drifts ⟨.new k, .new program⟩ es s' := by
  refine ⟨fresh_of_history h, fun tid hs hpoll => ?_, fun tid => ?_, ?_, ?_, h.request, h.poll⟩
  · exact (Tracing.ends_discard _ s _).mpr (Tracing.ends_look_image hs hpoll)
  · exact Tracing.moves_singleStep (R := Retains) tid s
  · exact Tracing.moves_stopAll (R := Retains) s
  · exact Tracing.moves_drainStops (R := Retains) s

/-- A tracer that attached to a process on a stage and set a breakpoint. -/
def patched (s : System (Dated Stage)) : System (Dated Stage) :=
  s.through [.perform (.attach 1), .perform (.setBreakpoint 0x1000)]

/-- A tracer on a stage, of which it is kept what was read. -/
def datedStage : System (Dated Stage) :=
  ⟨.new (.bare [.stopped 1 .stop] [.event 1 WaitStatus.execEvent]), .new none⟩

/-- A breakpoint that was set is dropped when a new image is found. -/
theorem patches_dropped :
    History Dated.Drifts datedStage [] (patched datedStage) ∧
    (patched datedStage).kernel.missed = false ∧
    (patched datedStage).tracer.breakpoints.entries.map (fun b => (b.address, b.enabled))
      = [(0x1000, true)] ∧
    (Tracing.breakpointsOf (patched datedStage)).Fresh ∧
    Ends Act.look.operation (patched datedStage) fun _ s' =>
      s'.tracer.breakpoints.entries = [] := by
  have h : History Dated.Drifts datedStage [] (patched datedStage) := .through _ .start
  have hpatches := patches_of_history h
  have hpolls : (patched datedStage).kernel.kernel.polls = [.event 1 WaitStatus.execEvent] := by
    decide +kernel
  have hpoll : (Kernel.perform .poll (patched datedStage).kernel.kernel).1
      = .ok (some (.event 1 WaitStatus.execEvent)) := by
    simp only [Kernel.perform, hpolls]
  refine ⟨h, by decide +kernel, by decide +kernel, hpatches.1, hpatches.2.1 1 ?_ hpoll⟩
  exact Option.isSome_iff_ne_none.mp (by decide +kernel)

/-- A stage whose process has a new image when it is stepped. -/
def replacedStage : System Stage :=
  ⟨{ Stage.bare [.stopped 1 .stop, .event 1 WaitStatus.execEvent, .stopped 1 .trap] [] with
      image := fun _ => 0x11 }, .new none⟩

/-- A step that meets the status of a new image keeps a breakpoint of the old one. What is read of the
new image then shows the byte of the old one. -/
theorem patches_missed : ∃ s : System Stage,
    History (fun _ _ => True) replacedStage [] s ∧
    s.tracer.breakpoints.entries.map (fun b => (b.address, b.enabled, b.saved)) = [(0x1000, true, 0)] ∧
    s.kernel.bytes 0x1000 = 0x11 ∧
    Ends (Tracing.readMemory 0x1000 1) s fun r _ => r.toOption = some [0] := by
  refine ⟨replacedStage.through [.perform (.attach 1), .perform (.setBreakpoint 0x1000),
    .perform (.step 1 .instruction)], .through _ .start, ?_, ?_, ?_⟩
  · decide +kernel
  · decide +kernel
  · show ((Tracing.readMemory 0x1000 1).run.run _).1.toOption = _
    decide +kernel

end Tracer

end DebugAdapter
