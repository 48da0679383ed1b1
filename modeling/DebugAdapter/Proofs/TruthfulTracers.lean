import DebugAdapter.Proofs.LooseThreads
import DebugAdapter.Proofs.PatchRelations
import DebugAdapter.Proofs.ProcessStarts

/-!
# Tracers that know which threads are stopped

What a tracer takes for stopped is not loose, wherever its acts lead. Most dealings with threads let none
go on, and a thread that is let go on is taken for running. A process is taken charge of with threads
that were all reported, and a status that is polled for is a report itself.

Main statement: `truthful_act`.
-/

namespace DebugAdapter.Tracer

open Debuggee
open Linux
open Operation

variable {κ α : Type} {tid : Nat} {s s' : System (Watched κ)}

/-- What is true stays so. -/
structure Tells (s s' : System (Watched κ)) : Prop where
  truthful : Truthful s → Truthful s'

theorem Holds.tells (h : Holds s s') : Tells s s' := ⟨h.truthful⟩

theorem truthful_of_gone (h : s.tracer.process = none) : Truthful s := by
  refine ⟨fun t ht => ?_⟩
  rw [threads_of_gone h] at ht
  exact absurd ht List.not_mem_nil

instance : StepRelation (Tells : System (Watched κ) → System (Watched κ) → Prop) where
  refl _ := ⟨id⟩
  trans h h' := ⟨fun hs => h'.truthful (h.truthful hs)⟩

theorem tells_of_holds {m : Tracing (Watched κ) α} (h : Moves Holds m) : Moves Tells m :=
  h.mono fun _ _ => Holds.tells

/-- An operation that tells the truth, from a state where it was told. -/
theorem truthful_of_tells {m : Tracing (Watched κ) α} (hm : Moves Tells m) (h : Truthful s) :
    Ends m s fun _ s' => Truthful s' :=
  (hm s).mono fun _ _ htells => htells.truthful h

theorem truthful_of_holds {m : Tracing (Watched κ) α} (hm : Ends m s fun _ s' => Holds s s')
    (h : Truthful s) : Ends m s fun _ s' => Truthful s' :=
  hm.mono fun _ _ hholds => hholds.truthful h

/-! ### Patches -/

/-- Neither the loose threads nor the steps matter to patches. -/
structure SameWatch (p p' : Patched (Watched κ)) : Prop where
  loose : p'.kernel.loose = p.kernel.loose
  strays : p'.kernel.strays = p.kernel.strays

variable [Kernel κ]

instance : PatchRelation (SameWatch : Patched (Watched κ) → Patched (Watched κ) → Prop) where
  refl _ := ⟨rfl, rfl⟩
  trans h h' := ⟨h'.loose.trans h.loose, h'.strays.trans h.strays⟩
  peek _ _ _ := ⟨rfl, rfl⟩
  poke tid a word p := by
    have hpoke : ∀ answer, (p.kernel.note (.poke tid a word) answer).loose = p.kernel.loose ∧
        (p.kernel.note (.poke tid a word) answer).strays = p.kernel.strays := by
      intro answer
      cases answer with
      | ok _ => exact ⟨rfl, rfl⟩
      | error e => exact ⟨rfl, rfl⟩
    exact ⟨(hpoke _).1, (hpoke _).2⟩
  table _ _ _ := ⟨rfl, rfl⟩

omit [Kernel κ] in
theorem SameWatch.holds {p : Patched (Watched κ)} (h : SameWatch (Tracing.breakpointsOf s) p) :
    Holds s (Tracing.withBreakpoints s p) :=
  .of_threads (fun _ hu => h.loose ▸ hu) rfl

omit [Kernel κ] in
theorem holds_patching {p : Patching (Watched κ) α} (h : Moves SameWatch p)
    (s : System (Watched κ)) :
    Ends p (Tracing.breakpointsOf s) fun _ t => Holds s (Tracing.withBreakpoints s t) :=
  (h _).mono fun _ _ => SameWatch.holds

instance : ShownRelation (Holds : System (Watched κ) → System (Watched κ) → Prop) where
  shown s t _ hprocess _ := by
    refine .of_threads (fun _ => id) ?_
    have hthreads := congrArg (fun p => (p.map Prod.snd).getD []) hprocess
    simp only [Option.map_map] at hthreads
    exact hthreads

instance : WorkRelation (Holds : System (Watched κ) → System (Watched κ) → Prop) where
  enable tid a := holds_patching (Patching.moves_enable tid a)
  disable tid a := holds_patching (Patching.moves_disable tid a)
  work h := holds_patching h.moves

namespace Tracing

/-! ### Threads that go on -/

/-- A thread that is let go on is taken for running. -/
theorem truthful_continueThread (tid : Nat) (h : Truthful s) :
    Ends (continueThread tid) s fun _ s' => Truthful s' := by
  rw [continueThread, ends_tracer_bind]
  dsimp only
  split
  · refine (truthful_of_holds (moves_takeSignal tid s) h).bind (fun signal t ht => ?_) fun _ _ h => h
    rw [ends_attempt_bind]
    rcases hresume : (Kernel.perform (.resume tid signal) t.kernel).1 with e | _
    · have hfailed : Truthful { t with kernel := (Kernel.perform (.resume tid signal) t.kernel).2 } := by
        refine Holds.truthful (s := t) (.of_threads (fun u hu => ?_) rfl) ht
        rw [Watched.perform_eq hresume] at hu
        exact hu
      cases e with
      | noProcess => exact hfailed
      | _ => exact hfailed
    · refine (threads_modifyThread _ _).mono ?_
      rintro r u ⟨-, hkernel, hthreads⟩
      have hloose : ∀ v ∈ u.kernel.loose, v = tid ∨ v ∈ t.kernel.loose := by
        rw [hkernel, Watched.perform_eq hresume, Watched.note]
        intro v hv
        split at hv
        · exact Or.inr hv
        · exact List.mem_cons.mp hv
      refine ⟨fun v' hv' hstopped hv => ?_⟩
      rw [hthreads] at hv'
      obtain ⟨v, hmem, rfl⟩ := List.mem_map.mp hv'
      split at hstopped
      · cases hstopped
      · rename_i hne
        rw [if_neg hne] at hv
        exact ht.held v hmem hstopped ((hloose _ hv).resolve_left hne)
  · exact h

theorem truthful_drainThread (tid count : Nat) : ∀ {s : System (Watched κ)}, Truthful s →
    Ends (drainThread tid count) s fun _ s' => Truthful s' := by
  induction count with
  | zero => exact fun h => h
  | succ count ih =>
    intro s h
    rw [drainThread, expectedStops, bind_assoc, ends_tracer_bind, pure_bind]
    split
    · exact h
    · refine (truthful_continueThread tid h).bind (fun _ t ht => ?_) fun _ _ h => h
      refine (truthful_of_holds (holds_awaitStop tid t) ht).bind (fun _ u hu => ?_) fun _ _ h => h
      exact ih hu

theorem holds_stepFrom (tid count : Nat) :
    Moves Holds (stepFrom tid count : Tracing (Watched κ) Stepped) := by
  refine moves_stepFrom_of (fun signal => holds_attempt (c := .step tid signal) nofun) (fun s => ?_)
    (holds_threadGone tid none) count
  exact (holds_await (fun _ => rfl) (fun _ _ => holds_judgeStep) s).mono fun _ _ h => h.1

end Tracing

omit [Kernel κ] in
theorem moves_tells {m : Tracing (Watched κ) α}
    (h : ∀ {s : System (Watched κ)}, Truthful s → Ends m s fun _ s' => Truthful s') : Moves Tells m :=
  fun s => (Ends.imp (p := Truthful s) h).mono fun _ _ h => ⟨h⟩

instance : ModulesRelation (Tells : System (Watched κ) → System (Watched κ) → Prop) where
  look c s hc := (LookRelation.look c s hc : Holds s _).tells
  modules s t hprocess hsnapshot hbreakpoints houtput hevents :=
    (ModulesRelation.modules s t hprocess hsnapshot hbreakpoints houtput hevents :
      Holds s _).tells

instance : DeedRelation (Tells : System (Watched κ) → System (Watched κ) → Prop) where
  input _ _ _ hp := Holds.tells (.of_threads (fun _ => id) (threads_of_present hp).symm)
  continueThread tid := moves_tells (Tracing.truthful_continueThread tid)
  drainThread tid count := moves_tells (Tracing.truthful_drainThread tid count)
  stopThread tid := tells_of_holds (Tracing.holds_stopThread tid)
  singleStep tid := tells_of_holds (Tracing.holds_stepFrom tid _)
  shown s t hbreakpoints hprocess houtput :=
    (ShownRelation.shown s t hbreakpoints hprocess houtput : Holds s _).tells
  unplan tid a s := (holds_patching (Patching.moves_removePlanned tid a) s).mono fun _ _ => Holds.tells
  enable tid a s := (ToggleRelation.enable (R := Holds) tid a s).mono fun _ _ => Holds.tells
  disable tid a s := (ToggleRelation.disable (R := Holds) tid a s).mono fun _ _ => Holds.tells
  work h s := (WorkRelation.work (R := Holds) h s).mono fun _ _ => Holds.tells

namespace Tracing

/-! ### Ends of a process -/

omit [Kernel κ] in
theorem holds_processExited (status : Option Int) :
    Moves Holds (processExited status : Tracing (Watched κ) Unit) :=
  fun _ => .of_gone rfl rfl

theorem holds_judgeKill (pid : Nat) {status : WaitStatus} (h : Seen status.tid status s) :
    Ends (judgeKill pid status) s fun _ s' => Holds s s' := by
  rw [judgeKill.eq_def]
  split
  · exact StepRelation.refl s
  · exact StepRelation.refl s
  · split
    · rename_i tid n hexit
      exact (holds_letExit (h.leaving tid (hexit ▸ rfl))).bind_along fun _ t _ => StepRelation.refl t
    · exact StepRelation.refl s
  · exact StepRelation.refl s

theorem holds_kill : Moves Holds (kill : Tracing (Watched κ) Unit) := by
  refine moves_process.bind fun p => ?_
  dsimp only
  have hsignal : Moves Holds (require (.syscall "kill") (.kill p.pid .kill) :
      Tracing (Watched κ) Unit) := moves_require_of_attempt _ (holds_attempt (c := .kill p.pid .kill) nofun)
  have hjudge : ∀ (status : WaitStatus) (t : System (Watched κ)),
      Seen ((none : Option Nat).getD status.tid) status t →
      Ends (judgeKill p.pid status) t fun _ u => Holds t u := fun _ _ => holds_judgeKill p.pid
  have hawait : Moves Holds (await none (judgeKill p.pid) :
      Tracing (Watched κ) (Except OsError Int)) := fun s =>
    (holds_await (fun _ => rfl) hjudge s).mono fun _ _ h => h.1
  refine hsignal.bind fun _ => hawait.bind fun result => ?_
  split
  · exact holds_processExited _
  · exact holds_processExited _
  · exact Moves.throw _

theorem holds_interrupt : Moves Holds (interrupt : Tracing (Watched κ) Unit) := by
  refine moves_process.bind fun p => ?_
  dsimp only
  split
  · exact Moves.pure _
  · rename_i tid _
    have hsignal : Moves Holds (require (.syscall "tgkill") (.killThread p.pid tid .stop) :
        Tracing (Watched κ) Unit) :=
      moves_require_of_attempt _ (holds_attempt (c := .killThread p.pid tid .stop) nofun)
    refine hsignal.bind fun _ => (moves_expectStop tid).bind fun _ => ?_
    exact moves_noteProcess (fun _ => rfl) fun _ => rfl

theorem truthful_detach (h : Truthful s) : Ends detach s fun _ s' => Truthful s' := by
  rw [detach_eq]
  refine (truthful_of_tells (moves_takeBack moves_cancelPlan) h).bind (fun going t ht => ?_)
    fun _ _ h => h
  split
  · refine (ends_letGo t).mono fun r u hu => truthful_of_gone ?_
    rw [hu.2]
  · exact ht

theorem truthful_destroy (h : Truthful s) : Ends destroy s fun _ s' => Truthful s' := by
  rw [destroy, ends_tracer_bind]
  split
  · exact h
  · split
    · exact truthful_of_holds (holds_kill s) h
    · exact truthful_detach h

/-! ### Starts of a process -/

theorem holds_startProgram (program : String) (info : LaunchInfo) (s : System (Watched κ)) :
    Ends (startProgram program info) s fun r s' =>
      Holds s s' ∧ ∀ pid, r = .ok pid → pid ∉ s'.kernel.loose := by
  unfold startProgram
  split
  · exact ⟨StepRelation.refl s, nofun⟩
  · have hspawn : Moves Holds (require .io (.spawn program info) : Tracing (Watched κ) Nat) :=
      moves_require_of_attempt _ (holds_attempt (c := .spawn program info) nofun)
    refine (hspawn s).bind (fun pid t ht => ?_) fun _ _ h => ⟨h, nofun⟩
    have hjudge : ∀ (status : WaitStatus) (u : System (Watched κ)), Seen pid status u →
        Ends (judgeLaunch status) u fun _ v => Holds u v := by
      intro status u _
      unfold judgeLaunch
      split <;> exact StepRelation.refl u
    refine (holds_await (fun _ => rfl) hjudge t).bind (fun result u hu => ?_)
      fun _ _ h => ⟨StepRelation.trans ht h.1, nofun⟩
    have hsu := StepRelation.trans ht hu.1
    split
    · have hoptions : Moves Holds (require .ptrace (.setOptions pid launchOptions) :
          Tracing (Watched κ) Unit) :=
        moves_require_of_attempt _ (holds_attempt (c := .setOptions pid launchOptions) nofun)
      refine (hoptions u).bind (fun _ v hv => ?_) fun _ _ h => ⟨StepRelation.trans hsu h, nofun⟩
      refine ⟨StepRelation.trans hsu hv, ?_⟩
      rintro _ ⟨⟩ hloose
      exact hu.2 pid rfl () rfl (hv.loose pid hloose)
    · exact ⟨hsu, nofun⟩

omit [Kernel κ] in
/-- If no process is made the state says so. -/
theorem holds_orUnload {m : Tracing (Watched κ) α} {Q : α → System (Watched κ) → Prop}
    (hm : Ends m s fun r t => Holds s t ∧ ∀ a, r = .ok a → Q a t) :
    Ends (orUnload m) s fun r t => Holds s t ∧ ∀ a, r = .ok a → Q a t := by
  unfold orUnload
  rw [ends_tryCatch]
  refine hm.mono fun r t h => ?_
  cases r with
  | ok a => exact h
  | error e => exact ⟨StepRelation.trans h.1 (.of_threads (fun _ => id) rfl), nofun⟩

omit [Kernel κ] in
/-- A process is taken charge of whose threads are not loose. -/
theorem truthful_adopting {p : Process} {t : State} {k : Watched κ}
    (h : ∀ u ∈ p.threads, u.tid ∉ k.loose) : Truthful ⟨k, t.adopting p⟩ :=
  ⟨fun u hu _ => h u hu⟩

theorem truthful_launchToEntry (info : LaunchInfo) (h : Truthful s) :
    Ends (launchToEntry info) s fun _ s' => Truthful s' := by
  rw [launchToEntry, hasProcess, bind_assoc, ends_tracer_bind, pure_bind]
  rcases hp : s.tracer.process with _ | p
  · show Ends (tracer >>= _) s _
    rw [ends_tracer_bind]
    split
    · exact h
    · rename_i program _
      rw [ends_begin_bind]
      refine (holds_orUnload (holds_startProgram program info _)).bind (fun pid t ht => ?_)
        fun _ _ hfailed => hfailed.1.truthful (truthful_of_gone hp)
      rw [ends_programOf_bind, ends_adopt_bind]
      refine truthful_of_tells (moves_reportStop _) (truthful_adopting fun u hu => ?_)
      rw [List.eq_of_mem_singleton hu]
      exact ht.2 pid rfl
  · exact h

theorem holds_attachThread (pid tid : Nat) (s : System (Watched κ)) :
    Ends (attachThread pid tid) s fun r s' =>
      Holds s s' ∧ ∀ t, r = .ok (some t) → t.tid ∉ s'.kernel.loose := by
  have hmoves : Ends (attachThread pid tid) s fun r s' =>
      Holds s s' ∧ ∀ t, r = .ok (some t) → tid ∉ s'.kernel.loose := by
    unfold attachThread
    refine Ends.bind (holds_attempt (c := .attach tid) nofun s) (fun answer t ht => ?_)
      fun _ _ h => ⟨h, nofun⟩
    split
    · split
      · exact ⟨ht, nofun⟩
      · exact ⟨ht, nofun⟩
    · exact ⟨ht, nofun⟩
    · have hjudge : ∀ (status : WaitStatus) (u : System (Watched κ)), Seen tid status u →
          Ends (judgeAttach tid status) u fun _ v => Holds u v := by
        intro status u _
        unfold judgeAttach
        split <;> exact StepRelation.refl u
      refine (holds_await (fun _ => rfl) hjudge t).bind (fun result u hu => ?_)
        fun _ _ h => ⟨StepRelation.trans ht h.1, nofun⟩
      have hsu := StepRelation.trans ht hu.1
      split
      · exact ⟨hsu, nofun⟩
      · exact ⟨hsu, nofun⟩
      · rename_i thread
        have hoptions : Moves Holds (require .ptrace (.setOptions tid eventOptions) :
            Tracing (Watched κ) Unit) :=
          moves_require_of_attempt _ (holds_attempt (c := .setOptions tid eventOptions) nofun)
        refine (hoptions u).bind (fun _ v hv => ?_) fun _ _ h => ⟨StepRelation.trans hsu h, nofun⟩
        exact ⟨StepRelation.trans hsu hv, fun _ _ hloose =>
          hu.2 tid rfl (some thread) rfl (hv.loose tid hloose)⟩
  refine (hmoves.and (halted_attachThread pid tid s)).mono ?_
  rintro r s' ⟨⟨hholds, hloose⟩, hthread⟩
  refine ⟨hholds, fun t ht => ?_⟩
  rw [(hthread t ht).1]
  exact hloose t ht

theorem holds_attachThreads (pid : Nat) (tids : List Nat) :
    ∀ (ts : List Thread) (s : System (Watched κ)), (∀ t ∈ ts, t.tid ∉ s.kernel.loose) →
    Ends (attachThreads pid tids ts) s fun r s' =>
      Holds s s' ∧ ∀ us, r = .ok us → ∀ t ∈ us, t.tid ∉ s'.kernel.loose := by
  induction tids with
  | nil =>
    intro ts s h
    refine ⟨StepRelation.refl s, ?_⟩
    rintro _ ⟨⟩
    exact h
  | cons tid rest ih =>
    intro ts s h
    rw [attachThreads]
    refine (holds_attachThread pid tid s).bind (fun thread t ht => ?_) fun _ _ h => ⟨h.1, nofun⟩
    have hkept : ∀ u ∈ ts, u.tid ∉ t.kernel.loose := fun u hu hloose => h u hu (ht.1.loose _ hloose)
    split
    · rename_i v
      refine (ih _ t fun u hu => ?_).mono fun _ _ hv => ⟨StepRelation.trans ht.1 hv.1, hv.2⟩
      rcases Process.mem_insertThread hu with rfl | hu
      · exact ht.2 _ rfl
      · exact hkept u hu
    · exact (ih ts t hkept).mono fun _ _ hv => ⟨StepRelation.trans ht.1 hv.1, hv.2⟩

theorem holds_attachRounds (pid rounds : Nat) : ∀ (a : Attached) (s : System (Watched κ)),
    (∀ t ∈ a.threads, t.tid ∉ s.kernel.loose) →
    Ends (attachRounds pid rounds a) s fun r s' =>
      Holds s s' ∧ ∀ b, r = .ok b → ∀ t ∈ b.threads, t.tid ∉ s'.kernel.loose := by
  induction rounds with
  | zero =>
    intro a s h
    refine ⟨StepRelation.refl s, ?_⟩
    rintro _ ⟨⟩
    exact h
  | succ rounds ih =>
    intro a s h
    unfold attachRounds
    rw [ends_get_bind]
    split
    · split
      · exact ⟨StepRelation.refl s, nofun⟩
      · refine ⟨StepRelation.refl s, ?_⟩
        rintro _ ⟨⟩
        exact h
    · refine (holds_attachThreads pid _ a.threads s h).bind (fun threads t ht => ?_)
        fun _ _ h => ⟨h.1, nofun⟩
      refine (ih _ t (ht.2 threads rfl)).mono fun _ _ hu => ⟨StepRelation.trans ht.1 hu.1, hu.2⟩

theorem truthful_attach (pid : Nat) (h : Truthful s) : Ends (attach pid) s fun _ s' => Truthful s' := by
  rw [attach, hasProcess, bind_assoc, ends_tracer_bind, pure_bind]
  rcases hp : s.tracer.process with _ | p
  · show Ends (begin .attaching >>= _) s _
    rw [ends_begin_bind]
    have hrounds := holds_attachRounds pid 2 ⟨[], none⟩
      (⟨s.kernel, s.tracer.begun .attaching⟩ : System (Watched κ)) fun _ h => absurd h List.not_mem_nil
    refine (holds_orUnload hrounds).bind (fun attached t ht => ?_)
      fun _ _ hfailed => hfailed.1.truthful (truthful_of_gone hp)
    rw [ends_modifyTracer_bind, ends_programOf_bind, ends_adopt_bind]
    exact truthful_of_tells (moves_reportStop _) (truthful_adopting (ht.2 attached rfl))
  · exact h

/-! ### Statuses -/

omit [Kernel κ] in
theorem truthful_of_held (h : s.kernel.loose = []) : Truthful s :=
  ⟨fun _ _ _ => h ▸ List.not_mem_nil⟩

omit [Kernel κ] in
/-- What lets no thread go on may come before what tells the truth. -/
theorem truthful_bind {β : Type} {m : Tracing (Watched κ) α} {f : α → Tracing (Watched κ) β}
    (hm : Ends m s fun _ t => Holds s t) (hf : ∀ a, Moves Tells (f a)) (h : Truthful s) :
    Ends (m >>= f) s fun _ s' => Truthful s' :=
  (truthful_of_holds hm h).bind (fun a _ ht => truthful_of_tells (hf a) ht) fun _ _ ht => ht

/-- A status of a thread that was just reported, unless it announces a new image. -/
theorem truthful_handle {status : WaitStatus} (h : Truthful s) (hseen : Seen status.tid status s)
    (himage : ∀ tid, status ≠ .event tid WaitStatus.execEvent) :
    Ends (handle status) s fun _ s' => Truthful s' := by
  rw [handle.eq_def]
  split
  · exact truthful_of_holds (holds_threadGone _ _ s) h
  · exact truthful_of_holds (holds_threadGone _ _ s) h
  · rename_i tid n
    have hheld : tid ∉ s.kernel.loose := hseen.held rfl
    split
    · refine truthful_bind (holds_threadCloned hheld) (fun new => ?_) h
      exact (ConductRelation.continueThread tid).bind fun _ => ConductRelation.continueThread new
    · split
      · rename_i hexec
        exact absurd (congrArg (WaitStatus.event tid) hexec) (himage tid)
      · exact truthful_bind (holds_markStopped hheld)
          (fun _ => ConductRelation.continueThread tid) h
  · rename_i tid
    have hheld : tid ∉ s.kernel.loose := hseen.held rfl
    rw [stopSignalSeen, ends_tracer_bind]
    dsimp only
    split
    · refine truthful_of_holds (Ends.bind_along (moves_process s) fun _ t ht => ?_) h
      exact holds_addThread fun hloose => hheld (ht.loose tid hloose)
    · refine truthful_bind (holds_markStopped hheld) (fun _ => ?_) h
      refine moves_process.bind fun p => (tells_of_holds (moves_consumeStop tid)).bind fun expected => ?_
      split
      · exact ConductRelation.continueThread tid
      · exact moves_reportStop _
  · rename_i tid
    refine truthful_bind (holds_markStopped (hseen.held rfl)) (fun _ => ?_) h
    refine (moves_trapOf tid).bind fun trap => ?_
    cases trap with
    | breakpoint address => exact moves_breakpointMet tid address
    | step => exact moves_reportStop _
    | programTrap => exact moves_reportStop _
    | signal => exact (tells_of_holds (moves_keepSignal tid _)).bind fun _ => moves_reportStop _
  · rename_i tid signal _ _
    refine truthful_bind (holds_markStopped (hseen.held rfl)) (fun _ => ?_) h
    refine (tells_of_holds (moves_keepSignal tid signal)).bind fun _ => ?_
    split
    · exact ConductRelation.continueThread tid
    · exact moves_reportStop _
  · exact h

theorem truthful_imageReplaced (tid : Nat) (h : s.kernel.loose = []) :
    Ends (imageReplaced tid) s fun _ s' => Truthful s' := by
  rcases hp : s.tracer.process with _ | p
  · exact (ends_process_bind_none hp _ _).mpr (truthful_of_gone hp)
  · refine ends_imageReplaced_of hp fun p' _ => ?_
    exact truthful_bind (holds_markStopped (h ▸ List.not_mem_nil)) (fun _ => moves_reportStop _)
      (truthful_of_held h)

theorem truthful_look (h : Truthful s) : Ends look s fun _ s' => Truthful s' := by
  have hcall : Holds s { s with kernel := (Kernel.perform .poll s.kernel).2 } :=
    holds_attempt (c := .poll) nofun s
  refine ends_look (fun _ => h) (fun _ _ => hcall.truthful h) (fun _ _ => truthful_of_gone rfl)
    fun _ status hpoll => ?_
  by_cases himage : ∃ tid, status = .event tid WaitStatus.execEvent
  · obtain ⟨tid, rfl⟩ := himage
    refine truthful_imageReplaced tid ?_
    show (Kernel.perform .poll s.kernel).2.loose = []
    rw [Watched.perform_eq hpoll]
    exact Watched.loose_report_exec s.kernel tid tid
  · exact truthful_handle (hcall.truthful h) (seen_poll hpoll) fun tid heq => himage ⟨tid, heq⟩

/-- An act tells the truth. -/
theorem truthful_act (a : Act) (h : Truthful s) : Ends a.operation s fun _ s' => Truthful s' := by
  have hdiscard : ∀ {α : Type} {m : Tracing (Watched κ) α}, Ends m s (fun _ s' => Truthful s') →
      Ends (do let _ ← m : Tracing (Watched κ) Unit) s fun _ s' => Truthful s' :=
    (ends_discard _ s Truthful).mpr
  cases a with
  | look => exact hdiscard (truthful_look h)
  | perform r =>
    cases r with
    | launch info => exact truthful_launchToEntry info h
    | attach pid => exact hdiscard (truthful_attach pid h)
    | resume => exact hdiscard (truthful_of_tells moves_resume h)
    | step tid kind => exact hdiscard (truthful_of_tells (moves_step tid kind) h)
    | interrupt => exact hdiscard (truthful_of_holds (holds_interrupt s) h)
    | kill => exact hdiscard (truthful_of_holds (holds_kill s) h)
    | detach => exact hdiscard (truthful_detach h)
    | destroy => exact hdiscard (truthful_destroy h)
    | _ => exact hdiscard (truthful_of_tells (moves_operation_of_isAside rfl) h)

end Tracing

end DebugAdapter.Tracer
