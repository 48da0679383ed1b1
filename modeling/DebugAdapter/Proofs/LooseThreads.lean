import DebugAdapter.Proofs.TracerActs

/-!
# Threads that were let go on

A `Watched` kernel keeps which threads were let go on and were not reported since. They are loose: they
may execute anything. A thread that steps is not, it stops by itself after one instruction, and neither is
one that was reported to be about to exit. The kernel also keeps each step of a thread that was made
while another one was loose.

What a tracer takes for stopped is not loose (`Truthful`). All that it does to stop threads and to step
them lets no thread go on (`Holds`), since it looks at each report before it takes a thread for stopped.
-/

namespace DebugAdapter

open Debuggee
open Linux
open Operation

namespace Linux

/-- A status that tells of no stop. -/
def WaitStatus.isContinued : WaitStatus → Bool
  | continued _ => true
  | _ => false

/-- A step of a thread while others were loose. -/
structure Stray where
  tid : Nat
  others : List Nat
  /-- The last write to memory put no trap in place. -/
  lifted : Bool
  deriving Repr, DecidableEq

/-- A kernel that keeps which threads are loose. -/
structure Watched (κ : Type) where
  kernel : κ
  /-- The threads that were let go on and were not reported since. -/
  loose : List Nat
  /-- The threads that were reported to be about to exit. -/
  leaving : List Nat
  /-- The last write to memory put no trap in place. -/
  lifted : Bool
  strays : List Stray

namespace Watched

variable {κ : Type}

/-- What is kept of a status, by the thread that it is taken to be about. With a new image all other
threads are gone. -/
def report (k : Watched κ) (tid : Nat) : WaitStatus → Watched κ
  | .continued _ => k
  | .event _ n =>
    { k with
      loose := if n = WaitStatus.execEvent then [] else k.loose.filter (· ≠ tid)
      leaving := if n = WaitStatus.exitEvent then tid :: k.leaving else k.leaving.filter (· ≠ tid) }
  | _ => { k with loose := k.loose.filter (· ≠ tid), leaving := k.leaving.filter (· ≠ tid) }

/-- A thread steps. -/
def step (k : Watched κ) (tid : Nat) : Watched κ :=
  if k.loose.all (· = tid) then k
  else { k with strays := k.strays ++ [⟨tid, k.loose.filter (· ≠ tid), k.lifted⟩] }

/-- What is kept after an answer. -/
def note (k : Watched κ) : (c : SystemCall) → Except OsError c.Answer → Watched κ
  | .wait who, .ok status => k.report (who.getD status.tid) status
  | .poll, .ok (some status) => k.report status.tid status
  | .resume tid _, .ok _ =>
    if tid ∈ k.leaving then k else { k with loose := tid :: k.loose }
  | .step tid _, .ok _ => k.step tid
  | .poke _ _ word, .ok _ => { k with lifted := word.toUInt8 != Tracer.Breakpoint.trapByte }
  | _, _ => k

/-- The kernel goes on by itself. -/
structure Drifts (k k' : Watched κ) : Prop where
  loose : k'.loose = k.loose
  strays : k'.strays = k.strays

/-- The kernel that keeps what happens from now on. -/
def new (k : κ) : Watched κ := ⟨k, [], [], false, []⟩

variable [Kernel κ]

instance : Kernel (Watched κ) where
  perform c k :=
    let (answer, kernel) := Kernel.perform c k.kernel
    (answer, { k.note c answer with kernel })
  file k := Kernel.file k.kernel
  linkTarget? k := Kernel.linkTarget? k.kernel
  process? k := Kernel.process? k.kernel
  lookUp? k := Kernel.lookUp? k.kernel
  outstanding k := Kernel.outstanding k.kernel

theorem perform_eq {c : SystemCall} {k : Watched κ} {answer : Except OsError c.Answer}
    (h : (Kernel.perform c k).1 = answer) : (Kernel.perform c k).2
      = { k.note c answer with kernel := (Kernel.perform c k.kernel).2 } := by
  rw [← h]
  rfl

omit [Kernel κ] in
theorem loose_report_exec (k : Watched κ) (tid u : Nat) :
    (k.report tid (.event u WaitStatus.execEvent)).loose = [] := by
  simp only [report, if_true]

omit [Kernel κ] in
theorem mem_loose_report {k : Watched κ} {tid u : Nat} {status : WaitStatus}
    (h : u ∈ (k.report tid status).loose) : u ∈ k.loose := by
  cases status with
  | continued v => exact h
  | event v n =>
    rw [report] at h
    dsimp only at h
    split at h
    · exact absurd h List.not_mem_nil
    · exact (List.mem_filter.mp h).1
  | _ => exact (List.mem_filter.mp h).1

omit [Kernel κ] in
/-- Only a call to let a thread go on makes one loose. -/
theorem mem_loose_note {c : SystemCall} (hc : ∀ tid signal, c ≠ .resume tid signal) {k : Watched κ}
    {answer : Except OsError c.Answer} {u : Nat} (h : u ∈ (k.note c answer).loose) : u ∈ k.loose := by
  cases c with
  | resume tid signal => exact absurd rfl (hc tid signal)
  | wait who =>
    cases answer with
    | ok status => exact mem_loose_report h
    | error e => exact h
  | poll =>
    rcases answer with e | _ | status
    · exact h
    · exact h
    · exact mem_loose_report h
  | step tid signal =>
    cases answer with
    | ok _ =>
      rw [note, step] at h
      split at h
      · exact h
      · exact h
    | error e => exact h
  | poke tid a word =>
    cases answer with
    | ok _ => exact h
    | error e => exact h
  | _ => exact h

end Watched

end Linux

namespace Tracer

variable {κ α : Type} {tid : Nat} {s s' : System (Watched κ)}

/-- What a tracer takes for stopped is not loose. -/
structure Truthful (s : System (Watched κ)) : Prop where
  held : ∀ t ∈ s.threads, t.running = false → t.tid ∉ s.kernel.loose

/-- No thread gets loose, and none that is loose is taken for stopped. -/
structure Holds (s s' : System (Watched κ)) : Prop where
  loose : ∀ u ∈ s'.kernel.loose, u ∈ s.kernel.loose
  stopped : ∀ t' ∈ s'.threads, t'.running = false → t'.tid ∈ s'.kernel.loose →
    ∃ t ∈ s.threads, t.tid = t'.tid ∧ t.running = false

theorem Holds.truthful (h : Holds s s') (hs : Truthful s) : Truthful s' := by
  refine ⟨fun t' ht' hstopped hloose => ?_⟩
  obtain ⟨t, ht, htid, hrunning⟩ := h.stopped t' ht' hstopped hloose
  exact hs.held t ht hrunning (htid ▸ h.loose _ hloose)

theorem Holds.of_subset (hloose : ∀ u ∈ s'.kernel.loose, u ∈ s.kernel.loose)
    (hthreads : ∀ t ∈ s'.threads, t ∈ s.threads) : Holds s s' :=
  ⟨hloose, fun t ht hstopped _ => ⟨t, hthreads t ht, rfl, hstopped⟩⟩

theorem Holds.of_threads (hloose : ∀ u ∈ s'.kernel.loose, u ∈ s.kernel.loose)
    (hthreads : s'.threads = s.threads) : Holds s s' :=
  .of_subset hloose fun _ ht => hthreads ▸ ht

theorem Holds.of_gone (hloose : s'.kernel.loose = s.kernel.loose)
    (hprocess : s'.tracer.process = none) : Holds s s' := by
  refine .of_subset (fun _ hu => hloose ▸ hu) fun t ht => ?_
  rw [threads_of_gone hprocess] at ht
  exact absurd ht List.not_mem_nil

instance : StepRelation (Holds : System (Watched κ) → System (Watched κ) → Prop) where
  refl _ := .of_threads (fun _ => id) rfl
  trans h h' := by
    refine ⟨fun u hu => h.loose u (h'.loose u hu), fun t'' ht'' hstopped hloose => ?_⟩
    obtain ⟨t', ht', htid', hstopped'⟩ := h'.stopped t'' ht'' hstopped hloose
    obtain ⟨t, ht, htid, hrunning⟩ :=
      h.stopped t' ht' hstopped' (htid' ▸ h'.loose _ hloose)
    exact ⟨t, ht, htid.trans htid', hrunning⟩

namespace Tracing

/-! ### What is noted of threads -/

/-- A thread may be taken for stopped if it is not loose. -/
theorem holds_modifyThread {f : Thread → Thread} (htid : ∀ t, (f t).tid = t.tid)
    (hstopped : ∀ t, (f t).running = false → t.running = false ∨ tid ∉ s.kernel.loose) :
    Ends (modifyThread tid f) s fun _ s' => Holds s s' := by
  refine (threads_modifyThread f s).mono ?_
  rintro r s' ⟨-, hkernel, hthreads⟩
  refine ⟨fun u hu => hkernel ▸ hu, fun t' ht' hrunning hloose => ?_⟩
  rw [hthreads] at ht'
  obtain ⟨t, ht, rfl⟩ := List.mem_map.mp ht'
  split at hrunning
  · rename_i heq
    rw [if_pos heq] at hloose ⊢
    rw [htid, heq, hkernel] at hloose
    exact ⟨t, ht, (htid t).symm, (hstopped t hrunning).resolve_right fun h => h hloose⟩
  · rename_i hne
    rw [if_neg hne]
    exact ⟨t, ht, rfl, hrunning⟩

theorem holds_markStopped (h : tid ∉ s.kernel.loose) :
    Ends (markStopped tid) s fun _ s' => Holds s s' :=
  holds_modifyThread (fun _ => rfl) fun _ _ => Or.inr h

/-- A thread that is not loose is taken note of. -/
theorem holds_addThread (h : tid ∉ s.kernel.loose) :
    Ends (modifyProcess (·.addThread tid)) s fun _ s' => Holds s s' := by
  refine ⟨fun _ => id, fun t' ht' hstopped hloose => ?_⟩
  rcases hp : s.tracer.process with _ | p
  · have hgone : s.tracer.process.map (·.addThread tid) = none := by rw [hp, Option.map_none]
    rw [threads_of_gone hgone] at ht'
    exact absurd ht' List.not_mem_nil
  · have hpresent : s.tracer.process.map (·.addThread tid) = some (p.addThread tid) := by
      rw [hp, Option.map_some]
    rw [threads_of_present hpresent] at ht'
    rcases Process.mem_insertThread ht' with rfl | ht
    · exact absurd hloose h
    · exact ⟨t', threads_of_present hp ▸ ht, rfl, hstopped⟩

theorem holds_threadGone (tid : Nat) (status : Option Int) :
    Moves Holds (threadGone tid status : Tracing (Watched κ) Unit) := by
  intro s
  rw [threadGone, ends_tracer_bind]
  split
  · exact StepRelation.refl s
  · rename_i p hp
    rw [modifyProcess, ends_modifyTracer_bind, hp]
    split
    · exact .of_gone rfl rfl
    · refine .of_subset (fun _ => id) fun t ht => ?_
      rw [threads_of_present hp]
      exact (List.mem_filter.mp ht).1

variable [Kernel κ]

/-- A call that lets no thread go on. -/
theorem holds_attempt {c : SystemCall} (hc : ∀ tid signal, c ≠ .resume tid signal) :
    Moves Holds (attempt c : Tracing (Watched κ) (Except OsError c.Answer)) :=
  fun _ => .of_threads (fun _ => Watched.mem_loose_note hc) rfl

/-- A thread that is about to exit does not get loose. -/
theorem holds_letExit (h : tid ∈ s.kernel.leaving) :
    Ends (letExit tid) s fun _ s' => Holds s s' := by
  rw [letExit, ends_attempt_bind]
  refine .of_threads (fun u hu => ?_) rfl
  cases hresume : (Kernel.perform (.resume tid none) s.kernel).1 with
  | error e =>
    rw [Watched.perform_eq hresume] at hu
    exact hu
  | ok _ =>
    rw [Watched.perform_eq hresume, Watched.note, if_pos h] at hu
    exact hu

end Tracing

variable [Kernel κ]

instance : ModulesRelation (Holds : System (Watched κ) → System (Watched κ) → Prop) where
  look c s hc := by
    refine .of_threads (fun _ => Watched.mem_loose_note fun tid signal heq => ?_) rfl
    subst heq
    cases hc
  modules _ _ hprocess _ _ _ _ := .of_threads (fun _ => id) (threads_of_process hprocess)

instance : NoteRelation (Holds : System (Watched κ) → System (Watched κ) → Prop) where
  note _ _ htid hrunning _ :=
    Tracing.holds_modifyThread htid fun t h => Or.inl ((hrunning t).symm.trans h)

/-! ### Reports -/

/-- A status of a thread was reported, and nothing has happened since. -/
structure Seen (tid : Nat) (status : WaitStatus) (s : System (Watched κ)) : Prop where
  held : status.isContinued = false → tid ∉ s.kernel.loose
  leaving : ∀ u, status = .event u WaitStatus.exitEvent → tid ∈ s.kernel.leaving

omit [Kernel κ] in
theorem seen_report {k : Watched κ} {status : WaitStatus} {kernel : κ}
    (h : s.kernel = { k.report tid status with kernel }) : Seen tid status s := by
  have hfilter : tid ∉ k.loose.filter (· ≠ tid) := fun h =>
    of_decide_eq_true (List.mem_filter.mp h).2 rfl
  refine ⟨fun hreport => ?_, fun u heq => ?_⟩
  · rw [h]
    cases status with
    | continued u => cases hreport
    | event u n =>
      rw [Watched.report]
      dsimp only
      split
      · exact List.not_mem_nil
      · exact hfilter
    | _ => exact hfilter
  · subst heq
    rw [h, Watched.report]
    dsimp only
    rw [if_pos rfl]
    exact List.mem_cons_self

theorem seen_wait {who : Option Nat} {status : WaitStatus}
    (h : (Kernel.perform (.wait who) s.kernel).1 = .ok status) :
    Seen (who.getD status.tid) status
      { s with kernel := (Kernel.perform (.wait who) s.kernel).2 } :=
  seen_report (Watched.perform_eq h)

theorem seen_poll {status : WaitStatus}
    (h : (Kernel.perform .poll s.kernel).1 = .ok (some status)) :
    Seen status.tid status { s with kernel := (Kernel.perform .poll s.kernel).2 } :=
  seen_report (Watched.perform_eq h)

namespace Tracing

/-- A wait that lets no thread go on. What ends it is a report, so the thread is not loose then. -/
theorem holds_await {who : Option Nat} {judge : WaitStatus → Tracing (Watched κ) (Option α)}
    (hcontinued : ∀ u, judge (.continued u) = pure none)
    (hjudge : ∀ status s, Seen (who.getD status.tid) status s →
      Ends (judge status) s fun _ s' => Holds s s') (s : System (Watched κ)) :
    Ends (await who judge) s fun r s' => Holds s s' ∧
      ∀ tid, who = some tid → ∀ a, r = .ok (.ok a) → tid ∉ s'.kernel.loose := by
  have hcall : Moves Holds (attempt (.wait who) : Tracing (Watched κ) _) := holds_attempt nofun
  refine ends_await_of (I := Holds s) (fun t ht => ⟨ht, fun _ _ _ => nofun⟩)
    (fun t _ ht _ => ⟨StepRelation.trans ht (hcall t), fun _ _ _ => nofun⟩) (fun t status ht hanswer => ?_)
    (StepRelation.refl s)
  have hseen := seen_wait hanswer
  generalize hu : ({ t with kernel := (Kernel.perform (.wait who) t.kernel).2 } :
    System (Watched κ)) = u at hseen ⊢
  have htu : Holds s u := hu ▸ StepRelation.trans ht (hcall t)
  by_cases hreport : status.isContinued = true
  · cases status with
    | continued v =>
      rw [hcontinued]
      exact htu
    | _ => cases hreport
  · refine (hjudge status u hseen).mono fun r s' h => ?_
    have hs' : Holds s s' := StepRelation.trans htu h
    rcases r with e | _ | a
    · exact ⟨hs', fun _ _ _ => nofun⟩
    · exact hs'
    · refine ⟨hs', ?_⟩
      rintro tid rfl _ _ hloose
      exact hseen.held (Bool.eq_false_iff.mpr hreport) (h.loose tid hloose)

theorem holds_threadCloned (h : tid ∉ s.kernel.loose) :
    Ends (threadCloned tid) s fun _ s' => Holds s s' := by
  have hmark : ∀ (new : Nat) (t : System (Watched κ)), Holds s t → Ends (do
      markStopped tid
      return new : Tracing (Watched κ) Nat) t fun _ u => Holds t u := fun new t ht =>
    (holds_markStopped fun hloose => h (ht.loose tid hloose)).bind_along fun _ u _ => StepRelation.refl u
  have hmessage : Moves Holds (require .ptrace (.eventMessage tid) : Tracing (Watched κ) Nat) :=
    moves_require_of_attempt _ (holds_attempt (c := .eventMessage tid) nofun)
  refine Ends.bind_along (hmessage s) fun new t ht => ?_
  refine Ends.bind_along (moves_process t) fun p u hu => ?_
  have hsu := StepRelation.trans ht hu
  split
  · refine Ends.bind (P := fun r v => Holds u v ∧ ∀ a, r = .ok (.ok a) → new ∉ v.kernel.loose) ?_
      (fun started v hv => ?_) fun _ _ hv => hv.1
    · refine (holds_await (fun _ => rfl) (fun status v _ => ?_) u).mono fun _ _ h =>
        ⟨h.1, h.2 new rfl⟩
      split
      · exact StepRelation.refl v
      · exact StepRelation.refl v
      · exact StepRelation.refl v
    cases started with
    | error e => exact hv.1
    | ok a =>
      refine (Ends.bind_along (holds_addThread (hv.2 a rfl)) fun _ w hw => ?_).mono
        fun _ _ => StepRelation.trans hv.1
      exact hmark new w (StepRelation.trans hsu (StepRelation.trans hv.1 hw))
  · exact hmark new u hsu

/-! ### Stops and steps -/

/-- An event of a thread. -/
theorem holds_event {u n : Nat} (h : Seen tid (.event u n) s) (v : α) :
    Ends (do
      if n = WaitStatus.cloneEvent then
        let _ ← threadCloned tid
        return some v
      else if n = WaitStatus.exitEvent then
        letExit tid
        return none
      else return some v) s fun _ s' => Holds s s' := by
  split
  · exact (holds_threadCloned (h.held rfl)).bind_along fun _ t _ => StepRelation.refl t
  · split
    · rename_i hexit
      exact (holds_letExit (h.leaving u (hexit ▸ rfl))).bind_along fun _ t _ => StepRelation.refl t
    · exact StepRelation.refl s

omit [Kernel κ] in
/-- Whatever comes of it, a thread that is not there any more does not matter. -/
theorem holds_gone (tid : Nat) (code : Option Int) (v : α) : Moves Holds (do
    threadGone tid code
    return some v : Tracing (Watched κ) (Option α)) :=
  (holds_threadGone tid code).bind fun _ => Moves.pure _

theorem holds_settle {status : WaitStatus} (h : Seen tid status s) :
    Ends (settle tid status) s fun _ s' => Holds s s' := by
  rw [settle.eq_def]
  split
  · exact ((moves_consumeStop tid).bind fun _ => Moves.pure _) s
  · refine Ends.bind_along (moves_trapOf tid s) fun trap t _ => ?_
    cases trap with
    | breakpoint address => exact ((moves_setPc tid address).bind fun _ => Moves.pure _) t
    | step => exact StepRelation.refl t
    | programTrap => exact StepRelation.refl t
    | signal => exact ((moves_keepSignal tid _).bind fun _ => Moves.pure _) t
  · exact ((moves_keepSignal tid _).bind fun _ => Moves.pure _) s
  · exact holds_event h true
  · exact holds_gone tid _ false s
  · exact holds_gone tid _ false s
  · exact StepRelation.refl s

theorem holds_awaitStop (tid : Nat) : Moves Holds (awaitStop tid : Tracing (Watched κ) Unit) := by
  intro s
  refine (holds_await (fun _ => rfl) (fun _ _ => holds_settle) s).bind (fun result t h => ?_)
    fun _ _ h => h.1
  refine Ends.mono (P := fun _ u => Holds t u) ?_ fun _ _ => StepRelation.trans h.1
  split
  · exact holds_markStopped (h.2 tid rfl true rfl)
  · exact StepRelation.refl t
  · exact holds_threadGone tid none t
  · exact StepRelation.refl t

theorem holds_stopThread (tid : Nat) : Moves Holds (stopThread tid : Tracing (Watched κ) Unit) := by
  refine moves_process.bind fun p => ?_
  refine (holds_attempt (c := .killThread p.pid tid .stop) nofun).bind fun answer => ?_
  split
  · exact (moves_expectStop tid).bind fun _ => holds_awaitStop tid
  · exact holds_threadGone tid none
  · exact Moves.throw _

theorem holds_judgeStep {status : WaitStatus} (h : Seen tid status s) :
    Ends (judgeStep tid status) s fun _ s' => Holds s s' := by
  rw [judgeStep.eq_def]
  split
  · exact StepRelation.refl s
  · refine Ends.bind_along (moves_consumeStop tid s) fun expected t _ => ?_
    split
    · exact StepRelation.refl t
    · exact StepRelation.refl t
  · refine Ends.bind_along (moves_keepSignal tid _ s) fun _ t _ => ?_
    split
    · exact StepRelation.refl t
    · exact StepRelation.refl t
  · exact holds_event h none
  · exact holds_gone tid _ _ s
  · exact holds_gone tid _ _ s
  · exact StepRelation.refl s

end Tracing

end Tracer

end DebugAdapter
