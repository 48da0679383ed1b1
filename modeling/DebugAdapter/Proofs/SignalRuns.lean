import DebugAdapter.Proofs.Puppet
import DebugAdapter.Proofs.SignalStarts

/-!
# Runs with books

A run of a tracer over an audited kernel is a sequence of acts, each on a new page of the ledger. The
books stay in order along every run, and what is known of threads that were let go of stays too
(`Balanced`). So no signal gets lost on its way through a tracer.

Main statement: `signals_of_run`.
-/

namespace DebugAdapter.Tracer

open Debuggee
open Linux
open Linux.Account (owed)
open Operation

variable {κ : Type} {tid : Nat} {s s' : System (Audited κ)}

/-- The books are in order, and threads that were let go of took their signals with them. -/
structure Balanced (s : System (Audited κ)) : Prop where
  ordered : Ordered s.threads
  clean : s.kernel.ledger.clean = true
  agrees : ∀ t ∈ s.threads, Agrees (s.kernel.ledger.account t.tid) s.kernel.ledger.fair t
  kept : ∀ t ∈ s.threads, (s.kernel.ledger.account t.tid).released = false
  released : ∀ u, (s.kernel.ledger.account u).released = true → s.kernel.ledger.fair = true →
    (s.kernel.ledger.account u).carried.map Prod.fst = (s.kernel.ledger.account u).reported

theorem Books.balanced (h : Books s) : Balanced s :=
  ⟨h.ordered, h.clean, h.agrees, fun t _ => h.kept t.tid,
    fun u hreleased => nomatch hreleased.symm.trans (h.kept u)⟩

theorem SameBooks.balanced (h : SameBooks s s') (hs : Balanced s) : Balanced s' := by
  obtain ⟨hledger, hthreads⟩ := h
  refine ⟨?_, ?_, ?_, ?_, ?_⟩
  · rw [hthreads]
    exact hs.ordered
  · rw [hledger]
    exact hs.clean
  · rw [hledger, hthreads]
    exact hs.agrees
  · rw [hledger, hthreads]
    exact hs.kept
  · rw [hledger]
    exact hs.released

/-- The ledger on a new page. -/
def System.turnPage (s : System (Audited κ)) : System (Audited κ) :=
  { s with kernel := { s.kernel with ledger := s.kernel.ledger.page (s.threads.map (·.tid)) } }

theorem Balanced.paged (h : Balanced s) : Paged s.turnPage := by
  have hknown : ∀ t ∈ s.threads,
      s.turnPage.kernel.ledger.account t.tid = s.kernel.ledger.account t.tid := fun t ht =>
    if_pos (List.mem_map.mpr ⟨t, ht, rfl⟩)
  refine ⟨⟨h.ordered, h.clean, fun u => ?_, fun t ht => ?_⟩, fun u hu => ?_, rfl⟩
  · show (ite (u ∈ s.threads.map (·.tid)) (s.kernel.ledger.account u) Account.blank).released = false
    split
    · rename_i hmem
      obtain ⟨t, ht, rfl⟩ := List.mem_map.mp hmem
      exact h.kept t ht
    · rfl
  · rw [hknown t ht]
    exact h.agrees t ht
  · refine if_neg fun hmem => ?_
    obtain ⟨t, ht, htid⟩ := List.mem_map.mp hmem
    exact hu t ht htid

/-! ### What a page begins with -/

/-- The ledger of a system whose process has a new image. -/
structure Renewed (s : System (Audited κ)) : Prop where
  ordered : Ordered s.threads
  clean : s.kernel.ledger.clean = true
  kept : ∀ u, (s.kernel.ledger.account u).released = false
  agrees : ∀ t ∈ s.threads,
    Agrees (s.kernel.ledger.account t.tid) s.kernel.ledger.fair { t with expectedStops := 0 }
  new : ∀ u, (∀ t ∈ s.threads, t.tid ≠ u) →
    Agrees (s.kernel.ledger.account u) s.kernel.ledger.fair (.new u)

/-- The event that announces a new image, on a new page. -/
theorem Paged.renewed (h : Paged s) (hthreads : s'.threads = s.threads)
    (hledger : s'.kernel.ledger = (s.kernel.ledger.report tid none).renew) : Renewed s' := by
  have hfaced : Booked tid (Faced none)
      { s with kernel := { s.kernel with ledger := s.kernel.ledger.report tid none } } :=
    h.toBooks.report rfl rfl
  have hbooks := hfaced.books_of_event
  have hreset : ∀ {a : Account} {fair : Bool} {t : Thread}, Agrees a fair t →
      Agrees { a with sent := 0, seen := 0 } fair { t with expectedStops := 0 } :=
    fun ht => ⟨rfl, ht.attached, ht.pending, ht.signals, ht.held⟩
  refine ⟨?_, ?_, ?_, ?_, ?_⟩
  · rw [hthreads]
    exact h.ordered
  · rw [hledger]
    exact h.clean
  · rw [hledger]
    exact hbooks.kept
  · rw [hledger, hthreads]
    exact fun t ht => hreset (hbooks.agrees t ht)
  · rw [hledger, hthreads]
    intro u hu
    have hblank := h.blank u hu
    show Agrees { (s.kernel.ledger.report tid none).account u with sent := 0, seen := 0 } _ (.new u)
    rw [Ledger.account_report]
    split
    · rename_i heq
      rw [← heq, hblank]
      exact agrees_new u rfl rfl fun _ => ⟨rfl, rfl⟩
    · rw [hblank]
      exact agrees_new u rfl rfl fun _ => ⟨rfl, rfl⟩

/-- A status that was polled for on a new page. -/
theorem Paged.noticed (h : Paged s) {status : WaitStatus}
    (himage : ∀ tid, status ≠ .event tid WaitStatus.execEvent) (hthreads : s'.threads = s.threads)
    (hledger : s'.kernel.ledger = s.kernel.ledger.enter .poll (.ok (some status))) :
    Noticed status.tid status s' := by
  cases status with
  | stopped tid signal =>
    refine ⟨?_, by rintro ⟨⟩⟩
    rintro _ ⟨⟩
    exact h.toBooks.report hthreads hledger
  | event tid n =>
    refine ⟨?_, by rintro ⟨⟩⟩
    rintro _ ⟨⟩
    rw [Ledger.enter, if_neg fun hexec => himage tid (congrArg _ hexec)] at hledger
    exact h.toBooks.report hthreads hledger
  | exited tid code => exact ⟨by rintro _ ⟨⟩, fun _ => SameBooks.books ⟨hledger, hthreads⟩ h.toBooks⟩
  | signaled tid signal => exact ⟨by rintro _ ⟨⟩, fun _ => SameBooks.books ⟨hledger, hthreads⟩ h.toBooks⟩
  | continued tid => exact ⟨by rintro _ ⟨⟩, fun _ => SameBooks.books ⟨hledger, hthreads⟩ h.toBooks⟩

/-! ### Letting go -/

/-- Threads that are let go of one after the other. -/
structure Releasing (ts : List Thread) (s : System (Audited κ)) : Prop where
  gone : s.tracer.process = none
  ordered : Ordered ts
  clean : s.kernel.ledger.clean = true
  agreed : ∀ t ∈ ts, Agrees (s.kernel.ledger.account t.tid) s.kernel.ledger.fair t
  released : ∀ u, (s.kernel.ledger.account u).released = true → s.kernel.ledger.fair = true →
    (s.kernel.ledger.account u).carried.map Prod.fst = (s.kernel.ledger.account u).reported

/-- A thread takes its signal with it. -/
theorem Releasing.release {t : Thread} {ts : List Thread} {done : Bool} (h : Releasing (t :: ts) s)
    (hprocess : s'.tracer.process = s.tracer.process)
    (hledger : s'.kernel.ledger = s.kernel.ledger.release t.tid t.pendingSignal done) :
    Releasing ts s' := by
  obtain ⟨hlt, hordered⟩ := List.pairwise_cons.mp h.ordered
  have hthread := h.agreed t List.mem_cons_self
  have hfair : s'.kernel.ledger.fair = s.kernel.ledger.fair := by rw [hledger]; rfl
  refine ⟨hprocess.trans h.gone, hordered, ?_, fun u hu => ?_, fun u => ?_⟩
  · rw [hledger]
    show (s.kernel.ledger.clean && t.pendingSignal != some .stop) = true
    rw [h.clean, Bool.true_and]
    exact bne_iff_ne.mpr hthread.pending
  · rw [hledger, Ledger.account_release, if_neg (Nat.ne_of_gt (hlt u hu))]
    exact h.agreed u (List.mem_cons_of_mem t hu)
  · rw [hfair, hledger, Ledger.account_release]
    split
    · intro _ hfair
      show ((s.kernel.ledger.account t.tid).carried ++ (owed t.pendingSignal).map (·, done)).map Prod.fst
        = (s.kernel.ledger.account t.tid).reported
      rw [← hthread.signals hfair, List.map_append, List.map_map]
      simp [Function.comp_def]
    · exact h.released u

theorem Releasing.balanced (h : Releasing [] s) (hledger : s'.kernel.ledger = s.kernel.ledger)
    (hprocess : s'.tracer.process = s.tracer.process) : Balanced s' := by
  have hthreads := threads_of_gone (hprocess.trans h.gone)
  refine ⟨?_, ?_, ?_, ?_, ?_⟩
  · rw [hthreads]; exact .nil
  · rw [hledger]; exact h.clean
  · rw [hthreads]; exact nofun
  · rw [hthreads]; exact nofun
  · rw [hledger]; exact h.released

variable [Kernel κ]

namespace Tracing

/-! ### Statuses -/

/-- A stop signal was seen, of a thread that may be new. -/
theorem books_stopSignalSeen (h : Booked tid (Faced (some .stop)) s)
    (hnew : (∀ t ∈ s.threads, t.tid ≠ tid) →
      Agrees (s.kernel.ledger.account tid) s.kernel.ledger.fair (.new tid)) :
    Ends (stopSignalSeen tid) s fun _ s' => Books s' := by
  rw [stopSignalSeen, ends_tracer_bind]
  dsimp only
  rcases hp : s.tracer.process with _ | p
  · refine (ends_process_bind_none hp _ _).mpr (h.books fun t ht => ?_)
    rw [threads_of_gone hp] at ht
    exact absurd ht List.not_mem_nil
  · split
    · rename_i hunknown
      have hother : ∀ t ∈ s.threads, t.tid ≠ tid := by
        rw [threads_of_present hp]
        intro t ht htid
        rw [Bool.not_eq_true', Option.any_some, Process.hasThread] at hunknown
        exact List.any_eq_false.mp hunknown t ht (beq_iff_eq.mpr htid)
      rw [ends_process_bind hp]
      have hbooks : Books s := h.books fun t ht htid => absurd htid (hother t ht)
      exact (books_addThread hbooks (hnew hother)).mono fun _ _ h => h.2.2
    · refine (booked_markStopped h).bind_eq fun s₁ h₁ => ?_
      rcases hp₁ : s₁.tracer.process with _ | p₁
      · refine (ends_process_bind_none hp₁ _ _).mpr (h₁.2.books fun t ht => ?_)
        rw [threads_of_gone hp₁] at ht
        exact absurd ht List.not_mem_nil
      · rw [ends_process_bind hp₁]
        refine (books_consumeStop h₁.2).bind (fun expected s₂ h₂ => ?_) fun _ _ h => h.2
        split
        · exact (books_continueThread tid h₂.2).mono fun _ _ h => h.1
        · exact (moves_reportStop _ s₂).mono fun _ _ (h : Keeps _ _) => h.books h₂.2

theorem books_trapSeen (h : Booked tid (Faced (some .trap)) s) :
    Ends (trapSeen tid) s fun _ s' => Books s' := by
  rw [trapSeen]
  refine (booked_markStopped h).bind_eq fun s₁ h₁ => ?_
  have hlook : Ends (trapOf tid) s₁ fun _ s' => SameBooks s₁ s' := moves_trapOf tid s₁
  refine hlook.bind (fun trap s₂ h₂ => ?_) fun _ _ h₂ => (h₂.booked h₁.2).books_of_trap
  have htrap := h₂.booked h₁.2
  have hreport : ∀ stop : Stop, Ends (reportStop stop) s₂ fun _ s' => Books s' := fun stop =>
    (moves_reportStop stop s₂).mono fun _ _ (h : Keeps _ _) => h.books htrap.books_of_trap
  cases trap with
  | breakpoint address =>
    exact (moves_breakpointMet tid address s₂).mono fun _ _ (h : Keeps _ _) =>
      h.books htrap.books_of_trap
  | step => exact hreport _
  | programTrap => exact hreport _
  | signal =>
    refine (books_keepSignal (by decide) htrap).bind_eq fun s₃ h₃ => ?_
    exact (moves_reportStop _ s₃).mono fun _ _ (h : Keeps _ _) => h.books h₃.2

/-- A status that announces no new image. -/
theorem books_handle {status : WaitStatus} (h : Noticed status.tid status s)
    (himage : ∀ tid, status ≠ .event tid WaitStatus.execEvent)
    (hnew : ∀ tid, status = .stopped tid .stop → (∀ t ∈ s.threads, t.tid ≠ tid) →
      Agrees (s.kernel.ledger.account tid) s.kernel.ledger.fair (.new tid)) :
    Ends (handle status) s fun _ s' => Books s' := by
  rw [handle.eq_def]
  split
  · exact (books_threadGone _ ((h.other rfl).booked _)).mono fun _ _ h => h.2.2
  · exact (books_threadGone _ ((h.other rfl).booked _)).mono fun _ _ h => h.2.2
  · rename_i tid n
    have hbooks : Books s := (h.stop none rfl).books_of_event
    split
    · refine (books_threadCloned tid hbooks).bind (fun new s₁ h₁ => ?_) fun _ _ h => h
      refine books_of_keeps ?_ h₁
      exact (ConductRelation.continueThread tid).bind fun _ => ConductRelation.continueThread new
    · split
      · rename_i hexec
        exact absurd (congrArg (WaitStatus.event tid) hexec) (himage tid)
      · refine (books_markStopped tid hbooks).bind_eq fun s₁ h₁ => ?_
        exact books_of_keeps (ConductRelation.continueThread tid) h₁.2
  · exact books_stopSignalSeen (h.stop _ rfl) (hnew _ rfl)
  · exact books_trapSeen (h.stop _ rfl)
  · rename_i tid signal hstop _
    refine (booked_markStopped (h.stop _ rfl)).bind_eq fun s₁ h₁ => ?_
    refine (books_keepSignal hstop h₁.2).bind_eq fun s₂ h₂ => ?_
    split
    · exact books_of_keeps (ConductRelation.continueThread tid) h₂.2
    · exact books_of_keeps (moves_reportStop _) h₂.2
  · exact h.other rfl

theorem books_imageReplaced (tid : Nat) (h : Renewed s) :
    Ends (imageReplaced tid) s fun _ s' => Books s' := by
  rcases hp : s.tracer.process with _ | p
  · refine (ends_process_bind_none hp _ _).mpr ⟨h.ordered, h.clean, h.kept, fun t ht => ?_⟩
    rw [threads_of_gone hp] at ht
    exact absurd ht List.not_mem_nil
  · have hthreads := threads_of_present hp
    rw [imageReplaced, ends_process_bind hp]
    dsimp only
    rw [ends_programOf_bind, modifyProcess, ends_modifyTracer_bind, ends_modifyTracer_bind, hp]
    -- The threads that are left expect no stop, and the main one may be new.
    refine Ends.mono (books_of_keeps (s := _) ?_ ?_) fun _ _ h => h
    · exact Moves.bind (moves_keeps fun h => (books_markStopped _ h).mono fun _ _ h => h.2.2)
        fun _ => moves_reportStop _
    · have hkept : ∀ t ∈ (p.threads.filter fun t => t.tid = p.pid ∨ t.tid = tid).map
          (fun t => { t with expectedStops := 0 }),
          Agrees (s.kernel.ledger.account t.tid) s.kernel.ledger.fair t := by
        intro t' ht'
        obtain ⟨t, ht, rfl⟩ := List.mem_map.mp ht'
        exact h.agrees t (hthreads ▸ (List.mem_filter.mp ht).1)
      have hordered : Ordered ((p.threads.filter fun t => t.tid = p.pid ∨ t.tid = tid).map
          (fun t => { t with expectedStops := 0 })) :=
        Ordered.map ((hthreads ▸ h.ordered : Ordered p.threads).filter _) fun _ => rfl
      refine ⟨hordered.insertThread _, h.clean, h.kept, fun t ht => ?_⟩
      rcases hordered.mem_insertThread ht with ht | ⟨rfl, hother⟩
      · exact hkept t ht
      · refine h.new p.pid fun u hu hpid => ?_
        have hmem : u ∈ p.threads.filter fun t => t.tid = p.pid ∨ t.tid = tid :=
          List.mem_filter.mpr ⟨hthreads ▸ hu, decide_eq_true (Or.inl hpid)⟩
        exact hother _ (List.mem_map.mpr ⟨u, hmem, rfl⟩) hpid

/-- Handling a status that was polled for on a new page. -/
theorem books_handlePolled {status : WaitStatus} (h : Paged s) (hthreads : s'.threads = s.threads)
    (hledger : s'.kernel.ledger = s.kernel.ledger.enter .poll (.ok (some status))) :
    Ends (handle status) s' fun _ s'' => Books s'' := by
  by_cases himage : ∃ tid, status = .event tid WaitStatus.execEvent
  · obtain ⟨tid, rfl⟩ := himage
    rw [Ledger.enter, if_pos rfl] at hledger
    exact books_imageReplaced tid (h.renewed hthreads hledger)
  · refine books_handle (h.noticed (fun tid heq => himage ⟨tid, heq⟩) hthreads hledger)
      (fun tid heq => himage ⟨tid, heq⟩) ?_
    rintro tid rfl hunknown
    have hledger : s'.kernel.ledger = s.kernel.ledger.report tid (some .stop) := hledger
    have hblank := h.blank tid (hthreads ▸ hunknown)
    rw [hledger, Ledger.account_report, if_pos rfl, hblank]
    exact agrees_new tid rfl rfl fun _ => ⟨rfl, rfl⟩

theorem books_look (h : Paged s) : Ends look s fun _ s' => Books s' := by
  refine ends_look (fun _ => h.toBooks) (fun _ hquiet => ?_) (fun _ hgone => ?_)
    fun _ status hpoll => books_handlePolled h rfl (ledger_perform _ _ hpoll)
  · rcases hanswer : (Kernel.perform .poll s.kernel).1 with e | _ | status
    · exact SameBooks.books ⟨ledger_perform _ _ hanswer, rfl⟩ h.toBooks
    · exact SameBooks.books ⟨ledger_perform _ _ hanswer, rfl⟩ h.toBooks
    · exact absurd hanswer (hquiet status)
  · have hsame : SameBooks s { s with kernel := (Kernel.perform .poll s.kernel).2 } :=
      ⟨ledger_perform _ _ hgone, rfl⟩
    exact ((hsame.books h.toBooks).booked 0).books_of_gone rfl rfl

/-! ### Interrupts and kills -/

theorem books_interrupt (h : Books s) : Ends interrupt s fun _ s' => Books s' := by
  rw [interrupt]
  rcases hp : s.tracer.process with _ | p
  · exact (ends_process_bind_none hp _ _).mpr h
  · rw [ends_process_bind hp]
    dsimp only
    split
    · exact h
    · rename_i tid _
      have hsend : Ends (require (.syscall "tgkill") (.killThread p.pid tid .stop)) s fun r s' =>
          match r with
          | .ok _ => Booked tid
              (fun a fair t => Agrees a fair { t with expectedStops := t.expectedStops + 1 }) s'
          | .error _ => Books s' := by
        rw [ends_require]
        rcases hanswer : (Kernel.perform (.killThread p.pid tid .stop) s.kernel).1 with e | u
        · exact SameBooks.books ⟨ledger_perform _ _ hanswer, rfl⟩ h
        · exact h.send rfl (ledger_perform _ _ hanswer)
      refine hsend.bind (fun _ s₁ h₁ => ?_) fun _ _ h => h
      refine (books_modifyThread (f := fun t => { t with expectedStops := t.expectedStops + 1 })
        (fun _ => rfl) (fun _ _ _ h => h) h₁).bind_eq fun s₂ h₂ => ?_
      exact books_of_keeps (moves_noteProcess (fun _ => rfl) fun _ => rfl) h₂.2

theorem unfair_judgeKill (pid : Nat) (status : WaitStatus) {t : System (Audited κ)} (h : Books t)
    (hfair : t.kernel.ledger.fair = false) : Ends (judgeKill pid status) t fun _ t' =>
      Books t' ∧ t'.kernel.ledger.fair = false := by
  rw [judgeKill.eq_def]
  split
  · exact ⟨h, hfair⟩
  · exact ⟨h, hfair⟩
  · rename_i tid n
    split
    · have hunfair : Booked tid (fun a fair t => Agrees a fair t ∧ fair = false) t :=
        ⟨h.ordered, h.clean, h.kept, (h.booked tid).others,
          fun u hu htid => ⟨(h.booked tid).self u hu htid, hfair⟩⟩
      refine (books_letExit hunfair fun _ _ _ hu => ⟨hu.1, fun hfair => ?_⟩).bind ?_ ?_
      · cases hu.2.symm.trans hfair
      · exact fun _ _ h' => ⟨h'.1, h'.2.2.trans hfair⟩
      · exact fun _ _ h' => ⟨h'.1, h'.2.2.trans hfair⟩
    · exact ⟨h, hfair⟩
  · exact ⟨h, hfair⟩

theorem books_kill (h : Books s) : Ends kill s fun _ s' => Books s' := by
  -- Once the process is killed nothing is claimed of its signals.
  let I : System (Audited κ) → Prop := fun t => Books t ∧ t.kernel.ledger.fair = false
  unfold kill
  rcases hp : s.tracer.process with _ | p
  · exact (ends_process_bind_none hp _ _).mpr h
  · rw [ends_process_bind hp]
    have hkill : Ends (require (.syscall "kill") (.kill p.pid .kill)) s fun r s' =>
        match r with
        | .ok _ => I s'
        | .error _ => Books s' := by
      rw [ends_require]
      rcases hanswer : (Kernel.perform (.kill p.pid .kill) s.kernel).1 with e | u
      · exact SameBooks.books ⟨ledger_perform _ _ hanswer, rfl⟩ h
      · have hledger := ledger_perform _ _ hanswer
        have hfair : (Kernel.perform (.kill p.pid .kill) s.kernel).2.ledger
            = { s.kernel.ledger with fair := false } := hledger
        refine ⟨⟨h.ordered, ?_, ?_, fun t ht => ?_⟩, congrArg Ledger.fair hfair⟩
        · exact (congrArg Ledger.clean hfair).trans h.clean
        · exact fun u => (congrArg (fun l => (l.account u).released) hfair).trans (h.kept u)
        · show Agrees ((Kernel.perform (.kill p.pid .kill) s.kernel).2.ledger.account t.tid)
            (Kernel.perform (.kill p.pid .kill) s.kernel).2.ledger.fair t
          rw [hfair]
          exact (h.agrees t ht).mono nofun
    refine hkill.bind (fun _ s₁ h₁ => ?_) fun _ _ h => h
    have hawait : Ends (await none (judgeKill p.pid)) s₁ fun _ s' => Books s' := by
      refine ends_await_of (I := I) (fun t ht => ht.1) (fun t e ht _ => ?_)
        (fun t status ht _ => ?_) h₁
      · exact SameBooks.books (s := t) ⟨rfl, rfl⟩ ht.1
      · have hbooks : Books { t with kernel := (Kernel.perform (.wait none) t.kernel).2 } :=
          SameBooks.books (s := t) ⟨rfl, rfl⟩ ht.1
        refine (unfair_judgeKill p.pid status hbooks ht.2).mono fun r t' h => ?_
        match r, h with
        | .ok none, h => exact h
        | .ok (some _), h => exact h.1
        | .error _, h => exact h.1
    refine hawait.bind (fun result s₂ h₂ => ?_) fun _ _ h => h
    split
    · exact (h₂.booked 0).books_of_gone rfl rfl
    · exact (h₂.booked 0).books_of_gone rfl rfl
    · exact h₂

/-! ### Ends of tracing -/

theorem releasing_detach (ts : List Thread) : ∀ {s : System (Audited κ)}, Releasing ts s →
    Ends (ts.forM fun t => do
      let _ ← attempt (.detach t.tid t.pendingSignal) : Tracing (Audited κ) Unit) s fun _ s' =>
        Releasing [] s' := by
  induction ts with
  | nil => exact fun h => h
  | cons t ts ih =>
    intro s h
    show Ends ((attempt (.detach t.tid t.pendingSignal) >>= fun _ => pure ()) >>= fun _ =>
      ts.forM _) s _
    rw [bind_assoc, ends_attempt_bind]
    exact ih (h.release rfl rfl)

theorem balanced_letGo (h : Books s) : Ends letGo s fun _ s' => Balanced s' := by
  rw [letGo, ends_tracer_bind]
  dsimp only
  rw [ends_modifyTracer_bind]
  refine (releasing_detach _ ?_).bind (fun _ t ht => ht.balanced rfl rfl)
    fun _ t ht => ht.balanced rfl rfl
  refine ⟨rfl, h.ordered, h.clean, h.agrees, fun u hreleased => ?_⟩
  cases hreleased.symm.trans (h.kept u)

theorem balanced_detach (h : Books s) : Ends detach s fun _ s' => Balanced s' := by
  rw [detach_eq]
  have hback : Moves Keeps (takeBack : Tracing (Audited κ) Bool) := moves_takeBack moves_cancelPlan
  refine (books_of_keeps hback h).bind (fun going t ht => ?_) fun _ _ h => h.balanced
  split
  · exact balanced_letGo ht
  · exact ht.balanced

theorem balanced_destroy (h : Books s) : Ends destroy s fun _ s' => Balanced s' := by
  rw [destroy, ends_tracer_bind]
  split
  · exact h.balanced
  · split
    · exact (books_kill h).mono fun _ _ h => h.balanced
    · exact balanced_detach h

/-! ### Acts -/

/-- An act on a new page. -/
theorem balanced_act (a : Act) (h : Paged s) : Ends a.operation s fun _ s' => Balanced s' := by
  have hbooks : ∀ {α : Type} {m : Tracing (Audited κ) α}, Ends m s (fun _ s' => Books s') →
      Ends (do let _ ← m : Tracing (Audited κ) Unit) s fun _ s' => Balanced s' := fun h =>
    (ends_discard _ s Balanced).mpr (h.mono fun _ _ h => h.balanced)
  cases a with
  | look => exact hbooks (books_look h)
  | perform r =>
    cases r with
    | launch info => exact (books_launchToEntry info h).mono fun _ _ h => h.balanced
    | attach pid => exact hbooks (books_attach pid h)
    | resume => exact hbooks (books_of_keeps moves_resume h.toBooks)
    | step tid kind => exact hbooks (books_of_keeps (moves_step tid kind) h.toBooks)
    | interrupt => exact hbooks (books_interrupt h.toBooks)
    | kill => exact hbooks (books_kill h.toBooks)
    | detach => exact (ends_discard _ s Balanced).mpr (balanced_detach h.toBooks)
    | destroy => exact (ends_discard _ s Balanced).mpr (balanced_destroy h.toBooks)
    | _ => exact hbooks (books_of_keeps (moves_operation_of_isAside rfl) h.toBooks)

end Tracing

/-! ### Runs -/

/-- The systems that a tracer over an audited kernel gets to. -/
inductive Run : System (Audited κ) → Prop
  | start (k : κ) (program : Option String) : Run ⟨⟨k, .blank⟩, .new program⟩
  | act {s : System (Audited κ)} (a : Act) : Run s → Run (a.operation.run.run s.turnPage).2
  /-- The events are taken. -/
  | collect {s : System (Audited κ)} : Run s →
      Run { s with tracer := { s.tracer with events := [] } }
  /-- The kernel goes on by itself. -/
  | elapse {s : System (Audited κ)} (k : κ) : Run s →
      Run { s with kernel := { s.kernel with kernel := k } }

theorem balanced_of_run (h : Run s) : Balanced s := by
  induction h with
  | start k program => exact ⟨.nil, rfl, nofun, nofun, nofun⟩
  | act a _ ih => exact Tracing.balanced_act a ih.paged
  | @collect s _ ih => exact SameBooks.balanced (s := s) ⟨rfl, rfl⟩ ih
  | @elapse s k _ ih => exact SameBooks.balanced (s := s) ⟨rfl, rfl⟩ ih

/-- The system after some acts. -/
def System.after (acts : List Act) (s : System (Audited κ)) : System (Audited κ) :=
  acts.foldl (fun s a => (a.operation.run.run s.turnPage).2) s

theorem Run.after (acts : List Act) : ∀ {s : System (Audited κ)}, Run s → Run (s.after acts) := by
  induction acts with
  | nil => exact id
  | cons a acts ih => exact fun h => ih (h.act a)

/-! ### A process with two threads -/

/-- A kernel whose process has a second thread, which a clone announces. The second thread is always
found stopped by a signal of its own. -/
structure Nursery where
  statuses : List WaitStatus

instance : Kernel Nursery where
  perform c k :=
    match c with
    | .spawn .. => (.ok 1, k)
    | .wait (some tid) => (.ok (.stopped tid (if tid = 1 then .trap else .usr1)), k)
    | .poll =>
      match k.statuses with
      | [] => (.ok none, k)
      | status :: r => (.ok (some status), ⟨r⟩)
    | .eventMessage _ => (.ok 2, k)
    | .setOptions .. => (.ok (), k)
    | .killThread .. => (.ok (), k)
    | .resume .. => (.ok (), k)
    | _ => (.error .noProcess, k)
  file _ path := if path = "/app" then .ok [] else .error .noEntry
  linkTarget? _ _ := none
  process? _ _ := none
  lookUp? _ _ := none
  outstanding k := k.statuses.length

/-- A program is launched and runs, and every status is looked at. -/
def nursed (statuses : List WaitStatus) : System (Audited Nursery) :=
  System.after
    (.perform (.launch ⟨[], none, true, true⟩) :: .perform .resume :: statuses.map fun _ => .look)
    ⟨⟨⟨statuses⟩, .blank⟩, .new (some "/app")⟩

theorem run_nursed (statuses : List WaitStatus) : Run (nursed statuses) :=
  Run.after _ (.start (⟨statuses⟩ : Nursery) (some "/app"))

/-! ### Signals -/

/-- No signal gets lost on its way through a tracer, or is handed on twice: what a thread was to be
let go on with, and what it still waits for, is what it was reported stopped with since it is known,
in the same order. A signal that a failed request took along is noted with the failure. Only the
signal that the first stop of an announced thread comes with is not handed on. -/
theorem signals_of_run (h : Run s) (hfair : s.kernel.ledger.fair = true) :
    (∀ t ∈ s.threads,
      (s.kernel.ledger.account t.tid).carried.map Prod.fst ++ owed t.pendingSignal
        = (s.kernel.ledger.account t.tid).reported ∧
      ((s.kernel.ledger.account t.tid).carried.map Prod.fst ++ owed t.pendingSignal
        = (s.kernel.ledger.account t.tid).born ++ (s.kernel.ledger.account t.tid).reported ↔
        (s.kernel.ledger.account t.tid).born = [])) ∧
    (∀ u, (s.kernel.ledger.account u).released = true →
      (s.kernel.ledger.account u).carried.map Prod.fst = (s.kernel.ledger.account u).reported ∧
      ((s.kernel.ledger.account u).carried.map Prod.fst
        = (s.kernel.ledger.account u).born ++ (s.kernel.ledger.account u).reported ↔
        (s.kernel.ledger.account u).born = [])) := by
  have hbalanced := balanced_of_run h
  have hborn : ∀ a : Account, (a.reported = a.born ++ a.reported ↔ a.born = []) := fun a =>
    ⟨fun heq => List.self_eq_append_left.mp heq, fun heq => by rw [heq, List.nil_append]⟩
  refine ⟨fun t ht => ?_, fun u hreleased => ?_⟩
  · have hsignals := (hbalanced.agrees t ht).signals hfair
    refine ⟨hsignals, ?_⟩
    rw [hsignals]
    exact hborn _
  · have hsignals := hbalanced.released u hreleased hfair
    refine ⟨hsignals, ?_⟩
    rw [hsignals]
    exact hborn _

/-- A signal that stops the first thread waits for its next run. -/
theorem signals_nursed : Run (nursed [.stopped 1 .usr1]) ∧
    (nursed [.stopped 1 .usr1]).kernel.ledger.fair = true ∧
    (⟨1, false, some .usr1, 0⟩ : Thread) ∈ (nursed [.stopped 1 .usr1]).threads ∧
    ((nursed [.stopped 1 .usr1]).kernel.ledger.account 1).carried.map Prod.fst
      ++ owed (some .usr1) = ((nursed [.stopped 1 .usr1]).kernel.ledger.account 1).reported := by
  have hfair : (nursed [.stopped 1 .usr1]).kernel.ledger.fair = true := by decide +kernel
  have hmem : (⟨1, false, some .usr1, 0⟩ : Thread) ∈ (nursed [.stopped 1 .usr1]).threads := by
    decide +kernel
  exact ⟨run_nursed _, hfair, hmem, ((signals_of_run (run_nursed _) hfair).1 _ hmem).1⟩

/-- The signal that the second thread starts with is lost. -/
theorem signals_born : ∃ s : System (Audited Nursery), Run s ∧ s.kernel.ledger.fair = true ∧
    ∃ t ∈ s.threads,
      (s.kernel.ledger.account t.tid).carried.map Prod.fst ++ owed t.pendingSignal
        ≠ (s.kernel.ledger.account t.tid).born ++ (s.kernel.ledger.account t.tid).reported := by
  have hmem : (⟨2, true, none, 0⟩ : Thread)
      ∈ (nursed [.event 1 WaitStatus.cloneEvent]).threads := by
    decide +kernel
  exact ⟨nursed [.event 1 WaitStatus.cloneEvent], run_nursed _, by decide +kernel, _, hmem,
    by decide +kernel⟩

end DebugAdapter.Tracer
