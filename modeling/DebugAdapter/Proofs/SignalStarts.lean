import DebugAdapter.Proofs.SignalConduct
import DebugAdapter.Proofs.TracerActs

/-!
# Books of new processes

A process is started or attached to on a new page of the ledger, where nothing is noted of threads
that are not known. Its threads are taken charge of with what their first stops came with, so the
books are in order when the process appears.
-/

namespace DebugAdapter.Tracer

open Debuggee
open Linux
open Linux.Account (owed)
open Operation

variable {κ : Type} {tid : Nat} {s s' : System (Audited κ)}

/-- The books are in order, and nothing is noted of threads that are not known. -/
structure Paged (s : System (Audited κ)) : Prop extends Books s where
  blank : ∀ u, (∀ t ∈ s.threads, t.tid ≠ u) → s.kernel.ledger.account u = .blank
  announced : s.kernel.ledger.announced = none

/-! ### Processes to come -/

/-- A process that is being started: the only signals that it can be reported stopped with come after
a stop that is not over. -/
structure Starting (pid : Nat) (s : System (Audited κ)) : Prop extends Books s where
  process : s.tracer.process = none
  announced : s.kernel.ledger.announced = none
  attached : (s.kernel.ledger.account pid).attaching = false
  stops : (s.kernel.ledger.account pid).seen = (s.kernel.ledger.account pid).sent
  carried : (s.kernel.ledger.account pid).carried = []
  reported : s.kernel.ledger.fair = true →
    (s.kernel.ledger.account pid).held = false → (s.kernel.ledger.account pid).reported = []

theorem Paged.starting (h : Paged s) (hprocess : s.tracer.process = none) (pid : Nat) :
    Starting pid s := by
  have hblank := h.blank pid (by rw [threads_of_gone hprocess]; exact nofun)
  refine ⟨h.toBooks, hprocess, h.announced, ?_, ?_, ?_, fun _ _ => ?_⟩
  · rw [hblank]; rfl
  · rw [hblank]; rfl
  · rw [hblank]; rfl
  · rw [hblank]; rfl

theorem Starting.of_same {pid : Nat} (h : Starting pid s)
    (hledger : s'.kernel.ledger = s.kernel.ledger)
    (hprocess : s'.tracer.process = s.tracer.process) : Starting pid s' := by
  refine ⟨SameBooks.books ⟨hledger, threads_of_process hprocess⟩ h.toBooks, hprocess.trans h.process,
    ?_, ?_, ?_, ?_, ?_⟩
  · rw [hledger]; exact h.announced
  · rw [hledger]; exact h.attached
  · rw [hledger]; exact h.stops
  · rw [hledger]; exact h.carried
  · rw [hledger]; exact h.reported

/-- The signal of a stop, in a process that is being started. -/
theorem Starting.report {pid : Nat} {signal : Option Signal} (h : Starting pid s)
    (hledger : s'.kernel.ledger = s.kernel.ledger.report pid signal)
    (hprocess : s'.tracer.process = s.tracer.process) :
    Starting pid s' ∧ (owed signal = [] →
      Agrees (s'.kernel.ledger.account pid) s'.kernel.ledger.fair (.new pid)) := by
  have hself : s'.kernel.ledger.account pid = (s.kernel.ledger.account pid).stop signal := by
    rw [hledger, Ledger.account_report, if_pos rfl]
  have hthreads := threads_of_process hprocess
  have hbooks : Books s' := (h.toBooks.report hthreads hledger).books fun t ht => by
    rw [hthreads, threads_of_gone h.process] at ht
    exact absurd ht List.not_mem_nil
  have hsent : ((s.kernel.ledger.account pid).stop signal).sent = (s.kernel.ledger.account pid).sent := by
    simp [Account.stop, h.attached]
  have hseen : ((s.kernel.ledger.account pid).stop signal).seen = (s.kernel.ledger.account pid).seen := by
    simp [Account.stop, h.stops]
  refine ⟨⟨hbooks, hprocess.trans h.process, ?_, ?_, ?_, ?_, ?_⟩, fun howed => ?_⟩
  · rw [hledger]; exact h.announced
  · rw [hself]; simp [Account.stop, h.attached]
  · rw [hself, hsent, hseen]; exact h.stops
  · rw [hself]; exact h.carried
  · rw [hself]; exact fun _ => by rintro ⟨⟩
  · rw [hself]
    refine agrees_new pid ?_ (by simp [Account.stop, h.attached]) fun hfair => ⟨h.carried, ?_⟩
    · rw [hsent, hseen]; exact h.stops
    · rw [hledger] at hfair
      obtain ⟨hfair, hheld⟩ := Bool.and_eq_true _ _ ▸ hfair
      show (s.kernel.ledger.account pid).reported ++ owed signal = []
      rw [h.reported hfair (Bool.not_eq_true' _ ▸ hheld), howed]
      rfl

/-- The threads of a process that were attached to so far. -/
structure Joined (ts : List Thread) (s : System (Audited κ)) : Prop extends Books s where
  process : s.tracer.process = none
  announced : s.kernel.ledger.announced = none
  agreed : ∀ t ∈ ts, Agrees (s.kernel.ledger.account t.tid) s.kernel.ledger.fair t

/-- Another thread was attached to, and its first stop is still to come. -/
structure Awaited (ts : List Thread) (tid : Nat) (s : System (Audited κ)) : Prop extends
    Joined ts s where
  attaching : (s.kernel.ledger.account tid).attaching = true
  stops : (s.kernel.ledger.account tid).sent = 0 ∧ (s.kernel.ledger.account tid).seen = 0
  signals : (s.kernel.ledger.account tid).carried = [] ∧ (s.kernel.ledger.account tid).reported = []

theorem Joined.of_same {ts : List Thread} (h : Joined ts s)
    (hledger : s'.kernel.ledger = s.kernel.ledger)
    (hprocess : s'.tracer.process = s.tracer.process) : Joined ts s' := by
  refine ⟨SameBooks.books ⟨hledger, threads_of_process hprocess⟩ h.toBooks, hprocess.trans h.process,
    ?_, ?_⟩
  · rw [hledger]; exact h.announced
  · rw [hledger]; exact h.agreed

theorem Awaited.of_same {ts : List Thread} (h : Awaited ts tid s)
    (hledger : s'.kernel.ledger = s.kernel.ledger)
    (hprocess : s'.tracer.process = s.tracer.process) : Awaited ts tid s' := by
  refine ⟨h.toJoined.of_same hledger hprocess, ?_, ?_, ?_⟩
  · rw [hledger]; exact h.attaching
  · rw [hledger]; exact h.stops
  · rw [hledger]; exact h.signals

/-- The accounts of other threads do not matter. -/
theorem Joined.enter {ts : List Thread} (h : Joined ts s) (hts : ∀ t ∈ ts, t.tid ≠ tid)
    (hprocess : s'.tracer.process = s.tracer.process)
    (hothers : ∀ u, u ≠ tid → s'.kernel.ledger.account u = s.kernel.ledger.account u)
    (hfair : s'.kernel.ledger.fair = true → s.kernel.ledger.fair = true)
    (hclean : s'.kernel.ledger.clean = true)
    (hannounced : s'.kernel.ledger.announced = none)
    (hkept : (s'.kernel.ledger.account tid).released = false) : Joined ts s' := by
  have hnone : ∀ t ∈ s.threads, t.tid ≠ tid := by
    rw [threads_of_gone h.process]
    exact nofun
  have hbooks : Booked tid Agrees s' :=
    (h.toBooks.booked tid).enter (threads_of_process hprocess) hothers hfair hclean hkept
      fun t ht htid => absurd htid (hnone t ht)
  refine ⟨hbooks.books fun _ _ _ h => h, hprocess.trans h.process, hannounced, fun t ht => ?_⟩
  rw [hothers t.tid (hts t ht)]
  exact (h.agreed t ht).mono hfair

theorem Joined.attach {ts : List Thread} (h : Joined ts s) (hts : ∀ t ∈ ts, t.tid ≠ tid)
    (hprocess : s'.tracer.process = s.tracer.process)
    (hledger : s'.kernel.ledger = s.kernel.ledger.attach tid) : Awaited ts tid s' := by
  have hself : s'.kernel.ledger.account tid = { Account.blank with attaching := true } := by
    rw [hledger, Ledger.account_attach, if_pos rfl]
  refine ⟨h.enter hts hprocess (fun u hu => ?_) (fun hfair => ?_) ?_ ?_ ?_, ?_, ?_, ?_⟩
  · rw [hledger, Ledger.account_attach, if_neg hu]
  · rwa [hledger] at hfair
  · rw [hledger]; exact h.clean
  · rw [hledger]; exact h.announced
  · rw [hself]; rfl
  · rw [hself]
  · rw [hself]; exact ⟨rfl, rfl⟩
  · rw [hself]; exact ⟨rfl, rfl⟩

/-- The first stop of a thread that was attached to. -/
theorem Awaited.report {ts : List Thread} {signal : Option Signal} (h : Awaited ts tid s)
    (hts : ∀ t ∈ ts, t.tid ≠ tid) (hprocess : s'.tracer.process = s.tracer.process)
    (hledger : s'.kernel.ledger = s.kernel.ledger.report tid signal) :
    Joined ts s' ∧ s'.kernel.ledger.account tid = (s.kernel.ledger.account tid).stop signal := by
  have hself : s'.kernel.ledger.account tid = (s.kernel.ledger.account tid).stop signal := by
    rw [hledger, Ledger.account_report, if_pos rfl]
  refine ⟨h.toJoined.enter hts hprocess (fun u hu => ?_) (fun hfair => ?_) ?_ ?_ ?_, hself⟩
  · rw [hledger, Ledger.account_report, if_neg hu]
  · rw [hledger] at hfair
    exact (Bool.and_eq_true _ _ ▸ hfair).1
  · rw [hledger]; exact h.clean
  · rw [hledger]; exact h.announced
  · rw [hself]; exact h.kept tid

/-- An event comes before the stop that an attach leads to. -/
theorem Awaited.event {ts : List Thread} (h : Awaited ts tid s) (hts : ∀ t ∈ ts, t.tid ≠ tid)
    (hprocess : s'.tracer.process = s.tracer.process)
    (hledger : s'.kernel.ledger = s.kernel.ledger.report tid none) : Awaited ts tid s' := by
  obtain ⟨hjoined, hself⟩ := h.report hts hprocess hledger
  refine ⟨hjoined, ?_, ?_, ?_⟩
  · rw [hself]; simp [Account.stop, h.attaching]
  · rw [hself]; simp [Account.stop, h.stops]
  · rw [hself]; simp [Account.stop, h.signals, owed]

/-- Another thread joins. -/
theorem Joined.insertThread {ts : List Thread} {t : Thread} (h : Joined ts s)
    (ht : Agrees (s.kernel.ledger.account t.tid) s.kernel.ledger.fair t) :
    Joined (Process.insertThread t ts) s := by
  refine ⟨h.toBooks, h.process, h.announced, fun u hu => ?_⟩
  rcases Process.mem_insertThread hu with rfl | hu
  · exact ht
  · exact h.agreed u hu

/-- A thread as it is noted after its first stop. -/
theorem Awaited.agrees_first {ts : List Thread} {a : Account} (h : Awaited ts tid s) {signal : Signal}
    {fair : Bool} (ha : a = (s.kernel.ledger.account tid).stop (some signal)) {t : Thread}
    (ht : t = if signal = .stop then .new tid else ⟨tid, false, some signal, 1⟩) :
    Agrees a fair t := by
  obtain ⟨hsent, hseen⟩ := h.stops
  obtain ⟨hcarried, hreported⟩ := h.signals
  subst ha ht
  split
  · rename_i hstop
    subst hstop
    refine agrees_new tid ?_ ?_ fun _ => ⟨hcarried, ?_⟩
    · simp [Account.stop, hsent, hseen]
    · simp [Account.stop]
    · simp [Account.stop, hreported, owed]
  · rename_i hstop
    refine ⟨?_, ?_, ?_, fun _ => ?_, fun _ _ => rfl⟩
    · simp [Account.stop, hsent, hseen, h.attaching, hstop]
    · simp [Account.stop]
    · simpa using hstop
    · simp [Account.stop, hcarried, hreported]

variable [Kernel κ]

namespace Tracing

/-! ### Taking charge of a process -/

omit [Kernel κ] in
/-- Threads that agree with their accounts are taken charge of. -/
theorem books_adopt {p : Process} (h : Books s) (hordered : Ordered p.threads)
    (hagrees : ∀ t ∈ p.threads,
      Agrees (s.kernel.ledger.account t.tid) s.kernel.ledger.fair t) :
    Ends (adopt p) s fun r s' => r = .ok () ∧ Books s' :=
  ⟨rfl, hordered, h.clean, h.kept, hagrees⟩

omit [Kernel κ] in
/-- What is done for a process that is to come, and what is done if none comes. -/
theorem books_orUnload {α : Type} {m : Tracing (Audited κ) α} {P : α → System (Audited κ) → Prop}
    (hm : Ends m s fun r s' => Books s' ∧ ∀ a, r = .ok a → P a s') :
    Ends (orUnload m) s fun r s' => Books s' ∧ ∀ a, r = .ok a → P a s' := by
  rw [orUnload, ends_tryCatch]
  refine hm.mono fun r s' h => ?_
  cases r with
  | ok a => exact h
  | error e => exact ⟨SameBooks.books (s := s') ⟨rfl, rfl⟩ h.1, nofun⟩

omit [Kernel κ] in
theorem books_judgeLaunch {pid : Nat} {status : WaitStatus} (h : Starting pid s)
    (hprocess : s'.tracer.process = s.tracer.process)
    (hledger : s'.kernel.ledger = s.kernel.ledger.enter (.wait (some pid)) (.ok status)) :
    Ends (judgeLaunch status) s' fun r t =>
      match r with
      | .ok none => Starting pid t
      | .ok (some _) => Books t ∧ Agrees (t.kernel.ledger.account pid) t.kernel.ledger.fair (.new pid)
      | .error _ => Books t := by
  have hsame : status.stop? = none → Starting pid s' := fun hstop => by
    rw [Ledger.enter, hstop] at hledger
    exact h.of_same hledger hprocess
  have hreport : ∀ signal, status.stop? = some signal → Starting pid s' ∧ (owed signal = [] →
      Agrees (s'.kernel.ledger.account pid) s'.kernel.ledger.fair (.new pid)) := fun signal hstop => by
    rw [Ledger.enter, hstop] at hledger
    dsimp only at hledger
    rw [if_neg (by rw [h.announced]; rintro ⟨⟩)] at hledger
    exact h.report hledger hprocess
  rw [judgeLaunch.eq_def]
  split
  · obtain ⟨hstarting, hagrees⟩ := hreport _ rfl
    exact ⟨hstarting.toBooks, hagrees rfl⟩
  · exact (hsame rfl).toBooks
  · exact (hsame rfl).toBooks
  · show Starting pid s'
    rcases hstop : status.stop? with _ | signal
    · exact hsame hstop
    · exact (hreport signal hstop).1

theorem books_startProgram (program : String) (info : LaunchInfo) (h : Paged s)
    (hprocess : s.tracer.process = none) : Ends (startProgram program info) s fun r s' =>
      Books s' ∧ ∀ pid, r = .ok pid →
        Agrees (s'.kernel.ledger.account pid) s'.kernel.ledger.fair (.new pid) := by
  rw [startProgram]
  split
  · exact ⟨h.toBooks, by rintro _ ⟨⟩⟩
  · have hspawn : Ends (require .io (.spawn program info)) s fun _ s' => ∀ pid, Starting pid s' := by
      rw [ends_require]
      exact fun pid => (h.starting hprocess pid).of_same rfl rfl
    refine hspawn.bind (fun pid s₁ h₁ => ?_) fun _ _ h => ⟨(h 0).toBooks, by rintro _ ⟨⟩⟩
    have hawait : Ends (await (some pid) judgeLaunch) s₁ fun r s' => Books s' ∧ (r = .ok (.ok ()) →
        Agrees (s'.kernel.ledger.account pid) s'.kernel.ledger.fair (.new pid)) := by
      refine ends_await_of (I := Starting pid) (fun t ht => ⟨ht.toBooks, by rintro ⟨⟩⟩)
        (fun t e ht hanswer => ?_) (fun t status ht hanswer => ?_) (h₁ pid)
      · exact ⟨SameBooks.books ⟨ledger_perform _ _ hanswer, rfl⟩ ht.toBooks, by rintro ⟨⟩⟩
      · have hjudge : Ends (judgeLaunch status)
            { t with kernel := (Kernel.perform (.wait (some pid)) t.kernel).2 } _ :=
          books_judgeLaunch ht rfl (ledger_perform _ _ hanswer)
        refine hjudge.mono fun r t' h => ?_
        rcases r with e | _ | _
        · exact ⟨h, by rintro ⟨⟩⟩
        · exact h
        · exact ⟨h.1, fun _ => h.2⟩
    refine hawait.bind (fun result s₂ h₂ => ?_) fun _ _ h => ⟨h.1, by rintro _ ⟨⟩⟩
    cases result with
    | error e => exact ⟨h₂.1, by rintro _ ⟨⟩⟩
    | ok u =>
      have hoptions : Ends (require .ptrace (.setOptions pid launchOptions)) s₂ fun _ s' =>
          SameBooks s₂ s' := by
        rw [ends_require]
        exact ⟨rfl, rfl⟩
      refine hoptions.bind (fun _ s₃ h₃ => ?_) fun _ _ h₃ => ⟨h₃.books h₂.1, by rintro _ ⟨⟩⟩
      have hagrees := h₂.2 rfl
      rw [← h₃.ledger] at hagrees
      refine ⟨h₃.books h₂.1, ?_⟩
      rintro _ ⟨⟩
      exact hagrees

theorem books_launchToEntry (info : LaunchInfo) (h : Paged s) :
    Ends (launchToEntry info) s fun _ s' => Books s' := by
  rw [launchToEntry, hasProcess, bind_assoc, ends_tracer_bind, pure_bind]
  rcases hp : s.tracer.process with _ | p
  · show Ends (tracer >>= _) s _
    rw [ends_tracer_bind]
    split
    · exact h.toBooks
    · rename_i program _
      let t : System (Audited κ) := { s with tracer := { s.tracer with
        snapshot := { Snapshot.unloaded with state := .launching }
        events := s.tracer.events ++ [.stateChanged .launching] } }
      have ht : Paged t := ⟨SameBooks.books (s := s) ⟨rfl, rfl⟩ h.toBooks, h.blank, h.announced⟩
      rw [ends_begin_bind]
      refine (books_orUnload (books_startProgram program info ht hp)).bind ?_ fun _ _ h => h.1
      rintro pid u ⟨hu, hagrees⟩
      rw [ends_programOf_bind]
      have hadopt := books_adopt (p := ⟨pid, true, Kernel.linkTarget? u.kernel (processPath pid "exe"),
        [.new pid], some .empty, false, none⟩) hu (List.pairwise_singleton _ _) fun t ht => by
          rw [List.eq_of_mem_singleton ht]
          exact hagrees pid rfl
      exact hadopt.bind_eq fun v hv => books_of_keeps (moves_reportStop _) hv
  · exact h.toBooks

/-! ### Attaching -/

section Attaching

variable {ts : List Thread}

omit [Kernel κ] in
theorem joined_judgeAttach {status : WaitStatus} (h : Awaited ts tid s) (hts : ∀ t ∈ ts, t.tid ≠ tid)
    (hprocess : s'.tracer.process = s.tracer.process)
    (hledger : s'.kernel.ledger = s.kernel.ledger.enter (.wait (some tid)) (.ok status)) :
    Ends (judgeAttach tid status) s' fun r t =>
      match r with
      | .ok none => Awaited ts tid t
      | .ok (some none) => Joined ts t
      | .ok (some (some u)) => Joined ts t ∧ u.tid = tid ∧
          Agrees (t.kernel.ledger.account tid) t.kernel.ledger.fair u
      | .error _ => Joined ts t := by
  have hsame : status.stop? = none → Awaited ts tid s' := fun hstop => by
    rw [Ledger.enter, hstop] at hledger
    exact h.of_same hledger hprocess
  have hreport : ∀ signal, status.stop? = some signal →
      s'.kernel.ledger = s.kernel.ledger.report tid signal := fun signal hstop => by
    rw [Ledger.enter, hstop] at hledger
    dsimp only at hledger
    rwa [if_neg (by rw [h.announced]; rintro ⟨⟩)] at hledger
  rw [judgeAttach.eq_def]
  split
  · obtain ⟨hjoined, hself⟩ := h.report hts hprocess (hreport _ rfl)
    exact ⟨hjoined, rfl, h.agrees_first hself (if_pos rfl).symm⟩
  · rename_i hstop
    obtain ⟨hjoined, hself⟩ := h.report hts hprocess (hreport _ rfl)
    exact ⟨hjoined, rfl, h.agrees_first hself (if_neg hstop).symm⟩
  · exact (hsame rfl).toJoined
  · exact (hsame rfl).toJoined
  · show Awaited ts tid s'
    rcases hstop : status.stop? with _ | _ | signal
    · exact hsame hstop
    · exact h.event hts hprocess (hreport none hstop)
    · cases status with
      | stopped u signal =>
        rename_i hother _ _
        exact absurd rfl (hother u signal)
      | _ => cases hstop

theorem joined_attachThread (pid : Nat) (h : Joined ts s) (hts : ∀ t ∈ ts, t.tid ≠ tid) :
    Ends (attachThread pid tid) s fun r s' => Joined ts s' ∧ ∀ t, r = .ok (some t) →
      t.tid = tid ∧ Agrees (s'.kernel.ledger.account tid) s'.kernel.ledger.fair t := by
  rw [attachThread, ends_attempt_bind]
  rcases hanswer : (Kernel.perform (.attach tid) s.kernel).1 with e | u
  · have hsame : Joined ts { s with kernel := (Kernel.perform (.attach tid) s.kernel).2 } :=
      h.of_same (ledger_perform _ _ hanswer) rfl
    cases e with
    | noProcess =>
      dsimp only
      split
      · exact ⟨hsame, nofun⟩
      · exact ⟨hsame, nofun⟩
    | _ => exact ⟨hsame, nofun⟩
  · have hattached : Awaited ts tid { s with kernel := (Kernel.perform (.attach tid) s.kernel).2 } :=
      h.attach hts rfl (ledger_perform _ _ hanswer)
    have hawait : Ends (await (some tid) (judgeAttach tid))
        { s with kernel := (Kernel.perform (.attach tid) s.kernel).2 } fun r s' => Joined ts s' ∧
          ∀ t, r = .ok (.ok (some t)) →
            t.tid = tid ∧ Agrees (s'.kernel.ledger.account tid) s'.kernel.ledger.fair t := by
      refine ends_await_of (I := Awaited ts tid) (fun t ht => ⟨ht.toJoined, nofun⟩)
        (fun t e ht hanswer => ?_) (fun t status ht hanswer => ?_) hattached
      · exact ⟨ht.toJoined.of_same (ledger_perform _ _ hanswer) rfl, nofun⟩
      · have hjudge : Ends (judgeAttach tid status)
            { t with kernel := (Kernel.perform (.wait (some tid)) t.kernel).2 } _ :=
          joined_judgeAttach ht hts rfl (ledger_perform _ _ hanswer)
        refine hjudge.mono fun r t' h => ?_
        match r, h with
        | .ok none, h => exact h
        | .ok (some none), h => exact ⟨h, nofun⟩
        | .ok (some (some u)), h =>
          refine ⟨h.1, ?_⟩
          rintro _ ⟨⟩
          exact h.2
        | .error _, h => exact ⟨h, nofun⟩
    refine hawait.bind (fun result s₂ h₂ => ?_) fun _ _ h => ⟨h.1, nofun⟩
    split
    · exact ⟨h₂.1, nofun⟩
    · exact ⟨h₂.1, nofun⟩
    · rename_i thread
      have hoptions : Ends (require .ptrace (.setOptions tid eventOptions)) s₂ fun _ s' =>
          s'.kernel.ledger = s₂.kernel.ledger ∧ s'.tracer.process = s₂.tracer.process := by
        rw [ends_require]
        exact ⟨rfl, rfl⟩
      refine hoptions.bind (fun _ s₃ h₃ => ?_) fun _ _ h₃ => ⟨h₂.1.of_same h₃.1 h₃.2, nofun⟩
      have hthread := h₂.2 thread rfl
      rw [← h₃.1] at hthread
      refine ⟨h₂.1.of_same h₃.1 h₃.2, ?_⟩
      rintro _ ⟨⟩
      exact hthread

/-- How an attach to threads ends: those that were attached to agree with their accounts. -/
def Joins (f : α → List Thread) (r : Except DebugError α) (s : System (Audited κ)) : Prop :=
  Books s ∧ ∀ a, r = .ok a → Joined (f a) s ∧ Ordered (f a)

theorem joined_attachThreads (pid : Nat) (tids : List Nat) : ∀ {ts : List Thread}
    {s : System (Audited κ)}, Joined ts s → Ordered ts → tids.Nodup →
    (∀ tid ∈ tids, ∀ t ∈ ts, t.tid ≠ tid) →
    Ends (attachThreads pid tids ts) s fun r s' => Joins id r s' := by
  induction tids with
  | nil =>
    intro ts s h hordered _ _
    refine ⟨h.toBooks, ?_⟩
    rintro _ ⟨⟩
    exact ⟨h, hordered⟩
  | cons tid rest ih =>
    intro ts s h hordered hnodup hts
    obtain ⟨hnew, hrest⟩ := List.nodup_cons.mp hnodup
    have htid := hts tid List.mem_cons_self
    rw [attachThreads]
    refine (joined_attachThread pid h htid).bind (fun thread s₁ h₁ => ?_)
      fun _ _ h₁ => ⟨h₁.1.toBooks, nofun⟩
    split
    · rename_i t
      obtain ⟨heq, hagrees⟩ := h₁.2 t rfl
      rw [← heq] at hagrees
      refine ih (h₁.1.insertThread hagrees) (hordered.insertThread t) hrest fun u hu v hv => ?_
      rcases Process.mem_insertThread hv with rfl | hv
      · rw [heq]
        exact fun heq => hnew (heq ▸ hu)
      · exact hts u (List.mem_cons_of_mem _ hu) v hv
    · exact ih h₁.1 hordered hrest fun u hu => hts u (List.mem_cons_of_mem _ hu)

omit [Kernel κ] in
theorem mem_ascending_insert {x y : Nat} {ys : List Nat} (h : y ∈ ascending.insert x ys) :
    y = x ∨ y ∈ ys := by
  induction ys with
  | nil => exact Or.inl (List.mem_singleton.mp h)
  | cons z r ih =>
    rw [ascending.insert] at h
    split at h
    · exact Or.inr h
    · split at h
      · exact List.mem_cons.mp h
      · rcases List.mem_cons.mp h with rfl | h
        · exact Or.inr List.mem_cons_self
        · exact (ih h).imp_right (List.mem_cons_of_mem z)

omit [Kernel κ] in
theorem pairwise_ascending_insert (x : Nat) {ys : List Nat} (h : ys.Pairwise (· < ·)) :
    (ascending.insert x ys).Pairwise (· < ·) := by
  induction h with
  | nil => exact List.pairwise_singleton _ _
  | @cons z r hz hr ih =>
    rw [ascending.insert]
    split
    · exact .cons hz hr
    · rename_i hne
      split
      · rename_i hlt
        refine .cons (fun y hy => ?_) (.cons hz hr)
        rcases List.mem_cons.mp hy with rfl | hy
        · exact hlt
        · exact Nat.lt_trans hlt (hz y hy)
      · rename_i hge
        refine .cons (fun y hy => ?_) ih
        rcases mem_ascending_insert hy with rfl | hy
        · exact Nat.lt_of_le_of_ne (Nat.le_of_not_lt hge) (Ne.symm hne)
        · exact hz y hy

omit [Kernel κ] in
theorem pairwise_ascending (xs : List Nat) : (ascending xs).Pairwise (· < ·) := by
  induction xs with
  | nil => exact .nil
  | cons x r ih => exact pairwise_ascending_insert x ih

theorem joined_attachRounds (pid rounds : Nat) : ∀ {a : Attached} {s : System (Audited κ)},
    Joined a.threads s → Ordered a.threads →
    Ends (attachRounds pid rounds a) s fun r s' => Joins Attached.threads r s' := by
  induction rounds with
  | zero =>
    intro a s h hordered
    refine ⟨h.toBooks, ?_⟩
    rintro _ ⟨⟩
    exact ⟨h, hordered⟩
  | succ rounds ih =>
    intro a s h hordered
    rw [attachRounds, ends_get_bind]
    split
    · split
      · exact ⟨h.toBooks, nofun⟩
      · refine ⟨h.toBooks, ?_⟩
        rintro _ ⟨⟩
        exact ⟨h, hordered⟩
    · refine (joined_attachThreads pid _ h hordered ?_ fun tid htid t ht heq => ?_).bind
        (fun threads s₁ h₁ => ?_) fun _ _ h₁ => ⟨h₁.1, nofun⟩
      · exact ((pairwise_ascending _).filter _).imp Nat.ne_of_lt
      · have hnew := (List.mem_filter.mp htid).2
        rw [Bool.not_eq_true', ← Bool.not_eq_true, List.contains_iff_mem] at hnew
        exact hnew (List.mem_map.mpr ⟨t, ht, heq⟩)
      · obtain ⟨hjoined, hordered⟩ := h₁.2 threads rfl
        exact ih hjoined hordered

theorem books_attach (pid : Nat) (h : Paged s) : Ends (attach pid) s fun _ s' => Books s' := by
  rw [attach, hasProcess, bind_assoc, ends_tracer_bind, pure_bind]
  rcases hp : s.tracer.process with _ | p
  · let t : System (Audited κ) := { s with tracer := { s.tracer with
      snapshot := { Snapshot.unloaded with state := .attaching }
      events := s.tracer.events ++ [.stateChanged .attaching] } }
    have ht : Joined [] t :=
      ⟨SameBooks.books (s := s) ⟨rfl, rfl⟩ h.toBooks, hp, h.announced, fun _ h => absurd h List.not_mem_nil⟩
    show Ends (begin .attaching >>= _) s _
    rw [ends_begin_bind]
    have hattached : Ends (attachRounds pid 2 ⟨[], none⟩) t fun r s' => Joins Attached.threads r s' :=
      joined_attachRounds pid 2 ht .nil
    refine (books_orUnload hattached).bind ?_ fun _ _ h => h.1
    rintro attached u ⟨-, hjoins⟩
    obtain ⟨hjoined, hordered⟩ := hjoins attached rfl
    rw [ends_modifyTracer_bind, ends_programOf_bind]
    refine (books_adopt ?_ hordered hjoined.agreed).bind_eq fun v hv => ?_
    · exact SameBooks.books (s := u) ⟨rfl, rfl⟩ hjoined.toBooks
    · exact books_of_keeps (moves_reportStop _) hv
  · exact h.toBooks

end Attaching

end Tracing

end DebugAdapter.Tracer
