import DebugAdapter.Proofs.SignalBooks

/-!
# Books while threads are dealt with

A report puts the books out of order in the thread that it is about, and the handling of the report
puts them in order again, whoever waits for it: a stop of the whole process, a step, or a drain before
the process is let go. So whole dealings with a thread keep the books (`Keeps`).
-/

namespace DebugAdapter.Tracer

open Linux
open Linux.Account (owed)
open Operation

variable {κ : Type} {tid : Nat} {P Q : Account → Bool → Thread → Prop} {s s' : System (Audited κ)}

/-! ### Entries -/

/-- An entry in one account. -/
theorem Booked.enter (h : Booked tid P s) (hthreads : s'.threads = s.threads)
    (hothers : ∀ u, u ≠ tid → s'.kernel.ledger.account u = s.kernel.ledger.account u)
    (hfair : s'.kernel.ledger.fair = true → s.kernel.ledger.fair = true)
    (hclean : s'.kernel.ledger.clean = true)
    (hkept : (s'.kernel.ledger.account tid).released = false)
    (hself : ∀ t ∈ s.threads, t.tid = tid → P (s.kernel.ledger.account tid) s.kernel.ledger.fair t →
      Q (s'.kernel.ledger.account tid) s'.kernel.ledger.fair t) : Booked tid Q s' := by
  refine ⟨?_, hclean, fun u => ?_, ?_, ?_⟩
  · rw [hthreads]
    exact h.ordered
  · by_cases hu : u = tid
    · rw [hu]
      exact hkept
    · rw [hothers u hu]
      exact h.kept u
  · rw [hthreads]
    intro t ht hne
    rw [hothers t.tid hne]
    exact (h.others t ht hne).mono hfair
  · rw [hthreads]
    exact fun t ht htid => hself t ht htid (h.self t ht htid)

/-- A thread is to go on. -/
theorem Booked.letGo {signal : Option Signal} {done : Bool} (h : Booked tid P s)
    (hP : ∀ a fair t, P a fair t → Agrees (a.letGo signal done) fair t)
    (hsignal : signal ≠ some .stop) (hthreads : s'.threads = s.threads)
    (hledger : s'.kernel.ledger = s.kernel.ledger.letGo tid signal done) : Books s' := by
  have hself : s'.kernel.ledger.account tid = (s.kernel.ledger.account tid).letGo signal done := by
    rw [hledger, Ledger.account_letGo, if_pos rfl]
  refine (h.enter (Q := Agrees) hthreads (fun u hu => ?_) (fun hfair => ?_) ?_ ?_
    fun t _ _ ht => ?_).books fun _ _ _ h => h
  · rw [hledger, Ledger.account_letGo, if_neg hu]
  · rwa [hledger] at hfair
  · rw [hledger]
    show (s.kernel.ledger.clean && signal != some .stop) = true
    rw [h.clean, Bool.true_and]
    exact bne_iff_ne.mpr hsignal
  · rw [hself]
    exact h.kept tid
  · rw [hself, hledger]
    exact hP _ _ t ht

/-- A thread is reported stopped. -/
theorem Books.report {signal : Option Signal} (h : Books s) (hthreads : s'.threads = s.threads)
    (hledger : s'.kernel.ledger = s.kernel.ledger.report tid signal) :
    Booked tid (Faced signal) s' := by
  have hself : s'.kernel.ledger.account tid = (s.kernel.ledger.account tid).stop signal := by
    rw [hledger, Ledger.account_report, if_pos rfl]
  refine (h.booked tid).enter hthreads (fun u hu => ?_) (fun hfair => ?_) ?_ ?_ fun t _ _ ht => ?_
  · rw [hledger, Ledger.account_report, if_neg hu]
  · rw [hledger] at hfair
    exact (Bool.and_eq_true _ _ ▸ hfair).1
  · rw [hledger]
    exact h.clean
  · rw [hself]
    exact h.kept tid
  · rw [hself, hledger]
    exact ht.faced signal

/-- A stop signal is sent to a thread, and not counted yet. -/
theorem Books.send (h : Books s) (hthreads : s'.threads = s.threads)
    (hledger : s'.kernel.ledger = s.kernel.ledger.send tid) :
    Booked tid (fun a fair t => Agrees a fair { t with expectedStops := t.expectedStops + 1 }) s' := by
  have hself : s'.kernel.ledger.account tid
      = { s.kernel.ledger.account tid with sent := (s.kernel.ledger.account tid).sent + 1 } := by
    rw [hledger, Ledger.account_send, if_pos rfl]
  refine (h.booked tid).enter hthreads (fun u hu => ?_) (fun hfair => ?_) ?_ ?_ fun t _ _ ht => ?_
  · rw [hledger, Ledger.account_send, if_neg hu]
  · rwa [hledger] at hfair
  · rw [hledger]
    exact h.clean
  · rw [hself]
    exact h.kept tid
  · rw [hself, hledger]
    refine ⟨?_, ht.attached, ht.pending, ht.signals, ht.held⟩
    show t.expectedStops + 1 + (s.kernel.ledger.account tid).seen
      = (s.kernel.ledger.account tid).sent + 1
    rw [← ht.stops, Nat.add_right_comm]

/-- Whom a clone announced does not matter. -/
theorem Books.announce {announced : Option Nat} (h : Books s) (hthreads : s'.threads = s.threads)
    (hledger : s'.kernel.ledger = { s.kernel.ledger with announced }) : Books s' := by
  refine ⟨?_, ?_, ?_, ?_⟩
  · rw [hthreads]
    exact h.ordered
  · rw [hledger]
    exact h.clean
  · rw [hledger]
    exact h.kept
  · rw [hthreads, hledger]
    exact h.agrees

/-- A thread that is not known appears. -/
theorem Books.appear {new : Nat} {signal : Option Signal} (h : Books s)
    (hnew : ∀ t ∈ s.threads, t.tid ≠ new) (hthreads : s'.threads = s.threads)
    (hledger : s'.kernel.ledger = s.kernel.ledger.appear new signal) :
    Books s' ∧ Agrees (s'.kernel.ledger.account new) s'.kernel.ledger.fair (.new new) := by
  have hself : s'.kernel.ledger.account new
      = { Account.blank with held := true, born := owed signal } := by
    rw [hledger, Ledger.account_appear, if_pos rfl]
  refine ⟨((h.booked new).enter (Q := Agrees) hthreads (fun u hu => ?_) (fun hfair => ?_) ?_ ?_
    fun t ht htid => absurd htid (hnew t ht)).books fun _ _ _ h => h, ?_⟩
  · rw [hledger, Ledger.account_appear, if_neg hu]
  · rwa [hledger] at hfair
  · rw [hledger]
    exact h.clean
  · rw [hself]
    rfl
  · rw [hself]
    exact agrees_new new rfl rfl fun _ => ⟨rfl, rfl⟩

/-- An event leaves nothing to note about the thread itself. -/
theorem Booked.books_of_event (h : Booked tid (Faced none) s) : Books s :=
  h.books fun _ _ _ ht => ht.agrees nofun rfl

/-- A trap leaves nothing to note either. -/
theorem Booked.books_of_trap (h : Booked tid (Faced (some .trap)) s) : Books s :=
  h.books fun _ _ _ ht => ht.agrees nofun rfl

/-- What a status says about a thread that is waited for is not noted yet. -/
structure Noticed (tid : Nat) (status : WaitStatus) (s : System (Audited κ)) : Prop where
  stop : ∀ signal, status.stop? = some signal → Booked tid (Faced signal) s
  other : status.stop? = none → Books s

variable [Kernel κ]

theorem ledger_perform (c : SystemCall) (k : Audited κ) {answer : Except OsError c.Answer}
    (h : (Kernel.perform c k).1 = answer) :
    (Kernel.perform c k).2.ledger = k.ledger.enter c answer := by
  rw [← h]
  rfl

/-- A wait for a thread that no clone has just announced. -/
theorem Books.noticed (h : Books s) (hfree : s.kernel.ledger.announced ≠ some tid)
    {status : WaitStatus} (hanswer : (Kernel.perform (.wait (some tid)) s.kernel).1 = .ok status)
    (hkernel : s'.kernel = (Kernel.perform (.wait (some tid)) s.kernel).2)
    (hthreads : s'.threads = s.threads) :
    Noticed tid status s' ∧ s'.kernel.ledger.announced = s.kernel.ledger.announced := by
  have hledger := ledger_perform _ _ hanswer
  rw [← hkernel, Ledger.enter] at hledger
  rcases hstop : status.stop? with _ | signal
  · rw [hstop] at hledger
    refine ⟨⟨fun signal h => (nomatch hstop.symm.trans h), fun _ => ?_⟩, by rw [hledger]⟩
    exact SameBooks.books ⟨hledger, hthreads⟩ h
  · rw [hstop] at hledger
    dsimp only at hledger
    rw [if_neg hfree] at hledger
    refine ⟨⟨fun signal' h' => ?_, fun hnone => (nomatch hstop.symm.trans hnone)⟩, by rw [hledger]; rfl⟩
    cases hstop.symm.trans h'
    exact h.report hthreads hledger

namespace Tracing

/-! ### Notes about a thread -/

omit [Kernel κ] in
/-- A change of a thread that puts the books in order. -/
theorem books_modifyThread {f : Thread → Thread} (hf : ∀ t, (f t).tid = t.tid)
    (hP : ∀ a fair t, P a fair t → Agrees a fair (f t)) (h : Booked tid P s) :
    Ends (modifyThread tid f) s fun r s' => r = .ok () ∧ s'.kernel = s.kernel ∧ Books s' :=
  (booked_modifyThread hf hP h).mono fun _ _ h => ⟨h.1, h.2.1, h.2.2.books fun _ _ _ h => h⟩

omit [Kernel κ] in
theorem books_markStopped (tid : Nat) (h : Books s) :
    Ends (markStopped tid) s fun r s' => r = .ok () ∧ s'.kernel = s.kernel ∧ Books s' :=
  books_modifyThread (fun _ => rfl) (fun _ _ _ h => ⟨h.stops, h.attached, h.pending, h.signals, h.held⟩)
    (h.booked tid)

omit [Kernel κ] in
theorem booked_markStopped {signal : Option Signal} (h : Booked tid (Faced signal) s) :
    Ends (markStopped tid) s fun r s' =>
      r = .ok () ∧ s'.kernel = s.kernel ∧ Booked tid (Faced signal) s' :=
  booked_modifyThread (fun _ => rfl) (fun _ _ _ h => ⟨h.stops, h.attached, h.pending, h.signals⟩) h

omit [Kernel κ] in
theorem books_keepSignal {signal : Signal} (hstop : signal ≠ .stop)
    (h : Booked tid (Faced (some signal)) s) : Ends (keepSignal tid signal) s fun r s' =>
      r = .ok () ∧ s'.kernel = s.kernel ∧ Books s' :=
  books_modifyThread (fun _ => rfl) (fun _ _ _ h => h.keep hstop) h

omit [Kernel κ] in
/-- The signal of a thread is taken. -/
theorem booked_takeSignal (tid : Nat) (h : Books s) : Ends (takeSignal tid) s fun r s' =>
    ∃ signal, r = .ok signal ∧ signal ≠ some .stop ∧ Booked tid (Taken signal) s' := by
  rw [takeSignal, ends_tracer_bind]
  dsimp only
  generalize hsignal : (s.tracer.process.bind (·.thread? tid)).bind (·.pendingSignal) = signal
  have hmem : ∀ t ∈ s.threads, t.tid = tid → t.pendingSignal = signal := by
    intro t ht htid
    rw [← hsignal, ← htid, h.ordered.thread?_eq_some ht]
    rfl
  have htaken : Booked tid (fun a fair t => Taken signal a fair { t with pendingSignal := none }) s := by
    refine ⟨h.ordered, h.clean, h.kept, (h.booked tid).others, fun t ht htid => ?_⟩
    rw [← hmem t ht htid]
    exact ((h.booked tid).self t ht htid).take
  refine (booked_modifyThread (f := fun t => { t with pendingSignal := none }) (fun _ => rfl)
    (fun _ _ _ h => h) htaken).bind_eq ?_
  rintro s' ⟨-, htaken'⟩
  refine ⟨signal, rfl, ?_, htaken'⟩
  rcases ht : s.tracer.process.bind (·.thread? tid) with _ | t
  · rw [← hsignal, ht]
    exact nofun
  · rw [← hsignal, ht]
    exact (h.agrees t (mem_threads_of_thread? ht).1).pending

omit [Kernel κ] in
/-- A stop by a stop signal is accounted for. -/
theorem books_consumeStop (h : Booked tid (Faced (some .stop)) s) :
    Ends (consumeStop tid) s fun _ s' => s'.kernel = s.kernel ∧ Books s' := by
  rw [consumeStop, expectedStops, bind_assoc, ends_tracer_bind, pure_bind]
  split
  · rename_i hzero
    refine ⟨rfl, h.books fun t ht htid hfaced => ?_⟩
    have hexpected : t.expectedStops = 0 := by
      rwa [← htid, h.ordered.thread?_eq_some ht] at hzero
    have hagrees := hfaced.consume
    rwa [hexpected, Nat.zero_sub, ← hexpected] at hagrees
  · refine (books_modifyThread (f := fun t => { t with expectedStops := t.expectedStops - 1 })
      (fun _ => rfl) (fun _ _ _ h => h.consume) h).bind_eq fun s' h' => ?_
    exact h'

omit [Kernel κ] in
/-- A thread that is forgotten is not booked any more. -/
theorem books_threadGone (status : Option Int) (h : Booked tid P s) :
    Ends (threadGone tid status) s fun r s' => r = .ok () ∧ s'.kernel = s.kernel ∧ Books s' := by
  rw [threadGone, ends_tracer_bind]
  split
  · rename_i hnone
    exact ⟨rfl, rfl, h.books_of_gone rfl (threads_of_gone hnone)⟩
  · rename_i p hp
    have hthreads := threads_of_present hp
    rw [modifyProcess, ends_modifyTracer_bind, hp]
    split
    · exact ⟨rfl, rfl, h.books_of_gone rfl rfl⟩
    · refine ⟨rfl, rfl, ?_, h.clean, h.kept, fun t ht => ?_⟩
      · exact (hthreads ▸ h.ordered).filter _
      · have ht' : t ∈ p.threads ∧ decide (t.tid ≠ tid) = true := List.mem_filter.mp ht
        exact h.others t (hthreads ▸ ht'.1) (of_decide_eq_true ht'.2)

omit [Kernel κ] in
/-- A thread is taken note of. -/
theorem books_addThread {new : Nat} (h : Books s)
    (hnew : Agrees (s.kernel.ledger.account new) s.kernel.ledger.fair (.new new)) :
    Ends (modifyProcess (·.addThread new)) s fun r s' =>
      r = .ok () ∧ s'.kernel = s.kernel ∧ Books s' := by
  refine ⟨rfl, rfl, ?_⟩
  show Books { s with tracer := { s.tracer with process := s.tracer.process.map (·.addThread new) } }
  rcases hp : s.tracer.process with _ | p
  · exact (h.booked new).books_of_gone rfl rfl
  · have hthreads := threads_of_present hp
    refine ⟨Ordered.insertThread _ (hthreads ▸ h.ordered), h.clean, h.kept, fun t ht => ?_⟩
    rcases Process.mem_insertThread ht with rfl | ht
    · exact hnew
    · exact h.agrees t (hthreads ▸ ht)

/-! ### New threads -/

/-- A wait for a thread that a clone announced and that is not known. -/
theorem books_awaitNew {new : Nat} (h : Books s) (hannounced : s.kernel.ledger.announced = some new)
    (hnew : ∀ t ∈ s.threads, t.tid ≠ new) :
    Ends (await (some new) fun status => match status with
      | .stopped .. | .event .. => return some ()
      | _ => return none) s fun r s' => Books s' ∧
        (r = .ok (.ok ()) → Agrees (s'.kernel.ledger.account new) s'.kernel.ledger.fair (.new new)) := by
  -- While the thread does not stop it stays announced.
  let I : System (Audited κ) → Prop := fun t =>
    Books t ∧ t.kernel.ledger.announced = some new ∧ t.threads = s.threads
  refine ends_await_of (I := I) (fun t ht => ⟨ht.1, nofun⟩) (fun t e ht hanswer => ?_)
    (fun t status ht hanswer => ?_) ⟨h, hannounced, rfl⟩
  · exact ⟨SameBooks.books ⟨ledger_perform _ _ hanswer, rfl⟩ ht.1, nofun⟩
  · obtain ⟨hbooks, hfree, hthreads⟩ := ht
    have hledger := ledger_perform _ _ hanswer
    have hstops : ∀ signal, status.stop? = some signal →
        Books { t with kernel := (Kernel.perform (.wait (some new)) t.kernel).2 } ∧
          Agrees ((Kernel.perform (.wait (some new)) t.kernel).2.ledger.account new)
            (Kernel.perform (.wait (some new)) t.kernel).2.ledger.fair (.new new) := by
      intro signal hstop
      rw [Ledger.enter, hstop] at hledger
      dsimp only at hledger
      rw [if_pos hfree] at hledger
      exact hbooks.appear (fun u hu => hnew u (hthreads ▸ hu)) rfl hledger
    have hgoes : status.stop? = none →
        I { t with kernel := (Kernel.perform (.wait (some new)) t.kernel).2 } := by
      intro hstop
      rw [Ledger.enter, hstop] at hledger
      exact ⟨SameBooks.books ⟨hledger, rfl⟩ hbooks, hledger ▸ hfree, hthreads⟩
    cases status with
    | stopped tid signal => exact (hstops _ rfl).imp_right fun h _ => h
    | event tid n => exact (hstops _ rfl).imp_right fun h _ => h
    | exited tid code => exact hgoes rfl
    | signaled tid signal => exact hgoes rfl
    | continued tid => exact hgoes rfl

/-- The thread that an event announces is taken note of, with a fresh account. -/
theorem books_threadCloned (tid : Nat) (h : Books s) :
    Ends (threadCloned tid) s fun _ s' => Books s' := by
  have hmark : ∀ (new : Nat) (t : System (Audited κ)), Books t → Ends (do
      markStopped tid
      return new : Tracing (Audited κ) Nat) t fun _ s' => Books s' :=
    fun new t ht => (books_markStopped tid ht).bind_eq fun s' h' => h'.2
  have hmessage : Ends (require .ptrace (.eventMessage tid)) s fun r s' =>
      Books s' ∧ ∀ new, r = .ok new → s'.kernel.ledger.announced = some new := by
    rw [ends_require]
    rcases hanswer : (Kernel.perform (.eventMessage tid) s.kernel).1 with e | new
    · exact ⟨SameBooks.books ⟨ledger_perform _ _ hanswer, rfl⟩ h, nofun⟩
    · have hledger := ledger_perform _ _ hanswer
      refine ⟨h.announce rfl hledger, ?_⟩
      rintro _ ⟨⟩
      rw [hledger]
      rfl
  refine hmessage.bind ?_ fun _ _ h => h.1
  rintro new s₁ ⟨h₁, hannounced⟩
  rcases hp : s₁.tracer.process with _ | p
  · rw [ends_process_bind_none hp]
    exact h₁
  · rw [ends_process_bind hp]
    dsimp only
    split
    · rename_i hunknown
      have hnew : ∀ t ∈ s₁.threads, t.tid ≠ new := by
        rw [threads_of_present hp]
        intro t ht htid
        rw [Bool.not_eq_true', Process.hasThread] at hunknown
        exact List.any_eq_false.mp hunknown t ht (beq_iff_eq.mpr htid)
      refine (books_awaitNew h₁ (hannounced new rfl) hnew).bind ?_ fun _ _ h => h.1
      rintro started s₂ ⟨h₂, hagrees⟩
      cases started with
      | ok u =>
        refine (books_addThread h₂ (hagrees rfl)).bind_eq fun s₃ h₃ => ?_
        exact hmark new s₃ h₃.2
      | error e => exact h₂
    · exact hmark new s₁ h₁

/-! ### Waits for a stop -/

/-- What is left of a status once it is noted: if the wait goes on, the thread is not one that a clone
announced. -/
def Notes (tid : Nat) {α : Type} (r : Except Debuggee.DebugError (Option α))
    (s : System (Audited κ)) : Prop :=
  Books s ∧ (r = .ok none → s.kernel.ledger.announced ≠ some tid)

omit [Kernel κ] in
/-- A wait that ends asks for nothing more than the books. -/
theorem notes_some {α : Type} (h : Books s) (v : α) : Notes tid (.ok (some v)) s :=
  ⟨h, by rintro ⟨⟩⟩

omit [Kernel κ] in
theorem notes_error {α : Type} {e : Debuggee.DebugError} (h : Books s) :
    Notes tid (.error e : Except Debuggee.DebugError (Option α)) s :=
  ⟨h, by rintro ⟨⟩⟩

/-- A thread is let go on that is about to exit. -/
theorem books_letExit (h : Booked tid P s)
    (hP : ∀ a fair t, P a fair t → Agrees a fair t ∧ (fair = true → t.pendingSignal = none)) :
    Ends (letExit tid) s fun _ s' => Books s' ∧ s'.kernel.ledger.announced = none ∧
      s'.kernel.ledger.fair = s.kernel.ledger.fair := by
  rw [letExit, ends_attempt_bind]
  have hledger : (Kernel.perform (.resume tid none) s.kernel).2.ledger = s.kernel.ledger.letGo tid none
      (Kernel.perform (.resume tid none) s.kernel).1.isOk := rfl
  refine ⟨h.letGo (fun a fair t ht => ?_) (by exact nofun) rfl hledger, ?_, ?_⟩
  · exact (hP a fair t ht).1.letGo_none (hP a fair t ht).2 _
  · exact congrArg Ledger.announced hledger
  · rfl

/-- A thread that was seen at an event. -/
theorem notes_event {α : Type} (n : Nat) (h : Booked tid (Faced none) s) (v : α) :
    Ends (do
      if n = WaitStatus.cloneEvent then
        let _ ← threadCloned tid
        return some v
      else if n = WaitStatus.exitEvent then
        letExit tid
        return none
      else return some v) s fun r s' => Notes tid r s' := by
  split
  · exact (books_threadCloned tid h.books_of_event).bind (fun _ _ h => notes_some h v)
      fun _ _ h => notes_error h
  · split
    · refine (books_letExit h fun _ _ _ ht => ⟨ht.agrees nofun rfl, fun hfair => ?_⟩).bind ?_ ?_
      · exact (ht.signals hfair).1
      · rintro _ s' ⟨hbooks, hnone, -⟩
        refine ⟨hbooks, fun _ heq => ?_⟩
        cases hnone.symm.trans heq
      · exact fun _ _ h => notes_error h.1
    · exact notes_some h.books_of_event v

omit [Kernel κ] in
/-- A thread that is gone. -/
theorem notes_gone {α : Type} (code : Option Int) (h : Books s) (v : α) :
    Ends (do threadGone tid code; return some v) s fun r s' => Notes tid r s' :=
  (books_threadGone code (h.booked tid)).bind_eq fun _ h => notes_some h.2 v

theorem books_settle {status : WaitStatus} (h : Noticed tid status s)
    (hfree : s.kernel.ledger.announced ≠ some tid) :
    Ends (settle tid status) s fun r s' => Notes tid r s' := by
  rw [settle.eq_def]
  split
  · exact (books_consumeStop (h.stop _ rfl)).bind (fun _ _ h => notes_some h.2 _)
      fun _ _ h => notes_error h.2
  · have hlook : Ends (trapOf tid) s fun _ s' => SameBooks s s' := moves_trapOf tid s
    refine hlook.bind (fun trap s₁ h₁ => ?_) fun _ _ h₁ =>
      notes_error (h₁.booked (h.stop _ rfl)).books_of_trap
    have htrap := h₁.booked (h.stop _ rfl)
    cases trap with
    | breakpoint address =>
      have hset : Ends (setPc tid address) s₁ fun _ s' => SameBooks s₁ s' := moves_setPc tid address s₁
      exact hset.bind (fun _ _ h₂ => notes_some (h₂.booked htrap).books_of_trap _)
        fun _ _ h₂ => notes_error (h₂.booked htrap).books_of_trap
    | step => exact notes_some htrap.books_of_trap _
    | programTrap => exact notes_some htrap.books_of_trap _
    | signal => exact (books_keepSignal (by decide) htrap).bind_eq fun _ h => notes_some h.2 _
  · rename_i hstop _
    exact (books_keepSignal hstop (h.stop _ rfl)).bind_eq fun _ h => notes_some h.2 _
  · exact notes_event _ (h.stop _ rfl) true
  · exact notes_gone _ (h.other rfl) false
  · exact notes_gone _ (h.other rfl) false
  · exact ⟨h.other rfl, fun _ => hfree⟩

/-- A wait for a thread, if the books are in order again whenever a status was noted. -/
theorem books_await {α : Type} {judge : WaitStatus → Tracing (Audited κ) (Option α)}
    (hjudge : ∀ (status : WaitStatus) (t : System (Audited κ)), Noticed tid status t →
      t.kernel.ledger.announced ≠ some tid → Ends (judge status) t fun r t' => Notes tid r t')
    (h : Books s) (hfree : s.kernel.ledger.announced ≠ some tid) :
    Ends (await (some tid) judge) s fun _ s' => Books s' := by
  let I : System (Audited κ) → Prop := fun t => Books t ∧ t.kernel.ledger.announced ≠ some tid
  refine ends_await_of (I := I) (fun t ht => ht.1) (fun t e ht hanswer => ?_)
    (fun t status ht hanswer => ?_) ⟨h, hfree⟩
  · exact SameBooks.books ⟨ledger_perform _ _ hanswer, rfl⟩ ht.1
  · have hafter : Noticed tid status
        { t with kernel := (Kernel.perform (.wait (some tid)) t.kernel).2 } ∧ _ :=
      ht.1.noticed ht.2 hanswer rfl rfl
    obtain ⟨hnoticed, hsame⟩ := hafter
    refine (hjudge status _ hnoticed (hsame ▸ ht.2)).mono fun r s' h => ?_
    match r, h with
    | .ok none, h => exact ⟨h.1, h.2 rfl⟩
    | .ok (some _), h => exact h.1
    | .error _, h => exact h.1

theorem books_awaitStop (h : Books s) (hfree : s.kernel.ledger.announced ≠ some tid) :
    Ends (awaitStop tid) s fun _ s' => Books s' := by
  refine (books_await (fun _ _ => books_settle) h hfree).bind (fun result s₁ h₁ => ?_)
    fun _ _ h => h
  split
  · exact (books_markStopped tid h₁).mono fun _ _ h => h.2.2
  · exact h₁
  · exact (books_threadGone none (h₁.booked tid)).mono fun _ _ h => h.2.2
  · exact h₁

/-! ### Going on -/

/-- What a thread is let go on with is entered, whether this succeeds or not. -/
theorem books_continueThread (tid : Nat) (h : Books s) :
    Ends (continueThread tid) s fun _ s' => Books s' ∧
      ((s.tracer.process.bind (·.thread? tid)).isSome = true →
        s'.kernel.ledger.announced = none) := by
  rw [continueThread, ends_tracer_bind]
  dsimp only
  split
  · refine (booked_takeSignal tid h).bind ?_ ?_
    · rintro signal s₁ ⟨_, ⟨⟩, hstop, h₁⟩
      rw [ends_attempt_bind]
      have hledger : (Kernel.perform (.resume tid signal) s₁.kernel).2.ledger
          = s₁.kernel.ledger.letGo tid signal (Kernel.perform (.resume tid signal) s₁.kernel).1.isOk :=
        rfl
      generalize hs₂ : ({ s₁ with kernel := (Kernel.perform (.resume tid signal) s₁.kernel).2 } :
        System (Audited κ)) = s₂
      have h₂ : Books s₂ := by
        rw [← hs₂]
        exact h₁.letGo (fun _ _ _ ht => ht.letGo _) hstop rfl hledger
      have hnone : s₂.kernel.ledger.announced = none := by
        rw [← hs₂]
        exact congrArg Ledger.announced hledger
      split
      · refine (books_modifyThread (f := fun t => { t with running := true }) (fun _ => rfl)
          (fun _ _ _ ht => ?_) (h₂.booked tid)).mono fun r s' h' => ⟨h'.2.2, fun _ => ?_⟩
        · exact ⟨ht.stops, ht.attached, ht.pending, ht.signals, ht.held⟩
        · rw [h'.2.1]
          exact hnone
      · exact ⟨h₂, fun _ => hnone⟩
      · exact ⟨h₂, fun _ => hnone⟩
    · rintro e s₁ ⟨signal, ⟨⟩, -⟩
  · rename_i hunknown
    exact ⟨h, fun hknown => absurd hknown hunknown⟩

theorem books_judgeStep {status : WaitStatus} (h : Noticed tid status s)
    (hfree : s.kernel.ledger.announced ≠ some tid) :
    Ends (judgeStep tid status) s fun r s' => Notes tid r s' := by
  rw [judgeStep.eq_def]
  split
  · exact notes_some (h.stop _ rfl).books_of_trap _
  · refine (books_consumeStop (h.stop _ rfl)).bind (fun expected s₁ h₁ => ?_)
      fun _ _ h => notes_error h.2
    split
    · exact notes_some h₁.2 _
    · exact notes_some h₁.2 _
  · rename_i hstop
    refine (books_keepSignal hstop (h.stop _ rfl)).bind_eq fun s₁ h₁ => ?_
    split
    · exact notes_some h₁.2 _
    · exact notes_some h₁.2 _
  · exact notes_event _ (h.stop _ rfl) none
  · exact notes_gone _ (h.other rfl) _
  · exact notes_gone _ (h.other rfl) _
  · exact ⟨h.other rfl, fun _ => hfree⟩

theorem books_stepFrom (tid count : Nat) : ∀ {s : System (Audited κ)}, Books s →
    Ends (stepFrom tid count) s fun _ s' => Books s' := by
  induction count with
  | zero => exact fun h => h
  | succ count ih =>
    intro s h
    rw [stepFrom]
    refine (booked_takeSignal tid h).bind ?_ ?_
    · rintro signal s₁ ⟨_, ⟨⟩, hstop, h₁⟩
      rw [ends_attempt_bind]
      have hledger : (Kernel.perform (.step tid signal) s₁.kernel).2.ledger
          = s₁.kernel.ledger.letGo tid signal (Kernel.perform (.step tid signal) s₁.kernel).1.isOk :=
        rfl
      generalize hs₂ : ({ s₁ with kernel := (Kernel.perform (.step tid signal) s₁.kernel).2 } :
        System (Audited κ)) = s₂
      have h₂ : Books s₂ := by
        rw [← hs₂]
        exact h₁.letGo (fun _ _ _ ht => ht.letGo _) hstop rfl hledger
      have hfree : s₂.kernel.ledger.announced ≠ some tid := by
        rw [← hs₂]
        show (Kernel.perform (.step tid signal) s₁.kernel).2.ledger.announced ≠ _
        rw [hledger]
        exact nofun
      split
      · exact h₂
      · exact h₂
      · have hawait : Ends (await (some tid) (judgeStep tid)) s₂ fun _ s' => Books s' :=
          books_await (fun _ _ => books_judgeStep) h₂ hfree
        refine hawait.bind (fun result s₃ h₃ => ?_) fun _ _ h => h
        split
        · exact h₃
        · exact ih h₃
        · exact (books_threadGone none (h₃.booked tid)).bind_eq fun _ h => h.2
        · exact h₃
    · rintro e s₁ ⟨signal, ⟨⟩, -⟩

theorem books_stopThread (tid : Nat) (h : Books s) :
    Ends (stopThread tid) s fun _ s' => Books s' := by
  rw [stopThread]
  rcases hp : s.tracer.process with _ | p
  · rw [ends_process_bind_none hp]
    exact h
  · rw [ends_process_bind hp, ends_attempt_bind]
    rcases hanswer : (Kernel.perform (.killThread p.pid tid .stop) s.kernel).1 with e | u
    · have hsame : SameBooks s
          { s with kernel := (Kernel.perform (.killThread p.pid tid .stop) s.kernel).2 } :=
        ⟨ledger_perform _ _ hanswer, rfl⟩
      cases e with
      | noProcess => exact (books_threadGone none ((hsame.books h).booked tid)).mono fun _ _ h => h.2.2
      | _ => exact hsame.books h
    · have hledger := ledger_perform _ _ hanswer
      have hsent : Booked tid _ { s with
          kernel := (Kernel.perform (.killThread p.pid tid .stop) s.kernel).2 } := h.send rfl hledger
      refine (books_modifyThread (f := fun t => { t with expectedStops := t.expectedStops + 1 })
        (fun _ => rfl) (fun _ _ _ h => h) hsent).bind_eq fun s₁ h₁ => ?_
      refine books_awaitStop h₁.2 ?_
      rw [h₁.1]
      show (Kernel.perform (.killThread p.pid tid .stop) s.kernel).2.ledger.announced ≠ _
      rw [hledger]
      exact nofun

theorem books_drainThread (tid count : Nat) : ∀ {s : System (Audited κ)}, Books s →
    Ends (drainThread tid count) s fun _ s' => Books s' := by
  induction count with
  | zero => exact fun h => h
  | succ count ih =>
    intro s h
    rw [drainThread, expectedStops, bind_assoc, ends_tracer_bind, pure_bind]
    split
    · exact h
    · rename_i hexpected
      have hknown : (s.tracer.process.bind (·.thread? tid)).isSome = true := by
        rcases ht : s.tracer.process.bind (·.thread? tid) with _ | t
        · rw [ht] at hexpected
          exact absurd rfl hexpected
        · rfl
      refine (books_continueThread tid h).bind (fun _ s₁ h₁ => ?_) fun _ _ h => h.1
      have hfree : s₁.kernel.ledger.announced ≠ some tid := by
        rw [h₁.2 hknown]
        exact nofun
      exact (books_awaitStop h₁.1 hfree).bind (fun _ s₂ h₂ => ih h₂) fun _ _ h => h

end Tracing

/-! ### Dealings that keep the books -/

/-- Books that are in order stay so. -/
structure Keeps (s s' : System (Audited κ)) : Prop where
  books : Books s → Books s'

omit [Kernel κ] in
theorem SameBooks.keeps (h : SameBooks s s') : Keeps s s' := ⟨h.books⟩

omit [Kernel κ] in
theorem moves_keeps {α : Type} {m : Tracing (Audited κ) α}
    (h : ∀ {s : System (Audited κ)}, Books s → Ends m s fun _ s' => Books s') : Moves Keeps m :=
  fun s => (Ends.imp (p := Books s) h).mono fun _ _ h => ⟨h⟩

omit [Kernel κ] in
/-- An operation that keeps the books, from a state where they are in order. -/
theorem books_of_keeps {α : Type} {m : Tracing (Audited κ) α} (hm : Moves Keeps m) (h : Books s) :
    Ends m s fun _ s' => Books s' :=
  (hm s).mono fun _ _ hkeeps => hkeeps.books h

omit [Kernel κ] in
/-- Work on breakpoints keeps the books. -/
theorem keeps_patching {α : Type} {p : Patching (Audited κ) α} (h : Moves SameLedger p)
    (s : System (Audited κ)) :
    Ends p (Tracing.breakpointsOf s) fun _ t => Keeps s (Tracing.withBreakpoints s t) :=
  (h _).mono fun _ _ h => h.books.keeps

instance : ModulesRelation (Keeps : System (Audited κ) → System (Audited κ) → Prop) where
  refl _ := ⟨id⟩
  trans h h' := ⟨fun hs => h'.books (h.books hs)⟩
  look c s hc := (LookRelation.look c s hc : SameBooks s _).keeps
  modules s t hprocess hsnapshot hbreakpoints houtput hevents :=
    (ModulesRelation.modules s t hprocess hsnapshot hbreakpoints houtput hevents :
      SameBooks s _).keeps

instance : DeedRelation (Keeps : System (Audited κ) → System (Audited κ) → Prop) where
  input s p q hp := SameBooks.keeps ⟨rfl, (threads_of_present hp).symm⟩
  continueThread tid :=
    moves_keeps fun h => (Tracing.books_continueThread tid h).mono fun _ _ h => h.1
  drainThread tid count := moves_keeps (Tracing.books_drainThread tid count)
  stopThread tid := moves_keeps (Tracing.books_stopThread tid)
  singleStep tid := moves_keeps (Tracing.books_stepFrom tid _)
  shown s t _ hprocess _ := by
    refine SameBooks.keeps ⟨rfl, ?_⟩
    have hthreads := congrArg (fun p => (p.map Prod.snd).getD []) hprocess
    simp only [Option.map_map] at hthreads
    exact hthreads
  unplan tid a := keeps_patching (Patching.moves_removePlanned tid a)
  enable tid a := keeps_patching (Patching.moves_enable tid a)
  disable tid a := keeps_patching (Patching.moves_disable tid a)
  work h := keeps_patching h.moves

end DebugAdapter.Tracer
