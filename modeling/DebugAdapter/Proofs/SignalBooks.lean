import DebugAdapter.Proofs.PatchRelations

/-!
# The books of signals

A kernel can be audited: a ledger notes for each thread which signals it was reported stopped with,
with which signals it was let go on, and how many stop signals it was sent and was stopped by. The
books of a tracer are in order (`Books`) if what it notes about its threads agrees with the ledger.
Between a report and the end of its handling they are out of order in one thread; `Booked` says what
holds of this thread then.

Signals are counted but for stop signals and traps, which a tracer uses itself.
-/

namespace DebugAdapter

open Linux
open Operation

/-! ### The ledger -/

namespace Linux

/-- The signal of a stop; an event is a stop without one. -/
def WaitStatus.stop? : WaitStatus → Option (Option Signal)
  | stopped _ signal => some (some signal)
  | event .. => some none
  | _ => none

/-- What became of a thread since it appeared. -/
structure Account where
  /-- It was reported stopped and was not let go on since. -/
  held : Bool
  /-- It was attached to, and the stop that this leads to is still to come. -/
  attaching : Bool
  /-- It was let go on untraced. -/
  released : Bool
  /-- The stop signals that were sent to it, since the last new image. -/
  sent : Nat
  /-- Its stops that such a signal accounts for. -/
  seen : Nat
  /-- The signals that it was reported stopped with. -/
  reported : List Signal
  /-- The signals that it was to be let go on with, and whether this succeeded. -/
  carried : List (Signal × Bool)
  /-- The signal that its first stop came with, if a clone announced it. -/
  born : List Signal

namespace Account

/-- The account of a thread of which nothing is known. -/
def blank : Account := ⟨false, false, false, 0, 0, [], [], []⟩

/-- The signals that are counted. -/
def owed (signal : Option Signal) : List Signal :=
  signal.toList.filter fun s => s ≠ .stop ∧ s ≠ .trap

/-- The thread is reported stopped. An attach leads to a stop signal, which is still to come if
another signal is first. -/
def stop (a : Account) (signal : Option Signal) : Account :=
  { a with
    held := true
    attaching := a.attaching && signal.isNone
    sent := if a.attaching ∧ signal.any (· ≠ .stop) then a.sent + 1 else a.sent
    seen := if signal = some .stop ∧ a.seen < a.sent then a.seen + 1 else a.seen
    reported := a.reported ++ owed signal }

/-- The thread is to go on with a signal. -/
def letGo (a : Account) (signal : Option Signal) (done : Bool) : Account :=
  { a with
    held := a.held && !done
    carried := a.carried ++ (owed signal).map (·, done) }

end Account

/-- The accounts of all threads. -/
structure Ledger where
  account : Nat → Account
  /-- The thread that a clone announced last, until it is reported stopped. -/
  announced : Option Nat
  /-- No thread was reported stopped that was not let go on before, and no process was killed. -/
  fair : Bool
  /-- No thread was to go on with a stop signal. -/
  clean : Bool

namespace Ledger

def blank : Ledger := ⟨fun _ => .blank, none, true, true⟩

/-- An account changes. -/
def update (l : Ledger) (tid : Nat) (f : Account → Account) : Ledger :=
  { l with account := Function.update l.account tid (f (l.account tid)) }

/-- A thread is reported stopped. -/
def report (l : Ledger) (tid : Nat) (signal : Option Signal) : Ledger :=
  { l.update tid (·.stop signal) with fair := l.fair && !(l.account tid).held }

/-- The first stop of a thread that a clone announced. -/
def appear (l : Ledger) (tid : Nat) (signal : Option Signal) : Ledger :=
  { l.update tid fun _ => { Account.blank with held := true, born := Account.owed signal } with
    announced := none }

/-- A thread is to go on with a signal. -/
def letGo (l : Ledger) (tid : Nat) (signal : Option Signal) (done : Bool) : Ledger :=
  { l.update tid (·.letGo signal done) with
    announced := none
    clean := l.clean && signal != some .stop }

/-- A stop signal is sent to a thread. -/
def send (l : Ledger) (tid : Nat) : Ledger :=
  { l.update tid fun a => { a with sent := a.sent + 1 } with announced := none }

/-- A thread is to go on untraced. -/
def release (l : Ledger) (tid : Nat) (signal : Option Signal) (done : Bool) : Ledger :=
  (l.letGo tid signal done).update tid fun a => { a with released := true }

/-- A thread is attached to. -/
def attach (l : Ledger) (tid : Nat) : Ledger :=
  l.update tid fun _ => { Account.blank with attaching := true }

/-- A new image: stop signals that were sent before do not count any more. -/
def renew (l : Ledger) : Ledger :=
  { l with account := fun tid => { l.account tid with sent := 0, seen := 0 } }

/-- Enters a system call with its answer. -/
def enter : (c : SystemCall) → Except OsError c.Answer → Ledger → Ledger
  | .resume tid signal, answer, l => l.letGo tid signal answer.isOk
  | .step tid signal, answer, l => l.letGo tid signal answer.isOk
  | .detach tid signal, answer, l => l.release tid signal answer.isOk
  | .killThread _ tid .stop, .ok _, l => l.send tid
  | .kill .., .ok _, l => { l with fair := false }
  | .attach tid, .ok _, l => l.attach tid
  | .eventMessage _, .ok new, l => { l with announced := some new }
  | .wait (some tid), .ok status, l =>
    match status.stop? with
    | none => l
    | some signal => if l.announced = some tid then l.appear tid signal else l.report tid signal
  | .poll, .ok (some (.event tid n)), l =>
    if n = WaitStatus.execEvent then (l.report tid none).renew else l.report tid none
  | .poll, .ok (some (.stopped tid signal)), l => l.report tid (some signal)
  | _, _, l => l

/-- A new page: what is noted of threads that are not known is forgotten. -/
def page (l : Ledger) (known : List Nat) : Ledger :=
  { l with
    account := fun tid => if tid ∈ known then l.account tid else .blank
    announced := none }

section Accounts

variable (l : Ledger) (tid u : Nat) (signal : Option Signal) (done : Bool)

theorem account_update (f : Account → Account) :
    (l.update tid f).account u = if u = tid then f (l.account tid) else l.account u :=
  Function.update_apply l.account tid _ u

theorem account_report :
    (l.report tid signal).account u = if u = tid then (l.account tid).stop signal else l.account u :=
  Function.update_apply l.account tid _ u

theorem account_appear : (l.appear tid signal).account u
    = if u = tid then { Account.blank with held := true, born := Account.owed signal }
      else l.account u :=
  Function.update_apply l.account tid _ u

theorem account_letGo : (l.letGo tid signal done).account u
    = if u = tid then (l.account tid).letGo signal done else l.account u :=
  Function.update_apply l.account tid _ u

theorem account_send : (l.send tid).account u
    = if u = tid then { l.account tid with sent := (l.account tid).sent + 1 } else l.account u :=
  Function.update_apply l.account tid _ u

theorem account_release : (l.release tid signal done).account u
    = if u = tid then { (l.account tid).letGo signal done with released := true }
      else l.account u := by
  rw [release, account_update, account_letGo, account_letGo, if_pos rfl]
  split
  · rfl
  · rfl

theorem account_attach : (l.attach tid).account u
    = if u = tid then { Account.blank with attaching := true } else l.account u :=
  Function.update_apply l.account tid _ u

end Accounts

end Ledger

/-- A kernel with a ledger; every kernel can be given one. -/
structure Audited (κ : Type) where
  kernel : κ
  ledger : Ledger

instance {κ : Type} [Kernel κ] : Kernel (Audited κ) where
  perform c k :=
    let (answer, kernel) := Kernel.perform c k.kernel
    (answer, ⟨kernel, k.ledger.enter c answer⟩)
  file k := Kernel.file k.kernel
  linkTarget? k := Kernel.linkTarget? k.kernel
  process? k := Kernel.process? k.kernel
  lookUp? k := Kernel.lookUp? k.kernel
  outstanding k := Kernel.outstanding k.kernel

end Linux

namespace Tracer

open Account (owed)

/-! ### Threads and their accounts -/

/-- What a tracer notes about a thread agrees with its account. -/
structure Agrees (a : Account) (fair : Bool) (t : Thread) : Prop where
  stops : t.expectedStops + a.seen = a.sent
  attached : a.attaching = false
  pending : t.pendingSignal ≠ some .stop
  signals : fair = true → a.carried.map Prod.fst ++ owed t.pendingSignal = a.reported
  held : fair = true → t.pendingSignal.isSome = true → a.held = true

/-- A thread was reported stopped, and nothing is noted yet. -/
structure Faced (signal : Option Signal) (a : Account) (fair : Bool) (t : Thread) : Prop where
  stops : t.expectedStops + a.seen
    = if signal = some .stop ∧ 0 < t.expectedStops then a.sent + 1 else a.sent
  attached : a.attaching = false
  pending : t.pendingSignal ≠ some .stop
  signals : fair = true → t.pendingSignal = none ∧ a.held = true ∧
    a.carried.map Prod.fst ++ owed signal = a.reported

/-- The signal was taken that a thread is to go on with. -/
structure Taken (signal : Option Signal) (a : Account) (fair : Bool) (t : Thread) : Prop where
  stops : t.expectedStops + a.seen = a.sent
  attached : a.attaching = false
  pending : t.pendingSignal = none
  signals : fair = true → a.carried.map Prod.fst ++ owed signal = a.reported

section Accounts

variable {a : Account} {fair : Bool} {t : Thread} {signal : Option Signal}

theorem Agrees.mono {fair' : Bool} (h : Agrees a fair t) (hfair : fair' = true → fair = true) :
    Agrees a fair' t :=
  ⟨h.stops, h.attached, h.pending, fun h' => h.signals (hfair h'), fun h' => h.held (hfair h')⟩

theorem agrees_new (tid : Nat) (hstops : a.seen = a.sent) (hattached : a.attaching = false)
    (hsignals : fair = true → a.carried = [] ∧ a.reported = []) : Agrees a fair (.new tid) := by
  refine ⟨(Nat.zero_add _).trans hstops, hattached, nofun, fun h => ?_, fun _ => nofun⟩
  obtain ⟨hcarried, hreported⟩ := hsignals h
  rw [hcarried, hreported]
  rfl

theorem Agrees.faced (h : Agrees a fair t) (signal : Option Signal) :
    Faced signal (a.stop signal) (fair && !a.held) t := by
  have hsent : (a.stop signal).sent = a.sent := by simp [Account.stop, h.attached]
  refine ⟨?_, by simp [Account.stop, h.attached], h.pending, fun hfair => ?_⟩
  · have hstops := h.stops
    rw [hsent]
    simp only [Account.stop]
    by_cases hstop : signal = some .stop
    · -- A stop is accounted for as long as one is expected.
      have hexpected : a.seen < a.sent ↔ 0 < t.expectedStops := by omega
      simp only [hstop, true_and, hexpected]
      split
      · omega
      · omega
    · simp only [hstop, false_and, if_false]
      exact hstops
  · rw [Bool.and_eq_true, Bool.not_eq_true'] at hfair
    have hnone : t.pendingSignal = none := by
      cases hp : t.pendingSignal with
      | none => rfl
      | some s => exact absurd (h.held hfair.1 (by rw [hp]; rfl)) (ne_true_of_eq_false hfair.2)
    refine ⟨hnone, rfl, ?_⟩
    have hsignals := h.signals hfair.1
    rw [hnone] at hsignals
    show a.carried.map Prod.fst ++ owed signal = a.reported ++ owed signal
    rw [← hsignals]
    simp [owed]

/-- A stop that comes with nothing to keep. -/
theorem Faced.agrees (h : Faced signal a fair t) (hstop : signal ≠ some .stop)
    (howed : owed signal = []) : Agrees a fair t := by
  refine ⟨?_, h.attached, h.pending, fun hfair => ?_, fun hfair hsome => ?_⟩
  · have hstops := h.stops
    rwa [if_neg fun hand => hstop hand.1] at hstops
  · obtain ⟨hnone, -, hsignals⟩ := h.signals hfair
    rw [hnone, ← hsignals, howed]
    rfl
  · rw [(h.signals hfair).1] at hsome
    cases hsome

theorem Faced.keep {s : Signal} (h : Faced (some s) a fair t) (hstop : s ≠ .stop) :
    Agrees a fair { t with pendingSignal := some s } := by
  refine ⟨?_, h.attached, fun heq => hstop (Option.some.inj heq), fun hfair => ?_, fun hfair _ => ?_⟩
  · have hstops := h.stops
    rwa [if_neg fun hand => hstop (Option.some.inj hand.1)] at hstops
  · exact (h.signals hfair).2.2
  · exact (h.signals hfair).2.1

theorem Faced.consume (h : Faced (some .stop) a fair t) :
    Agrees a fair { t with expectedStops := t.expectedStops - 1 } := by
  refine ⟨?_, h.attached, h.pending, fun hfair => ?_, fun hfair hsome => ?_⟩
  · have hstops := h.stops
    show t.expectedStops - 1 + a.seen = a.sent
    split at hstops
    · omega
    · rename_i hnone
      have hzero : t.expectedStops = 0 := by
        by_contra hne
        exact hnone ⟨rfl, Nat.pos_of_ne_zero hne⟩
      omega
  · obtain ⟨hnone, -, hsignals⟩ := h.signals hfair
    show a.carried.map Prod.fst ++ owed t.pendingSignal = a.reported
    rw [hnone, ← hsignals]
    rfl
  · rw [(h.signals hfair).1] at hsome
    cases hsome

theorem Agrees.take (h : Agrees a fair t) :
    Taken t.pendingSignal a fair { t with pendingSignal := none } :=
  ⟨h.stops, h.attached, rfl, h.signals⟩

/-- A thread without a signal may go on without one. -/
theorem Agrees.letGo_none (h : Agrees a fair t) (hnone : fair = true → t.pendingSignal = none)
    (done : Bool) : Agrees (a.letGo none done) fair t := by
  refine ⟨h.stops, h.attached, h.pending, fun hfair => ?_, fun hfair hsome => ?_⟩
  · show (a.carried ++ []).map Prod.fst ++ owed t.pendingSignal = a.reported
    rw [List.append_nil]
    exact h.signals hfair
  · rw [hnone hfair] at hsome
    cases hsome

theorem Taken.letGo (h : Taken signal a fair t) (done : Bool) :
    Agrees (a.letGo signal done) fair t := by
  refine ⟨h.stops, h.attached, ?_, fun hfair => ?_, fun _ hsome => ?_⟩
  · rw [h.pending]
    exact nofun
  · show (a.carried ++ (owed signal).map (·, done)).map Prod.fst ++ owed t.pendingSignal = a.reported
    rw [h.pending, ← h.signals hfair, List.map_append, List.map_map]
    simp [owed, Function.comp_def]
  · rw [h.pending] at hsome
    cases hsome

end Accounts

/-! ### The books of a system -/

/-- The numbers of threads increase. -/
def Ordered (ts : List Thread) : Prop := ts.Pairwise fun t u => t.tid < u.tid

variable {κ : Type}

/-- The books are in order but for one thread, of which `P` holds. -/
structure Booked (tid : Nat) (P : Account → Bool → Thread → Prop) (s : System (Audited κ)) :
    Prop where
  ordered : Ordered s.threads
  clean : s.kernel.ledger.clean = true
  kept : ∀ u, (s.kernel.ledger.account u).released = false
  others : ∀ t ∈ s.threads, t.tid ≠ tid →
    Agrees (s.kernel.ledger.account t.tid) s.kernel.ledger.fair t
  self : ∀ t ∈ s.threads, t.tid = tid → P (s.kernel.ledger.account tid) s.kernel.ledger.fair t

/-- The books are in order. -/
structure Books (s : System (Audited κ)) : Prop where
  ordered : Ordered s.threads
  clean : s.kernel.ledger.clean = true
  kept : ∀ u, (s.kernel.ledger.account u).released = false
  agrees : ∀ t ∈ s.threads, Agrees (s.kernel.ledger.account t.tid) s.kernel.ledger.fair t

variable {tid : Nat} {P Q : Account → Bool → Thread → Prop} {s s' : System (Audited κ)}

theorem Books.booked (h : Books s) (tid : Nat) : Booked tid Agrees s :=
  ⟨h.ordered, h.clean, h.kept, fun t ht _ => h.agrees t ht, fun t ht htid => htid ▸ h.agrees t ht⟩

theorem Booked.books (h : Booked tid P s)
    (hP : ∀ t ∈ s.threads, t.tid = tid → P (s.kernel.ledger.account tid) s.kernel.ledger.fair t →
      Agrees (s.kernel.ledger.account tid) s.kernel.ledger.fair t) : Books s := by
  refine ⟨h.ordered, h.clean, h.kept, fun t ht => ?_⟩
  by_cases htid : t.tid = tid
  · rw [htid]
    exact hP t ht htid (h.self t ht htid)
  · exact h.others t ht htid

theorem Booked.imp (h : Booked tid P s) (hPQ : ∀ a fair t, P a fair t → Q a fair t) :
    Booked tid Q s :=
  ⟨h.ordered, h.clean, h.kept, h.others, fun t ht htid => hPQ _ _ t (h.self t ht htid)⟩

/-- Without threads there is nothing to settle. -/
theorem Booked.books_of_gone (h : Booked tid P s) (hledger : s'.kernel.ledger = s.kernel.ledger)
    (hthreads : s'.threads = []) : Books s' := by
  refine ⟨?_, by rw [hledger]; exact h.clean, by rw [hledger]; exact h.kept, ?_⟩
  · rw [hthreads]
    exact .nil
  · rw [hthreads]
    exact fun t ht => absurd ht List.not_mem_nil

/-! ### What is not booked -/

/-- Neither the ledger nor what is noted about threads changes. -/
structure SameBooks (s s' : System (Audited κ)) : Prop where
  ledger : s'.kernel.ledger = s.kernel.ledger
  threads : s'.threads = s.threads

theorem SameBooks.booked (h : SameBooks s s') (hs : Booked tid P s) : Booked tid P s' := by
  obtain ⟨hledger, hthreads⟩ := h
  refine ⟨?_, ?_, ?_, ?_, ?_⟩
  · rw [hthreads]
    exact hs.ordered
  · rw [hledger]
    exact hs.clean
  · rw [hledger]
    exact hs.kept
  · rw [hledger, hthreads]
    exact hs.others
  · rw [hledger, hthreads]
    exact hs.self

theorem SameBooks.books (h : SameBooks s s') (hs : Books s) : Books s' :=
  (h.booked (hs.booked 0)).books fun _ _ _ h => h

instance : StepRelation (SameBooks : System (Audited κ) → System (Audited κ) → Prop) where
  refl _ := ⟨rfl, rfl⟩
  trans h h' := ⟨h'.ledger.trans h.ledger, h'.threads.trans h.threads⟩

/-- Patches are not booked. -/
structure SameLedger (p p' : Patched (Audited κ)) : Prop where
  ledger : p'.kernel.ledger = p.kernel.ledger

instance [Kernel κ] : PatchRelation (SameLedger : Patched (Audited κ) → Patched (Audited κ) → Prop) where
  refl _ := ⟨rfl⟩
  trans h h' := ⟨h'.ledger.trans h.ledger⟩
  peek _ _ _ := ⟨rfl⟩
  poke _ _ _ _ := ⟨rfl⟩
  table _ _ _ := ⟨rfl⟩

theorem SameLedger.books {p : Patched (Audited κ)} (h : SameLedger (Tracing.breakpointsOf s) p) :
    SameBooks s (Tracing.withBreakpoints s p) :=
  ⟨h.ledger, rfl⟩

instance [Kernel κ] : ModulesRelation (SameBooks : System (Audited κ) → System (Audited κ) → Prop) where
  look c s hc := by
    refine ⟨?_, rfl⟩
    cases c with
    | peek tid addr => rfl
    | getRegisters tid => rfl
    | setRegisters tid regs => rfl
    | signalCode tid => rfl
    | _ => cases hc
  modules _ _ hprocess _ _ _ _ := ⟨rfl, threads_of_process hprocess⟩

/-! ### What is noted about a thread -/

theorem Ordered.eq_of_tid {ts : List Thread} (h : Ordered ts) {t u : Thread} (ht : t ∈ ts)
    (hu : u ∈ ts) (heq : t.tid = u.tid) : t = u := by
  induction h with
  | nil => exact absurd ht List.not_mem_nil
  | @cons v r hv _ ih =>
    rcases List.mem_cons.mp ht with rfl | htr
    · rcases List.mem_cons.mp hu with rfl | hur
      · rfl
      · exact absurd heq (Nat.ne_of_lt (hv u hur))
    · rcases List.mem_cons.mp hu with rfl | hur
      · exact absurd heq.symm (Nat.ne_of_lt (hv t htr))
      · exact ih htr hur

theorem Ordered.map {ts : List Thread} (h : Ordered ts) {f : Thread → Thread}
    (hf : ∀ t, (f t).tid = t.tid) : Ordered (ts.map f) := by
  refine List.pairwise_map.mpr (h.imp fun {t u} hlt => ?_)
  rw [hf, hf]
  exact hlt

theorem Ordered.insertThread {ts : List Thread} (t : Thread) (h : Ordered ts) :
    Ordered (Process.insertThread t ts) := by
  induction h with
  | nil => exact List.pairwise_singleton _ _
  | @cons u r hu hr ih =>
    rw [Process.insertThread]
    split
    · exact .cons hu hr
    · rename_i hne
      split
      · rename_i hlt
        refine .cons (fun v hv => ?_) (.cons hu hr)
        rcases List.mem_cons.mp hv with rfl | hv
        · exact hlt
        · exact Nat.lt_trans hlt (hu v hv)
      · rename_i hge
        refine .cons (fun v hv => ?_) ih
        rcases Process.mem_insertThread hv with rfl | hv
        · exact Nat.lt_of_le_of_ne (Nat.le_of_not_lt hge) (Ne.symm hne)
        · exact hu v hv

/-- A thread is inserted unless one with its number is there. -/
theorem Ordered.mem_insertThread {t u : Thread} {ts : List Thread} (h : Ordered ts)
    (ht : t ∈ Process.insertThread u ts) : t ∈ ts ∨ (t = u ∧ ∀ v ∈ ts, v.tid ≠ u.tid) := by
  induction h with
  | nil => exact Or.inr ⟨List.mem_singleton.mp ht, fun _ h => absurd h List.not_mem_nil⟩
  | @cons v r hv _ ih =>
    rw [Process.insertThread] at ht
    split at ht
    · exact Or.inl ht
    · rename_i hne
      split at ht
      · rename_i hlt
        refine (List.mem_cons.mp ht).symm.imp_right fun heq => ⟨heq, fun w hw => ?_⟩
        rcases List.mem_cons.mp hw with rfl | hw
        · exact Ne.symm hne
        · exact Nat.ne_of_gt (Nat.lt_trans hlt (hv w hw))
      · rcases List.mem_cons.mp ht with rfl | ht
        · exact Or.inl List.mem_cons_self
        · refine (ih ht).imp (List.mem_cons_of_mem v) fun hnew => ⟨hnew.1, fun w hw => ?_⟩
          rcases List.mem_cons.mp hw with rfl | hw
          · exact Ne.symm hne
          · exact hnew.2 w hw

/-- A thread is found by its number. -/
theorem Ordered.thread?_eq_some {s : System κ} (h : Ordered s.threads) {t : Thread}
    (ht : t ∈ s.threads) : s.tracer.process.bind (·.thread? t.tid) = some t := by
  rcases hp : s.tracer.process with _ | p
  · rw [threads_of_gone hp] at ht
    exact absurd ht List.not_mem_nil
  · rw [threads_of_present hp] at h ht
    rw [Option.bind_some]
    rcases hfind : p.thread? t.tid with _ | u
    · exact absurd (beq_self_eq_true t.tid) (List.find?_eq_none.mp hfind t ht)
    · have hu : u ∈ p.threads := List.mem_of_find?_eq_some hfind
      have htid : (u.tid == t.tid) = true :=
        List.find?_some (p := fun v : Thread => v.tid == t.tid) hfind
      rw [h.eq_of_tid hu ht (eq_of_beq htid)]

namespace Tracing

theorem booked_modifyThread {f : Thread → Thread} (hf : ∀ t, (f t).tid = t.tid)
    (hPQ : ∀ a fair t, P a fair t → Q a fair (f t)) (h : Booked tid P s) :
    Ends (modifyThread tid f) s fun r s' =>
      r = .ok () ∧ s'.kernel = s.kernel ∧ Booked tid Q s' := by
  refine (threads_modifyThread f s).mono ?_
  rintro r s' ⟨hr, hkernel, hthreads⟩
  have hkeeps : ∀ t : Thread, (if t.tid = tid then f t else t).tid = t.tid := by
    intro t
    split
    · exact hf t
    · rfl
  refine ⟨hr, hkernel, ?_, by rw [hkernel]; exact h.clean, by rw [hkernel]; exact h.kept, ?_, ?_⟩
  · rw [hthreads]
    exact h.ordered.map hkeeps
  · rw [hthreads, hkernel]
    intro t' ht' hne
    obtain ⟨t, ht, rfl⟩ := List.mem_map.mp ht'
    rw [hkeeps] at hne
    rw [if_neg hne]
    exact h.others t ht hne
  · rw [hthreads, hkernel]
    intro t' ht' htid
    obtain ⟨t, ht, rfl⟩ := List.mem_map.mp ht'
    rw [hkeeps] at htid
    rw [if_pos htid]
    exact hPQ _ _ t (h.self t ht htid)

end Tracing

end Tracer

end DebugAdapter
