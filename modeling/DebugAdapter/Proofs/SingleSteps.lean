import DebugAdapter.Proofs.Puppet
import DebugAdapter.Proofs.StopLogs
import DebugAdapter.Proofs.StopSignals

/-!
# Single steps over any kernel

A step of a thread is asked for, and the thread is awaited. What it reports may be the end of the step,
or a reason to ask again: a stop signal of the tracer, a quiet signal or an event. How often this goes on
is bounded, and each request has the signal that is pending. `Course` tells all of this of the calls that a
step makes, whatever the kernel answers: `Due` says when a request is due and with which signal, and
`Concludes` how the last call explains the result.

Waits have to come to an end (`Kernel.EndsWaits`): statuses that let a wait go on are reported only so
often.

Main statement: `course_of_singleStep`.
-/

namespace DebugAdapter

open Debuggee
open Linux
open Operation

/-! ### Kernels under which waits end -/

namespace Linux

/-- A status that may let a wait go on: the thread runs, is about to exit, or is gone. -/
def WaitStatus.isPassing : WaitStatus → Bool
  | stopped .. => false
  | event _ n => n == exitEvent
  | _ => true

/-- Every wait for a thread ends: a status that may let it go on makes the number of outstanding ones
smaller, and letting a thread go does not make it larger. Stops may be reported without end. -/
class Kernel.EndsWaits (κ : Type) [Kernel κ] : Prop where
  outstanding_letGo : ∀ (tid : Nat) (k : κ),
    Kernel.outstanding (Kernel.perform (.resume tid none) k).2 ≤ Kernel.outstanding k
  outstanding_passing : ∀ (tid : Nat) (k : κ) (status : WaitStatus),
    (Kernel.perform (.wait (some tid)) k).1 = .ok status → status.isPassing = true →
      Kernel.outstanding (Kernel.perform (.wait (some tid)) k).2 < Kernel.outstanding k

variable {κ : Type} [Kernel κ]

instance [Kernel.Lawful κ] : Kernel.EndsWaits κ where
  outstanding_letGo tid k := Kernel.Lawful.outstanding_perform_le (.resume tid none) k
  outstanding_passing tid k status h _ := Kernel.Lawful.outstanding_wait_lt (some tid) k status h

instance [Kernel.EndsWaits κ] : Kernel.EndsWaits (Logged κ) where
  outstanding_letGo tid k := Kernel.EndsWaits.outstanding_letGo tid k.kernel
  outstanding_passing tid k := Kernel.EndsWaits.outstanding_passing tid k.kernel

end Linux

namespace Tracer

variable {κ : Type}

/-- What is known of a thread. -/
def System.thread? (s : System κ) (tid : Nat) : Option Thread :=
  s.tracer.process.bind (·.thread? tid)

/-! ### The calls of a step -/

namespace SingleStep

/-- A request for a step. -/
def isRequest (x : Answered) : Bool :=
  match x.call with
  | .step .. => true
  | _ => false

/-- A request for a step, or a wait for the thread that steps. -/
def isAbout (tid : Nat) (x : Answered) : Bool :=
  match x.call with
  | .step .. => true
  | .wait (some u) => u == tid
  | _ => false

/-- A wait that found a stop signal. -/
def isStopReport : Answered → Bool
  | ⟨.wait _, .ok (.stopped _ .stop)⟩ => true
  | _ => false

theorem isStopReport_of_ne {who : Option Nat} {u : Nat} {signal : Signal} (h : signal ≠ .stop) :
    isStopReport ⟨.wait who, .ok (.stopped u signal)⟩ = false := by
  cases signal with
  | stop => exact absurd rfl h
  | _ => rfl

/-- How many stop signals were reported. -/
def stopsSeen (calls : List Answered) : Nat := calls.countP isStopReport

theorem stopsSeen_append (calls more : List Answered) :
    stopsSeen (calls ++ more) = stopsSeen calls + stopsSeen more :=
  List.countP_append

theorem stopsSeen_of_isPassing {who : Option Nat} {status : WaitStatus}
    (h : status.isPassing = true) : stopsSeen [⟨.wait who, .ok status⟩] = 0 := by
  cases status with
  | stopped u signal => cases h
  | event | exited | signaled | continued => rfl

/-- A status after which a step is asked for again, with the signal that is pending then; the tracer
expects so many stop signals of its own. -/
inductive Interrupts (expected : Nat) : WaitStatus → Option Signal → Prop
  | ownStop (u : Nat) (hexpected : expected ≠ 0) : Interrupts expected (.stopped u .stop) none
  | quiet (u : Nat) {signal : Signal} (hquiet : signal.isQuiet = true) :
      Interrupts expected (.stopped u signal) (some signal)
  | cloned (u : Nat) : Interrupts expected (.event u WaitStatus.cloneEvent) none
  | event (u : Nat) {n : Nat} (hclone : n ≠ WaitStatus.cloneEvent) (hexit : n ≠ WaitStatus.exitEvent) :
      Interrupts expected (.event u n) none

/-- After some calls a request is due, with the signal that is pending: the first one, or one after a
status that interrupted the step. -/
inductive Due (tid : Nat) (t : Thread) : List Answered → Option Signal → Prop
  | first : Due tid t [] t.pendingSignal
  | again {before : List Answered} {status : WaitStatus} {signal : Option Signal}
      (h : Interrupts (t.expectedStops - stopsSeen before) status signal) :
      Due tid t (before ++ [⟨.wait (some tid), .ok status⟩]) signal

/-- The answer to a wait that a thread is gone. -/
def isDeath : Except OsError WaitStatus → Bool
  | .error .noChild => true
  | .ok (.exited ..) => true
  | .ok (.signaled ..) => true
  | _ => false

/-- The new thread that the thread announced last could not be found. -/
def Unannounced (tid : Nat) (calls : List Answered) (error : DebugError) : Prop :=
  ∃ before u e, calls = before ++ [⟨.wait (some tid), .ok (.event u WaitStatus.cloneEvent)⟩] ∧
    (error = .ptrace e ∨ error = .waitpid e)

/-- How the calls of a step explain its result and what is known of the thread then. -/
inductive Concludes (tid limit : Nat) (t : Thread) (calls : List Answered) :
    Except DebugError Stepped → Option Thread → Prop
  /-- The thread trapped. -/
  | done {before : List Answered} {u : Nat} {t' : Thread}
      (hcalls : calls = before ++ [⟨.wait (some tid), .ok (.stopped u .trap)⟩])
      (hpending : t'.pendingSignal = none) : Concludes tid limit t calls (.ok .done) (some t')
  /-- A signal stopped the thread, and is pending now. -/
  | signal {before : List Answered} {u : Nat} {signal : Signal} {t' : Thread}
      (hcalls : calls = before ++ [⟨.wait (some tid), .ok (.stopped u signal)⟩])
      (hstop : signal ≠ .stop) (htrap : signal ≠ .trap) (hloud : signal.isQuiet = false)
      (hpending : t'.pendingSignal = some signal) :
      Concludes tid limit t calls (.ok (.signal signal)) (some t')
  /-- A stop signal that the tracer did not expect. -/
  | foreignStop {before : List Answered} {u : Nat} {t' : Thread}
      (hcalls : calls = before ++ [⟨.wait (some tid), .ok (.stopped u .stop)⟩])
      (hforeign : t.expectedStops ≤ stopsSeen before) (hpending : t'.pendingSignal = none) :
      Concludes tid limit t calls (.ok (.signal .stop)) (some t')
  /-- There is no such thread to step. -/
  | vanished {before : List Answered} {signal : Option Signal} {t' : Thread}
      (hcalls : calls = before ++ [⟨.step tid signal, .error .noProcess⟩])
      (hpending : t'.pendingSignal = none) : Concludes tid limit t calls (.ok .gone) (some t')
  /-- The thread is gone, and is not known any more. -/
  | gone {before : List Answered} {answer : Except OsError WaitStatus}
      (hcalls : calls = before ++ [⟨.wait (some tid), answer⟩]) (hdeath : isDeath answer = true) :
      Concludes tid limit t calls (.ok .gone) none
  /-- As many requests were made as are allowed, and there would have to be another one. -/
  | tired {t' : Thread} (hrequests : calls.countP isRequest = limit)
      (hdue : Due tid t calls t'.pendingSignal) :
      Concludes tid limit t calls (.error (.stepNotCompleted 17)) (some t')
  /-- The request was refused. -/
  | refused {before : List Answered} {signal : Option Signal} {e : OsError} {t' : Thread}
      (hcalls : calls = before ++ [⟨.step tid signal, .error e⟩]) (he : e ≠ .noProcess)
      (hpending : t'.pendingSignal = none) : Concludes tid limit t calls (.error (.ptrace e)) (some t')
  /-- The wait was refused. -/
  | unawaited {before : List Answered} {e : OsError} {t' : Thread}
      (hcalls : calls = before ++ [⟨.wait (some tid), .error e⟩]) (he : e ≠ .noChild)
      (hpending : t'.pendingSignal = none) : Concludes tid limit t calls (.error (.waitpid e)) (some t')
  /-- The new thread that the thread announces was not found. -/
  | uncloned {error : DebugError} {t' : Thread} (h : Unannounced tid calls error)
      (hpending : t'.pendingSignal = none) : Concludes tid limit t calls (.error error) (some t')

/-- Each request among some calls is due, and has the signal that is pending. -/
def Requests (tid : Nat) (t : Thread) (calls : List Answered) : Prop :=
  ∀ before x after, calls = before ++ x :: after → isRequest x = true →
    ∃ signal answer, x = ⟨.step tid signal, answer⟩ ∧ Due tid t before signal

/-- What a step of a thread does that asks at most so many times: the calls about it, its result, and what
is known of the thread afterwards. -/
structure Course (tid limit : Nat) (t : Thread) (calls : List Answered)
    (r : Except DebugError Stepped) (t' : Option Thread) : Prop where
  bounded : calls.countP isRequest ≤ limit
  requests : Requests tid t calls
  concludes : Concludes tid limit t calls r t'

/-! ### Courses that go on -/

section Prepend

variable {tid limit : Nat} {t t₁ : Thread} {pre calls : List Answered}

theorem Due.prepend {signal : Option Signal} (h : Due tid t₁ calls signal)
    (hstops : t₁.expectedStops = t.expectedStops - stopsSeen pre)
    (hdue : calls = [] → Due tid t pre t₁.pendingSignal) : Due tid t (pre ++ calls) signal := by
  cases h with
  | first =>
    rw [List.append_nil]
    exact hdue rfl
  | @again before status _ h =>
    rw [← List.append_assoc]
    refine .again ?_
    rwa [stopsSeen_append, ← Nat.sub_sub, ← hstops]

theorem Concludes.prepend {r : Except DebugError Stepped} {t' : Option Thread}
    (h : Concludes tid limit t₁ calls r t')
    (hstops : t₁.expectedStops = t.expectedStops - stopsSeen pre)
    (hdue : calls = [] → Due tid t pre t₁.pendingSignal) :
    Concludes tid (pre.countP isRequest + limit) t (pre ++ calls) r t' := by
  have hlast : ∀ {before : List Answered} {x : Answered}, calls = before ++ [x] →
      pre ++ calls = (pre ++ before) ++ [x] := by
    rintro before x rfl
    exact (List.append_assoc ..).symm
  cases h with
  | done hcalls hpending => exact .done (hlast hcalls) hpending
  | signal hcalls hstop htrap hloud hpending => exact .signal (hlast hcalls) hstop htrap hloud hpending
  | foreignStop hcalls hforeign hpending =>
    refine .foreignStop (hlast hcalls) ?_ hpending
    rw [stopsSeen_append]
    omega
  | vanished hcalls hpending => exact .vanished (hlast hcalls) hpending
  | gone hcalls hdeath => exact .gone (hlast hcalls) hdeath
  | tired hrequests hpending =>
    exact .tired (by rw [List.countP_append, hrequests]) (hpending.prepend hstops hdue)
  | refused hcalls he hpending => exact .refused (hlast hcalls) he hpending
  | unawaited hcalls he hpending => exact .unawaited (hlast hcalls) he hpending
  | uncloned h hpending =>
    obtain ⟨before, u, e, hcalls, he⟩ := h
    exact .uncloned ⟨_, u, e, hlast hcalls, he⟩ hpending

theorem countP_isRequest_eq_zero {waits : List Answered} (hwaits : ∀ x ∈ waits, isRequest x = false) :
    waits.countP isRequest = 0 :=
  List.countP_eq_zero.mpr fun x hx => by rw [hwaits x hx]; exact Bool.false_ne_true

/-- What concludes a step by the last wait alone concludes it after statuses that were passed over. -/
theorem Concludes.after_passed {r : Except DebugError Stepped} {t' : Option Thread} {x : Answered}
    (h : Concludes tid limit t [x] r t') (hpre : ∀ x ∈ pre, isRequest x = false)
    (hseen : stopsSeen pre = 0) : Concludes tid limit t (pre ++ [x]) r t' := by
  have hlater : Concludes tid (pre.countP isRequest + limit) t (pre ++ [x]) r t' :=
    h.prepend (by rw [hseen]; rfl) fun hnil => absurd hnil (List.cons_ne_nil x [])
  rwa [countP_isRequest_eq_zero hpre, Nat.zero_add] at hlater

/-- A first request and what is reported after it. -/
theorem requests_first (answer : Except OsError Unit) {waits : List Answered}
    (hwaits : ∀ x ∈ waits, isRequest x = false) :
    Requests tid t (⟨.step tid t.pendingSignal, answer⟩ :: waits) := by
  intro before x after heq hx
  cases before with
  | nil =>
    cases (List.cons.inj heq).1
    exact ⟨_, answer, rfl, .first⟩
  | cons y before =>
    have hmem : x ∈ waits := by
      rw [(List.cons.inj heq).2]
      exact List.mem_append_right before List.mem_cons_self
    exact absurd ((hwaits x hmem).symm.trans hx) Bool.false_ne_true

/-- Requests go on after some calls if one is due then. -/
theorem Requests.append (hpre : Requests tid t pre) (h : Requests tid t₁ calls)
    (hstops : t₁.expectedStops = t.expectedStops - stopsSeen pre)
    (hdue : Due tid t pre t₁.pendingSignal) : Requests tid t (pre ++ calls) := by
  intro before x after heq hx
  rcases List.append_eq_append_iff.mp heq with ⟨since, rfl, hcalls⟩ | ⟨since, hbefore, hafter⟩
  · obtain ⟨signal, answer, rfl, hsignal⟩ := h since x after hcalls hx
    exact ⟨signal, answer, rfl, hsignal.prepend hstops fun _ => hdue⟩
  · cases since with
    | nil =>
      rw [List.append_nil] at hbefore
      obtain ⟨signal, answer, rfl, hsignal⟩ := h [] x after hafter.symm hx
      have hlater : Due tid t (pre ++ []) signal := hsignal.prepend hstops fun _ => hdue
      rw [List.append_nil, hbefore] at hlater
      exact ⟨signal, answer, rfl, hlater⟩
    | cons y since =>
      cases (List.cons.inj hafter).1
      exact hpre before x since hbefore hx

/-- Where a request is due that is not made, as many were made as are allowed, or the thread announced
another one that could not be found. -/
theorem Concludes.unmet {r : Except DebugError Stepped} {t' : Option Thread} {signal : Option Signal}
    (h : Concludes tid limit t calls r t') (hdue : Due tid t calls signal) :
    ∃ error, r = .error error ∧
      (calls.countP isRequest = limit ∧ error = .stepNotCompleted 17 ∨ Unannounced tid calls error) := by
  -- The last call is the wait that interrupted the step.
  have hlast : ∀ {before : List Answered} {x : Answered}, calls = before ++ [x] →
      ∃ status, x = ⟨.wait (some tid), .ok status⟩ ∧
        Interrupts (t.expectedStops - stopsSeen before) status signal := by
    rintro before x rfl
    generalize hcalls : before ++ [x] = calls at hdue
    cases hdue with
    | first => exact absurd hcalls (List.append_ne_nil_of_right_ne_nil before (List.cons_ne_nil x []))
    | again h =>
      obtain ⟨rfl, hx⟩ := List.append_inj' hcalls rfl
      exact ⟨_, List.singleton_inj.mp hx, h⟩
  cases h with
  | tired hrequests => exact ⟨_, rfl, Or.inl ⟨hrequests, rfl⟩⟩
  | uncloned h => exact ⟨_, rfl, Or.inr h⟩
  | done hcalls =>
    obtain ⟨_, ⟨⟩, h⟩ := hlast hcalls
    cases h with
    | quiet _ hquiet => cases hquiet
  | signal hcalls hstop htrap hloud =>
    obtain ⟨_, ⟨⟩, h⟩ := hlast hcalls
    cases h with
    | ownStop => exact absurd rfl hstop
    | quiet _ hquiet => exact absurd (hquiet.symm.trans hloud) Bool.true_eq_false.mp
  | foreignStop hcalls hforeign =>
    obtain ⟨_, ⟨⟩, h⟩ := hlast hcalls
    cases h with
    | ownStop _ hexpected => exact absurd (Nat.sub_eq_zero_of_le hforeign) hexpected
    | quiet _ hquiet => cases hquiet
  | vanished hcalls =>
    obtain ⟨_, ⟨⟩, -⟩ := hlast hcalls
  | refused hcalls =>
    obtain ⟨_, ⟨⟩, -⟩ := hlast hcalls
  | unawaited hcalls =>
    obtain ⟨_, ⟨⟩, -⟩ := hlast hcalls
  | gone hcalls hdeath =>
    obtain ⟨_, ⟨⟩, h⟩ := hlast hcalls
    cases h with
    | ownStop | quiet | cloned | event => cases hdeath

end Prepend

end SingleStep

/-! ### What is known of a thread -/

namespace Process

variable {p : Process} {tid : Nat}

theorem thread?_removeThread (p : Process) (tid : Nat) : (p.removeThread tid).thread? tid = none := by
  refine List.find?_eq_none.mpr fun t ht heq => ?_
  exact of_decide_eq_true (List.mem_filter.mp ht).2 (eq_of_beq heq)

theorem find?_insertThread_of_ne {u : Thread} (hu : u.tid ≠ tid) (ts : List Thread) :
    (insertThread u ts).find? (·.tid == tid) = ts.find? (·.tid == tid) := by
  have hnot : (u.tid == tid) = false := beq_false_of_ne hu
  induction ts with
  | nil => rw [insertThread, List.find?_cons, hnot]
  | cons v ts ih =>
    rw [insertThread]
    split
    · rfl
    · split
      · rw [List.find?_cons, hnot]
      · rw [List.find?_cons, List.find?_cons, ih]

theorem thread?_addThread_of_ne {u : Nat} (hu : u ≠ tid) (p : Process) :
    (p.addThread u).thread? tid = p.thread? tid :=
  find?_insertThread_of_ne hu p.threads

/-- A thread that is not known is another one than a thread that is. -/
theorem ne_of_thread? {t : Thread} {u : Nat} (ht : p.thread? tid = some t)
    (hu : p.hasThread u = false) : u ≠ tid := by
  rintro rfl
  have hknown : p.hasThread u = true := List.any_eq_true.mpr
    ⟨t, List.mem_of_find?_eq_some ht, List.find?_some (p := fun v : Thread => v.tid == u) ht⟩
  exact absurd (hknown.symm.trans hu) Bool.true_eq_false.mp

end Process

namespace SingleStep

variable {tid : Nat} {t : Thread}

/-- An operation made these calls about the step of a thread, among others. -/
def Makes (tid : Nat) (s s' : System (Logged κ)) (calls : List Answered) : Prop :=
  ∃ new, s'.kernel.log = s.kernel.log ++ new ∧ new.filter (isAbout tid) = calls

theorem Makes.of_kernel {s s' : System (Logged κ)} (h : s'.kernel = s.kernel) : Makes tid s s' [] :=
  ⟨[], by rw [h, List.append_nil], rfl⟩

theorem Makes.trans {s u s' : System (Logged κ)} {calls more : List Answered} (h : Makes tid s u calls)
    (h' : Makes tid u s' more) : Makes tid s s' (calls ++ more) := by
  obtain ⟨new, hnew, rfl⟩ := h
  obtain ⟨new', hnew', rfl⟩ := h'
  exact ⟨new ++ new', by rw [hnew', hnew, List.append_assoc], List.filter_append ..⟩

variable [Kernel κ]

/-- The system after a call. -/
def called (c : SystemCall) (s : System (Logged κ)) : System (Logged κ) :=
  { s with kernel := (Kernel.perform c s.kernel).2 }

theorem makes_called (tid : Nat) (c : SystemCall) (s : System (Logged κ)) :
    Makes tid s (called c s) ([⟨c, (Kernel.perform c s.kernel).1⟩].filter (isAbout tid)) :=
  ⟨_, log_perform c s.kernel, rfl⟩

/-! ### Elementary operations -/

omit [Kernel κ] in
theorem tells_modifyThread {s : System (Logged κ)} (ht : s.thread? tid = some t) (f : Thread → Thread)
    (hf : ∀ t, (f t).tid = t.tid) : Ends (Tracing.modifyThread tid f) s fun r s' =>
      r = .ok () ∧ Makes tid s s' [] ∧ s'.thread? tid = some (f t) := by
  obtain ⟨p, hp, hfind⟩ := Option.bind_eq_some_iff.mp ht
  refine ⟨rfl, .of_kernel rfl, ?_⟩
  show (s.tracer.process.map _).bind _ = _
  rw [hp, Option.map_some, Option.bind_some]
  exact Process.thread?_modifyThread hf hfind

omit [Kernel κ] in
theorem tells_takeSignal {s : System (Logged κ)} (ht : s.thread? tid = some t) :
    Ends (Tracing.takeSignal tid) s fun r s' => r = .ok t.pendingSignal ∧ Makes tid s s' [] ∧
      s'.thread? tid = some { t with pendingSignal := none } := by
  have hsignal : (s.tracer.process.bind (·.thread? tid)).bind (·.pendingSignal) = t.pendingSignal := by
    rw [← System.thread?, ht]
    rfl
  rw [Tracing.takeSignal, Tracing.ends_tracer_bind, hsignal]
  dsimp only
  exact (tells_modifyThread ht (fun t => { t with pendingSignal := none }) fun _ => rfl).bind_eq
    fun s' h => ⟨rfl, h⟩

omit [Kernel κ] in
theorem tells_consumeStop {s : System (Logged κ)} (ht : s.thread? tid = some t) :
    Ends (Tracing.consumeStop tid) s fun r s' => r = .ok (decide (t.expectedStops ≠ 0)) ∧
      Makes tid s s' [] ∧ s'.thread? tid = some { t with expectedStops := t.expectedStops - 1 } := by
  have hstops : ((s.tracer.process.bind (·.thread? tid)).map (·.expectedStops)).getD 0 =
      t.expectedStops := by
    rw [← System.thread?, ht]
    rfl
  rw [Tracing.consumeStop, Tracing.expectedStops, bind_assoc, Tracing.ends_tracer_bind, pure_bind, hstops]
  split
  · rename_i hzero
    refine ⟨?_, .of_kernel rfl, ?_⟩
    · rw [hzero]
      rfl
    · show s.thread? tid = _
      rw [ht, Nat.sub_eq_zero_of_le (by omega), ← hzero]
  · rename_i hsome
    refine (tells_modifyThread ht (fun t => { t with expectedStops := t.expectedStops - 1 })
      fun _ => rfl).bind_eq fun s' h => ⟨?_, h⟩
    rw [decide_eq_true hsome]
    rfl

omit [Kernel κ] in
theorem tells_threadGone (tid : Nat) (status : Option Int) (s : System (Logged κ)) :
    Ends (Tracing.threadGone tid status) s fun r s' =>
      r = .ok () ∧ Makes tid s s' [] ∧ s'.thread? tid = none := by
  rw [Tracing.threadGone, Tracing.ends_tracer_bind]
  split
  · rename_i hgone
    refine ⟨rfl, .of_kernel rfl, ?_⟩
    show s.tracer.process.bind _ = _
    rw [hgone]
    rfl
  · rename_i p hp
    rw [Tracing.modifyProcess, Tracing.ends_modifyTracer_bind]
    split
    · exact ⟨rfl, .of_kernel rfl, rfl⟩
    · refine ⟨rfl, .of_kernel rfl, ?_⟩
      show (s.tracer.process.map _).bind _ = _
      rw [hp, Option.map_some, Option.bind_some]
      exact p.thread?_removeThread tid

/-! ### Waits -/

/-- A wait ends, so what holds while it goes on does not hold for ever. -/
theorem ends_await [Kernel.EndsWaits κ] {α : Type} {u : Nat}
    {judge : WaitStatus → Tracing (Logged κ) (Option α)} {I : System (Logged κ) → Prop}
    {Q : Except DebugError (Except OsError α) → System (Logged κ) → Prop}
    (herror : ∀ s e, I s → (Kernel.perform (.wait (some u)) s.kernel).1 = .error e →
      Q (.ok (.error e)) (called (.wait (some u)) s))
    (hstatus : ∀ s status, I s → (Kernel.perform (.wait (some u)) s.kernel).1 = .ok status →
      Ends (judge status) (called (.wait (some u)) s) fun r s' =>
        match r with
        | .ok none => I s' ∧ status.isPassing = true ∧
            Kernel.outstanding s'.kernel ≤ Kernel.outstanding (called (.wait (some u)) s).kernel
        | .ok (some a) => Q (.ok (.ok a)) s'
        | .error e => Q (.error e) s') {s : System (Logged κ)} (hs : I s) :
    Ends (Tracing.await (some u) judge) s Q := by
  -- By induction on the fuel, which stays above what is outstanding, so it never ends the wait.
  have hfrom : ∀ (fuel : Nat) (s : System (Logged κ)), I s → Kernel.outstanding s.kernel < fuel →
      Ends (Tracing.awaitFrom (some u) judge fuel) s Q := by
    intro fuel
    induction fuel with
    | zero => exact fun _ _ h => absurd h (Nat.not_lt_zero _)
    | succ fuel ih =>
      intro s hs hfuel
      rw [Tracing.awaitFrom, Tracing.ends_attempt_bind]
      rcases hanswer : (Kernel.perform (.wait (some u)) s.kernel).1 with e | status
      · exact herror s e hs hanswer
      · refine (hstatus s status hs hanswer).bind (fun verdict s' h => ?_) fun _ _ h => h
        cases verdict with
        | some a => exact h
        | none =>
          obtain ⟨hs', hpassing, hle⟩ := h
          have hless := Kernel.EndsWaits.outstanding_passing u s.kernel status hanswer hpassing
          exact ih s' hs' (Nat.lt_of_le_of_lt hle (Nat.lt_of_lt_of_le hless (Nat.le_of_lt_succ hfuel)))
  rw [Tracing.await, ends_get_bind]
  exact hfrom _ s hs (Nat.lt_succ_self _)

/-- Waiting for another thread is not about the step. -/
theorem makes_wait_of_ne {u : Nat} (hu : u ≠ tid) (s : System (Logged κ)) :
    Makes tid s (called (.wait (some u)) s) [] := by
  have h := makes_called tid (.wait (some u)) s
  have hnot : isAbout tid ⟨.wait (some u), (Kernel.perform (.wait (some u)) s.kernel).1⟩ = false :=
    beq_false_of_ne hu
  rwa [List.filter_cons_of_neg (by rw [hnot]; exact Bool.false_ne_true), List.filter_nil] at h

/-- What is waited for is a stop or an event of the new thread, and nothing is noted meanwhile. -/
theorem tells_awaitStart [Kernel.EndsWaits κ] {v : Nat} (hne : v ≠ tid) (s : System (Logged κ)) :
    Ends (Tracing.await (some v) fun status => match status with
      | .stopped .. | .event .. => return some ()
      | _ => return none) s fun r s' =>
    Makes tid s s' [] ∧ s'.tracer = s.tracer ∧ ∃ answer, r = .ok answer := by
  refine ends_await (I := fun u => Makes tid s u [] ∧ u.tracer = s.tracer) ?_ ?_ ⟨.of_kernel rfl, rfl⟩
  · rintro u e ⟨hmakes, htracer⟩ -
    exact ⟨hmakes.trans (makes_wait_of_ne hne u), htracer, _, rfl⟩
  · rintro u status ⟨hmakes, htracer⟩ -
    have hwaited : Makes tid s (called (.wait (some v)) u) [] := hmakes.trans (makes_wait_of_ne hne u)
    split
    · exact ⟨hwaited, htracer, _, rfl⟩
    · exact ⟨hwaited, htracer, _, rfl⟩
    · rename_i hstopped hevent
      refine ⟨⟨hwaited, htracer⟩, ?_, Nat.le_refl _⟩
      cases status with
      | stopped w signal => exact absurd rfl (hstopped w signal)
      | event w n => exact absurd rfl (hevent w n)
      | exited | signaled | continued => rfl

/-- The new thread that a thread announces is found, or not. -/
def Announces (tid : Nat) (t : Thread) (s s' : System (Logged κ)) : Except DebugError Nat → Prop
  | .ok _ => Makes tid s s' [] ∧ s'.thread? tid = some t.halted
  | .error error => Makes tid s s' [] ∧ s'.thread? tid = some t ∧
      ∃ e, error = .ptrace e ∨ error = .waitpid e

theorem tells_threadCloned [Kernel.EndsWaits κ] {s : System (Logged κ)} (ht : s.thread? tid = some t) :
    Ends (Tracing.threadCloned tid) s fun r s' => Announces tid t s s' r := by
  have hhalted : ∀ {u : System (Logged κ)} (v : Nat), Makes tid s u [] → u.thread? tid = some t →
      Ends (Tracing.markStopped tid >>= fun _ => pure v) u fun r s' => Announces tid t s s' r := by
    intro u v hmakes hu
    exact (tells_modifyThread hu Thread.halted fun _ => rfl).bind_eq
      fun s' h => ⟨hmakes.trans h.1, h.2⟩
  have hasked : Makes tid s (called (.eventMessage tid) s) [] := makes_called tid (.eventMessage tid) s
  rw [Tracing.threadCloned]
  refine Ends.bind (P := fun r u => u = called (.eventMessage tid) s ∧
    ∀ error, r = .error error → ∃ e, error = .ptrace e) ?_ ?_ ?_
  · rw [Tracing.ends_require]
    refine ⟨rfl, fun error h => ?_⟩
    cases hanswer : (Kernel.perform (.eventMessage tid) s.kernel).1 with
    | ok v =>
      rw [hanswer] at h
      cases h
    | error e =>
      rw [hanswer] at h
      cases h
      exact ⟨e, rfl⟩
  · rintro v u ⟨rfl, -⟩
    obtain ⟨p, hp, hfind⟩ := Option.bind_eq_some_iff.mp ht
    refine (Tracing.ends_process_bind (s := called (.eventMessage tid) s) hp _ _).mpr ?_
    split
    · rename_i hnew
      have hne : v ≠ tid := Process.ne_of_thread? hfind (by simpa using hnew)
      refine (tells_awaitStart hne (called (.eventMessage tid) s)).bind ?_ fun error u h => ?_
      · rintro answer u ⟨hstarted, htracer, -⟩
        have hmakes := hasked.trans hstarted
        have hu : u.thread? tid = some t := by
          rw [System.thread?, htracer]
          exact ht
        split
        · rw [Tracing.modifyProcess, Tracing.ends_modifyTracer_bind]
          refine hhalted v (hmakes.trans (.of_kernel rfl)) ?_
          show (u.tracer.process.map _).bind _ = _
          rw [htracer]
          show (s.tracer.process.map _).bind _ = _
          rw [hp, Option.map_some, Option.bind_some]
          exact (Process.thread?_addThread_of_ne hne p).trans hfind
        · rename_i e
          exact ⟨hmakes, hu, e, Or.inr rfl⟩
      · obtain ⟨-, -, _, hok⟩ := h
        cases hok
    · exact hhalted v hasked ht
  · rintro error u ⟨rfl, herror⟩
    obtain ⟨e, rfl⟩ := herror error rfl
    exact ⟨hasked, ht, e, Or.inl rfl⟩

/-! ### Statuses -/

/-- What comes of a status of a thread that steps: the wait goes on, the step is asked for again, or it
has ended. -/
def Judged (tid : Nat) (t : Thread) (status : WaitStatus) (s s' : System (Logged κ)) :
    Except DebugError (Option (Option Stepped)) → Prop
  | .ok none => s'.thread? tid = some t ∧ status.isPassing = true ∧
      Kernel.outstanding s'.kernel ≤ Kernel.outstanding s.kernel
  | .ok (some none) => ∃ t', s'.thread? tid = some t' ∧
      Interrupts t.expectedStops status t'.pendingSignal ∧
      t'.expectedStops = t.expectedStops - stopsSeen [⟨.wait (some tid), .ok status⟩]
  | .ok (some (some stepped)) => ∀ limit,
      Concludes tid limit t [⟨.wait (some tid), .ok status⟩] (.ok stepped) (s'.thread? tid)
  | .error e => ∀ limit,
      Concludes tid limit t [⟨.wait (some tid), .ok status⟩] (.error e) (s'.thread? tid)

omit [Kernel κ] in
/-- What is concluded of a thread is concluded of the thread that is known. -/
theorem Concludes.known {limit : Nat} {calls : List Answered} {r : Except DebugError Stepped}
    {t' : Option Thread} {s : System κ} (h : Concludes tid limit t calls r t')
    (hs : s.thread? tid = t') : Concludes tid limit t calls r (s.thread? tid) :=
  hs ▸ h

theorem tells_judgeStep [Kernel.EndsWaits κ] {s : System (Logged κ)} (ht : s.thread? tid = some t)
    (hnone : t.pendingSignal = none) (status : WaitStatus) :
    Ends (Tracing.judgeStep tid status) s fun r s' => Makes tid s s' [] ∧ Judged tid t status s s' r := by
  have hseen : ∀ {status : WaitStatus}, isStopReport ⟨.wait (some tid), .ok status⟩ = false →
      t.expectedStops = t.expectedStops - stopsSeen [⟨.wait (some tid), .ok status⟩] := by
    intro status h
    rw [stopsSeen, List.countP_singleton, h]
    rfl
  rw [Tracing.judgeStep.eq_def]
  split
  · exact ⟨.of_kernel rfl, fun _ => Concludes.known (.done (List.nil_append _).symm hnone) ht⟩
  · refine (tells_consumeStop ht).bind_eq fun s' h => ?_
    split
    · rename_i hexpected
      exact ⟨h.1, _, h.2, hnone ▸ .ownStop _ (of_decide_eq_true hexpected), rfl⟩
    · rename_i hforeign
      have hzero : t.expectedStops = 0 := by simpa using hforeign
      have hpending : { t with expectedStops := t.expectedStops - 1 }.pendingSignal = none := hnone
      exact ⟨h.1, fun _ => Concludes.known
        (.foreignStop (List.nil_append _).symm (Nat.le_of_eq hzero) hpending) h.2⟩
  · rename_i signal htrap hstop
    refine (tells_modifyThread ht (Thread.keeping signal) fun _ => rfl).bind_eq fun s' h => ?_
    split
    · rename_i hquiet
      exact ⟨h.1, _, h.2, .quiet _ hquiet, hseen (isStopReport_of_ne hstop)⟩
    · rename_i hloud
      exact ⟨h.1, fun _ => Concludes.known
        (.signal (List.nil_append _).symm hstop htrap (eq_false_of_ne_true hloud) rfl) h.2⟩
  · split
    · rename_i hclone
      subst hclone
      refine (tells_threadCloned ht).bind (fun v s' h => ?_) fun error s' h => ?_
      · exact ⟨h.1, _, h.2, hnone ▸ .cloned _, hseen rfl⟩
      · obtain ⟨hmakes, hs', e, he⟩ := h
        exact ⟨hmakes, fun _ => Concludes.known
          (.uncloned ⟨_, _, e, (List.nil_append _).symm, he⟩ hnone) hs'⟩
    · rename_i hclone
      split
      · rename_i hexit
        subst hexit
        have hresumed : Makes tid s (called (.resume tid none) s) [] := makes_called tid (.resume tid none) s
        refine (show Ends (Tracing.letExit tid) s fun r s' => r = .ok () ∧
          s' = called (.resume tid none) s from ⟨rfl, rfl⟩).bind_eq ?_
        rintro _ rfl
        exact ⟨hresumed, ht, rfl, Kernel.EndsWaits.outstanding_letGo tid s.kernel⟩
      · rename_i hexit
        exact ⟨.of_kernel rfl, _, ht, hnone ▸ .event _ hclone hexit, hseen rfl⟩
  · exact (tells_threadGone tid _ s).bind_eq fun s' h =>
      ⟨h.1, fun _ => Concludes.known (.gone (List.nil_append _).symm rfl) h.2⟩
  · exact (tells_threadGone tid _ s).bind_eq fun s' h =>
      ⟨h.1, fun _ => Concludes.known (.gone (List.nil_append _).symm rfl) h.2⟩
  · exact ⟨.of_kernel rfl, ht, rfl, Nat.le_refl _⟩

/-- What comes of the wait for a thread that steps, by the calls about it. -/
def Awaited (tid : Nat) (t : Thread) (calls : List Answered) (t' : Option Thread) :
    Except DebugError (Except OsError (Option Stepped)) → Prop
  | .ok (.ok none) => ∃ t₁, t' = some t₁ ∧ Due tid t calls t₁.pendingSignal ∧
      t₁.expectedStops = t.expectedStops - stopsSeen calls
  | .ok (.ok (some stepped)) => ∀ limit, Concludes tid limit t calls (.ok stepped) t'
  | .ok (.error e) => t' = some t ∧ ∃ before, calls = before ++ [⟨.wait (some tid), .error e⟩]
  | .error e => ∀ limit, Concludes tid limit t calls (.error e) t'

/-- A wait for the thread is about the step. -/
theorem makes_wait (tid : Nat) (s : System (Logged κ)) : Makes tid s (called (.wait (some tid)) s)
    [⟨.wait (some tid), (Kernel.perform (.wait (some tid)) s.kernel).1⟩] := by
  have h := makes_called tid (.wait (some tid)) s
  have habout : isAbout tid ⟨.wait (some tid), (Kernel.perform (.wait (some tid)) s.kernel).1⟩ = true :=
    beq_self_eq_true tid
  rwa [List.filter_cons_of_pos habout, List.filter_nil] at h

theorem tells_await [Kernel.EndsWaits κ] {s : System (Logged κ)} (ht : s.thread? tid = some t)
    (hnone : t.pendingSignal = none) :
    Ends (Tracing.await (some tid) (Tracing.judgeStep tid)) s fun r s' => ∃ calls, Makes tid s s' calls ∧
      calls ≠ [] ∧ (∀ x ∈ calls, isRequest x = false) ∧ Awaited tid t calls (s'.thread? tid) r := by
  refine ends_await (I := fun u => ∃ passed, Makes tid s u passed ∧ (∀ x ∈ passed, isRequest x = false) ∧
    stopsSeen passed = 0 ∧ u.thread? tid = some t) ?_ ?_
      ⟨[], .of_kernel rfl, List.forall_mem_nil _, rfl, ht⟩
  · rintro u e ⟨passed, hmakes, hpassed, -, hu⟩ hanswer
    have hwaited := hmakes.trans (makes_wait tid u)
    rw [hanswer] at hwaited
    refine ⟨_, hwaited, List.append_ne_nil_of_right_ne_nil _ (List.cons_ne_nil _ _), ?_, hu, _, rfl⟩
    exact List.forall_mem_append.mpr ⟨hpassed, List.forall_mem_singleton.mpr rfl⟩
  · rintro u status ⟨passed, hmakes, hpassed, hseen, hu⟩ hanswer
    have hwaited := hmakes.trans (makes_wait tid u)
    rw [hanswer] at hwaited
    have hwaits : ∀ x ∈ passed ++ [(⟨.wait (some tid), .ok status⟩ : Answered)], isRequest x = false :=
      List.forall_mem_append.mpr ⟨hpassed, List.forall_mem_singleton.mpr rfl⟩
    have hcalls : passed ++ [(⟨.wait (some tid), .ok status⟩ : Answered)] ≠ [] :=
      List.append_ne_nil_of_right_ne_nil _ (List.cons_ne_nil _ _)
    refine (tells_judgeStep (s := called (.wait (some tid)) u) hu hnone status).mono ?_
    rintro r s' ⟨hjudge, h⟩
    have hmade := hwaited.trans hjudge
    rw [List.append_nil] at hmade
    rcases r with error | _ | _ | stepped
    · exact ⟨_, hmade, hcalls, hwaits, fun limit => (h limit).after_passed hpassed hseen⟩
    · obtain ⟨hs', hpassing, hle⟩ := h
      refine ⟨⟨_, hmade, hwaits, ?_, hs'⟩, hpassing, hle⟩
      rw [stopsSeen_append, hseen, stopsSeen_of_isPassing hpassing]
    · obtain ⟨t₁, hs', hinterrupts, hstops⟩ := h
      refine ⟨_, hmade, hcalls, hwaits, t₁, hs', ?_, ?_⟩
      · exact .again (by rwa [hseen])
      · rw [stopsSeen_append, hseen, Nat.zero_add, hstops]
    · exact ⟨_, hmade, hcalls, hwaits, fun limit => (h limit).after_passed hpassed hseen⟩

/-! ### Steps -/

section Rounds

variable {limit : Nat} {answer : Except OsError Unit} {signal : Option Signal} {waits calls : List Answered}
  {t₀ t₁ : Thread} {r : Except DebugError Stepped} {t' : Option Thread}

omit [Kernel κ] in
theorem stopsSeen_request :
    stopsSeen (⟨.step tid signal, answer⟩ :: waits) = stopsSeen waits := by
  rw [stopsSeen, List.countP_cons_of_neg Bool.false_ne_true, ← stopsSeen]

omit [Kernel κ] in
theorem countP_request (hwaits : ∀ x ∈ waits, isRequest x = false) :
    (⟨.step tid signal, answer⟩ :: waits : List Answered).countP isRequest = 1 := by
  rw [List.countP_cons_of_pos rfl, countP_isRequest_eq_zero hwaits]

/-- A request and what was reported after it, followed by a course from then on. -/
theorem Course.again (h : Course tid limit t₁ calls r t') (hwaits : ∀ x ∈ waits, isRequest x = false)
    (hstops : t₁.expectedStops = t.expectedStops - stopsSeen waits)
    (hdue : Due tid t (⟨.step tid t.pendingSignal, answer⟩ :: waits) t₁.pendingSignal) :
    Course tid (limit + 1) t (⟨.step tid t.pendingSignal, answer⟩ :: waits ++ calls) r t' := by
  have hstops : t₁.expectedStops =
      t.expectedStops - stopsSeen (⟨.step tid t.pendingSignal, answer⟩ :: waits) := by
    rw [stopsSeen_request, hstops]
  refine ⟨?_, (requests_first answer hwaits).append h.requests hstops hdue, ?_⟩
  · rw [List.countP_append, countP_request hwaits, Nat.add_comm]
    exact Nat.succ_le_succ h.bounded
  · have hlater := h.concludes.prepend hstops fun _ => hdue
    rwa [countP_request hwaits, Nat.add_comm] at hlater

/-- A request and what was reported after it, which concludes the step. -/
theorem course_of_concludes (hwaits : ∀ x ∈ waits, isRequest x = false)
    (h : Concludes tid (limit + 1) t (⟨.step tid t.pendingSignal, answer⟩ :: waits) r t') :
    Course tid (limit + 1) t (⟨.step tid t.pendingSignal, answer⟩ :: waits) r t' := by
  refine ⟨?_, requests_first answer hwaits, h⟩
  rw [countP_request hwaits]
  exact Nat.le_add_left 1 limit

/-- What concludes a step after its request concludes it as a whole. -/
theorem Concludes.course (h : ∀ limit, Concludes tid limit { t with pendingSignal := none } waits r t')
    (hwaits : ∀ x ∈ waits, isRequest x = false) (hsome : waits ≠ []) :
    Course tid (limit + 1) t (⟨.step tid t.pendingSignal, answer⟩ :: waits) r t' := by
  refine course_of_concludes hwaits ?_
  have hlater : Concludes tid _ t ([⟨.step tid t.pendingSignal, answer⟩] ++ waits) r t' :=
    (h limit).prepend rfl fun hnil => absurd hnil hsome
  rwa [countP_request (List.forall_mem_nil _), Nat.add_comm] at hlater

end Rounds

theorem course_of_stepFrom [Kernel.EndsWaits κ] (tid count : Nat) : ∀ {s : System (Logged κ)} {t : Thread},
    s.thread? tid = some t → Ends (Tracing.stepFrom tid count) s fun r s' =>
      ∃ calls, Makes tid s s' calls ∧ Course tid count t calls r (s'.thread? tid) := by
  induction count with
  | zero =>
    intro s t ht
    refine ⟨[], .of_kernel rfl, Nat.le_refl 0, fun before x after heq _ => ?_, ?_⟩
    · exact absurd heq.symm (List.append_ne_nil_of_right_ne_nil before (List.cons_ne_nil x after))
    · show Concludes _ _ _ _ _ (s.thread? tid)
      rw [ht]
      exact .tired rfl .first
  | succ count ih =>
    intro s t ht
    refine (tells_takeSignal ht).bind_eq fun u hu => ?_
    obtain ⟨hmakes, hu⟩ := hu
    have hrequested := hmakes.trans (makes_called tid (.step tid t.pendingSignal) u)
    rw [Tracing.ends_attempt_bind]
    generalize (Kernel.perform (.step tid t.pendingSignal) u.kernel).1 = answer at hrequested ⊢
    split
    · exact ⟨_, hrequested, course_of_concludes (List.forall_mem_nil _)
        (Concludes.known (.vanished (List.nil_append _).symm rfl) hu)⟩
    · rename_i e he
      exact ⟨_, hrequested, course_of_concludes (List.forall_mem_nil _)
        (Concludes.known (.refused (List.nil_append _).symm he rfl) hu)⟩
    · refine (tells_await (s := called (.step tid t.pendingSignal) u) hu rfl).bind ?_ ?_
      · rintro result v ⟨waits, hwaited, hsome, hwaits, h⟩
        have hmade := hrequested.trans hwaited
        split
        · exact ⟨_, hmade, Concludes.course h hwaits hsome⟩
        · obtain ⟨t₁, hv, hdue, hstops⟩ := h
          refine (ih hv).mono ?_
          rintro r s' ⟨calls, hcalls, hcourse⟩
          refine ⟨_, hmade.trans hcalls, hcourse.again hwaits hstops ?_⟩
          have hlater : Due tid t ([⟨.step tid t.pendingSignal, .ok ()⟩] ++ waits) t₁.pendingSignal :=
            hdue.prepend rfl fun hnil => absurd hnil hsome
          exact hlater
        · obtain ⟨hv, before, hbefore⟩ := h
          refine (tells_threadGone tid none v).bind_eq fun s' hgone => ?_
          have hmade' := hmade.trans hgone.1
          rw [List.append_nil] at hmade'
          exact ⟨_, hmade', Concludes.course
            (fun _ => Concludes.known (.gone hbefore rfl) hgone.2) hwaits hsome⟩
        · rename_i e he
          obtain ⟨hv, before, hbefore⟩ := h
          exact ⟨_, hmade, Concludes.course
            (fun _ => Concludes.known (.unawaited hbefore he rfl) hv) hwaits hsome⟩
      · rintro error v ⟨waits, hwaited, hsome, hwaits, h⟩
        exact ⟨_, hrequested.trans hwaited, Concludes.course h hwaits hsome⟩

/-- A step of a thread that is known asks at most 17 times. Each further request has a reason and the
signal that is pending, and the last call explains the result, the one that too many requests were needed
included. -/
theorem course_of_singleStep [Kernel.EndsWaits κ] {s : System (Logged κ)} (ht : s.thread? tid = some t) :
    Ends (Tracing.singleStep tid) s fun r s' => ∃ new calls, s'.kernel.log = s.kernel.log ++ new ∧
      new.filter (isAbout tid) = calls ∧ Course tid 17 t calls r (s'.thread? tid) ∧
      ∀ signal, Due tid t calls signal → ∃ error, r = .error error ∧
        (calls.countP isRequest = 17 ∧ error = .stepNotCompleted 17 ∨ Unannounced tid calls error) := by
  refine (course_of_stepFrom tid 17 ht).mono ?_
  rintro r s' ⟨calls, ⟨new, hlog, hcalls⟩, hcourse⟩
  exact ⟨new, calls, hlog, hcalls, hcourse, fun signal => hcourse.concludes.unmet⟩

/-- A system whose thread is about to step. It is going to report a stop signal of the tracer, a new
thread, a new image and quiet signals again and again, and that it is about to exit meanwhile. -/
def restless : System (Logged Stage) :=
  ⟨⟨.bare ([.stopped 1 .stop, .event 1 WaitStatus.exitEvent, .stopped 1 .chld,
      .event 1 WaitStatus.cloneEvent, .stopped 2 .stop, .event 1 WaitStatus.execEvent] ++
      List.replicate 13 (.stopped 1 .alrm)) [], []⟩,
    { State.new none with process := some ⟨1, true, none, [⟨1, false, some .usr1, 1⟩], none, false, none⟩ }⟩

/-- The signal of a request for a step. -/
def signalOf? : Answered → Option (Option Signal)
  | ⟨.step _ signal, _⟩ => some signal
  | _ => none

/-- A step that is interrupted each time is given up, and the last quiet signal is still pending. -/
theorem course_restless :
    restless.thread? 1 = some ⟨1, false, some .usr1, 1⟩ ∧
    Ends (Tracing.singleStep 1) restless fun r s' => r = .error (.stepNotCompleted 17) ∧
      s'.thread? 1 = some ⟨1, false, some .alrm, 0⟩ ∧
      s'.kernel.log.filterMap signalOf? =
        [some .usr1, none, some .chld, none, none] ++ List.replicate 12 (some .alrm) ∧
      ∃ calls, Course 1 17 ⟨1, false, some .usr1, 1⟩ calls r (s'.thread? 1) := by
  have hknown : restless.thread? 1 = some ⟨1, false, some .usr1, 1⟩ := rfl
  have htired : (match ((Tracing.singleStep 1).run.run restless).1 with
      | .error (.stepNotCompleted n) => some n
      | _ => none) = some 17 := by decide +kernel
  have hpending : ((Tracing.singleStep 1).run.run restless).2.thread? 1 =
      some ⟨1, false, some .alrm, 0⟩ := by decide +kernel
  have hsignals : ((Tracing.singleStep 1).run.run restless).2.kernel.log.filterMap signalOf? =
      [some .usr1, none, some .chld, none, none] ++ List.replicate 12 (some .alrm) := by decide +kernel
  obtain ⟨-, calls, -, -, hcourse, -⟩ := course_of_singleStep hknown
  refine ⟨hknown, ?_, hpending, hsignals, calls, hcourse⟩
  split at htired
  · rename_i n heq
    rw [heq, Option.some.inj htired]
  · cases htired

end SingleStep

end Tracer

end DebugAdapter
