import DebugAdapter.Proofs.HaltedThreads
import DebugAdapter.Proofs.PatchRelations
import DebugAdapter.Proofs.TracerActs

/-!
# Mishaps

A stop signal that a tracer sent may not arrive as it was meant to. The thread may end before; the kernel
may refuse a call, so that the thread is not let go on; or the signal arrives while the tracer waits for
the thread for another reason, as during a step. A `Minuted` kernel keeps what happened of this kind, and
the thread that a stop signal was sent to last, as long as a wait for this thread may be on account of it.

`Carries` says that nothing else makes a tracer forget that it sent one. A tracer counts the signals of a
thread that are to come, and while it waits for one that it just sent it is owed one more than before
(`Minuted.credit`): this makes the relation hold of each part of a dealing with a thread.
-/

namespace DebugAdapter

open Debuggee
open Linux
open Operation

/-! ### Minutes -/

namespace Linux

/-- A look at the memory of a process, or a write to it. -/
def SystemCall.isMemory : SystemCall → Bool
  | peek .. | poke .. => true
  | _ => false

/-- A signal to a thread. -/
def SystemCall.isSignal : SystemCall → Bool
  | killThread .. => true
  | _ => false

/-- What happened to a call or to a thread. -/
inductive Mishap where
  | refused (c : SystemCall)
  /-- The thread has ended, or the kernel does not find it. -/
  | ended (tid : Nat)
  /-- A step of the thread was started. -/
  | stepped (tid : Nat)
  /-- A wait for the thread told of a stop signal that was not sent on account of this wait. -/
  | unawaited (tid : Nat)

/-- A step of a thread was started. -/
def Mishap.isStepOf (tid : Nat) : Mishap → Bool
  | stepped u => u = tid
  | _ => false

/-- A kernel with minutes of what happened. -/
structure Minuted (κ : Type) where
  kernel : κ
  /-- The thread that was sent a signal last, until a wait tells of a stop or any status is looked for. -/
  awaited : Option Nat
  mishaps : List Mishap

namespace Minuted

variable {κ : Type}

/-- What a status tells to a wait for a thread. -/
def told (k : Minuted κ) (tid : Nat) : WaitStatus → List Mishap
  | .exited .. | .signaled .. => [.ended tid]
  | .stopped _ .stop => if k.awaited = some tid then [] else [.unawaited tid]
  | _ => []

/-- What an answer brings. -/
def brings (k : Minuted κ) : (c : SystemCall) → Except OsError c.Answer → List Mishap
  | .killThread _ tid _, .error .noProcess => [.ended tid]
  | .resume tid _, .error .noProcess => [.ended tid]
  | .step tid _, .error .noProcess => [.ended tid]
  | c, .error _ => [.refused c]
  | .step tid _, .ok _ => [.stepped tid]
  | .wait who, .ok status => k.told (who.getD status.tid) status
  | .poll, .ok (some (.exited tid _)) => [.ended tid]
  | .poll, .ok (some (.signaled tid _)) => [.ended tid]
  | _, .ok _ => []

/-- The thread that a wait may be for after an answer. -/
def awaits (k : Minuted κ) : (c : SystemCall) → Except OsError c.Answer → Option Nat
  | .killThread _ tid _, .ok _ => some tid
  | .killThread .., .error _ => none
  | .wait _, .ok (.stopped ..) => none
  | .wait _, .ok (.event ..) => none
  | .poll, _ => none
  | _, _ => k.awaited

/-- What is kept after an answer. -/
def note (k : Minuted κ) (c : SystemCall) (answer : Except OsError c.Answer) : Minuted κ :=
  { k with awaited := k.awaits c answer, mishaps := k.mishaps ++ k.brings c answer }

/-- The kernel that keeps what happens from now on. -/
def new (k : κ) : Minuted κ := ⟨k, none, []⟩

/-- How many stop signals to a thread are on account of the wait that comes next. -/
def credit (k : Minuted κ) (tid : Nat) : Nat :=
  if k.awaited = some tid then 1 else 0

/-- What the kernel does by itself is not kept. -/
structure Drifts (k k' : Minuted κ) : Prop where
  awaited : k'.awaited = k.awaited
  mishaps : k'.mishaps = k.mishaps

variable [Kernel κ]

instance : Kernel (Minuted κ) where
  perform c k :=
    let (answer, kernel) := Kernel.perform c k.kernel
    (answer, { k.note c answer with kernel })
  file k := Kernel.file k.kernel
  linkTarget? k := Kernel.linkTarget? k.kernel
  process? k := Kernel.process? k.kernel
  lookUp? k := Kernel.lookUp? k.kernel
  outstanding k := Kernel.outstanding k.kernel

instance [Kernel.Lawful κ] : Kernel.Lawful (Minuted κ) where
  outstanding_perform_le c k := Kernel.Lawful.outstanding_perform_le c k.kernel
  outstanding_wait_lt tid k := Kernel.Lawful.outstanding_wait_lt tid k.kernel
  outstanding_poll_lt k := Kernel.Lawful.outstanding_poll_lt k.kernel

theorem mishaps_perform (c : SystemCall) (k : Minuted κ) :
    (Kernel.perform c k).2.mishaps = k.mishaps ++ k.brings c (Kernel.perform c k).1 := rfl

theorem awaited_perform (c : SystemCall) (k : Minuted κ) :
    (Kernel.perform c k).2.awaited = k.awaits c (Kernel.perform c k).1 := rfl

omit [Kernel κ] in
/-- Only a call that sends a signal is an account for a wait. -/
theorem awaits_eq (k : Minuted κ) {c : SystemCall} (hc : c.isSignal = false)
    (answer : Except OsError c.Answer) : k.awaits c answer = k.awaited ∨ k.awaits c answer = none := by
  cases c with
  | killThread pid tid signal => cases hc
  | poll => exact Or.inr rfl
  | wait who =>
    rcases answer with e | status
    · exact Or.inl rfl
    · cases status with
      | stopped | event => exact Or.inr rfl
      | _ => exact Or.inl rfl
  | _ => exact Or.inl rfl

omit [Kernel κ] in
theorem credit_of_none {k : Minuted κ} (h : k.awaited = none) (b : Nat) : k.credit b = 0 := by
  rw [credit, h, if_neg (Option.some_ne_none b).symm]

theorem credit_perform_le {c : SystemCall} (hc : c.isSignal = false) (k : Minuted κ) (b : Nat) :
    (Kernel.perform c k).2.credit b ≤ k.credit b := by
  rcases k.awaits_eq hc (Kernel.perform c k).1 with h | h
  · rw [credit, awaited_perform, h]
    exact Nat.le_refl _
  · rw [credit_of_none h]
    exact Nat.zero_le _

end Minuted

end Linux

namespace Tracer

variable {κ α β : Type} {s s' t : System (Minuted κ)}

/-- What happened from one system to a later one. -/
def System.since (s s' : System (Minuted κ)) : List Mishap :=
  s'.kernel.mishaps.drop s.kernel.mishaps.length

theorem since_of_append {new : List Mishap} (h : s'.kernel.mishaps = s.kernel.mishaps ++ new) :
    s.since s' = new := by
  rw [System.since, h, List.drop_left]

theorem since_of_kernel (h : s'.kernel = t.kernel) : s.since s' = s.since t := by
  rw [System.since, h, System.since]

theorem since_append {u : System (Minuted κ)} (h : s.kernel.mishaps <+: t.kernel.mishaps)
    (h' : t.kernel.mishaps <+: u.kernel.mishaps) : s.since u = s.since t ++ t.since u := by
  obtain ⟨l, hl⟩ := h
  obtain ⟨l', hl'⟩ := h'
  rw [since_of_append hl.symm, since_of_append hl'.symm, since_of_append]
  rw [← hl', ← hl, List.append_assoc]

/-! ### What mishaps are a reason for -/

/-- A call was refused that is not about memory. -/
def Refused (new : List Mishap) : Prop :=
  ∃ c : SystemCall, c.isMemory = false ∧ .refused c ∈ new

/-- A stop signal to a thread may be lost. -/
def Parted (b : Nat) (new : List Mishap) : Prop :=
  .ended b ∈ new ∨ .unawaited b ∈ new ∨ Refused new

/-- What is said of mishaps and stays true when others happen before or after. -/
class Lasting (B : List Mishap → Prop) : Prop where
  before : ∀ {l l' : List Mishap}, B l' → B (l ++ l')
  after : ∀ {l l' : List Mishap}, B l → B (l ++ l')

/-- What may be a reason for a failure: a call that was refused is one. -/
class Reason (B : List Mishap → Prop) : Prop extends Lasting B where
  refused : ∀ {l : List Mishap}, Refused l → B l

instance : Reason Refused where
  before := by
    rintro l l' ⟨c, hc, h⟩
    exact ⟨c, hc, List.mem_append_right _ h⟩
  after := by
    rintro l l' ⟨c, hc, h⟩
    exact ⟨c, hc, List.mem_append_left _ h⟩
  refused := id

instance {b : Nat} : Lasting (Parted b) where
  before h := h.imp (List.mem_append_right _)
    (Or.imp (List.mem_append_right _) (Lasting.before (B := Refused)))
  after h := h.imp (List.mem_append_left _)
    (Or.imp (List.mem_append_left _) (Lasting.after (B := Refused)))

/-! ### What is carried on -/

/-- An interrupt was asked for, and no stop was reported since. -/
def System.Asked {κ : Type} (s : System κ) : Prop :=
  s.tracer.process.any (·.interruptRequested) = true

instance {κ : Type} (s : System κ) : Decidable s.Asked :=
  inferInstanceAs (Decidable (_ = true))

/-- At least so many stop signals to a thread are to come, and the thread runs if this matters. -/
def System.Owed {κ : Type} (s : System κ) (b n : Nat) (runs : Bool) : Prop :=
  ∃ t ∈ s.threads, t.tid = b ∧ n ≤ t.expectedStops ∧ (runs = true → t.running = true)

theorem System.Owed.mono {κ : Type} {s : System κ} {b n m : Nat} {runs : Bool} (h : s.Owed b n runs)
    (hm : m ≤ n) : s.Owed b m runs := by
  obtain ⟨t, ht, htid, hn, hruns⟩ := h
  exact ⟨t, ht, htid, Nat.le_trans hm hn, hruns⟩

/-- Whether the thread runs does not matter. -/
theorem System.Owed.any {κ : Type} {s : System κ} {b n : Nat} {runs : Bool} (h : s.Owed b n runs) :
    s.Owed b n false := by
  obtain ⟨t, ht, htid, hn, -⟩ := h
  exact ⟨t, ht, htid, hn, fun hruns => absurd hruns Bool.false_ne_true⟩

theorem owed_of_process {κ : Type} {s s' : System κ} (h : s'.tracer.process = s.tracer.process)
    {b n : Nat} {runs : Bool} (howed : s.Owed b n runs) : s'.Owed b n runs := by
  obtain ⟨t, ht, hrest⟩ := howed
  exact ⟨t, (threads_of_process h).symm ▸ ht, hrest⟩

theorem asked_of_process {κ : Type} {s s' : System κ} (h : s'.tracer.process = s.tracer.process) :
    s'.Asked → s.Asked := by
  rw [System.Asked, h]
  exact id

theorem not_asked_of_gone {κ : Type} {s : System κ} (h : s.tracer.process = none) : ¬ s.Asked := by
  rw [System.Asked, h]
  exact Bool.false_ne_true

/-- Only mishaps make a tracer forget that stop signals are to come, and only the threads in `U` stop.
Nothing is asked for. -/
structure Carries (U : Nat → Prop) (s s' : System (Minuted κ)) : Prop where
  minutes : s.kernel.mishaps <+: s'.kernel.mishaps
  gone : s.tracer.process = none → s'.tracer.process = none
  asked : s'.Asked → s.Asked
  owed : ∀ b n runs, (runs = true → ¬ U b) → s.Owed b (n + s.kernel.credit b) runs →
    s'.Owed b (n + s'.kernel.credit b) runs ∨ s'.tracer.process = none ∨ Parted b (s.since s')

variable {U : Nat → Prop}

/-- Of a thread that may stop as well, the signals to come are carried on. -/
theorem Carries.counted (h : Carries U s s') {b n : Nat}
    (howed : s.Owed b (n + s.kernel.credit b) false) : s'.Owed b (n + s'.kernel.credit b) false ∨
      s'.tracer.process = none ∨ Parted b (s.since s') :=
  h.owed b n false (fun hruns => absurd hruns Bool.false_ne_true) howed

theorem Carries.since_append {u : System (Minuted κ)} (h : Carries U s t) (h' : Carries U t u) :
    s.since u = s.since t ++ t.since u :=
  Tracer.since_append h.minutes h'.minutes

instance : StepRelation (Carries U : System (Minuted κ) → System (Minuted κ) → Prop) where
  refl s := ⟨List.prefix_refl _, id, id, fun _ _ _ _ h => Or.inl h⟩
  trans {s t u} h h' := by
    refine ⟨h.minutes.trans h'.minutes, fun hs => h'.gone (h.gone hs), fun hu => h.asked (h'.asked hu),
      fun b n runs hU hs => ?_⟩
    rw [h.since_append h']
    rcases h.owed b n runs hU hs with ht | hgone | hparted
    · exact (h'.owed b n runs hU ht).imp_right (Or.imp_right Lasting.before)
    · exact Or.inr (Or.inl (h'.gone hgone))
    · exact Or.inr (Or.inr (Lasting.after hparted))

/-- Fewer threads stop than may. -/
theorem Carries.mono {V : Nat → Prop} (h : Carries U s s') (hUV : ∀ b, U b → V b) : Carries V s s' :=
  ⟨h.minutes, h.gone, h.asked, fun b n runs hV => h.owed b n runs fun hruns hU => hV hruns (hUV b hU)⟩

/-- What is noted of the threads: counts do not go down, and only threads in `U` stop. -/
theorem Carries.of_threads (hkernel : s'.kernel = s.kernel)
    (hgone : s.tracer.process = none → s'.tracer.process = none) (hasked : s'.Asked → s.Asked)
    (hthreads : ∀ t ∈ s.threads, ∃ t' ∈ s'.threads, t'.tid = t.tid ∧
      t.expectedStops ≤ t'.expectedStops ∧ (¬ U t.tid → t.running = true → t'.running = true)) :
    Carries U s s' := by
  refine ⟨hkernel ▸ List.prefix_refl _, hgone, hasked, fun b n runs hU howed => Or.inl ?_⟩
  obtain ⟨t, ht, rfl, hn, hruns⟩ := howed
  obtain ⟨t', ht', htid, hcount, hrunning⟩ := hthreads t ht
  rw [hkernel]
  exact ⟨t', ht', htid, Nat.le_trans hn hcount, fun h => hrunning (hU h) (hruns h)⟩

/-- The process stays as it is. -/
theorem Carries.of_process (hkernel : s'.kernel = s.kernel)
    (hprocess : s'.tracer.process = s.tracer.process) : Carries U s s' :=
  .of_threads hkernel hprocess.trans (asked_of_process hprocess) fun t ht =>
    ⟨t, (threads_of_process hprocess).symm ▸ ht, rfl, Nat.le_refl _, fun _ => id⟩

/-- What is noted of the process but for an interrupt; no thread is forgotten. -/
theorem Carries.of_change {p p' : Process} (hp : s.tracer.process = some p)
    (hp' : s'.tracer.process = some p') (hkernel : s'.kernel = s.kernel)
    (hasked : p'.interruptRequested = p.interruptRequested) (hthreads : ∀ t ∈ p.threads, t ∈ p'.threads) :
    Carries U s s' := by
  refine .of_threads hkernel (fun hnone => absurd (hp.symm.trans hnone) (Option.some_ne_none p))
    (fun h => ?_) fun t ht => ?_
  · rw [System.Asked, hp', Option.any_some, hasked] at h
    rw [System.Asked, hp]
    exact h
  · rw [threads_of_present hp] at ht
    rw [threads_of_present hp']
    exact ⟨t, hthreads t ht, rfl, Nat.le_refl _, fun _ => id⟩

/-- The process is gone. -/
theorem Carries.of_gone (hkernel : s'.kernel = s.kernel) (hgone : s'.tracer.process = none) :
    Carries U s s' :=
  ⟨hkernel ▸ List.prefix_refl _, fun _ => hgone, fun h => absurd h (not_asked_of_gone hgone),
    fun _ _ _ _ _ => Or.inr (Or.inl hgone)⟩

/-- A thread is forgotten, or the process is gone. -/
structure Forgets (tid : Nat) (s s' : System (Minuted κ)) : Prop where
  kernel : s'.kernel = s.kernel
  gone : s.tracer.process = none → s'.tracer.process = none
  asked : s'.Asked → s.Asked
  others : ∀ b n runs, b ≠ tid → s.Owed b n runs → s'.Owed b n runs ∨ s'.tracer.process = none

/-- A thread may be forgotten that has ended, and any one after a call was refused. -/
theorem Carries.forget {tid : Nat} (h : Carries U s t)
    (hparted : t.tracer.process = none ∨ Parted tid (s.since t)) (hforget : Forgets tid t s') :
    Carries U s s' := by
  refine ⟨hforget.kernel ▸ h.minutes, fun hs => hforget.gone (h.gone hs),
    fun hs => h.asked (hforget.asked hs), fun b n runs hU howed => ?_⟩
  rw [since_of_kernel hforget.kernel, hforget.kernel]
  rcases h.owed b n runs hU howed with howed | hnone | hb
  · by_cases heq : b = tid
    · exact hparted.elim (fun hnone => Or.inr (Or.inl (hforget.gone hnone)))
        fun hparted => Or.inr (Or.inr (heq ▸ hparted))
    · exact (hforget.others b _ runs heq howed).imp_right Or.inl
  · exact Or.inr (Or.inl (hforget.gone hnone))
  · exact Or.inr (Or.inr hb)

section Calls

variable [Kernel κ]

/-- The system after a call. -/
def System.called (s : System (Minuted κ)) (c : SystemCall) : System (Minuted κ) :=
  { s with kernel := (Kernel.perform c s.kernel).2 }

theorem since_called (s : System (Minuted κ)) (c : SystemCall) :
    s.since (s.called c) = s.kernel.brings c (Kernel.perform c s.kernel).1 :=
  since_of_append (Minuted.mishaps_perform c s.kernel)

theorem mem_since_called {c : SystemCall} {e : OsError} {m : Mishap}
    (h : (Kernel.perform c s.kernel).1 = .error e) (hm : s.kernel.brings c (.error e) = [m]) :
    m ∈ s.since (s.called c) := by
  rw [since_called, h, hm]
  exact List.mem_singleton_self _

/-- A call that is refused for a reason which does not concern one thread only. -/
theorem refused_called {c : SystemCall} {e : OsError} (h : (Kernel.perform c s.kernel).1 = .error e)
    (hmemory : c.isMemory = false) (hm : s.kernel.brings c (.error e) = [.refused c]) :
    Refused (s.since (s.called c)) :=
  ⟨c, hmemory, mem_since_called h hm⟩

/-- A call leaves all that is noted, and it is no account for a wait unless it sends a signal. -/
theorem carries_called {c : SystemCall} (hc : c.isSignal = false) : Carries U s (s.called c) := by
  refine ⟨List.prefix_append _ _, id, id, fun b n runs _ howed => Or.inl ?_⟩
  exact System.Owed.mono (owed_of_process rfl howed)
    (Nat.add_le_add_left (Minuted.credit_perform_le hc s.kernel b) n)

theorem carries_called_of_isLook {c : SystemCall} (hc : c.isLook = true) :
    Carries U s (s.called c) := by
  refine carries_called ?_
  cases c with
  | killThread pid tid signal => cases hc
  | _ => rfl

end Calls

/-! ### Work on breakpoints -/

/-- Calls add to the minutes, and are no account for a wait. -/
structure Minutes (p p' : Patched (Minuted κ)) : Prop where
  mishaps : p.kernel.mishaps <+: p'.kernel.mishaps
  awaited : p'.kernel.awaited = p.kernel.awaited

instance [Kernel κ] : PatchRelation (Minutes : Patched (Minuted κ) → Patched (Minuted κ) → Prop) where
  refl _ := ⟨List.prefix_refl _, rfl⟩
  trans h h' := ⟨h.mishaps.trans h'.mishaps, h'.awaited.trans h.awaited⟩
  peek _ _ _ := ⟨List.prefix_append _ _, rfl⟩
  poke _ _ _ _ := ⟨List.prefix_append _ _, rfl⟩
  table _ _ _ := ⟨List.prefix_refl _, rfl⟩

theorem carries_patching {m : Patching (Minuted κ) α} (h : Moves Minutes m)
    (s : System (Minuted κ)) :
    Ends m (Tracing.breakpointsOf s) fun _ t => Carries U s (Tracing.withBreakpoints s t) := by
  refine (h _).mono fun r t ht => ⟨ht.mishaps, id, id, fun b n runs _ howed => Or.inl ?_⟩
  have hcredit : t.kernel.credit b = s.kernel.credit b := by
    rw [Minuted.credit, ht.awaited]
    rfl
  show System.Owed (Tracing.withBreakpoints s t) b (n + t.kernel.credit b) runs
  rw [hcredit]
  exact owed_of_process rfl howed

section Instances

variable [Kernel κ]

instance : ModulesRelation (Carries U : System (Minuted κ) → System (Minuted κ) → Prop) where
  look _ _ hc := carries_called_of_isLook hc
  modules _ _ hprocess _ _ _ _ := .of_process rfl hprocess

instance : WorkRelation (Carries U : System (Minuted κ) → System (Minuted κ) → Prop) where
  enable tid a := carries_patching (Patching.moves_enable tid a)
  disable tid a := carries_patching (Patching.moves_disable tid a)
  work h := carries_patching h.moves

end Instances

/-! ### What is noted of threads -/

namespace Tracing

variable {tid : Nat}

/-- What is noted of a thread. -/
theorem carries_modifyThread {f : Thread → Thread} (htid : ∀ t, (f t).tid = t.tid)
    (hcount : ∀ t, t.expectedStops ≤ (f t).expectedStops)
    (hrunning : ∀ t : Thread, ¬ U tid → t.running = true → (f t).running = true) :
    Ends (modifyThread tid f) s fun r s' => r = .ok () ∧ Carries U s s' := by
  have hprocess : ∀ p? : Option Process, p? = none → p?.map (·.modifyThread tid f) = none := by
    rintro _ rfl
    rfl
  refine ⟨rfl, .of_threads rfl (hprocess _) ?_ fun t ht => ?_⟩
  · show (s.tracer.process.map _).any _ = true → s.tracer.process.any _ = true
    rcases s.tracer.process with _ | p
    · exact id
    · exact id
  · rw [(threads_modifyThread f s).2.2]
    refine ⟨_, List.mem_map.mpr ⟨t, ht, rfl⟩, ?_⟩
    split
    · rename_i heq
      exact ⟨htid t, hcount t, fun hU => hrunning t fun h => hU (heq.symm ▸ h)⟩
    · exact ⟨rfl, Nat.le_refl _, fun _ => id⟩

theorem carries_markStopped (hU : U tid) :
    Ends (markStopped tid) s fun r s' => r = .ok () ∧ Carries U s s' :=
  carries_modifyThread (fun _ => rfl) (fun _ => Nat.le_refl _) fun _ h => absurd hU h

theorem carries_keepSignal (signal : Signal) :
    Ends (keepSignal tid signal) s fun r s' => r = .ok () ∧ Carries U s s' :=
  carries_modifyThread (fun _ => rfl) (fun _ => Nat.le_refl _) fun _ _ => id

theorem carries_takeSignal :
    Ends (takeSignal tid) s fun r s' => ∃ signal, r = .ok signal ∧ Carries U s s' := by
  rw [takeSignal, ends_tracer_bind]
  have htake : Ends (modifyThread tid fun t => { t with pendingSignal := none }) s
      fun r s' => r = .ok () ∧ Carries U s s' :=
    carries_modifyThread (fun _ => rfl) (fun _ => Nat.le_refl _) fun _ _ => id
  exact htake.bind_eq fun t ht => ⟨_, rfl, ht⟩

/-- A thread that is added leaves the others. -/
theorem carries_addThread : Ends (modifyProcess (·.addThread tid)) s fun r s' =>
    r = .ok () ∧ Carries U s s' := by
  have hmem : ∀ {t : Thread} {ts : List Thread}, t ∈ ts → t ∈ Process.insertThread (.new tid) ts := by
    intro t ts ht
    induction ts with
    | nil => cases ht
    | cons u r ih =>
      rw [Process.insertThread]
      split
      · exact ht
      · split
        · exact List.mem_cons_of_mem _ ht
        · exact (List.mem_cons.mp ht).elim (fun h => h ▸ List.mem_cons_self)
            fun h => List.mem_cons_of_mem u (ih h)
  rcases hp : s.tracer.process with _ | p
  · have hsame : s.tracer.process.map (·.addThread tid) = s.tracer.process := by rw [hp, Option.map_none]
    exact ⟨rfl, .of_process rfl hsame⟩
  · have hadded : s.tracer.process.map (·.addThread tid) = some (p.addThread tid) := by
      rw [hp, Option.map_some]
    exact ⟨rfl, .of_change hp hadded rfl rfl fun _ => hmem⟩

/-! ### What mishaps make a tracer forget -/

theorem forgets_threadGone (tid : Nat) (code : Option Int) (s : System (Minuted κ)) :
    Ends (threadGone tid code) s fun r s' => r = .ok () ∧ Forgets tid s s' := by
  rw [threadGone, ends_tracer_bind]
  split
  · exact ⟨rfl, rfl, id, id, fun _ _ _ _ => Or.inl⟩
  · rename_i p hp
    rw [modifyProcess, ends_modifyTracer_bind, hp]
    split
    · exact ⟨rfl, rfl, fun _ => rfl, fun h => absurd h (not_asked_of_gone rfl),
        fun _ _ _ _ _ => Or.inr rfl⟩
    · refine ⟨rfl, rfl, fun hnone => absurd (hp.symm.trans hnone) (Option.some_ne_none p),
        fun hasked => ?_, fun b n runs hb howed => Or.inl ?_⟩
      · rw [System.Asked, hp]
        exact hasked
      · obtain ⟨t, ht, rfl, hrest⟩ := howed
        rw [threads_of_present hp] at ht
        exact ⟨t, List.mem_filter.mpr ⟨ht, decide_eq_true hb⟩, rfl, hrest⟩

/-- One stop signal less is to come for a thread, if any was. -/
structure Consumed (tid : Nat) (s s' : System (Minuted κ)) : Prop where
  kernel : s'.kernel = s.kernel
  gone : s.tracer.process = none → s'.tracer.process = none
  asked : s'.Asked ↔ s.Asked
  threads : ∀ t ∈ s.threads, ∃ t' ∈ s'.threads, t'.tid = t.tid ∧ t'.running = t.running ∧
    t.expectedStops ≤ t'.expectedStops + if t.tid = tid then 1 else 0

theorem consumed_consumeStop (tid : Nat) (s : System (Minuted κ)) :
    Ends (consumeStop tid) s fun r s' => ∃ expected, r = .ok expected ∧ Consumed tid s s' := by
  rw [consumeStop, expectedStops, bind_assoc, ends_tracer_bind, pure_bind]
  split
  · exact ⟨_, rfl, rfl, id, Iff.rfl, fun t ht => ⟨t, ht, rfl, rfl, Nat.le_add_right _ _⟩⟩
  · let consume : Thread → Thread := fun t => { t with expectedStops := t.expectedStops - 1 }
    have hmodify : Ends (modifyThread tid consume) s fun r s' => ∃ u, r = .ok u ∧ Consumed tid s s' := by
      refine ⟨(), rfl, rfl, fun hs => ?_, ?_, fun t ht => ?_⟩
      · show s.tracer.process.map _ = none
        rw [hs, Option.map_none]
      · show (s.tracer.process.map _).any _ = true ↔ s.tracer.process.any _ = true
        rcases s.tracer.process with _ | p
        · exact Iff.rfl
        · exact Iff.rfl
      · rw [(threads_modifyThread consume s).2.2]
        refine ⟨_, List.mem_map.mpr ⟨t, ht, rfl⟩, ?_⟩
        split
        · exact ⟨rfl, rfl, Nat.le_add_of_sub_le (Nat.le_refl _)⟩
        · exact ⟨rfl, rfl, Nat.le_refl _⟩
    exact hmodify.bind_ok fun _ t ht => ⟨_, rfl, ht⟩

/-- A wait for a thread tells of a stop signal: the tracer counted it when it was sent to be awaited, or
it came unawaited. -/
theorem carries_consumeStop [Kernel κ] {v : Nat}
    (h : (Kernel.perform (.wait (some tid)) s.kernel).1 = .ok (.stopped v .stop)) :
    Ends (consumeStop tid) (s.called (.wait (some tid))) fun r s' =>
      ∃ expected, r = .ok expected ∧ Carries U s s' := by
  have hnew : s.since (s.called (.wait (some tid))) =
      if s.kernel.awaited = some tid then [] else [.unawaited tid] := by
    rw [since_called, h]
    rfl
  have hcredit : ∀ b, (s.called (.wait (some tid))).kernel.credit b = 0 := by
    refine Minuted.credit_of_none ?_
    rw [System.called, Minuted.awaited_perform, h]
    rfl
  refine (consumed_consumeStop tid _).mono ?_
  rintro r s' ⟨expected, hr, hkernel, hgone, hasked, hthreads⟩
  refine ⟨expected, hr, hkernel ▸ List.prefix_append _ _, hgone, hasked.mp, fun b n runs _ howed => ?_⟩
  obtain ⟨t, ht, rfl, hn, hruns⟩ := howed
  obtain ⟨t', ht', htid, hrunning, hcount⟩ := hthreads t ht
  rw [System.since, hkernel, hcredit]
  have howed' : n ≤ t'.expectedStops → s'.Owed t.tid (n + 0) runs :=
    fun hle => ⟨t', ht', htid, hle, fun h => hrunning.trans (hruns h)⟩
  -- The count of the thread goes down by the credit that is used up, or the signal came unawaited.
  by_cases heq : t.tid = tid
  · by_cases hawaited : s.kernel.awaited = some tid
    · rw [Minuted.credit, heq, if_pos hawaited] at hn
      rw [if_pos heq] at hcount
      exact Or.inl (howed' (Nat.le_of_succ_le_succ (Nat.le_trans hn hcount)))
    · refine Or.inr (Or.inr (Or.inr (Or.inl ?_)))
      show Mishap.unawaited t.tid ∈ s.since (s.called (.wait (some tid)))
      rw [hnew, if_neg hawaited, heq]
      exact List.mem_singleton_self _
  · rw [if_neg heq] at hcount
    exact Or.inl (howed' (Nat.le_trans (Nat.le_of_add_right_le hn) hcount))

end Tracing

end Tracer

end DebugAdapter
