import DebugAdapter.Proofs.ArmedRuns
import DebugAdapter.Proofs.Dealings
import DebugAdapter.Proofs.StopReports

/-!
# Looks at an interrupted process

An interrupt is asked for while a stop signal that the tracer sent is to come. A look at the process
handles one status. Either the stop of the process is reported then, and the interrupt is done (`Spent`),
or the thread that the status is about goes on as before, with the stop signals that are to come for it
(`Returns`). Else there was a mishap (`Lapse`).
-/

namespace DebugAdapter.Tracer

open Debuggee
open Linux
open Operation

variable {κ α : Type} {s s' t : System (Minuted κ)} {tid : Nat} {U : Nat → Prop}

/-! ### Minutes -/

/-- The minutes are added to. -/
structure Grows (s s' : System (Minuted κ)) : Prop where
  minutes : s.kernel.mishaps <+: s'.kernel.mishaps

theorem grows_patching {m : Patching (Minuted κ) α} (h : Moves Minutes m) (s : System (Minuted κ)) :
    Ends m (Tracing.breakpointsOf s) fun _ p => Grows s (Tracing.withBreakpoints s p) :=
  (h _).mono fun _ _ hp => ⟨hp.mishaps⟩

instance [Kernel κ] : RequestRelation (Grows : System (Minuted κ) → System (Minuted κ) → Prop) where
  refl _ := ⟨List.prefix_refl _⟩
  trans h h' := ⟨h.minutes.trans h'.minutes⟩
  call _ _ _ := ⟨List.prefix_append _ _⟩
  tracer _ _ _ _ _ := ⟨List.prefix_refl _⟩
  exit _ _ _ _ _ := ⟨List.prefix_refl _⟩
  poll _ _ := ⟨List.prefix_append _ _⟩
  image _ _ _ _ _ _ _ := ⟨List.prefix_append _ _⟩
  unplan tid a := grows_patching (Patching.moves_removePlanned tid a)
  enable tid a := grows_patching (Patching.moves_enable tid a)
  disable tid a := grows_patching (Patching.moves_disable tid a)
  work h := grows_patching h.moves

/-! ### Reports -/

/-- The interrupt is done, unless a call was refused. -/
structure Spent (s s' : System (Minuted κ)) : Prop extends Grows s s' where
  asked : s'.Asked → s.Asked ∧ Refused (s.since s')

theorem Spent.after (h : Grows s t) (hasked : t.Asked → s.Asked) (h' : Spent t s') : Spent s s' := by
  refine ⟨⟨h.minutes.trans h'.minutes⟩, fun hs' => ?_⟩
  obtain ⟨ht, hrefused⟩ := h'.asked hs'
  rw [since_append h.minutes h'.minutes]
  exact ⟨hasked ht, Lasting.before hrefused⟩

theorem Spent.of_not_asked (h : Grows s s') (hs' : ¬ s'.Asked) : Spent s s' :=
  ⟨h, fun h => absurd h hs'⟩

namespace Tracing

variable [Kernel κ] [Kernel.Lawful κ]

theorem spent_reportStop (stop : Stop) (s : System (Minuted κ)) :
    Ends (reportStop stop) s fun _ s' => Spent s s' := by
  have hstop : Ends stopAll s fun r t => Dealt (fun _ => True) (Failing Refused) s r t ∧
      (r = .ok () → ∀ p, t.tracer.process = some p → p.isRunning = false) :=
    (deals_stopAll (fun _ => True.intro) s).and ((halted_stopAll s).mono fun _ _ h => h.2)
  have hgrows : Moves Grows (reportStop stop : Tracing (Minuted κ) Unit) := moves_reportStop stop
  refine ((hgrows s).and (hstop.bind (Q := fun _ s' => s'.Asked → s.Asked ∧ Refused (s.since s')) ?_ ?_)).mono
    fun _ _ h => ⟨h.1, h.2⟩
  · rintro ⟨⟩ t ⟨ht, hhalted⟩
    rcases hp : t.tracer.process with _ | p
    · rw [hasProcess, bind_assoc, ends_tracer_bind, pure_bind, hp]
      exact fun h => absurd h (not_asked_of_gone hp)
    · refine (ends_publishStop stop hp (hhalted rfl p hp)).mono ?_
      rintro r s' ⟨-, q, hq⟩ hasked
      rw [System.Asked, hq.process, Option.any_some, hq.interrupt] at hasked
      exact absurd hasked Bool.false_ne_true
  · rintro e t ⟨ht, -⟩ hasked
    refine ⟨ht.asked hasked, ht.reason.elim (fun hnone => absurd hasked (not_asked_of_gone hnone)) ?_⟩
    exact fun h => h e rfl

end Tracing

/-! ### Threads that go on -/

/-- The thread goes on if a stop signal is to come for it, and only this one may be stopped. -/
structure Returns (tid : Nat) (s s' : System (Minuted κ)) : Prop extends Carries (· = tid) s s' where
  restarts : ∀ n, s.Owed tid (n + s.kernel.credit tid) false →
    s'.Owed tid (n + s'.kernel.credit tid) true ∨ s'.tracer.process = none ∨ Lapse tid (s.since s')

/-- A status is handled: the stop of the process is reported, or the thread goes on. -/
def Resolved (tid : Nat) (s s' : System (Minuted κ)) : Prop :=
  Spent s s' ∨ Returns tid s s'

theorem Returns.after (h : Carries (· = tid) s t) (h' : Returns tid t s') : Returns tid s s' := by
  refine ⟨StepRelation.trans h h'.toCarries, fun n howed => ?_⟩
  rw [h.since_append h'.toCarries]
  rcases h.counted howed with howed | hnone | hparted
  · exact (h'.restarts n howed).imp_right (Or.imp_right Lasting.before)
  · exact Or.inr (Or.inl (h'.gone hnone))
  · exact Or.inr (Or.inr (Or.inl (Lasting.after hparted)))

theorem Returns.before (h : Returns tid s t) (h' : Carries (fun _ => False) t s') :
    Returns tid s s' := by
  refine ⟨StepRelation.trans h.toCarries (h'.mono fun _ => False.elim), fun n howed => ?_⟩
  rw [since_append h.minutes h'.minutes]
  rcases h.restarts n howed with howed | hnone | hlapse
  · exact (h'.owed tid n true (fun _ => id) howed).imp_right
      (Or.imp_right fun hparted => Or.inl (Lasting.before hparted))
  · exact Or.inr (Or.inl (h'.gone hnone))
  · exact Or.inr (Or.inr (Lasting.after hlapse))

theorem Returns.of_reason (h : Carries (· = tid) s s')
    (hreason : s.Owed tid (s.kernel.credit tid) false →
      s'.tracer.process = none ∨ Lapse tid (s.since s')) : Returns tid s s' :=
  ⟨h, fun _ howed => Or.inr (hreason (howed.mono (Nat.le_add_left _ _)))⟩

theorem Resolved.after (h : Carries (· = tid) s t) (h' : Resolved tid t s') : Resolved tid s s' :=
  h'.imp (.after ⟨h.minutes⟩ h.asked) (.after h)

theorem Resolved.asked (h : Resolved tid s s') (hs' : s'.Asked) : s.Asked :=
  h.elim (fun h => (h.asked hs').1) fun h => h.asked hs'

/-- While an interrupt is asked for, all stop signals are to come that were, but for a mishap. -/
structure Tended (s s' : System (Minuted κ)) : Prop extends Grows s s' where
  owed : s'.Asked → ∀ b n, s.Owed b (n + s.kernel.credit b) true →
    s'.Owed b (n + s'.kernel.credit b) true ∨ s'.tracer.process = none ∨ Lapse b (s.since s')

theorem Spent.tended (h : Spent s s') : Tended s s' :=
  ⟨h.toGrows, fun hs' _ _ _ => Or.inr (Or.inr (Reason.refused (h.asked hs').2))⟩

theorem Carries.tended (h : Carries (fun _ => False) s s') : Tended s s' :=
  ⟨⟨h.minutes⟩, fun _ b n howed =>
    (h.owed b n true (fun _ => id) howed).imp_right (Or.imp_right Or.inl)⟩

theorem Returns.tended (h : Returns tid s s') : Tended s s' := by
  refine ⟨⟨h.minutes⟩, fun _ b n howed => ?_⟩
  by_cases heq : b = tid
  · subst heq
    exact h.restarts n howed.any
  · exact (h.owed b n true (fun _ => heq) howed).imp_right (Or.imp_right Or.inl)

theorem Resolved.tended (h : Resolved tid s s') : Tended s s' :=
  h.elim Spent.tended Returns.tended

namespace Tracing

/-- From every state, a status of a thread is handled. -/
def Resolves (tid : Nat) (m : Tracing (Minuted κ) Unit) : Prop :=
  ∀ s, Ends m s fun _ s' => Resolved tid s s'

/-- What comes before fails for a reason only. -/
theorem resolves_bind {m : Tracing (Minuted κ) α} {f : α → Tracing (Minuted κ) Unit}
    (hm : Deals (· = tid) (Lapse tid) m) (hf : ∀ a, Resolves tid (f a)) : Resolves tid (m >>= f) := by
  refine fun s => (hm s).bind (fun a t ht => (hf a t).mono fun _ _ => .after ht.toCarries) fun e t ht => ?_
  exact Or.inr (.of_reason ht.toCarries fun _ => ht.reason.imp_right fun h => h e rfl)

variable [Kernel κ]

theorem returns_continueThread (s : System (Minuted κ)) :
    Ends (continueThread tid) s fun _ s' => Returns tid s s' :=
  (dealt_continueThread (C := Refused) tid s).mono fun _ _ h =>
    ⟨h.1.toCarries, fun n howed => (h.2 n howed).imp_right (Or.imp_right Or.inl)⟩

theorem resolves_continueThread : Resolves tid (continueThread tid : Tracing (Minuted κ) Unit) :=
  fun s => (returns_continueThread s).mono fun _ _ => Or.inr

variable [Kernel.Lawful κ]

theorem resolves_reportStop (stop : Stop) :
    Resolves tid (reportStop stop : Tracing (Minuted κ) Unit) :=
  fun s => (spent_reportStop stop s).mono fun _ _ => Or.inl

/-! ### Statuses -/

/-- A thread that met a breakpoint which is none of its own steps over it and goes on. -/
theorem resolved_stepOver (hhalted : Halted tid s) : Ends (do
    match ← stepThread tid with
    | .done => continueThread tid
    | .signal signal => reportStop ⟨tid, signalReason signal⟩
    | .gone => return () : Tracing (Minuted κ) Unit) s fun _ s' => Resolved tid s s' := by
  refine (dealt_stepThread (U := (· = tid)) rfl hhalted).bind ?_ ?_
  · rintro stepped t ht
    cases stepped with
    | done => exact (resolves_continueThread t).mono fun _ _ => .after ht.toCarries
    | signal signal => exact (resolves_reportStop _ t).mono fun _ _ => .after ht.toCarries
    | gone => exact Or.inr (.of_reason ht.toCarries fun howed =>
        ht.reason.imp_right fun h => Or.inl (h howed))
  · intro e t ht
    exact Or.inr (.of_reason ht.toCarries fun howed => ht.reason.imp_right fun h => h howed)

theorem resolved_breakpointMet (a : UInt64) (hhalted : Halted tid s) :
    Ends (breakpointMet tid a) s fun _ s' => Resolved tid s s' := by
  rw [breakpointMet_eq]
  have hmeeting : Deals (· = tid) (Lapse tid) (do
      setPc tid a
      completesPlan tid a : Tracing (Minuted κ) Bool) :=
    (deals_setPc a).bind fun _ => deals_completesPlan a
  refine ((hmeeting s).and (moves_meeting (R := Slows) tid a s)).bind ?_ ?_
  · rintro ends t ⟨ht, hslow⟩
    split
    · exact (resolves_reportStop _ t).mono fun _ _ => .after ht.toCarries
    · rw [ends_tracer_bind]
      split
      · exact (resolves_reportStop _ t).mono fun _ _ => .after ht.toCarries
      · exact (resolved_stepOver (hslow.halted hhalted)).mono fun _ _ => .after ht.toCarries
  · rintro e t ⟨ht, -⟩
    exact Or.inr (.of_reason ht.toCarries fun _ => ht.reason.imp_right fun h => h e rfl)

theorem resolves_trapSeen : Resolves tid (trapSeen tid : Tracing (Minuted κ) Unit) := by
  intro s
  have hmark : Ends (markStopped tid) s fun r t =>
      r = .ok () ∧ Carries (· = tid) s t ∧ Halted tid t :=
    ((carries_markStopped (U := (· = tid)) rfl).and (halted_markStopped tid s)).mono
      fun _ _ h => ⟨h.1.1, h.1.2, h.2.2⟩
  refine hmark.bind_eq fun t ht => ?_
  have htrap : Ends (trapOf tid) t fun r u =>
      Dealt (· = tid) (Failing (Lapse tid)) t r u ∧ Slows t u :=
    (deals_trapOf t).and (moves_trapOf tid t)
  refine Ends.mono (P := fun _ s' => Resolved tid t s') (htrap.bind ?_ ?_) fun _ _ => .after ht.1
  · rintro trap u ⟨hu, hslow⟩
    refine Ends.mono (P := fun _ s' => Resolved tid u s') ?_ fun _ _ => .after hu.toCarries
    cases trap with
    | breakpoint a => exact resolved_breakpointMet a (hslow.halted ht.2)
    | step => exact resolves_reportStop _ u
    | programTrap => exact resolves_reportStop _ u
    | signal => exact resolves_bind (deals_keepSignal _) (fun _ => resolves_reportStop _) u
  · rintro e u ⟨hu, -⟩
    exact Or.inr (.of_reason hu.toCarries fun _ => hu.reason.imp_right fun h => h e rfl)

/-- A new image is reported. -/
theorem spent_imageReplaced (tid : Nat) (s : System (Minuted κ)) :
    Ends (imageReplaced tid) s fun _ s' => Spent s s' := by
  rcases hp : s.tracer.process with _ | p
  · rw [imageReplaced, ends_process_bind_none hp]
    exact .of_not_asked ⟨List.prefix_refl _⟩ (not_asked_of_gone hp)
  · rw [imageReplaced, ends_process_bind hp]
    dsimp only
    have hrest : ∀ u : System (Minuted κ), u.kernel = s.kernel → (u.Asked → s.Asked) → Ends (do
        markStopped p.pid
        reportStop ⟨p.pid, .exec⟩) u fun _ s' => Spent s s' := by
      intro u hkernel hasked
      refine (carries_markStopped (U := fun _ => True) True.intro).bind_eq fun t ht => ?_
      refine (spent_reportStop _ t).mono fun _ _ => .after ⟨?_⟩ fun h => hasked (ht.asked h)
      exact hkernel ▸ ht.minutes
    rw [ends_programOf_bind, modifyProcess, ends_modifyTracer_bind, ends_modifyTracer_bind, hp]
    refine hrest _ rfl fun hasked => ?_
    rw [System.Asked, hp]
    exact hasked

/-- A stop signal of a thread is reported if an interrupt was asked for, whether it was expected or
not. -/
theorem tended_stopSignalSeen (tid : Nat) (s : System (Minuted κ)) : Ends (stopSignalSeen tid) s
    fun _ s' => (s'.Asked → s.Asked) ∧ (s.Asked → Tended s s') := by
  rw [stopSignalSeen, ends_tracer_bind]
  dsimp only
  rcases hp : s.tracer.process with _ | p
  · have hnot := not_asked_of_gone hp
    rw [show Option.any (fun p : Process => p.hasThread tid) none = false from rfl]
    show Ends (process >>= _) s _
    rw [ends_process_bind_none hp]
    exact ⟨id, fun h => absurd h hnot⟩
  · split
    · rw [ends_process_bind hp]
      refine (carries_addThread (U := fun _ => False)).mono ?_
      rintro _ t ⟨-, ht⟩
      exact ⟨ht.asked, fun _ => ht.tended⟩
    · have hmark : Ends (markStopped tid) s fun r t => r = .ok () ∧ t.kernel = s.kernel ∧
          ∃ q, t.tracer.process = some q ∧ q.interruptRequested = p.interruptRequested := by
        refine ⟨rfl, rfl, p.modifyThread tid fun t => { t with running := false }, ?_, rfl⟩
        show s.tracer.process.map _ = _
        rw [hp]
        rfl
      refine hmark.bind_eq ?_
      rintro t ⟨hkernel, q, hq, hrequested⟩
      have hasked : t.Asked ↔ s.Asked := by
        rw [System.Asked, System.Asked, hq, hp, Option.any_some, Option.any_some, hrequested]
      rw [ends_process_bind hq]
      refine (consumed_consumeStop tid t).bind_ok ?_
      rintro expected u hu
      have hkept : u.kernel = s.kernel := hu.kernel.trans hkernel
      have hgrows : Grows s u := ⟨hkept ▸ List.prefix_refl _⟩
      have hunasks : u.Asked → s.Asked := fun h => hasked.mp (hu.asked.mp h)
      have hreport : ∀ stop, Ends (reportStop stop) u fun _ s' =>
          (s'.Asked → s.Asked) ∧ (s.Asked → Tended s s') := fun stop =>
        (spent_reportStop stop u).mono fun _ s' h =>
          ⟨fun hs' => hunasks (h.asked hs').1, fun _ => (h.after hgrows hunasks).tended⟩
      split
      · -- Only while no interrupt is asked for is an expected signal passed over.
        rename_i hpass
        refine (returns_continueThread u).mono fun _ s' h =>
          ⟨fun hs' => hunasks (h.asked hs'), fun hs => ?_⟩
        rw [System.Asked, hp, Option.any_some, ← hrequested] at hs
        rw [hs] at hpass
        simp at hpass
      · exact hreport _

/-! ### Looks -/

theorem resolves_clone : Resolves tid (do
    let new ← threadCloned tid
    continueThread tid
    continueThread new : Tracing (Minuted κ) Unit) := by
  refine resolves_bind (deals_threadCloned rfl) fun new s => Or.inr ?_
  have hnew : Deals (fun _ => False) Refused (continueThread new : Tracing (Minuted κ) Unit) :=
    deals_continueThread
  exact (returns_continueThread s).bind (fun _ t ht => (hnew t).mono fun _ _ h => ht.before h.toCarries)
    fun _ _ h => h

/-- A look at the process asks for nothing, and no stop signal is lost but for a mishap. -/
structure Upholds (s s' : System (Minuted κ)) : Prop where
  asked : s'.Asked → s.Asked
  owed : s'.Asked → ∀ b n, s.Owed b n true →
    s'.Owed b n true ∨ s'.tracer.process = none ∨ Lapse b (s.since s')

omit [Kernel κ] [Kernel.Lawful κ] in
theorem Upholds.of_not_asked (h : ¬ s'.Asked) : Upholds s s' :=
  ⟨fun hs' => absurd hs' h, fun hs' => absurd hs' h⟩

omit [Kernel κ] [Kernel.Lawful κ] in
theorem Starts.upholds (h : Starts (fun _ => False) s t) (hasked : s'.Asked → t.Asked)
    (h' : s'.Asked → Tended t s') : Upholds s s' := by
  refine ⟨fun hs' => h.asked (hasked hs'), fun hs' b n howed => ?_⟩
  have htended := h' hs'
  rw [since_append h.minutes htended.minutes]
  rcases h.fresh b n true (fun _ => id) howed with howed | hnone | hparted
  · refine (htended.owed hs' b n howed).imp ?_ (Or.imp_right Lasting.before)
    exact fun howed => howed.mono (Nat.le_add_right _ _)
  · exact absurd (hasked hs') (not_asked_of_gone hnone)
  · exact Or.inr (Or.inr (Lasting.after (Or.inl hparted : Lapse b _)))

omit [Kernel.Lawful κ] in
/-- No wait is on account of a signal after a look for any status. -/
theorem starts_poll (s : System (Minuted κ)) : Starts U s (s.called .poll) := by
  refine .of_fresh (List.prefix_append _ _) id id fun b n runs _ howed => Or.inl ?_
  have hcredit : (s.called .poll).kernel.credit b = 0 := Minuted.credit_of_none rfl b
  rw [hcredit]
  exact owed_of_process rfl howed

/-- The status that a look finds is handled. -/
theorem upholds_handle {status : WaitStatus}
    (h : (Kernel.perform .poll s.kernel).1 = .ok (some status)) :
    Ends (handle status) (s.called .poll) fun _ s' => Upholds s s' := by
  have hstarts : Starts (fun _ => False) s (s.called .poll) := starts_poll s
  have hresolves : ∀ {tid : Nat} {m : Tracing (Minuted κ) Unit}, Resolves tid m →
      Ends m (s.called .poll) fun _ s' => Upholds s s' :=
    fun hm => (hm _).mono fun _ _ h => hstarts.upholds h.asked fun _ => h.tended
  have hgone : ∀ (tid : Nat) (code : Option Int), .ended tid ∈ s.since (s.called .poll) →
      Ends (threadGone tid code) (s.called .poll) fun _ s' => Upholds s s' := by
    intro tid code hended
    refine (forgets_threadGone tid code _).mono fun _ s' h => ?_
    exact (hstarts.forget (Or.inl hended) h.2).upholds id fun _ =>
      (StepRelation.refl s' : Carries (fun _ => False) s' s').tended
  have hnew : s.since (s.called .poll) = s.kernel.brings .poll (.ok (some status)) := by
    rw [since_called, h]
  rw [handle.eq_def]
  split
  · exact hgone _ _ (hnew ▸ List.mem_singleton_self _)
  · exact hgone _ _ (hnew ▸ List.mem_singleton_self _)
  · split
    · exact hresolves resolves_clone
    · split
      · exact (spent_imageReplaced _ _).mono fun _ _ h =>
          hstarts.upholds (fun hs' => (h.asked hs').1) fun _ => h.tended
      · exact hresolves (resolves_bind (deals_markStopped rfl) fun _ => resolves_continueThread)
  · exact (tended_stopSignalSeen _ _).mono fun _ _ h =>
      hstarts.upholds h.1 fun hs' => h.2 (h.1 hs')
  · exact hresolves resolves_trapSeen
  · refine hresolves (resolves_bind (deals_markStopped rfl) fun _ =>
      resolves_bind (deals_keepSignal _) fun _ => ?_)
    split
    · exact resolves_continueThread
    · exact resolves_reportStop _
  · exact hstarts.upholds id fun _ => (StepRelation.refl _ : Carries (fun _ => False) _ _).tended

theorem upholds_look (s : System (Minuted κ)) : Ends look s fun _ s' => Upholds s s' := by
  have hstarts : Starts (fun _ => False) s (s.called .poll) := starts_poll s
  refine ends_look (fun hnone => ?_) (fun _ _ => ?_) (fun _ _ => ?_) fun _ status hpoll => ?_
  · exact .of_not_asked (not_asked_of_gone hnone)
  · exact hstarts.upholds id fun _ => (StepRelation.refl _ : Carries (fun _ => False) _ _).tended
  · exact .of_not_asked (not_asked_of_gone rfl)
  · exact upholds_handle hpoll

end Tracing

end DebugAdapter.Tracer
