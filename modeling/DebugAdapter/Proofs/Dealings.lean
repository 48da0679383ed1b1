import DebugAdapter.Proofs.Mishaps

/-!
# Dealings with threads

A tracer stops threads, steps them, lets them receive their stop signals and lets them go on. Whatever
the kernel answers, these dealings lose no stop signal without a mishap, and they fail for a reason only:
`Dealt` says both, with what the mishaps tell of each outcome. A wait does not end before the kernel
refuses it, since a lawful kernel runs out of statuses before the tracer runs out of fuel.
-/

namespace DebugAdapter.Tracer

open Debuggee
open Linux
open Operation

/-! ### Bounds on waits -/

/-- No more statuses are outstanding than before. -/
structure Drains {κ : Type} [Kernel κ] (s s' : System κ) : Prop where
  outstanding : Kernel.outstanding s'.kernel ≤ Kernel.outstanding s.kernel

instance {κ : Type} [Kernel κ] [Kernel.Lawful κ] :
    ThreadRelation (Drains : System κ → System κ → Prop) where
  refl _ := ⟨Nat.le_refl _⟩
  trans h h' := ⟨Nat.le_trans h'.outstanding h.outstanding⟩
  call c s _ := ⟨Kernel.Lawful.outstanding_perform_le c s.kernel⟩
  tracer _ _ _ _ _ := ⟨Nat.le_refl _⟩
  exit _ _ _ _ _ := ⟨Nat.le_refl _⟩

variable {κ α β : Type} {s s' t : System (Minuted κ)} {U : Nat → Prop} {C : List Mishap → Prop}

/-! ### Outcomes -/

instance : Lasting fun _ => True where
  before _ := True.intro
  after _ := True.intro

instance {p : Prop} [Lasting C] : Lasting fun new => p → C new where
  before h hp := Lasting.before (h hp)
  after h hp := Lasting.after (h hp)

/-- How a dealing with threads goes: what is to come stays noted, and as long as the process is there
the mishaps tell what `B` says of the outcome. -/
structure Dealt (U : Nat → Prop) (B : Except DebugError α → List Mishap → Prop)
    (s : System (Minuted κ)) (r : Except DebugError α) (s' : System (Minuted κ)) : Prop extends
    Carries U s s' where
  reason : s'.tracer.process = none ∨ B r (s.since s')

/-- A failure has a reason. -/
def Failing (C : List Mishap → Prop) (r : Except DebugError α) (new : List Mishap) : Prop :=
  ∀ e, r = .error e → C new

instance [Lasting C] {r : Except DebugError α} : Lasting (Failing C r) where
  before h e he := Lasting.before (h e he)
  after h e he := Lasting.after (h e he)

/-- From every state a dealing with threads fails for a reason only. -/
def Deals (U : Nat → Prop) (C : List Mishap → Prop) (m : Tracing (Minuted κ) α) : Prop :=
  ∀ s, Ends m s (Dealt U (Failing C) s)

section Rules

variable {B : Except DebugError α → List Mishap → Prop}

theorem Dealt.after {r : Except DebugError α} [Lasting (B r)] (h : Carries U s t)
    (h' : Dealt U B t r s') : Dealt U B s r s' := by
  refine ⟨StepRelation.trans h h'.toCarries, h'.reason.imp_right fun hreason => ?_⟩
  rw [h.since_append h'.toCarries]
  exact Lasting.before hreason

theorem Dealt.mono {B' : Except DebugError α → List Mishap → Prop} {r : Except DebugError α}
    (h : Dealt U B s r s') (hB : B r (s.since s') → B' r (s.since s')) : Dealt U B' s r s' :=
  ⟨h.toCarries, h.reason.imp_right hB⟩

theorem failing_ok (a : α) (new : List Mishap) : Failing C (.ok a : Except DebugError α) new := by
  rintro e ⟨⟩

theorem Dealt.ok (h : Carries U s s') (a : α) : Dealt U (Failing C) s (.ok a) s' :=
  ⟨h, Or.inr (failing_ok a _)⟩

theorem Dealt.error (h : Carries U s s') (e : DebugError) (hC : C (s.since s')) :
    Dealt U (Failing C) s (.error e : Except DebugError α) s' :=
  ⟨h, Or.inr fun _ _ => hC⟩

/-- A sequence, by what the first part comes to. -/
theorem Dealt.bind {m : Tracing (Minuted κ) α} {f : α → Tracing (Minuted κ) β}
    {D : Except DebugError β → List Mishap → Prop} (hm : Ends m t (Dealt U B s))
    (herror : ∀ e new, B (.error e) new → D (.error e) new)
    (hf : ∀ a u, Dealt U B s (.ok a) u → Ends (f a) u (Dealt U D s)) :
    Ends (m >>= f) t (Dealt U D s) :=
  hm.bind hf fun e _ h => ⟨h.toCarries, h.reason.imp_right (herror e _)⟩

theorem Deals.pure (a : α) : Deals U C (Pure.pure a : Tracing (Minuted κ) α) :=
  fun s => .ok (StepRelation.refl s) a

theorem Deals.bind [Lasting C] {m : Tracing (Minuted κ) α} {f : α → Tracing (Minuted κ) β}
    (hm : Deals U C m) (hf : ∀ a, Deals U C (f a)) : Deals U C (m >>= f) := fun s =>
  Dealt.bind (hm s) (fun e _ h _ _ => h e rfl) fun a t h => (hf a t).mono fun _ _ => .after h.toCarries

/-- What does not fail. -/
theorem Deals.of_carries {m : Tracing (Minuted κ) α}
    (h : ∀ s, Ends m s fun r s' => ∃ a, r = .ok a ∧ Carries U s s') : Deals U C m := by
  intro s
  refine (h s).mono ?_
  rintro _ s' ⟨a, rfl, hs'⟩
  exact .ok hs' a

end Rules

/-! ### Work on breakpoints -/

/-- Any call was refused. -/
def Hindered (new : List Mishap) : Prop :=
  ∃ c, .refused c ∈ new

instance : Reason Hindered where
  before := by
    rintro l l' ⟨c, h⟩
    exact ⟨c, List.mem_append_right _ h⟩
  after := by
    rintro l l' ⟨c, h⟩
    exact ⟨c, List.mem_append_left _ h⟩
  refused := by
    rintro l ⟨c, -, h⟩
    exact ⟨c, h⟩

namespace Patching

/-- Work on breakpoints fails only if a call is refused. -/
def Blames (m : Patching (Minuted κ) α) : Prop :=
  ∀ p, Ends m p fun r p' => Minutes p p' ∧
    ∀ e, r = .error e → Hindered (p'.kernel.mishaps.drop p.kernel.mishaps.length)

theorem Blames.pure (a : α) : Blames (Pure.pure a : Patching (Minuted κ) α) := by
  refine fun _ => ⟨⟨List.prefix_refl _, rfl⟩, ?_⟩
  rintro e ⟨⟩

theorem Blames.bind {m : Patching (Minuted κ) α} {f : α → Patching (Minuted κ) β} (hm : Blames m)
    (hf : ∀ a, Blames (f a)) : Blames (m >>= f) := by
  refine fun p => (hm p).bind (fun a q hq => (hf a q).mono fun r p' h => ⟨?_, fun e he => ?_⟩)
    fun e q hq => ⟨hq.1, fun e' _ => hq.2 e rfl⟩
  · exact ⟨hq.1.mishaps.trans h.1.mishaps, h.1.awaited.trans hq.1.awaited⟩
  · obtain ⟨c, hc⟩ := h.2 e he
    refine ⟨c, ?_⟩
    rw [← Nat.add_sub_cancel' hq.1.mishaps.length_le, ← List.drop_drop] at hc
    exact List.mem_of_mem_drop hc

theorem Blames.forM {f : α → Patching (Minuted κ) PUnit} :
    ∀ {as : List α}, (∀ a ∈ as, Blames (f a)) → Blames (as.forM f)
  | [], _ => .pure _
  | a :: _, h => (h a List.mem_cons_self).bind fun _ =>
      .forM fun b hb => h b (List.mem_cons_of_mem a hb)

theorem blames_modifyTable (f : BreakpointTable → BreakpointTable) :
    Blames (modifyTable f : Patching (Minuted κ) Unit) := by
  refine fun _ => ⟨⟨List.prefix_refl _, rfl⟩, ?_⟩
  rintro e ⟨⟩

variable [Kernel κ]

theorem blames_call {c : SystemCall} (hc : c.isMemory = true) :
    Blames (calls (call c) : Patching (Minuted κ) c.Answer) := by
  intro p
  refine ⟨⟨List.prefix_append _ _, ?_⟩, fun e he => ⟨c, ?_⟩⟩
  · show p.kernel.awaits c _ = p.kernel.awaited
    cases c with
    | peek tid a => rfl
    | poke tid a word => rfl
    | _ => cases hc
  · have he : (Kernel.perform c p.kernel).1 = .error e := he
    show _ ∈ (p.kernel.mishaps ++ p.kernel.brings c (Kernel.perform c p.kernel).1).drop _
    have hbrings : p.kernel.brings c (.error e) = [.refused c] := by
      cases c with
      | peek tid a => rfl
      | poke tid a word => rfl
      | _ => cases hc
    rw [List.drop_left, he, hbrings]
    exact List.mem_singleton_self _

theorem blames_enable (tid : Nat) (a : UInt64) :
    Blames (enable tid a : Patching (Minuted κ) Unit) := by
  intro p
  rw [enable, ends_get_bind]
  split
  · exact Blames.pure _ p
  · split
    · exact Blames.pure _ p
    · refine Blames.bind (blames_call (c := .peek tid a) rfl) (fun word => ?_) p
      refine (blames_modifyTable _).bind fun _ => ?_
      exact (blames_call (c := .poke tid a _) rfl).bind fun _ => blames_modifyTable _

theorem blames_disable (tid : Nat) (a : UInt64) :
    Blames (disable tid a : Patching (Minuted κ) Unit) := by
  intro p
  rw [disable, ends_get_bind]
  split
  · exact Blames.pure _ p
  · split
    · exact Blames.pure _ p
    · refine Blames.bind (blames_call (c := .peek tid a) rfl) (fun word => ?_) p
      exact (blames_call (c := .poke tid a _) rfl).bind fun _ => blames_modifyTable _

theorem blames_disableAll (tid : Nat) : Blames (disableAll tid : Patching (Minuted κ) Unit) := by
  intro p
  rw [disableAll, ends_get_bind]
  exact (Blames.forM fun a _ => blames_disable tid a).bind (fun _ => blames_modifyTable _) p

end Patching

theorem deals_patching (error : OsError → DebugError) {m : Patching (Minuted κ) α}
    (h : m.Blames) : Deals U Hindered (Tracing.patching error m) := by
  intro s
  rw [Tracing.ends_patching]
  refine ((carries_patching (U := U) (fun p => (h p).mono fun _ _ h => h.1) s).and (h _)).mono ?_
  rintro (e | a) t ⟨ht, -, hreason⟩
  · exact ⟨ht, Or.inr fun _ _ => hreason e rfl⟩
  · exact .ok ht a

/-! ### Outcomes of steps -/

/-- What the mishaps tell of a step: a thread that is gone has ended, or a call was refused. -/
def Stepping (tid : Nat) (C : List Mishap → Prop) :
    Except DebugError Stepped → List Mishap → Prop
  | .error _, new => C new
  | .ok .gone, new => Parted tid new
  | .ok _, _ => True

instance {tid : Nat} [Lasting C] {r : Except DebugError Stepped} : Lasting (Stepping tid C r) := by
  rcases r with e | _ | _ | _
  · exact inferInstanceAs (Lasting C)
  · exact inferInstanceAs (Lasting fun _ => True)
  · exact inferInstanceAs (Lasting fun _ => True)
  · exact inferInstanceAs (Lasting (Parted tid))

/-- What the mishaps tell of a status while a thread steps. -/
def Judging (tid : Nat) : Except DebugError (Option (Option Stepped)) → List Mishap → Prop
  | .error _, new => Refused new
  | .ok (some (some stepped)), new => Stepping tid Refused (.ok stepped) new
  | .ok _, _ => True

instance {tid : Nat} {r : Except DebugError (Option (Option Stepped))} : Lasting (Judging tid r) := by
  rcases r with e | _ | _ | stepped
  · exact inferInstanceAs (Lasting Refused)
  · exact inferInstanceAs (Lasting fun _ => True)
  · exact inferInstanceAs (Lasting fun _ => True)
  · exact inferInstanceAs (Lasting (Stepping tid Refused (.ok stepped)))

/-- A call was refused, or so many steps of a thread were started. -/
def Tired (tid count : Nat) (new : List Mishap) : Prop :=
  Refused new ∨ count ≤ new.countP (Mishap.isStepOf tid)

instance {tid count : Nat} : Reason (Tired tid count) where
  before {l l'} h := h.imp Lasting.before fun h => by
    rw [List.countP_append]
    exact Nat.le_trans h (Nat.le_add_left _ _)
  after {l l'} h := h.imp Lasting.after fun h => by
    rw [List.countP_append]
    exact Nat.le_trans h (Nat.le_add_right _ _)
  refused := Or.inl

/-- A stop signal to a thread may be lost, or a step of the thread has failed. -/
def Lapse (tid : Nat) (new : List Mishap) : Prop :=
  Parted tid new ∨ Hindered new ∨ Tracing.maxSteps ≤ new.countP (Mishap.isStepOf tid)

theorem Tired.lapse {tid : Nat} {new : List Mishap} (h : Tired tid Tracing.maxSteps new) :
    Lapse tid new :=
  Or.inr (h.imp_left Reason.refused)

instance {tid : Nat} : Reason (Lapse tid) where
  before h := h.imp Lasting.before
    (Or.imp Lasting.before fun h => by rw [List.countP_append]; exact Nat.le_trans h (Nat.le_add_left _ _))
  after h := h.imp Lasting.after
    (Or.imp Lasting.after fun h => by rw [List.countP_append]; exact Nat.le_trans h (Nat.le_add_right _ _))
  refused h := Or.inr (Or.inl (Reason.refused h))

namespace Tracing

variable {tid : Nat}

/-! ### Elementary operations -/

theorem deals_process : Deals U C (process : Tracing (Minuted κ) Process) := by
  intro s
  rw [process, ends_tracer_bind]
  split
  · exact .ok (StepRelation.refl s) _
  · rename_i hnone
    exact ⟨StepRelation.refl s, Or.inl hnone⟩

theorem deals_tracer : Deals U C (tracer : Tracing (Minuted κ) State) :=
  fun s => .ok (StepRelation.refl s) _

theorem deals_hasProcess : Deals U C (hasProcess : Tracing (Minuted κ) Bool) :=
  fun s => .ok (StepRelation.refl s) _

theorem deals_markStopped (hU : U tid) : Deals U C (markStopped tid : Tracing (Minuted κ) Unit) :=
  .of_carries fun _ => (carries_markStopped hU).mono fun _ _ h => ⟨_, h⟩

theorem deals_keepSignal (signal : Signal) :
    Deals U C (keepSignal tid signal : Tracing (Minuted κ) Unit) :=
  .of_carries fun _ => (carries_keepSignal signal).mono fun _ _ h => ⟨_, h⟩

theorem deals_addThread : Deals U C (modifyProcess (·.addThread tid) : Tracing (Minuted κ) Unit) :=
  .of_carries fun _ => carries_addThread.mono fun _ _ h => ⟨_, h⟩

variable [Kernel κ]

section Calls

variable [Reason C]

/-- A call that is no account for a wait. -/
theorem deals_require (error : OsError → DebugError) {c : SystemCall} (hmemory : c.isMemory = false)
    (hc : c.isSignal = false)
    (hbrings : ∀ (k : Minuted κ) e, k.brings c (.error e) = [.refused c]) :
    Deals U C (require error c : Tracing (Minuted κ) c.Answer) := by
  intro s
  rw [ends_require]
  have hcarries : Carries U s (s.called c) :=
    carries_called hc
  rcases hanswer : (Kernel.perform c s.kernel).1 with e | a
  · exact .error hcarries _ (Reason.refused (refused_called hanswer hmemory (hbrings _ e)))
  · exact .ok hcarries a

theorem deals_registersOf : Deals U C (registersOf tid : Tracing (Minuted κ) Machine.RegisterFile) :=
  deals_require (c := .getRegisters tid) _ rfl rfl fun _ _ => rfl

theorem deals_pcOf : Deals U C (pcOf tid : Tracing (Minuted κ) UInt64) :=
  deals_registersOf.bind fun _ => .pure _

theorem deals_setPc (pc : UInt64) : Deals U C (setPc tid pc : Tracing (Minuted κ) Unit) :=
  deals_registersOf.bind fun _ => deals_require (c := .setRegisters tid _) _ rfl rfl fun _ _ => rfl

theorem deals_trapOf : Deals U C (trapOf tid : Tracing (Minuted κ) Trap) := by
  intro s
  rw [trapOf, ends_attempt_bind]
  have hcarries : Carries U s (s.called (.signalCode tid)) := carries_called rfl
  rcases hanswer : (Kernel.perform (.signalCode tid) s.kernel).1 with e | code
  · cases e with
    | noProcess => exact .ok hcarries _
    | _ => exact .error hcarries _ (Reason.refused (refused_called hanswer rfl rfl))
  · refine Ends.mono (P := Dealt U (Failing C) (s.called (.signalCode tid))) ?_
      fun _ _ => .after hcarries
    dsimp only
    split
    · refine (deals_pcOf.bind fun pc => deals_tracer.bind fun t => ?_) _
      split
      · exact .pure _
      · exact .pure _
    · split
      · exact Deals.pure _ _
      · exact Deals.pure _ _

theorem deals_completesPlan (address : UInt64) :
    Deals U C (completesPlan tid address : Tracing (Minuted κ) Bool) := by
  refine deals_process.bind fun p => ?_
  split
  · exact .pure _
  · split
    · refine Deals.bind ?_ fun _ => .pure _
      exact deals_registersOf.bind fun _ => .pure _
    · exact .pure _

omit [Reason C] in
theorem deals_letExit : Deals U C (letExit tid : Tracing (Minuted κ) Unit) := by
  intro s
  rw [letExit, ends_attempt_bind]
  have hcarries : Carries U s (s.called (.resume tid none)) := carries_called rfl
  exact .ok hcarries _

end Calls

/-! ### Waits -/

/-- What a wait comes to, by what the judge of the statuses comes to: without a result a call was
refused. -/
def Awaiting (B : Except DebugError (Option α) → List Mishap → Prop) :
    Except DebugError (Except OsError α) → List Mishap → Prop
  | .error e, new => B (.error e) new
  | .ok (.error _), new => Refused new
  | .ok (.ok a), new => B (.ok (some a)) new

instance {B : Except DebugError (Option α) → List Mishap → Prop} [h : ∀ r, Lasting (B r)]
    {r : Except DebugError (Except OsError α)} : Lasting (Awaiting B r) := by
  rcases r with e | e | a
  · exact h (.error e)
  · exact inferInstanceAs (Lasting Refused)
  · exact h (.ok (some a))

variable [Kernel.Lawful κ]

theorem dealt_await {who : Option Nat} {judge : WaitStatus → Tracing (Minuted κ) (Option α)}
    {B : Except DebugError (Option α) → List Mishap → Prop} [∀ r, Lasting (B r)]
    (hdrains : ∀ status, Moves Drains (judge status))
    (hjudge : ∀ (s : System (Minuted κ)) status,
      (Kernel.perform (.wait who) s.kernel).1 = .ok status →
      Ends (judge status) (s.called (.wait who)) (Dealt U B s)) (s : System (Minuted κ)) :
    Ends (await who judge) s (Dealt U (Awaiting B) s) := by
  -- By induction on the fuel, which stays above what is outstanding: each status makes that smaller.
  have hfrom : ∀ (fuel : Nat) (s : System (Minuted κ)), Kernel.outstanding s.kernel < fuel →
      Ends (awaitFrom who judge fuel) s (Dealt U (Awaiting B) s) := by
    intro fuel
    induction fuel with
    | zero => exact fun _ h => absurd h (Nat.not_lt_zero _)
    | succ fuel ih =>
      intro s hfuel
      rw [awaitFrom, ends_attempt_bind]
      rcases hanswer : (Kernel.perform (.wait who) s.kernel).1 with e | status
      · exact ⟨carries_called rfl, Or.inr (refused_called hanswer rfl rfl)⟩
      · have hless := Kernel.Lawful.outstanding_wait_lt who s.kernel status hanswer
        refine ((hjudge s status hanswer).and (hdrains status (s.called (.wait who)))).bind ?_ ?_
        · rintro verdict t ⟨hdealt, hmore⟩
          cases verdict with
          | some a => exact ⟨hdealt.toCarries, hdealt.reason⟩
          | none =>
            have ht : Kernel.outstanding t.kernel < fuel :=
              Nat.lt_of_le_of_lt hmore.outstanding (Nat.lt_of_lt_of_le hless (Nat.le_of_lt_succ hfuel))
            exact (ih t ht).mono fun _ _ => .after hdealt.toCarries
        · rintro e t ⟨hdealt, -⟩
          exact ⟨hdealt.toCarries, hdealt.reason⟩
  rw [await, ends_get_bind]
  exact hfrom _ s (Nat.lt_succ_self _)

theorem deals_threadCloned [Reason C] (hU : U tid) :
    Deals U C (threadCloned tid : Tracing (Minuted κ) Nat) := by
  have hmark : ∀ new : Nat, Deals U C (do
      markStopped tid
      return new : Tracing (Minuted κ) Nat) := fun new => (deals_markStopped hU).bind fun _ => .pure _
  refine (deals_require (c := .eventMessage tid) _ rfl rfl fun _ _ => rfl).bind fun new => ?_
  refine deals_process.bind fun p => ?_
  split
  · intro s
    refine Dealt.bind (dealt_await (B := Failing C) ?_ ?_ s) (fun e new h _ _ => h e rfl) ?_
    · intro status
      split
      · exact Moves.pure _
      · exact Moves.pure _
      · exact Moves.pure _
    · intro s status _
      have hcarries : Carries U s (s.called (.wait (some new))) := carries_called rfl
      split
      · exact .ok hcarries _
      · exact .ok hcarries _
      · exact .ok hcarries _
    · rintro (e | ⟨⟩) t ht
      · exact ⟨ht.toCarries, ht.reason.imp_right fun h _ _ => Reason.refused h⟩
      · exact (deals_addThread.bind fun _ => hmark new) t |>.mono fun _ _ => .after ht.toCarries
  · exact hmark new

/-! ### Stops -/

omit [Kernel.Lawful κ] in
/-- A thread that a wait told the end of is forgotten. -/
theorem dealt_ended {v : WaitStatus} {code : Option Int} {a : α}
    {B : Except DebugError α → List Mishap → Prop}
    (h : (Kernel.perform (.wait (some tid)) s.kernel).1 = .ok v)
    (hended : s.kernel.told tid v = [.ended tid])
    (hB : B (.ok a) [.ended tid]) :
    Ends (do
      threadGone tid code
      return a) (s.called (.wait (some tid))) (Dealt U B s) := by
  have hcarries : Carries U s (s.called (.wait (some tid))) := carries_called rfl
  have hnew : s.since (s.called (.wait (some tid))) = [.ended tid] := by
    rw [since_called, h]
    exact hended
  have hparted : Parted tid (s.since (s.called (.wait (some tid)))) := by
    rw [hnew]
    exact Or.inl (List.mem_singleton_self _)
  refine (forgets_threadGone tid code _).bind_eq fun t ht => ?_
  refine ⟨hcarries.forget (Or.inr hparted) ht, Or.inr ?_⟩
  show B (.ok a) (s.since t)
  rw [since_of_kernel ht.kernel, hnew]
  exact hB

theorem dealt_settle [Reason C] (hU : U tid) {status : WaitStatus}
    (h : (Kernel.perform (.wait (some tid)) s.kernel).1 = .ok status) :
    Ends (settle tid status) (s.called (.wait (some tid))) (Dealt U (Failing C) s) := by
  have hcarries : Carries U s (s.called (.wait (some tid))) := carries_called rfl
  have hdeals : ∀ {m : Tracing (Minuted κ) (Option Bool)}, Deals U C m →
      Ends m (s.called (.wait (some tid))) (Dealt U (Failing C) s) :=
    fun hm => (hm _).mono fun _ _ => .after hcarries
  rw [settle.eq_def]
  split
  · exact (carries_consumeStop h).bind_ok fun _ t ht => .ok ht _
  · refine hdeals (deals_trapOf.bind fun trap => ?_)
    cases trap with
    | breakpoint address => exact (deals_setPc address).bind fun _ => .pure _
    | step => exact .pure _
    | programTrap => exact .pure _
    | signal => exact (deals_keepSignal _).bind fun _ => .pure _
  · exact hdeals ((deals_keepSignal _).bind fun _ => .pure _)
  · split
    · exact hdeals ((deals_threadCloned hU).bind fun _ => .pure _)
    · split
      · exact hdeals (deals_letExit.bind fun _ => .pure _)
      · exact hdeals (.pure _)
  · exact dealt_ended h rfl (failing_ok _ _)
  · exact dealt_ended h rfl (failing_ok _ _)
  · exact hdeals (.pure _)

variable [Reason C]

theorem deals_awaitStop (hU : U tid) : Deals U C (awaitStop tid : Tracing (Minuted κ) Unit) := by
  intro s
  refine Dealt.bind (dealt_await (B := Failing C) (moves_settle tid)
    (fun _ _ => dealt_settle hU) s) (fun e new h _ _ => h e rfl) fun result t ht => ?_
  split
  · exact (deals_markStopped hU t).mono fun _ _ => .after ht.toCarries
  · exact .ok ht.toCarries _
  · refine (forgets_threadGone tid none t).mono ?_
    rintro _ u ⟨rfl, hu⟩
    exact .ok (ht.toCarries.forget (ht.reason.imp_right fun h => Or.inr (Or.inr h)) hu) _
  · exact ⟨ht.toCarries, ht.reason.imp_right fun h _ _ => Reason.refused h⟩

/-- No signal is taken to be on account of a wait at the start. -/
structure Starts (U : Nat → Prop) (s s' : System (Minuted κ)) : Prop extends Carries U s s' where
  fresh : ∀ b n runs, (runs = true → ¬ U b) → s.Owed b n runs →
    s'.Owed b (n + s'.kernel.credit b) runs ∨ s'.tracer.process = none ∨ Parted b (s.since s')

omit [Kernel κ] [Kernel.Lawful κ] in
theorem Starts.counted (h : Starts U s s') {b n : Nat} (howed : s.Owed b n false) :
    s'.Owed b (n + s'.kernel.credit b) false ∨ s'.tracer.process = none ∨ Parted b (s.since s') :=
  h.fresh b n false (fun hruns => absurd hruns Bool.false_ne_true) howed

omit [Kernel κ] [Kernel.Lawful κ] in
theorem Starts.trans (h : Starts U s t) (h' : Carries U t s') : Starts U s s' := by
  refine ⟨StepRelation.trans h.toCarries h', fun b n runs hU howed => ?_⟩
  rw [h.since_append h']
  rcases h.fresh b n runs hU howed with ht | hgone | hparted
  · exact (h'.owed b n runs hU ht).imp_right (Or.imp_right Lasting.before)
  · exact Or.inr (Or.inl (h'.gone hgone))
  · exact Or.inr (Or.inr (Lasting.after hparted))

omit [Kernel κ] [Kernel.Lawful κ] in
theorem Starts.of_fresh (hminutes : s.kernel.mishaps <+: s'.kernel.mishaps)
    (hgone : s.tracer.process = none → s'.tracer.process = none) (hasked : s'.Asked → s.Asked)
    (hfresh : ∀ b n runs, (runs = true → ¬ U b) → s.Owed b n runs →
      s'.Owed b (n + s'.kernel.credit b) runs ∨ s'.tracer.process = none ∨ Parted b (s.since s')) :
    Starts U s s' :=
  ⟨⟨hminutes, hgone, hasked, fun b n runs hU howed =>
    hfresh b n runs hU (howed.mono (Nat.le_add_right _ _))⟩, hfresh⟩

omit [Kernel κ] [Kernel.Lawful κ] in
theorem Starts.forget (h : Starts U s t) (hparted : Parted tid (s.since t)) (hforget : Forgets tid t s') :
    Starts U s s' := by
  refine ⟨h.toCarries.forget (Or.inr hparted) hforget, fun b n runs hU howed => ?_⟩
  rw [since_of_kernel hforget.kernel, hforget.kernel]
  rcases h.fresh b n runs hU howed with howed | hnone | hb
  · by_cases heq : b = tid
    · exact Or.inr (Or.inr (heq ▸ hparted))
    · exact (hforget.others b _ runs heq howed).imp_right Or.inl
  · exact Or.inr (Or.inl (hforget.gone hnone))
  · exact Or.inr (Or.inr hb)

omit [Kernel.Lawful κ] in
theorem starts_refused {pid : Nat} {e : OsError}
    (h : (Kernel.perform (.killThread pid tid .stop) s.kernel).1 = .error e) :
    Starts U s (s.called (.killThread pid tid .stop)) := by
  refine .of_fresh (List.prefix_append _ _) id id fun b n runs _ howed => Or.inl ?_
  have hcredit : (s.called (.killThread pid tid .stop)).kernel.credit b = 0 := by
    refine Minuted.credit_of_none ?_ b
    rw [System.called, Minuted.awaited_perform, h]
    rfl
  rw [hcredit]
  exact owed_of_process rfl howed

omit [Kernel.Lawful κ] in
/-- A stop signal that was sent is counted, and it is on account of the wait for the thread. -/
theorem starts_expectStop {pid : Nat}
    (h : (Kernel.perform (.killThread pid tid .stop) s.kernel).1 = .ok ()) :
    Ends (expectStop tid) (s.called (.killThread pid tid .stop)) fun r s' =>
      r = .ok () ∧ Starts U s s' := by
  let count : Thread → Thread := fun t => { t with expectedStops := t.expectedStops + 1 }
  have hnote : Ends (modifyThread tid count) (s.called (.killThread pid tid .stop)) fun r t =>
      r = .ok () ∧ Carries U (s.called (.killThread pid tid .stop)) t :=
    carries_modifyThread (fun _ => rfl) (fun _ => Nat.le_succ _) fun _ _ => id
  refine (hnote.and (threads_modifyThread count _)).mono ?_
  rintro r t ⟨⟨hr, ht⟩, -, hkernel, hthreads⟩
  refine ⟨hr, .of_fresh (hkernel ▸ List.prefix_append _ _) ht.gone ht.asked
    fun b n runs _ howed => Or.inl ?_⟩
  obtain ⟨u, hu, rfl, hn, hruns⟩ := howed
  have hawaited : t.kernel.awaited = some tid := by
    rw [hkernel, System.called, Minuted.awaited_perform, h]
    rfl
  rw [Minuted.credit, hawaited]
  by_cases heq : u.tid = tid
  · refine ⟨count u, ?_, rfl, ?_, hruns⟩
    · rw [hthreads]
      exact List.mem_map.mpr ⟨u, hu, if_pos heq⟩
    · rw [heq, if_pos rfl]
      exact Nat.succ_le_succ hn
  · refine ⟨u, ?_, rfl, ?_, hruns⟩
    · rw [hthreads]
      exact List.mem_map.mpr ⟨u, hu, if_neg heq⟩
    · rw [if_neg fun h => heq (Option.some.inj h).symm]
      exact hn

/-- A stop signal is sent to a thread, and awaited. -/
theorem starts_stopThread (hU : U tid) (s : System (Minuted κ)) : Ends (stopThread tid) s fun r s' =>
    Starts U s s' ∧ (s'.tracer.process = none ∨ Failing C r (s.since s')) := by
  rcases hp : s.tracer.process with _ | p
  · rw [stopThread, ends_process_bind_none hp]
    refine ⟨⟨StepRelation.refl s, ?_⟩, Or.inl hp⟩
    rintro b n runs - ⟨t, ht, -⟩
    rw [threads_of_gone hp] at ht
    exact absurd ht List.not_mem_nil
  · rw [stopThread, ends_process_bind hp]
    dsimp only
    rw [ends_attempt_bind]
    rcases hkill : (Kernel.perform (.killThread p.pid tid .stop) s.kernel).1 with e | ⟨⟩
    · have hstarts := starts_refused (U := U) hkill
      cases e with
      | noProcess =>
        have hended : .ended tid ∈ s.since (s.called (.killThread p.pid tid .stop)) :=
          mem_since_called hkill rfl
        refine (forgets_threadGone tid none _).mono ?_
        rintro _ u ⟨rfl, hu⟩
        exact ⟨hstarts.forget (Or.inl hended) hu, Or.inr (failing_ok _ _)⟩
      | _ => exact ⟨hstarts, Or.inr fun _ _ => Reason.refused (refused_called hkill rfl rfl)⟩
    · refine (starts_expectStop (U := U) hkill).bind_eq fun t ht => ?_
      refine (deals_awaitStop (C := C) hU t).mono fun r s' h => ⟨ht.trans h.toCarries, ?_⟩
      rw [ht.since_append h.toCarries]
      exact h.reason.imp_right Lasting.before

theorem deals_stopThread (hU : U tid) : Deals U C (stopThread tid : Tracing (Minuted κ) Unit) :=
  fun s => (starts_stopThread hU s).mono fun _ _ h => ⟨h.1.toCarries, h.2⟩

section Many

variable (hU : ∀ tid, U tid)

include hU

theorem deals_stopThreads (tids : List Nat) :
    Deals U C (stopThreads tids : Tracing (Minuted κ) Unit) := by
  induction tids with
  | nil => exact .pure _
  | cons tid rest ih =>
    refine (deals_stopThread (hU tid)).bind fun _ => deals_hasProcess.bind fun present => ?_
    split
    · exact ih
    · exact .pure _

/-- All threads that run are stopped. While one runs, this starts anew. -/
theorem starts_stopAll {p : Process} (hp : s.tracer.process = some p) (hrunning : p.runningThreads ≠ []) :
    Ends stopAll s fun r s' =>
      Starts U s s' ∧ (s'.tracer.process = none ∨ Failing C r (s.since s')) := by
  rw [stopAll, ends_tracer_bind, hp]
  dsimp only
  obtain ⟨tid, rest, heq⟩ := List.exists_cons_of_ne_nil hrunning
  rw [heq]
  refine (starts_stopThread (C := C) (hU tid) s).bind ?_ fun e t h =>
    h.imp_right (Or.imp_right fun h _ _ => h e rfl)
  rintro ⟨⟩ t ⟨ht, -⟩
  have hrest : Deals U C (do
      if ← hasProcess then stopThreads rest : Tracing (Minuted κ) Unit) := by
    refine deals_hasProcess.bind fun present => ?_
    split
    · exact deals_stopThreads hU rest
    · exact .pure _
  refine (hrest t).mono fun r s' h => ⟨ht.trans h.toCarries, ?_⟩
  rw [ht.since_append h.toCarries]
  exact h.reason.imp_right Lasting.before

theorem deals_stopAll : Deals U C (stopAll : Tracing (Minuted κ) Unit) := by
  refine deals_tracer.bind fun t => ?_
  split
  · exact .pure _
  · exact deals_stopThreads hU _

end Many

/-! ### Runs of threads -/

/-- A thread that a stop signal is to come for runs at the end. -/
def Restarts (tid : Nat) (s s' : System (Minuted κ)) : Prop :=
  ∀ n, s.Owed tid (n + s.kernel.credit tid) false →
    s'.Owed tid (n + s'.kernel.credit tid) true ∨ s'.tracer.process = none ∨ Parted tid (s.since s')

omit [Kernel κ] [Kernel.Lawful κ] in
theorem Restarts.after (h : Carries U s t) (ht : t.kernel.mishaps <+: s'.kernel.mishaps)
    (hgone : t.tracer.process = none → s'.tracer.process = none) (h' : Restarts tid t s') :
    Restarts tid s s' := by
  intro n howed
  rw [Tracer.since_append h.minutes ht]
  rcases h.counted howed with howed | hnone | hparted
  · exact (h' n howed).imp_right (Or.imp_right Lasting.before)
  · exact Or.inr (Or.inl (hgone hnone))
  · exact Or.inr (Or.inr (Lasting.after hparted))

omit [Kernel κ] [Kernel.Lawful κ] in
theorem Restarts.before (h : Restarts tid s t) (hminutes : s.kernel.mishaps <+: t.kernel.mishaps)
    (h' : Carries (fun _ => False) t s') : Restarts tid s s' := by
  intro n howed
  rw [Tracer.since_append hminutes h'.minutes]
  rcases h n howed with howed | hnone | hparted
  · exact (h'.owed tid n true (fun _ => id) howed).imp_right (Or.imp_right Lasting.before)
  · exact Or.inr (Or.inl (h'.gone hnone))
  · exact Or.inr (Or.inr (Lasting.after hparted))

omit [Kernel κ] [Kernel.Lawful κ] in
theorem Restarts.of_refused (h : Refused (s.since s')) : Restarts tid s s' :=
  fun _ _ => Or.inr (Or.inr (Or.inr (Or.inr h)))

omit [Kernel.Lawful κ] in
/-- A thread goes on, unless a call is refused. -/
theorem dealt_continueThread (tid : Nat) (s : System (Minuted κ)) : Ends (continueThread tid) s
    fun r s' => Dealt U (Failing C) s r s' ∧ Restarts tid s s' := by
  rw [continueThread, ends_tracer_bind]
  dsimp only
  split
  · refine (carries_takeSignal (U := U)).bind_ok fun signal t ht => ?_
    rw [ends_attempt_bind]
    have hcarries : Carries U s (t.called (.resume tid signal)) :=
      StepRelation.trans ht (carries_called rfl)
    have hnew : s.since (t.called (.resume tid signal))
        = s.since t ++ t.since (t.called (.resume tid signal)) :=
      Tracer.since_append ht.minutes (List.prefix_append _ _)
    rcases hresume : (Kernel.perform (.resume tid signal) t.kernel).1 with e | ⟨⟩
    · cases e with
      | noProcess =>
        have hended : .ended tid ∈ s.since (t.called (.resume tid signal)) := by
          rw [hnew]
          exact List.mem_append_right _ (mem_since_called hresume rfl)
        exact ⟨.ok hcarries _, fun _ _ => Or.inr (Or.inr (Or.inl hended))⟩
      | _ =>
        have hrefused : Refused (s.since (t.called (.resume tid signal))) := by
          rw [hnew]
          exact Lasting.before (refused_called hresume rfl rfl)
        exact ⟨.error hcarries _ (Reason.refused hrefused), .of_refused hrefused⟩
    · let run : Thread → Thread := fun t => { t with running := true }
      have hrun : Ends (modifyThread tid run) (t.called (.resume tid signal)) fun r u =>
          r = .ok () ∧ Carries U (t.called (.resume tid signal)) u :=
        carries_modifyThread (fun _ => rfl) (fun _ => Nat.le_refl _) fun _ _ _ => rfl
      refine (hrun.and (threads_modifyThread run _)).mono ?_
      rintro _ u ⟨⟨rfl, hu⟩, -, hkernel, hthreads⟩
      refine ⟨.ok (StepRelation.trans hcarries hu) _, .after hcarries hu.minutes hu.gone fun n howed => ?_⟩
      obtain ⟨v, hv, hvtid, hn, -⟩ := howed
      refine Or.inl ⟨run v, ?_, hvtid, hkernel ▸ hn, fun _ => rfl⟩
      rw [hthreads]
      exact List.mem_map.mpr ⟨v, hv, if_pos hvtid⟩
  · rename_i hunknown
    refine ⟨.ok (StepRelation.refl s) _, fun n howed => absurd ?_ hunknown⟩
    obtain ⟨v, hv, hvtid, -⟩ := howed
    rcases hp : s.tracer.process with _ | p
    · rw [threads_of_gone hp] at hv
      exact absurd hv List.not_mem_nil
    · rw [threads_of_present hp] at hv
      exact List.find?_isSome.mpr ⟨v, hv, beq_iff_eq.mpr hvtid⟩

omit [Kernel.Lawful κ] in
theorem deals_continueThread : Deals U C (continueThread tid : Tracing (Minuted κ) Unit) :=
  fun s => (dealt_continueThread tid s).mono fun _ _ h => h.1

theorem deals_drainThread (hU : U tid) (count : Nat) :
    Deals U C (drainThread tid count : Tracing (Minuted κ) Unit) := by
  induction count with
  | zero => exact .pure _
  | succ count ih =>
    refine Deals.bind (deals_tracer.bind fun _ => .pure _) fun waiting => ?_
    split
    · exact .pure _
    · exact deals_continueThread.bind fun _ => (deals_awaitStop hU).bind fun _ => ih

/-! ### Steps -/

omit [Reason C] in
theorem dealt_judgeStep (hU : U tid) {status : WaitStatus}
    (h : (Kernel.perform (.wait (some tid)) s.kernel).1 = .ok status) :
    Ends (judgeStep tid status) (s.called (.wait (some tid))) (Dealt U (Judging tid) s) := by
  have hcarries : Carries U s (s.called (.wait (some tid))) := carries_called rfl
  have hdeals : ∀ {β : Type} {m : Tracing (Minuted κ) β} {v : Option (Option Stepped)},
      Deals U Refused m → (∀ new, Judging tid (.ok v) new) → Ends (do
        let _ ← m
        return v) (s.called (.wait (some tid))) (Dealt U (Judging tid) s) := by
    intro β m v hm hv
    have hafter : Ends m (s.called (.wait (some tid))) (Dealt U (Failing Refused) s) :=
      (hm _).mono fun _ _ => .after hcarries
    refine Dealt.bind (D := Judging tid) hafter (fun e new h => h e rfl) fun _ t ht => ?_
    exact ⟨ht.toCarries, Or.inr (hv _)⟩
  rw [judgeStep.eq_def]
  split
  · exact ⟨hcarries, Or.inr True.intro⟩
  · refine (carries_consumeStop (U := U) h).bind_ok fun expected t ht => ?_
    split
    · exact ⟨ht, Or.inr True.intro⟩
    · exact ⟨ht, Or.inr True.intro⟩
  · rename_i signal _ _
    refine ((carries_keepSignal (U := U) signal).mono fun _ _ hk =>
      ⟨hk.1, StepRelation.trans hcarries hk.2⟩).bind_eq fun t ht => ?_
    split
    · exact ⟨ht, Or.inr True.intro⟩
    · exact ⟨ht, Or.inr True.intro⟩
  · split
    · exact hdeals (deals_threadCloned hU) fun _ => True.intro
    · split
      · exact hdeals deals_letExit fun _ => True.intro
      · exact ⟨hcarries, Or.inr True.intro⟩
  · exact dealt_ended h rfl (Or.inl (List.mem_singleton_self _))
  · exact dealt_ended h rfl (Or.inl (List.mem_singleton_self _))
  · exact ⟨hcarries, Or.inr True.intro⟩

omit [Reason C] in
/-- A step that was started is awaited, and started again as `hfrom` says. -/
theorem dealt_stepAwaited (hU : U tid) (count : Nat) (hfrom : ∀ s : System (Minuted κ),
    Ends (stepFrom tid count) s (Dealt U (Stepping tid (Tired tid count)) s)) (s : System (Minuted κ)) :
    Ends (do
      match ← await (some tid) (judgeStep tid) with
      | .ok (some stepped) => return stepped
      | .ok none => stepFrom tid count
      | .error .noChild =>
        threadGone tid none
        return .gone
      | .error e => throw (.waitpid e)) s (Dealt U (Stepping tid (Tired tid count)) s) := by
  refine Dealt.bind (dealt_await (moves_judgeStep tid) (fun _ _ => dealt_judgeStep hU) s)
    (fun e _ h => Or.inl h) fun result t ht => ?_
  rcases result with e | _ | stepped
  · cases e with
    | noChild =>
      have hparted := ht.reason.imp_right fun h : Refused _ => (Or.inr (Or.inr h) : Parted tid _)
      refine (forgets_threadGone tid none t).bind_eq fun u hu => ?_
      refine ⟨ht.toCarries.forget hparted hu, hparted.imp hu.gone fun h => ?_⟩
      show Parted tid (s.since u)
      rwa [since_of_kernel hu.kernel]
    | _ => exact ⟨ht.toCarries, ht.reason.imp_right Or.inl⟩
  · exact (hfrom t).mono fun _ _ => .after ht.toCarries
  · refine ⟨ht.toCarries, ht.reason.imp_right fun h => ?_⟩
    cases stepped with
    | gone => exact h
    | done => exact True.intro
    | signal signal => exact True.intro

omit [Reason C] in
/-- A step that is started again and again fails when a call is refused, or after so many times. -/
theorem dealt_stepFrom (hU : U tid) (count : Nat) : ∀ s : System (Minuted κ),
    Ends (stepFrom tid count) s (Dealt U (Stepping tid (Tired tid count)) s) := by
  induction count with
  | zero => exact fun s => ⟨StepRelation.refl s, Or.inr (Or.inr (Nat.zero_le _))⟩
  | succ count ih =>
    intro s
    refine (carries_takeSignal (U := U)).bind_ok fun signal t ht => ?_
    rw [ends_attempt_bind]
    have hcarries : Carries U t (t.called (.step tid signal)) := carries_called rfl
    refine Ends.mono (P := Dealt U (Stepping tid (Tired tid (count + 1))) t) ?_ fun _ _ => .after ht
    rcases hstep : (Kernel.perform (.step tid signal) t.kernel).1 with e | ⟨⟩
    · cases e with
      | noProcess => exact ⟨hcarries, Or.inr (Or.inl (mem_since_called hstep rfl))⟩
      | _ => exact ⟨hcarries, Or.inr (Or.inl (refused_called hstep rfl rfl))⟩
    · have hnew : t.since (t.called (.step tid signal)) = [.stepped tid] := by
        rw [since_called, hstep]
        rfl
      -- The start that was just noted is one of the `count + 1`.
      refine (dealt_stepAwaited hU count ih (t.called (.step tid signal))).mono fun r s' h => ?_
      refine ⟨StepRelation.trans hcarries h.toCarries, h.reason.imp_right fun hr => ?_⟩
      rw [hcarries.since_append h.toCarries, hnew]
      rcases r with e | _ | _ | _
      · exact hr.imp Lasting.before fun hr => by
          rw [List.singleton_append, List.countP_cons_of_pos (by simp [Mishap.isStepOf])]
          exact Nat.succ_le_succ hr
      · exact True.intro
      · exact True.intro
      · exact Lasting.before hr

omit [Reason C] in
theorem dealt_singleStep (hU : U tid) (s : System (Minuted κ)) :
    Ends (singleStep tid) s (Dealt U (Stepping tid (Tired tid maxSteps)) s) :=
  dealt_stepFrom hU maxSteps s

instance : StepCallRelation (Slows : System (Minuted κ) → System (Minuted κ) → Prop) where
  stepCall _ _ _ := .of_process rfl

omit [Kernel κ] [Kernel.Lawful κ] [Reason C] in
/-- A thread that does not run gives access to memory. -/
theorem ends_memoryThread_of_halted (hhalted : Halted tid s) : Ends memoryThread s fun r s' =>
    s = s' ∧ ∀ e, r = .error e → ∀ n runs, ¬ s.Owed tid n runs := by
  refine ((ends_memoryThread s).and ?_).mono fun r s' (h : _ ∧ _) => ⟨h.1.1, h.2⟩
  by_cases howed : ∃ n runs, s.Owed tid n runs
  · obtain ⟨n, runs, t, ht, htid, -⟩ := howed
    rcases hp : s.tracer.process with _ | p
    · rw [threads_of_gone hp] at ht
      exact absurd ht List.not_mem_nil
    · rw [threads_of_present hp] at ht
      have hstopped : (!t.running) = true := by
        rw [Bool.not_eq_true']
        exact eq_false_of_ne_true fun hrunning =>
          hhalted p hp (Process.mem_runningThreads.mpr ⟨t, ht, hrunning, htid⟩)
      rw [memoryThread, ends_process_bind hp]
      split
      · rintro e ⟨⟩
      · rename_i hnone
        rw [Process.memoryThread?] at hnone
        split at hnone
        · cases hnone
        · exact absurd hstopped (List.find?_eq_none.mp (Option.map_eq_none_iff.mp hnone) t ht)
  · exact fun e _ n runs h => howed ⟨n, runs, h⟩

omit [Kernel.Lawful κ] [Reason C] in
/-- After a step the breakpoint is put in place again. -/
theorem dealt_putBack (pc : UInt64) {stepped : Stepped}
    (h : Dealt U (Stepping tid (Lapse tid)) s (.ok stepped) t) (hhalted : Halted tid t) : Ends (do
      if ← hasProcess then patching .ptrace (Patching.enable (← memoryThread) pc)
      return stepped) t
    (Dealt U (fun r new => s.Owed tid (s.kernel.credit tid) false → Stepping tid (Lapse tid) r new) s) := by
  rw [hasProcess, bind_assoc, ends_tracer_bind, pure_bind]
  split
  · rename_i hsome
    have hpresent : t.tracer.process ≠ none := Option.isSome_iff_ne_none.mp hsome
    refine (ends_memoryThread_of_halted hhalted).bind ?_ ?_
    · rintro access _ ⟨rfl, -⟩
      refine (deals_patching (U := U) _ (Patching.blames_enable access pc) t).bind ?_ ?_
      · rintro ⟨⟩ u hu
        refine ⟨StepRelation.trans h.toCarries hu.toCarries, h.reason.imp hu.gone fun h' _ => ?_⟩
        show Stepping tid (Lapse tid) (.ok stepped) (s.since u)
        rw [h.since_append hu.toCarries]
        exact Lasting.after h'
      · rintro e u hu
        refine .after h.toCarries ⟨hu.toCarries, hu.reason.imp_right fun h' _ => ?_⟩
        exact Or.inr (Or.inl (h' e rfl))
    · rintro e _ ⟨rfl, hunowed⟩
      refine ⟨h.toCarries, Or.inr fun howed => Or.inl ?_⟩
      -- A thread of the process that does not run gives access; without one it was forgotten.
      rw [← Nat.zero_add (s.kernel.credit tid)] at howed
      rcases h.counted howed with howed | hnone | hparted
      · exact absurd howed (hunowed e rfl _ _)
      · exact absurd hnone hpresent
      · exact hparted
  · rename_i hnone
    exact ⟨h.toCarries, Or.inl (Option.not_isSome_iff_eq_none.mp hnone)⟩

omit [Reason C] in
/-- A thread that does not run makes a step, with the breakpoint under it lifted. -/
theorem dealt_stepThread (hU : U tid) (hhalted : Halted tid s) : Ends (stepThread tid) s
    (Dealt U (fun r new => s.Owed tid (s.kernel.credit tid) false → Stepping tid (Lapse tid) r new) s) := by
  have hstep : ∀ t : System (Minuted κ), Ends (singleStep tid) t
      (Dealt U (Stepping tid (Lapse tid)) t) := by
    refine fun t => (dealt_singleStep hU t).mono fun r u h => h.mono fun hr => ?_
    rcases r with e | _ | _ | _
    · exact hr.lapse
    · exact hr
    · exact hr
    · exact hr
  have hpc : Ends (pcOf tid) s fun r t => Dealt U (Failing (Lapse tid)) s r t ∧ Slows s t :=
    (deals_pcOf s).and (moves_pcOf tid s)
  refine hpc.bind ?_ fun e t h => ⟨h.1.toCarries, h.1.reason.imp_right fun h _ => h e rfl⟩
  rintro pc t ⟨ht, hslow⟩
  rw [ends_tracer_bind]
  split
  · have hpatch : ∀ m : Patching (Minuted κ) Unit, Moves Slows (patching .ptrace m) :=
      fun m => moves_patching _ fun _ => Slows.of_process rfl
    refine ((deals_patching (U := U) _ (Patching.blames_disable tid pc) t).and (hpatch _ t)).bind ?_ ?_
    · rintro ⟨⟩ u ⟨hu, hslow'⟩
      have hsu := StepRelation.trans ht.toCarries hu.toCarries
      refine ((hstep u).and (moves_singleStep (R := Slows) tid u)).bind ?_ ?_
      · rintro stepped v ⟨hv, hslow''⟩
        exact dealt_putBack pc (.after hsu hv) (hslow''.halted (hslow'.halted (hslow.halted hhalted)))
      · rintro e v ⟨hv, -⟩
        exact .after hsu (hv.mono fun h _ => h)
    · rintro e u ⟨hu, -⟩
      exact .after ht.toCarries ⟨hu.toCarries, hu.reason.imp_right fun h _ => Or.inr (Or.inl (h e rfl))⟩
  · exact (hstep t).mono fun r u hu => .after ht.toCarries (hu.mono fun h _ => h)

end Tracing

theorem Deals.moves {m : Tracing (Minuted κ) α} (h : Deals U Refused m) : Moves (Carries U) m :=
  fun s => (h s).mono fun _ _ hs => hs.toCarries

section Instances

variable [Kernel κ] [Kernel.Lawful κ]

instance : ConductRelation
    (Carries fun _ => True : System (Minuted κ) → System (Minuted κ) → Prop) where
  input _ _ _ hp := .of_change hp rfl rfl rfl fun _ => id
  continueThread _ := (Tracing.deals_continueThread).moves
  drainThread _ count := (Tracing.deals_drainThread True.intro count).moves
  stopThread _ := (Tracing.deals_stopThread True.intro).moves

instance : SteppingRelation
    (Carries fun _ => True : System (Minuted κ) → System (Minuted κ) → Prop) where
  singleStep _ s := (Tracing.dealt_singleStep True.intro s).mono fun _ _ hs => hs.toCarries

end Instances

end DebugAdapter.Tracer
