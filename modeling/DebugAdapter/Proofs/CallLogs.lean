import DebugAdapter.Proofs.BreakpointRequests
import DebugAdapter.Proofs.Dealings

/-!
# Logs of system calls

A `Logged` kernel keeps every system call that it was asked for, with the answer, in order. `Goes s Q`
is how an operation of a tracer goes that deals with the threads of a process: as long as no call is
refused that is not about memory, and as long as the process is there, the operation succeeds, changes
nothing but what is known of the process, and `Q` says what became of it, with which result and by
which calls. `Goes.bind` puts such operations in sequence, so what a whole run does to the process can
be told call by call.
-/

namespace DebugAdapter

open Debuggee
open Linux
open Operation

/-! ### Logs -/

namespace Linux

/-- A system call with its answer. -/
structure Answered where
  call : SystemCall
  answer : Except OsError call.Answer

/-- The call was not refused, unless it was about memory. -/
def Answered.Smooth (x : Answered) : Prop := x.call.isMemory = true ∨ x.answer.isOk = true

instance (x : Answered) : Decidable x.Smooth := inferInstanceAs (Decidable (_ ∨ _))

theorem Answered.not_smooth {c : SystemCall} (hc : c.isMemory = false) (e : OsError) :
    ¬(⟨c, .error e⟩ : Answered).Smooth := by
  rintro (hmemory | hok)
  · cases hc.symm.trans hmemory
  · cases hok

/-- A kernel with a log of what it was asked. -/
structure Logged (κ : Type) where
  kernel : κ
  log : List Answered

variable {κ : Type} [Kernel κ]

instance : Kernel (Logged κ) where
  perform c k :=
    let (answer, kernel) := Kernel.perform c k.kernel
    (answer, ⟨kernel, k.log ++ [⟨c, answer⟩]⟩)
  file k := Kernel.file k.kernel
  linkTarget? k := Kernel.linkTarget? k.kernel
  process? k := Kernel.process? k.kernel
  lookUp? k := Kernel.lookUp? k.kernel
  outstanding k := Kernel.outstanding k.kernel

instance [Kernel.Lawful κ] : Kernel.Lawful (Logged κ) where
  outstanding_perform_le c k := Kernel.Lawful.outstanding_perform_le c k.kernel
  outstanding_wait_lt tid k := Kernel.Lawful.outstanding_wait_lt tid k.kernel
  outstanding_poll_lt k := Kernel.Lawful.outstanding_poll_lt k.kernel

theorem log_perform (c : SystemCall) (k : Logged κ) :
    (Kernel.perform c k).2.log = k.log ++ [⟨c, (Kernel.perform c k).1⟩] := rfl

end Linux

namespace Tracer

variable {κ : Type} {α β : Type}

/-! ### How operations go -/

/-- No process appears, and the log gets longer. -/
structure Lengthens (s s' : System (Logged κ)) : Prop where
  process : s.tracer.process = none → s'.tracer.process = none
  log : s.kernel.log <+: s'.kernel.log

instance : StepRelation (Lengthens : System (Logged κ) → System (Logged κ) → Prop) where
  refl _ := ⟨id, List.prefix_refl _⟩
  trans h h' := ⟨fun hs => h'.process (h.process hs), h.log.trans h'.log⟩

instance [Kernel κ] : ThreadRelation (Lengthens : System (Logged κ) → System (Logged κ) → Prop) where
  call _ _ _ := ⟨id, List.prefix_append _ _⟩
  tracer _ _ _ hprocess _ := ⟨hprocess, List.prefix_refl _⟩
  exit _ _ hprocess _ _ := ⟨fun _ => hprocess, List.prefix_refl _⟩

/-- The log gets longer while work is done on breakpoints. -/
def Patched.Lengthens (p p' : Patched (Logged κ)) : Prop := p.kernel.log <+: p'.kernel.log

instance : StepRelation (Patched.Lengthens : Patched (Logged κ) → Patched (Logged κ) → Prop) where
  refl _ := List.prefix_refl _
  trans h h' := List.IsPrefix.trans h h'

instance [Kernel κ] :
    PatchRelation (Patched.Lengthens : Patched (Logged κ) → Patched (Logged κ) → Prop) where
  peek _ _ _ := List.prefix_append _ _
  poke _ _ _ _ := List.prefix_append _ _
  table _ _ _ := List.prefix_refl _

theorem Patched.Lengthens.lengthens {s : System (Logged κ)} {p : Patched (Logged κ)}
    (h : Patched.Lengthens (Tracing.breakpointsOf s) p) :
    Tracer.Lengthens s (Tracing.withBreakpoints s p) :=
  ⟨id, h⟩

instance [Kernel κ] : WorkRelation (Lengthens : System (Logged κ) → System (Logged κ) → Prop) where
  enable tid a _ := (Patching.moves_enable tid a _).mono fun _ _ => Patched.Lengthens.lengthens
  disable tid a _ := (Patching.moves_disable tid a _).mono fun _ _ => Patched.Lengthens.lengthens
  work h _ := (h.moves _).mono fun _ _ => Patched.Lengthens.lengthens

instance [Kernel κ] : ReportRelation (Lengthens : System (Logged κ) → System (Logged κ) → Prop) where
  unplan tid a _ := (Patching.moves_removePlanned tid a _).mono fun _ _ => Patched.Lengthens.lengthens

instance [Kernel κ] : QuietRelation (Lengthens : System (Logged κ) → System (Logged κ) → Prop) where
  process _ _ _ hp _ := ⟨(fun hnone => by cases hp.symm.trans hnone), List.prefix_refl _⟩
  exited _ _ _ := ⟨fun _ => rfl, List.prefix_refl _⟩

/-- All went well: the process is still there with its main thread, and no call was refused that is not
about memory. -/
structure Fares (s s' : System (Logged κ)) : Prop where
  survives : ∃ p, s'.tracer.process = some p ∧ p.hasThread p.pid = true
  smooth : ∃ new, s'.kernel.log = s.kernel.log ++ new ∧ ∀ x ∈ new, x.Smooth

/-- What holds of all calls of a run holds of those from a state on the way. -/
theorem forall_since {P : Answered → Prop} {before mid after : List Answered}
    (h : ∃ new, after = before ++ new ∧ ∀ x ∈ new, P x) (hmid : before <+: mid) (hafter : mid <+: after) :
    ∃ new, after = mid ++ new ∧ ∀ x ∈ new, P x := by
  obtain ⟨new, hnew, hP⟩ := h
  obtain ⟨pre, hpre⟩ := hmid
  obtain ⟨more, hmore⟩ := hafter
  refine ⟨more, hmore.symm, fun x hx => hP x ?_⟩
  rw [← hmore, ← hpre, List.append_assoc] at hnew
  rw [← List.append_cancel_left hnew]
  exact List.mem_append_right pre hx

/-- What went well as a whole went well in each part. -/
theorem Fares.after {s t s' : System (Logged κ)} (h : Fares s s')
    (hst : s.kernel.log <+: t.kernel.log) (hts : t.kernel.log <+: s'.kernel.log) : Fares t s' :=
  ⟨h.survives, forall_since h.smooth hst hts⟩

/-- The process is still there, and no call was refused. -/
structure Serves (s s' : System (Logged κ)) : Prop where
  survives : s'.tracer.process ≠ none
  granted : ∃ new, s'.kernel.log = s.kernel.log ++ new ∧ ∀ x ∈ new, x.answer.isOk = true

/-- What was granted as a whole was granted in each part. -/
theorem Serves.split {s t s' : System (Logged κ)} (h : Serves s s')
    (hst : s.kernel.log <+: t.kernel.log) (hts : Lengthens t s') : Serves s t ∧ Serves t s' := by
  refine ⟨⟨fun hgone => h.survives (hts.process hgone), ?_⟩, h.survives,
    forall_since h.granted hst hts.log⟩
  obtain ⟨new, hnew, hok⟩ := h.granted
  obtain ⟨pre, hpre⟩ := hst
  obtain ⟨more, hmore⟩ := hts.log
  rw [← hmore, ← hpre, List.append_assoc] at hnew
  rw [← List.append_cancel_left hnew] at hok
  exact ⟨pre, hpre.symm, (List.forall_mem_append.mp hok).1⟩

/-- An operation is followed by another one. Both are told as far as no call is refused and the process
is there at the end. -/
theorem serves_bind {m : Tracing (Logged κ) α} {f : α → Tracing (Logged κ) β} {s : System (Logged κ)}
    {P : Except DebugError α → System (Logged κ) → Prop}
    {Q : Except DebugError β → System (Logged κ) → Prop}
    (h : Ends m s fun r t => s.kernel.log <+: t.kernel.log ∧ (Serves s t → P r t))
    (hmoves : ∀ a, Moves Lengthens (f a))
    (hok : ∀ a t, P (.ok a) t → Ends (f a) t fun r s' => Serves t s' → Q r s')
    (herr : ∀ e t, P (.error e) t → Q (.error e) t) :
    Ends (m >>= f) s fun r s' => Serves s s' → Q r s' := by
  refine h.bind ?_ fun e t ht hserves => herr e t (ht.2 hserves)
  rintro a t ⟨hst, hP⟩
  by_cases hdone : P (.ok a) t
  · refine ((hok a t hdone).and (hmoves a t)).mono ?_
    rintro r s' ⟨hQ, hts⟩ hserves
    exact hQ (hserves.split hst hts).2
  · exact (hmoves a t).mono fun r s' hts hserves => absurd (hP (hserves.split hst hts).1) hdone

/-- The state of a tracer with another account of its process. -/
def State.withProcess (t : State) (p : Process) : State := { t with process := some p }

@[simp] theorem State.process_withProcess (t : State) (p : Process) :
    (t.withProcess p).process = some p := rfl

@[simp] theorem State.withProcess_withProcess (t : State) (p q : Process) :
    (t.withProcess p).withProcess q = t.withProcess q := rfl

theorem State.withProcess_eq_self {t : State} {p : Process} (h : t.process = some p) :
    t.withProcess p = t := by
  rw [withProcess, ← h]

theorem State.map_process {t : State} {p : Process} (h : t.process = some p) (f : Process → Process) :
    { t with process := t.process.map f } = t.withProcess (f p) := by
  rw [h]
  rfl

/-- How an operation goes that deals with threads. -/
inductive Goes (s : System (Logged κ)) (Q : α → List Answered → Process → Prop) :
    Except DebugError α → System (Logged κ) → Prop
  /-- The process is gone. -/
  | gone {r : Except DebugError α} {s' : System (Logged κ)} (hgone : s'.tracer.process = none)
      (hlog : s.kernel.log <+: s'.kernel.log) : Goes s Q r s'
  /-- A call was refused. -/
  | rough {r : Except DebugError α} {s' : System (Logged κ)} {new : List Answered} {x : Answered}
      (hlog : s'.kernel.log = s.kernel.log ++ new) (hx : x ∈ new) (hrough : ¬x.Smooth) : Goes s Q r s'
  | done {a : α} {s' : System (Logged κ)} {new : List Answered} {p' : Process}
      (hlog : s'.kernel.log = s.kernel.log ++ new)
      (htracer : s'.tracer = s.tracer.withProcess p') (h : Q a new p') :
      Goes s Q (.ok a) s'

theorem Goes.log_grows {s s' : System (Logged κ)} {Q : α → List Answered → Process → Prop}
    {r : Except DebugError α} (h : Goes s Q r s') : s.kernel.log <+: s'.kernel.log := by
  cases h with
  | gone _ hlog => exact hlog
  | rough hlog => exact ⟨_, hlog.symm⟩
  | done hlog => exact ⟨_, hlog.symm⟩

theorem Goes.mono {s s' : System (Logged κ)} {P Q : α → List Answered → Process → Prop}
    {r : Except DebugError α} (h : Goes s P r s') (hPQ : ∀ a new p', P a new p' → Q a new p') :
    Goes s Q r s' := by
  cases h with
  | gone hgone hlog => exact .gone hgone hlog
  | rough hlog hx hrough => exact .rough hlog hx hrough
  | done hlog htracer h => exact .done hlog htracer (hPQ _ _ _ h)

/-- An operation does what is said of it if the process is still there later, and no call was refused
until then that is not about memory. -/
theorem Goes.done_of {s t s' : System (Logged κ)} {Q : α → List Answered → Process → Prop}
    {r : Except DebugError α} (h : Goes s Q r t) (hts : Lengthens t s')
    (hpresent : s'.tracer.process ≠ none)
    (hsmooth : ∃ new, s'.kernel.log = s.kernel.log ++ new ∧ ∀ x ∈ new, x.Smooth) :
    ∃ a new p', r = .ok a ∧ t.kernel.log = s.kernel.log ++ new ∧
      t.tracer = s.tracer.withProcess p' ∧ Q a new p' := by
  cases h with
  | gone hgone => exact absurd (hts.process hgone) hpresent
  | @rough _ _ new x hlog hx hrough =>
    obtain ⟨all, hall, hsmooth⟩ := hsmooth
    obtain ⟨more, hmore⟩ := hts.log
    rw [← hmore, hlog, List.append_assoc] at hall
    refine absurd (hsmooth x ?_) hrough
    rw [← List.append_cancel_left hall]
    exact List.mem_append_left more hx
  | done hlog htracer h => exact ⟨_, _, _, rfl, hlog, htracer, h⟩

theorem Goes.done_of_fares {s t s' : System (Logged κ)} {Q : α → List Answered → Process → Prop}
    {r : Except DebugError α} (h : Goes s Q r t) (hts : Lengthens t s') (hfares : Fares s s') :
    ∃ a new p', r = .ok a ∧ t.kernel.log = s.kernel.log ++ new ∧
      t.tracer = s.tracer.withProcess p' ∧ Q a new p' := by
  refine h.done_of hts ?_ hfares.smooth
  obtain ⟨p, hp, -⟩ := hfares.survives
  rw [hp]
  exact Option.some_ne_none p

theorem Goes.done_of_serves {s t : System (Logged κ)} {Q : α → List Answered → Process → Prop}
    {r : Except DebugError α} (h : Goes s Q r t) (hserves : Serves s t) :
    ∃ a new p', r = .ok a ∧ t.kernel.log = s.kernel.log ++ new ∧
      t.tracer = s.tracer.withProcess p' ∧ Q a new p' := by
  obtain ⟨new, hnew, hok⟩ := hserves.granted
  exact h.done_of (StepRelation.refl t) hserves.survives ⟨new, hnew, fun x hx => Or.inr (hok x hx)⟩

/-- What goes on from a state where an operation has led. -/
theorem Goes.after {s t s' : System (Logged κ)} {pre : List Answered} {p : Process}
    {Q : α → List Answered → Process → Prop} {r : Except DebugError α}
    (hlog : t.kernel.log = s.kernel.log ++ pre)
    (htracer : t.tracer = s.tracer.withProcess p)
    (h : Goes t (fun a new p' => Q a (pre ++ new) p') r s') : Goes s Q r s' := by
  cases h with
  | gone hgone hlog' => exact .gone hgone (.trans ⟨pre, hlog.symm⟩ hlog')
  | rough hlog' hx hrough =>
    refine .rough ?_ (List.mem_append_right pre hx) hrough
    rw [hlog', hlog, List.append_assoc]
  | done hlog' htracer' h =>
    refine .done ?_ ?_ h
    · rw [hlog', hlog, List.append_assoc]
    · rw [htracer', htracer, State.withProcess_withProcess]

/-- Operations in a row: once the process is gone or a call was refused, it does not matter what
follows. -/
theorem Goes.bind_and {m : Tracing (Logged κ) α} {f : α → Tracing (Logged κ) β}
    {s : System (Logged κ)} {P : α → List Answered → Process → Prop} {D : System (Logged κ) → Prop}
    {Q : β → List Answered → Process → Prop} (h : Ends m s fun r t => Goes s P r t ∧ D t)
    (hmoves : ∀ a, Moves Lengthens (f a))
    (hf : ∀ a new p t, P a new p → t.tracer = s.tracer.withProcess p → D t →
      Ends (f a) t (Goes t fun b more p' => Q b (new ++ more) p')) : Ends (m >>= f) s (Goes s Q) := by
  refine h.bind ?_ ?_
  · rintro a t ⟨ht, hD⟩
    cases ht with
    | gone hgone hlog =>
      exact (hmoves a t).mono fun _ _ h => .gone (h.process hgone) (hlog.trans h.log)
    | rough hlog hx hrough =>
      refine (hmoves a t).mono fun r s' h => ?_
      obtain ⟨more, hmore⟩ := h.log
      refine .rough ?_ (List.mem_append_left more hx) hrough
      rw [← hmore, hlog, List.append_assoc]
    | done hlog htracer h => exact (hf _ _ _ t h htracer hD).mono fun _ _ => .after hlog htracer
  · rintro e t ⟨ht, -⟩
    cases ht with
    | gone hgone hlog => exact .gone hgone hlog
    | rough hlog hx hrough => exact .rough hlog hx hrough

theorem Goes.bind {m : Tracing (Logged κ) α} {f : α → Tracing (Logged κ) β} {s : System (Logged κ)}
    {P : α → List Answered → Process → Prop} {Q : β → List Answered → Process → Prop}
    (h : Ends m s (Goes s P)) (hmoves : ∀ a, Moves Lengthens (f a))
    (hf : ∀ a new p t, P a new p → t.tracer = s.tracer.withProcess p →
      Ends (f a) t (Goes t fun b more p' => Q b (new ++ more) p')) : Ends (m >>= f) s (Goes s Q) :=
  Goes.bind_and (D := fun _ => True) (h.mono fun _ _ h => ⟨h, True.intro⟩) hmoves
    fun a new p t hP ht _ => hf a new p t hP ht

theorem Goes.serve_and {m : Tracing (Logged κ) α} {f : α → Tracing (Logged κ) β} {s : System (Logged κ)}
    {P : α → List Answered → Process → Prop} {D : Except DebugError α → System (Logged κ) → Prop}
    {Q : Except DebugError β → System (Logged κ) → Prop} (h : Ends m s fun r t => Goes s P r t ∧ D r t)
    (hmoves : ∀ a, Moves Lengthens (f a))
    (hf : ∀ a new p t, P a new p → t.kernel.log = s.kernel.log ++ new →
      t.tracer = s.tracer.withProcess p → D (.ok a) t →
      Ends (f a) t fun r s' => Serves t s' → Q r s') :
    Ends (m >>= f) s fun r s' => Serves s s' → Q r s' := by
  refine serves_bind (P := fun r t => ∃ a new p, r = .ok a ∧ t.kernel.log = s.kernel.log ++ new ∧
    t.tracer = s.tracer.withProcess p ∧ P a new p ∧ D r t) ?_ hmoves ?_ ?_
  · refine h.mono fun r t ht => ⟨ht.1.log_grows, fun hserves => ?_⟩
    obtain ⟨a, new, p, hr, hlog, htracer, hP⟩ := ht.1.done_of_serves hserves
    exact ⟨a, new, p, hr, hlog, htracer, hP, ht.2⟩
  · rintro a t ⟨_, new, p, ⟨⟩, hlog, htracer, hP, hD⟩
    exact hf a new p t hP hlog htracer hD
  · rintro _ t ⟨_, _, _, hr, -⟩
    cases hr

theorem Goes.serve {m : Tracing (Logged κ) α} {f : α → Tracing (Logged κ) β} {s : System (Logged κ)}
    {P : α → List Answered → Process → Prop} {Q : Except DebugError β → System (Logged κ) → Prop}
    (h : Ends m s (Goes s P)) (hmoves : ∀ a, Moves Lengthens (f a))
    (hf : ∀ a new p t, P a new p → t.kernel.log = s.kernel.log ++ new →
      t.tracer = s.tracer.withProcess p → Ends (f a) t fun r s' => Serves t s' → Q r s') :
    Ends (m >>= f) s fun r s' => Serves s s' → Q r s' :=
  Goes.serve_and (D := fun _ _ => True) (h.mono fun _ _ h => ⟨h, True.intro⟩) hmoves
    fun a new p t hP hlog ht _ => hf a new p t hP hlog ht

namespace Tracing

variable {s : System (Logged κ)} {p : Process}

theorem goes_pure (hp : s.tracer.process = some p) {Q : α → List Answered → Process → Prop} {a : α}
    (h : Q a [] p) : Ends (pure a : Tracing (Logged κ) α) s (Goes s Q) := by
  exact .done (List.append_nil _).symm (State.withProcess_eq_self hp).symm h

theorem goes_modifyProcess (hp : s.tracer.process = some p) (f : Process → Process) :
    Ends (modifyProcess f) s (Goes s fun _ new p' => new = [] ∧ p' = f p) := by
  have htracer : { s.tracer with process := s.tracer.process.map f } = s.tracer.withProcess (f p) := by
    rw [hp]
    rfl
  exact .done (List.append_nil _).symm htracer ⟨rfl, rfl⟩

variable [Kernel κ]

/-- The state after a call. -/
theorem goes_called (hp : s.tracer.process = some p) {c : SystemCall} (hc : c.isMemory = false)
    {Q : α → List Answered → Process → Prop} {r : Except OsError c.Answer → Except DebugError α}
    (h : ∀ a, ∃ b, r (.ok a) = .ok b ∧ Q b [⟨c, .ok a⟩] p) :
    Goes s Q (r (Kernel.perform c s.kernel).1) { s with kernel := (Kernel.perform c s.kernel).2 } := by
  have hlog := log_perform c s.kernel
  rcases hanswer : (Kernel.perform c s.kernel).1 with e | a
  · exact .rough (hlog.trans (by rw [hanswer])) (List.mem_singleton.mpr rfl) (Answered.not_smooth hc e)
  · obtain ⟨b, hb, hQ⟩ := h a
    rw [hb]
    exact .done (hlog.trans (by rw [hanswer])) (State.withProcess_eq_self hp).symm hQ

/-- A call that may fail. -/
theorem goes_attempt (hp : s.tracer.process = some p) {c : SystemCall} (hc : c.isMemory = false) :
    Ends (attempt c) s (Goes s fun r new p' => ∃ a, r = .ok a ∧ new = [⟨c, .ok a⟩] ∧ p' = p) :=
  goes_called (r := .ok) hp hc fun a => ⟨.ok a, rfl, a, rfl, rfl, rfl⟩

/-- A call whose failure is an error. -/
theorem goes_require (hp : s.tracer.process = some p) (error : OsError → DebugError) {c : SystemCall}
    (hc : c.isMemory = false) :
    Ends (require error c) s (Goes s fun a new p' => new = [⟨c, .ok a⟩] ∧ p' = p) := by
  rw [ends_require]
  exact goes_called (r := Except.mapError error) hp hc fun a => ⟨a, rfl, rfl, rfl⟩

/-! ### Waits -/

/-- What a wait for statuses does, by what is made of each: `J` relates a status, what it gives, the
calls that are made for it, and the process before and after. -/
inductive Awaits (who : Option Nat)
    (J : WaitStatus → Option α → List Answered → Process → Process → Prop) :
    Process → List Answered → α → Process → Prop
  | last {p p' : Process} {status : WaitStatus} {a : α} {new : List Answered}
      (h : J status (some a) new p p') : Awaits who J p (⟨.wait who, .ok status⟩ :: new) a p'
  | next {p q p' : Process} {status : WaitStatus} {a : α} {new more : List Answered}
      (h : J status none new p q) (rest : Awaits who J q more a p') :
      Awaits who J p (⟨.wait who, .ok status⟩ :: (new ++ more)) a p'

theorem goes_await [Kernel.Lawful κ] {who : Option Nat}
    {judge : WaitStatus → Tracing (Logged κ) (Option α)}
    {J : WaitStatus → Option α → List Answered → Process → Process → Prop}
    (hlengthens : ∀ status, Moves Lengthens (judge status))
    (hdrains : ∀ status, Moves Drains (judge status))
    (hp : s.tracer.process = some p)
    (hjudge : ∀ status (t : System (Logged κ)) q, t.tracer = s.tracer.withProcess q →
      Ends (judge status) t (Goes t fun v new p' => J status v new q p')) :
    Ends (await who judge) s (Goes s fun r new p' => ∃ a, r = .ok a ∧ Awaits who J p new a p') := by
  -- By induction on the fuel, which stays above what is outstanding, so it never ends the wait.
  have hfrom : ∀ (fuel : Nat) (t : System (Logged κ)) q,
      t.tracer = s.tracer.withProcess q → Kernel.outstanding t.kernel < fuel →
      Ends (awaitFrom who judge fuel) t
        (Goes t fun r new p' => ∃ a, r = .ok a ∧ Awaits who J q new a p') := by
    intro fuel
    induction fuel with
    | zero => exact fun _ _ _ h => absurd h (Nat.not_lt_zero _)
    | succ fuel ih =>
      intro t q ht hfuel
      rw [awaitFrom, ends_attempt_bind]
      have hlog := log_perform (.wait who) t.kernel
      rcases hanswer : (Kernel.perform (.wait who) t.kernel).1 with e | status
      · exact .rough (hlog.trans (by rw [hanswer])) (List.mem_singleton.mpr rfl)
          (Answered.not_smooth rfl e)
      · have hless := Kernel.Lawful.outstanding_wait_lt who t.kernel status hanswer
        let u : System (Logged κ) := { t with kernel := (Kernel.perform (.wait who) t.kernel).2 }
        have hu : u.tracer = s.tracer.withProcess q := ht
        have hulog : u.kernel.log = t.kernel.log ++ [⟨.wait who, .ok status⟩] := by
          rw [← hanswer]
          exact hlog
        have hutracer : u.tracer = t.tracer.withProcess q := by
          show t.tracer = t.tracer.withProcess q
          rw [ht, State.withProcess_withProcess]
        have hstep : Ends (judge status) u fun r v =>
            Goes u (fun v new p' => J status v new q p') r v ∧ Drains u v :=
          (hjudge status u q hu).and (hdrains status u)
        refine Ends.mono (P := Goes u fun r new p' =>
          ∃ a, r = .ok a ∧ Awaits who J q (⟨.wait who, .ok status⟩ :: new) a p') ?_
          fun _ _ h => .after hulog hutracer h
        refine Goes.bind_and hstep (fun verdict => ?_) fun verdict new q' v hJ hv hdrained => ?_
        · cases verdict with
          | some a => exact Moves.pure _
          | none => exact moves_awaitFrom who hlengthens fuel
        · have hv' : v.tracer = s.tracer.withProcess q' := by
            rw [hv, hu, State.withProcess_withProcess]
          have hprocess : v.tracer.process = some q' := by rw [hv, State.process_withProcess]
          cases verdict with
          | some a => exact goes_pure hprocess ⟨a, rfl, by rw [List.append_nil]; exact .last hJ⟩
          | none =>
            have hbound : Kernel.outstanding v.kernel < fuel :=
              Nat.lt_of_le_of_lt hdrained.outstanding
                (Nat.lt_of_lt_of_le hless (Nat.le_of_lt_succ hfuel))
            refine (ih v q' hv' hbound).mono fun r w h => h.mono ?_
            rintro _ more p' ⟨a, rfl, hrest⟩
            exact ⟨a, rfl, .next hJ hrest⟩
  rw [await, ends_get_bind]
  exact hfrom _ s p (State.withProcess_eq_self hp).symm (Nat.lt_succ_self _)

end Tracing

end Tracer

end DebugAdapter
