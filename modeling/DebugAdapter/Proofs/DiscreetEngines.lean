import DebugAdapter.Proofs.Inquiries
import DebugAdapter.Proofs.TwinRules

/-!
# Engines that keep quiet about their readers

A notifier reads output, and the details of a stop and of an exit. An engine is `Discreet` if nobody
can tell afterwards whether it did: states that differ in what was read are related by `E`, and
related states give the same answers to everything but reads of output. Then two sessions over
related states stay coupled when events are delivered, whichever of their notifiers still write.

A relation serves for an engine that is recorded, and for its journal, if the calls and entries of
notifiers are left out (`OnRecord`, `OnJournal`), so that what a session asks can be compared too.

`E` need not relate every state to itself, so it may also say that there is nothing to read.
-/

namespace DebugAdapter

open Operation

namespace Debuggee

/-- Whether a call reads output. -/
def Call.readsOutput : Call → Bool
  | request _ r => r.readsOutput
  | _ => false

/-- An engine whose answers do not depend on what notifiers read. -/
class Discreet {ε : Type} [DebugEngine ε] (E : ε → ε → Prop) : Prop where
  symm : ∀ {e f : ε}, E e f → E f e
  notifierError : ∀ {e f : ε}, E e f →
    DebugEngine.notifierError e = DebugEngine.notifierError f
  perform : ∀ {e f : ε} (c : Call), c.readsOutput = false → E e f →
    (DebugEngine.perform c e).1 = (DebugEngine.perform c f).1 ∧
      E (DebugEngine.perform c e).2 (DebugEngine.perform c f).2
  /-- What a raw command gives back reads no output either. -/
  inquiry : ∀ {e : ε} {focus : Focus} {line : String} {i : Inquiry CommandOutput},
    (DebugEngine.perform (.rawCommand focus line) e).1 = .ok i →
      i.Asks fun r => r.readsOutput = false
  observe : ∀ {e f : ε} (t : Handle) (q : Query), E e f →
    (DebugEngine.observe t q e).1 = (DebugEngine.observe t q f).1 ∧
      E (DebugEngine.observe t q e).2 (DebugEngine.observe t q f).2
  output : ∀ {e f : ε} (t : Handle) {r : Request}, r.readsOutput = true → E e f →
    E e (DebugEngine.perform (.request t r) f).2
  details : ∀ {e f : ε} (t : Handle) {q : Query}, q.tellsDetails = true → E e f →
    E e (DebugEngine.observe t q f).2

section Agreement

variable {ε : Type} [DebugEngine ε] {E : ε → ε → Prop} [Discreet E]

/-- An inquiry that reads no output comes to the same on both sides. -/
theorem Inquiry.run_discreet {α : Type} {i : Inquiry α}
    (hi : i.Asks fun r => r.readsOutput = false) : ∀ {e f : ε}, E e f →
      (i.run e).1 = (i.run f).1 ∧ E (i.run e).2 (i.run f).2 := by
  induction i with
  | done a =>
    intro e f h
    exact ⟨rfl, h⟩
  | request t r next ih =>
    intro e f h
    obtain ⟨hanswer, hengine⟩ := Discreet.perform (E := E) (.request t r) hi.1 h
    rcases he : DebugEngine.perform (.request t r) e with ⟨answer, e'⟩
    rcases hf : DebugEngine.perform (.request t r) f with ⟨answer₂, f'⟩
    rw [he, hf] at hanswer hengine
    dsimp only at hanswer hengine
    subst hanswer
    rw [Inquiry.run, Inquiry.run, he, hf]
    rcases answer with (err | text) | a
    · exact ih _ (hi.2 _) hengine
    · exact ⟨rfl, hengine⟩
    · exact ih _ (hi.2 _) hengine
  | query t q next ih =>
    intro e f h
    obtain ⟨hanswer, hengine⟩ := Discreet.observe (E := E) t q h
    rcases he : DebugEngine.observe t q e with ⟨answer, e'⟩
    rcases hf : DebugEngine.observe t q f with ⟨answer₂, f'⟩
    rw [he, hf] at hanswer hengine
    dsimp only at hanswer hengine
    subst hanswer
    rw [Inquiry.run, Inquiry.run, he, hf]
    exact ih _ (hi _) hengine

theorem rawOutput_discreet (focus : Focus) (line : String) {e f : ε} (h : E e f) :
    (rawOutput focus line e).1 = (rawOutput focus line f).1 ∧
      E (rawOutput focus line e).2 (rawOutput focus line f).2 := by
  obtain ⟨hanswer, hengine⟩ := Discreet.perform (E := E) (.rawCommand focus line) rfl h
  rcases he : DebugEngine.perform (.rawCommand focus line) e with ⟨answer, e'⟩
  rcases hf : DebugEngine.perform (.rawCommand focus line) f with ⟨answer₂, f'⟩
  rw [he, hf] at hanswer hengine
  dsimp only at hanswer hengine
  subst hanswer
  rw [rawOutput, rawOutput, he, hf]
  cases answer with
  | error fault => exact ⟨rfl, hengine⟩
  | ok i =>
    have hasks : i.Asks fun r => r.readsOutput = false := Discreet.inquiry E (by rw [he])
    obtain ⟨hresult, hafter⟩ := Inquiry.run_discreet hasks hengine
    rcases hi : i.run e' with ⟨result, e''⟩
    rcases hj : i.run f' with ⟨result₂, f''⟩
    rw [hi, hj] at hresult hafter
    dsimp only at hresult hafter ⊢
    subst hresult
    rw [hi, hj]
    cases result with
    | error text => exact ⟨rfl, hafter⟩
    | ok output => exact ⟨rfl, hafter⟩

instance : EnginesAgree E where
  notifierError := Discreet.notifierError
  perform c hc h := by
    refine Discreet.perform c ?_ h
    cases c with
    | request t r => simpa [Call.isPlain, Call.readsOutput] using hc
    | _ => rfl
  rawOutput focus line h := rawOutput_discreet focus line h
  observe t q _ h := Discreet.observe t q h

end Agreement

/-! ### Records and journals -/

/-- The calls of a record without reads of output, last first. -/
def Recorded.essential {ε : Type} (s : Recorded ε) : List Call :=
  s.calls.filter fun c => !c.readsOutput

/-- Related engines with records of the same calls. -/
structure OnRecord {ε : Type} (E : ε → ε → Prop) (s t : Recorded ε) : Prop where
  engine : E s.engine t.engine
  calls : s.essential = t.essential

/-- Whether an entry of a journal may be one of a notifier. -/
def Entry.isReading : Entry → Bool
  | call c _ => c.readsOutput
  | query _ q _ => q.tellsDetails

/-- The entries of a journal without those that may be of a notifier. -/
def Journal.essential {ε : Type} (j : Journal ε) : List Entry :=
  j.entries.filter fun x => !x.isReading

/-- Related engines with journals of the same entries. -/
structure OnJournal {ε : Type} (E : ε → ε → Prop) (j k : Journal ε) : Prop where
  engine : E j.engine k.engine
  entries : j.essential = k.essential

section Lifts

variable {ε : Type} {E : ε → ε → Prop}

theorem OnRecord.append {s t : Recorded ε} (h : OnRecord E s t) {e f : ε} (he : E e f)
    (c : Call) : OnRecord E ⟨e, c :: s.calls⟩ ⟨f, c :: t.calls⟩ := by
  refine ⟨he, ?_⟩
  have hcalls := h.calls
  unfold Recorded.essential at *
  rw [List.filter_cons, List.filter_cons, hcalls]

theorem OnJournal.append {j k : Journal ε} (h : OnJournal E j k) {e f : ε} (he : E e f)
    (x : Entry) : OnJournal E ⟨e, j.entries ++ [x]⟩ ⟨f, k.entries ++ [x]⟩ := by
  refine ⟨he, ?_⟩
  have hentries := h.entries
  unfold Journal.essential at *
  rw [List.filter_append, List.filter_append, hentries]

theorem essential_of_isReading {j : Journal ε} {x : Entry} (hx : x.isReading = true) (e : ε) :
    Journal.essential ⟨e, j.entries ++ [x]⟩ = j.essential := by
  unfold Journal.essential
  rw [List.filter_append, List.filter_cons_of_neg (by simp [hx]), List.filter_nil,
    List.append_nil]

variable [DebugEngine ε] [Discreet E]

instance : Discreet (OnRecord E) where
  symm h := ⟨Discreet.symm h.engine, h.calls.symm⟩
  notifierError h := Discreet.notifierError (E := E) h.engine
  perform c hc h := by
    obtain ⟨hanswer, hengine⟩ := Discreet.perform (E := E) c hc h.engine
    exact ⟨hanswer, h.append hengine c⟩
  inquiry h := Discreet.inquiry E h
  observe t q h := by
    obtain ⟨hanswer, hengine⟩ := Discreet.observe (E := E) t q h.engine
    exact ⟨hanswer, hengine, h.calls⟩
  output {s u} t r hr h := by
    have hessential : Recorded.essential (DebugEngine.perform (.request t r) u).2 =
        u.essential := by
      refine List.filter_cons_of_neg ?_
      rw [Call.readsOutput, hr]
      exact Bool.false_ne_true
    exact ⟨Discreet.output t hr h.engine, h.calls.trans hessential.symm⟩
  details t _ hq h := ⟨Discreet.details t hq h.engine, h.calls⟩

theorem settle_discreet (c : Call) (hc : c.readsOutput = false) {e f : ε} (h : E e f) :
    (c.settle e).1 = (c.settle f).1 ∧ E (c.settle e).2 (c.settle f).2 := by
  cases c with
  | rawCommand focus line =>
    obtain ⟨hanswer, hengine⟩ := rawOutput_discreet focus line h
    exact ⟨congrArg (Except.map Inquiry.done) hanswer, hengine⟩
  | createTarget executable arch => exact Discreet.perform _ hc h
  | complete line position => exact Discreet.perform _ hc h
  | request t r => exact Discreet.perform _ hc h

instance : Discreet (OnJournal E) where
  symm h := ⟨Discreet.symm h.engine, h.entries.symm⟩
  notifierError h := Discreet.notifierError (E := E) h.engine
  perform {j k} c hc h := by
    obtain ⟨hanswer, hengine⟩ := settle_discreet c hc h.engine
    have hafter := h.append hengine (.call c (c.settle k.engine).1)
    rw [← hanswer] at hafter
    refine ⟨hanswer, ?_⟩
    have hk : (DebugEngine.perform c k).2 = ⟨(c.settle k.engine).2,
        k.entries ++ [.call c (c.settle j.engine).1]⟩ := by rw [hanswer]; rfl
    rw [hk]
    exact hafter
  inquiry h := by
    obtain ⟨output, rfl⟩ := Journal.inquiry_done h
    exact trivial
  observe {j k} t q h := by
    obtain ⟨hanswer, hengine⟩ := Discreet.observe (E := E) t q h.engine
    have hafter := h.append hengine (.query t q (DebugEngine.observe t q j.engine).1)
    refine ⟨hanswer, ?_⟩
    have hk : (DebugEngine.observe t q k).2 = ⟨(DebugEngine.observe t q k.engine).2,
        k.entries ++ [.query t q (DebugEngine.observe t q j.engine).1]⟩ := by rw [hanswer]; rfl
    rw [hk]
    exact hafter
  output {j k} t r hr h := by
    have hessential := essential_of_isReading (j := k)
      (x := .call (.request t r) (DebugEngine.perform (.request t r) k.engine).1) hr
      (DebugEngine.perform (.request t r) k.engine).2
    exact ⟨Discreet.output t hr h.engine, h.entries.trans hessential.symm⟩
  details {j k} t q hq h := by
    have hessential := essential_of_isReading (j := k)
      (x := .query t q (DebugEngine.observe t q k.engine).1) hq
      (DebugEngine.observe t q k.engine).2
    exact ⟨Discreet.details t hq h.engine, h.entries.trans hessential.symm⟩

end Lifts

end Debuggee

namespace Session

open Debuggee

variable {ε : Type} [DebugEngine ε] {E : ε → ε → Prop}

/-! ### Notifiers -/

/-- A change that nobody notices to whom the state before was related. -/
def Unnoticed (E : ε → ε → Prop) (e f : ε) : Prop := ∀ x, E x e → E x f

omit [DebugEngine ε] in
instance : StepRelation (Unnoticed E) where
  refl _ _ := id
  trans h h' x hx := h' x (h x hx)

variable [Discreet E]

instance : ReportRelation (Unnoticed E) where
  output t _ _ hr _ h := Discreet.output t hr h
  details t _ _ hq _ h := Discreet.details t hq h

/-- What a notifier does with events goes unnoticed. -/
theorem unnoticed_translateAll (t : Handle) (chunk : Nat) (es : List Event) (c : Channel ε) :
    Unnoticed E c.engine (Channel.translateAll t chunk es c).2.engine :=
  translateAll_moves (V := OnEngine (Unnoticed E)) t
    (fun e _ => translate_engine t chunk e) c

/-- After events were delivered an active session is as before, apart from its outbox, its notifier
and what this one read. -/
theorem deliverEvents_active (s : Session ε) {a : ActiveTarget} (h : s.lifecycle = .active a) :
    ∃ engine outbox n, Unnoticed E (DebugEngine.observe a.target .events s.engine).2 engine ∧
      deliverEvents s =
        { s with engine := engine, outbox := outbox,
                 lifecycle := .active { a with notifying := n } } := by
  rw [deliverEvents, h]
  dsimp only
  split
  · exact ⟨_, _, _, unnoticed_translateAll _ _ _
      ⟨(DebugEngine.observe a.target .events s.engine).2, s.outbox⟩, rfl⟩
  · refine ⟨_, s.outbox, a.notifying, StepRelation.refl _, ?_⟩
    rw [← h]

/-- Events are delivered to one notifier, to the other, to both or to none. -/
instance : Delivers E False where
  deliver {s t} h := by
    rcases h.stages with ⟨hs, ht⟩ | ⟨e, hs, ht⟩ | ⟨a, n, hs, ht⟩
    · rw [deliverEvents, deliverEvents, hs, ht]
      exact h
    · rw [deliverEvents, deliverEvents, hs, ht]
      exact h
    · obtain ⟨e, o, m, he, hdelivered⟩ := deliverEvents_active (E := E) s hs
      obtain ⟨e', o', m', he', hdelivered'⟩ := deliverEvents_active (E := E) t ht
      obtain ⟨-, hevents⟩ := Discreet.observe (E := E) a.target .events h.engine
      have hengine : E e e' := he' e (Discreet.symm (he _ (Discreet.symm hevents)))
      rw [hdelivered, hdelivered']
      exact { h with engine := hengine, lifecycle := rfl, wire := False.elim }

end Session

end DebugAdapter
