import DebugAdapter.Proofs.Outgoing
import DebugAdapter.Proofs.QuietCommands

/-!
# Journals of engines

A journal notes what a session asks of an engine, and the answers, in order. It is an engine itself,
and answers as the engine does that it notes; only the inquiry that an engine gives back for a raw
command is run at once, so that it belongs to the answer of the engine and not to what the session
asks. A session does not notice that a journal is kept, so statements about sessions over
`Journal ε` are statements about what sessions ask of an engine with state `ε`.

To attend to a target makes gentle entries, which ask that target only and neither start nor release
a process, and each notification that is written meanwhile is told by one of them (`Tends`).
-/

namespace DebugAdapter

open Operation

namespace Debuggee

open Wire (Notification)

/-! ### Entries
-/

/-- What an engine was asked, with its answer. -/
inductive Entry where
  | call (c : Call) (answer : Except Fault c.Answer)
  | query (t : Handle) (q : Query) (answer : q.Answer)

namespace Entry

/-- The target that was asked; only some calls do not ask one. -/
def target? : Entry → Option Handle
  | call (.request t _) _ => some t
  | call (.rawCommand focus _) _ => focus.target
  | call _ _ => none
  | query t _ _ => some t

/-- The target that was made. -/
def created? : Entry → Option Handle
  | call (.createTarget ..) (.ok t) => some t
  | _ => none

/-- A target was asked to start a process or to take charge of one. -/
def starts (t : Handle) : Entry → Bool
  | call (.request u r) _ => u == t && r.starts
  | _ => false

/-- A target was destroyed. -/
def destroys (t : Handle) : Entry → Bool
  | call (.request u .destroy) _ => u == t
  | _ => false

/-- A target was destroyed, or it let its process go. -/
def releases (t : Handle) : Entry → Bool
  | call (.request u .destroy) _ => u == t
  | call (.request u .detach) (.ok _) => u == t
  | _ => false

/-- The call was answered with a result. -/
def succeeded : Entry → Bool
  | call _ (.ok _) => true
  | call _ (.error _) => false
  | query .. => true

/-- An entry of a session that attends to a target. -/
structure Gentle (t : Handle) (x : Entry) : Prop where
  created : x.created? = none
  target : ∀ u, x.target? = some u → u = t
  starts : ∀ u, x.starts u = false
  releases : ∀ u, x.releases u = false

/-- An entry of a notifier, which takes the events that are due and reads what they are about. -/
inductive Notices (t : Handle) : Entry → Prop
  | events (es : List Event) : Notices t (.query t .events es)
  | details {q : Query} (h : q.tellsDetails = true) (answer : q.Answer) :
      Notices t (.query t q answer)
  | output {r : Request} (h : r.readsOutput = true) (answer : Except Fault r.Answer) :
      Notices t (.call (.request t r) answer)

/-- What a notification tells is from an answer. -/
inductive Tells : Entry → Notification → Prop
  | state {t : Handle} {es : List Event} {s : ProcessState} (exitStatus : Option Int)
      (h : .stateChanged s ∈ es) : Tells (.query t .events es) (.state s exitStatus)
  | detached {t : Handle} {es : List Event} (h : .stateChanged .detached ∈ es) :
      Tells (.query t .events es) .detached
  | loaded {t : Handle} {es : List Event} {ms : List Module} (h : .modulesLoaded ms ∈ es) :
      Tells (.query t .events es) (.moduleLoaded (Session.movedImages ms))
  | unloaded {t : Handle} {es : List Event} {ms : List Module} (h : .modulesUnloaded ms ∈ es) :
      Tells (.query t .events es) (.moduleUnloaded (Session.movedImages ms))
  | stopped {t : Handle} {stop : Option StopInfo} (reason : String) (thread : Nat) (pc : UInt64) :
      Tells (.query t .stopInfo stop) (.stopped reason thread pc)
  | stdout {t : Handle} {limit : Nat} (data : Bytes) :
      Tells (.call (.request t (.readStdout limit)) (.ok data)) (.stdout data)
  | stderr {t : Handle} {limit : Nat} (data : Bytes) :
      Tells (.call (.request t (.readStderr limit)) (.ok data)) (.stderr data)

theorem gentle_query (t : Handle) (q : Query) (answer : q.Answer) :
    Gentle t (.query t q answer) :=
  ⟨rfl, fun _ h => (Option.some.inj h).symm, fun _ => rfl, fun _ => rfl⟩

theorem gentle_request (t : Handle) {r : Request} (hr : r.isGentle = true)
    (answer : Except Fault r.Answer) : Gentle t (.call (.request t r) answer) := by
  refine ⟨rfl, fun _ h => (Option.some.inj h).symm, fun u => ?_, fun u => ?_⟩
  · rw [starts, r.starts_of_isGentle hr, Bool.and_false]
  · cases r with
    | detach => cases hr
    | destroy => cases hr
    | _ => rfl

theorem Notices.gentle {t : Handle} {x : Entry} (h : Notices t x) : Gentle t x := by
  cases h with
  | events es => exact gentle_query t _ _
  | details _ answer => exact gentle_query t _ _
  | @output r hr answer =>
    refine gentle_request t ?_ _
    cases r <;> first | rfl | cases hr

/-- A target that does not let its process go is left as it was. -/
theorem gentle_detach (t : Handle) (f : Fault) : Gentle t (.call (.request t .detach) (.error f)) :=
  ⟨rfl, fun _ h => (Option.some.inj h).symm, fun _ => Bool.and_false _, fun _ => rfl⟩

theorem gentle_rawCommand {t : Handle} {focus : Focus} (h : focus.target = some t) (line : String)
    (answer : Except Fault (Inquiry CommandOutput)) :
    Gentle t (.call (.rawCommand focus line) answer) :=
  ⟨rfl, fun _ hu => Option.some.inj (hu.symm.trans h), fun _ => rfl, fun _ => rfl⟩

theorem gentle_complete (t : Handle) (line : String) (position : Nat)
    (answer : Except Fault (List String)) :
    Gentle t (.call (.complete line position) answer) := by
  refine ⟨rfl, ?_, fun _ => rfl, fun _ => rfl⟩
  rintro u ⟨⟩

theorem destroys_of_gentle {t : Handle} {x : Entry} (h : Gentle t x) (u : Handle) :
    x.destroys u = false := by
  have hreleases := h.releases u
  cases x with
  | query _ _ _ => rfl
  | call c answer =>
    cases c with
    | request v r => cases r <;> first | rfl | exact hreleases
    | _ => rfl

end Entry

/-- Each notification is told by an entry. -/
def Told (xs : List Entry) (ns : List Notification) : Prop := ∀ n ∈ ns, ∃ x ∈ xs, x.Tells n

theorem Told.append {xs ys : List Entry} {ns ms : List Notification} (h : Told xs ns)
    (h' : Told ys ms) : Told (xs ++ ys) (ns ++ ms) := by
  intro n hn
  rcases List.mem_append.mp hn with hn | hn
  · obtain ⟨x, hx, htells⟩ := h n hn
    exact ⟨x, List.mem_append_left ys hx, htells⟩
  · obtain ⟨x, hx, htells⟩ := h' n hn
    exact ⟨x, List.mem_append_right xs hx, htells⟩

theorem told_nil (xs : List Entry) : Told xs [] := by
  intro n hn
  cases hn

/-! ### Journals -/

/-- An engine with what it was asked so far. -/
structure Journal (ε : Type) where
  engine : ε
  entries : List Entry

variable {ε : Type} [DebugEngine ε]

/-- What a raw command comes to: the output of the inquiry that the engine gives back for it. -/
def rawOutput (focus : Focus) (line : String) (e : ε) : Except Fault CommandOutput × ε :=
  match DebugEngine.perform (.rawCommand focus line) e with
  | (.error f, e) => (.error f, e)
  | (.ok i, e) =>
    match i.run e with
    | (.ok output, e) => (.ok output, e)
    | (.error text, e) => (.error (.crash text), e)

/-- Answers a call; an inquiry is run at once. -/
def Call.settle (c : Call) (e : ε) : Except Fault c.Answer × ε :=
  match c with
  | .rawCommand focus line => ((rawOutput focus line e).1.map .done, (rawOutput focus line e).2)
  | c => DebugEngine.perform c e

instance : DebugEngine (Journal ε) where
  capabilities j := DebugEngine.capabilities j.engine
  perform c j :=
    ((c.settle j.engine).1,
      ⟨(c.settle j.engine).2, j.entries ++ [.call c (c.settle j.engine).1]⟩)
  observe t q j :=
    ((DebugEngine.observe t q j.engine).1,
      ⟨(DebugEngine.observe t q j.engine).2,
        j.entries ++ [.query t q (DebugEngine.observe t q j.engine).1]⟩)
  notifierError j := DebugEngine.notifierError j.engine

/-- The journal of an engine that was not asked anything yet. -/
def Journal.blank (e : ε) : Journal ε := ⟨e, []⟩

/-- An inquiry that a journal gives back is over. -/
theorem Journal.inquiry_done {focus : Focus} {line : String} {j : Journal ε}
    {i : Inquiry CommandOutput} (h : (DebugEngine.perform (.rawCommand focus line) j).1 = .ok i) :
    ∃ output, i = .done output := by
  have hsettle : (rawOutput focus line j.engine).1.map .done = .ok i := h
  rcases hraw : (rawOutput focus line j.engine).1 with f | output
  · rw [hraw] at hsettle
    cases hsettle
  · rw [hraw] at hsettle
    cases hsettle
    exact ⟨output, rfl⟩

end Debuggee

namespace Session

open Debuggee
open Wire (Notification)

variable {ε : Type} {c c' c'' : Channel (Journal ε)}

/-! ### What happens between two states -/

/-- Entries were made and notifications were sent. -/
structure Happens (xs : List Entry) (ns : List Notification) (c c' : Channel (Journal ε)) :
    Prop where
  entries : c'.engine.entries = c.engine.entries ++ xs
  outbox : c.outbox.Sent (ns.map Notification.render) c'.outbox

theorem Happens.refl (c : Channel (Journal ε)) : Happens [] [] c c :=
  ⟨(List.append_nil _).symm, .refl _⟩

theorem Happens.append {xs ys : List Entry} {ns ms : List Notification} (h : Happens xs ns c c')
    (h' : Happens ys ms c' c'') : Happens (xs ++ ys) (ns ++ ms) c c'' := by
  refine ⟨?_, ?_⟩
  · rw [h'.entries, h.entries, List.append_assoc]
  · rw [List.map_append]
    exact h.outbox.append h'.outbox

theorem happens_emit (n : Notification) (c : Channel (Journal ε)) :
    Happens [] [n] c (Channel.emit n c).2 := by
  rw [emit_snd]
  exact ⟨(List.append_nil _).symm, Wire.Outbox.sent_send c.outbox n.render⟩

/-- Entries with a property were made, and each notification that was sent is told by one of them,
or by an entry from before. -/
def Passes (P : Entry → Prop) (before : List Entry) (c c' : Channel (Journal ε)) : Prop :=
  ∃ xs ns, Happens xs ns c c' ∧ (∀ x ∈ xs, P x) ∧ Told (before ++ xs) ns

section Passes

variable {P : Entry → Prop} {before : List Entry}

instance : StepRelation (Passes (ε := ε) P before) where
  refl c := ⟨[], [], .refl c, List.forall_mem_nil P, told_nil _⟩
  trans := by
    rintro c c' c'' ⟨xs, ns, h, hP, htold⟩ ⟨ys, ms, h', hP', htold'⟩
    refine ⟨xs ++ ys, ns ++ ms, h.append h', ?_, ?_⟩
    · intro x hx
      rcases List.mem_append.mp hx with hx | hx
      · exact hP x hx
      · exact hP' x hx
    · intro n hn
      rcases List.mem_append.mp hn with hn | hn
      · obtain ⟨x, hx, htells⟩ := htold n hn
        rw [← List.append_assoc]
        exact ⟨x, List.mem_append_left ys hx, htells⟩
      · obtain ⟨x, hx, htells⟩ := htold' n hn
        refine ⟨x, ?_, htells⟩
        rcases List.mem_append.mp hx with hx | hx
        · exact List.mem_append_left _ hx
        · exact List.mem_append_right _ (List.mem_append_right xs hx)

theorem Passes.mono {P' : Entry → Prop} (h : Passes P before c c') (hPP : ∀ x, P x → P' x) :
    Passes P' before c c' := by
  obtain ⟨xs, ns, hxs, hP, htold⟩ := h
  exact ⟨xs, ns, hxs, fun x hx => hPP x (hP x hx), htold⟩

theorem Passes.of_happens {xs : List Entry} (h : Happens xs [] c c') (hP : ∀ x ∈ xs, P x) :
    Passes P before c c' :=
  ⟨xs, [], h, hP, told_nil _⟩

/-- A notification that an earlier entry tells. -/
theorem passes_emit {n : Notification} {x : Entry} (hx : x ∈ before) (h : x.Tells n)
    (c : Channel (Journal ε)) : Passes P before c (Channel.emit n c).2 := by
  refine ⟨[], [n], happens_emit n c, List.forall_mem_nil P, ?_⟩
  intro m hm
  rw [List.mem_singleton.mp hm, List.append_nil]
  exact ⟨x, hx, h⟩

/-- What was made first may tell what follows. -/
theorem Passes.after {x : Entry} (h : Happens [x] [] c c') (hx : P x)
    (h' : Passes P (x :: before) c' c'') : Passes P before c c'' := by
  obtain ⟨ys, ms, hys, hP, htold⟩ := h'
  refine ⟨[x] ++ ys, [] ++ ms, h.append hys, ?_, ?_⟩
  · intro y hy
    rcases List.mem_cons.mp hy with rfl | hy
    · exact hx
    · exact hP y hy
  · intro n hn
    obtain ⟨y, hy, htells⟩ := htold n hn
    refine ⟨y, ?_, htells⟩
    rw [List.singleton_append, List.mem_append, List.mem_cons]
    rcases List.mem_append.mp hy with hy | hy
    · rcases List.mem_cons.mp hy with rfl | hy
      · exact Or.inr (Or.inl rfl)
      · exact Or.inl hy
    · exact Or.inr (Or.inr hy)

end Passes

variable [DebugEngine ε]

theorem happens_perform (call : Call) (c : Channel (Journal ε)) :
    Happens [.call call (DebugEngine.perform call c.engine).1] [] c
      { c with engine := (DebugEngine.perform call c.engine).2 } :=
  ⟨rfl, .refl _⟩

theorem happens_observe (t : Handle) (q : Query) (c : Channel (Journal ε)) :
    Happens [.query t q (DebugEngine.observe t q c.engine).1] [] c
      { c with engine := (DebugEngine.observe t q c.engine).2 } :=
  ⟨rfl, .refl _⟩

/-! ### The notifier -/

section Notifier

variable {t : Handle} {before : List Entry}

theorem passes_details (t : Handle) {q : Query} (hq : q.tellsDetails = true)
    (c : Channel (Journal ε)) : Passes (Entry.Notices t) before c
      { c with engine := (DebugEngine.observe t q c.engine).2 } :=
  .of_happens (happens_observe t q c) (List.forall_mem_singleton.mpr (.details hq _))

/-- Output is told by the requests that read it. -/
theorem passes_emitOutput {read : Request} (hread : read.readsOutput = true)
    {data? : read.Answer → Bytes} {wrap : Bytes → Notification}
    (htells : ∀ answer : read.Answer,
      Entry.Tells (.call (.request t read) (.ok answer)) (wrap (data? answer))) (fuel : Nat) :
    ∀ c : Channel (Journal ε), Passes (Entry.Notices t) before c
      (Channel.emitOutput t read data? wrap fuel c).2 := by
  refine emitOutput_moves t (fun c => ?_) (fun c answer hanswer => ?_) fuel
  · exact .of_happens (happens_perform _ c) (List.forall_mem_singleton.mpr (.output hread _))
  · have hcall := happens_perform (.request t read) c
    rw [hanswer] at hcall
    exact .after hcall (.output hread _) (passes_emit List.mem_cons_self (htells answer) _)

/-- An event that the target has reported. -/
theorem passes_translate {es : List Event} (hes : .query t .events es ∈ before) (chunk : Nat)
    {e : Event} (he : e ∈ es) (c : Channel (Journal ε)) :
    Passes (Entry.Notices t) before c (Channel.translate t chunk e c).2 := by
  cases e with
  | stateChanged p =>
    refine emitState_moves ⟨passes_details t rfl, ?_, fun _ c => ?_, ?_⟩ c
    · exact fun status c => passes_emit hes (.state status he) c
    -- The details of a stop are asked for after the event, so the answer to this query tells it.
    · obtain ⟨reason, thread, pc, hstop⟩ :=
        stoppedNotification_eq (DebugEngine.observe t .stopInfo c.engine).1
      rw [hstop]
      exact .after (happens_observe t .stopInfo c) (.details rfl _)
        (passes_emit List.mem_cons_self (.stopped reason thread pc) _)
    · rintro rfl c
      exact passes_emit hes (.detached he) c
  | stdout => exact passes_emitOutput rfl (fun data => .stdout data) _ c
  | stderr => exact passes_emitOutput rfl (fun data => .stderr data) _ c
  | modulesLoaded ms => exact passes_emit hes (.loaded he) c
  | modulesUnloaded ms => exact passes_emit hes (.unloaded he) c

/-- The events of a target are taken and handed to its notifier. -/
theorem passes_events (t : Handle) (chunk : Nat) (c : Channel (Journal ε)) :
    Passes (Entry.Notices t) before c
      (Channel.translateAll t chunk (DebugEngine.observe t .events c.engine).1
        { c with engine := (DebugEngine.observe t .events c.engine).2 }).2 :=
  .after (happens_observe t .events c) (.events _)
    (translateAll_moves t (fun _ he => passes_translate List.mem_cons_self chunk he) _)

end Notifier

/-! ### Attending to a target -/

/-- To attend to a target makes gentle entries, and what is written is told by them. -/
def Tends (t : Handle) : Channel (Journal ε) → Channel (Journal ε) → Prop :=
  Passes (Entry.Gentle t) []

theorem tends_look (t : Handle) (q : Query) (c : Channel (Journal ε)) :
    Tends t c { c with engine := (DebugEngine.observe t q c.engine).2 } :=
  .of_happens (happens_observe t q c) (List.forall_mem_singleton.mpr (Entry.gentle_query t q _))

theorem tends_perform {t : Handle} {call : Call} (c : Channel (Journal ε))
    (h : Entry.Gentle t (.call call (DebugEngine.perform call c.engine).1)) :
    Tends t c { c with engine := (DebugEngine.perform call c.engine).2 } :=
  .of_happens (happens_perform call c) (List.forall_mem_singleton.mpr h)

instance : Attendance (Tends (ε := ε)) where
  steps _ := inferInstanceAs (StepRelation (Passes _ _))
  request t _ c hr := tends_perform c (Entry.gentle_request t hr _)
  look := tends_look
  complete t line position c := tends_perform c (Entry.gentle_complete t line position _)
  rawCommand _ _ line c h := tends_perform c (Entry.gentle_rawCommand h line _)
  inquiry t focus line j i _ hi c := by
    obtain ⟨output, rfl⟩ := Journal.inquiry_done hi
    exact StepRelation.refl (R := Passes _ _) c
  report t reason thread pc c :=
    .after (happens_observe t .stopInfo c) (Entry.gentle_query t _ _)
      (passes_emit List.mem_cons_self (.stopped reason thread pc) _)
  events t chunk c := (passes_events t chunk c).mono fun _ => Entry.Notices.gentle

end Session

end DebugAdapter
