import Mathlib.Data.List.Forall2
import Mathlib.Logic.Function.Iterate
import DebugAdapter.Proofs.Renditions
import DebugAdapter.Engine.Scripted

/-!
# The thread of a notifier

A notifier works in a thread of its own. It takes events from a queue and translates each; when it is
asked to stop it takes what is still in the queue and ends. Meanwhile the target sends further events,
changes, or is given up, and the request to stop may come at any time. `NotifierThread.turn` is a step
of the thread, `Run` is any interleaving of such steps with those of the others, and `Record` keeps
what was sent and translated.

The invariant (`Faithful`) is that the events are translated in the order in which they were sent, none
left out, and that the outbox is what sending their renditions up to the first failure leaves
(`faithful_of_run`, by one lemma for each step). The turns that a thread takes after it was asked to
stop are counted by `left`.

Main statement: `notes_follow_events`.
-/

namespace DebugAdapter.Session

open Debuggee
open Wire (Notification Outbox)

/-- Where the thread of a notifier stands. -/
inductive ThreadPhase where
  /-- About to see whether it is to stop. -/
  | checking
  /-- Waiting a while for an event. -/
  | waiting
  /-- Taking the events that are still there. -/
  | draining
  | ended
  deriving DecidableEq

/-- The thread of a notifier with its queue of events. -/
structure NotifierThread (ε : Type) where
  channel : Channel ε
  queue : List Event
  /-- No event will come any more. -/
  closed : Bool
  /-- The thread was asked to stop. -/
  stopping : Bool
  phase : ThreadPhase

/-- What the others know of a notifier. -/
structure Record (ε : Type) where
  /-- The events that were sent. -/
  sent : List Event
  /-- The events that were translated, each with the engine as it was then. -/
  handled : List (Event × ε)
  /-- How many events were sent when the notifier was asked to stop. -/
  due : Option Nat

variable {ε : Type}

namespace NotifierThread

/-- The event that the thread translates in its next turn. -/
def next? (w : NotifierThread ε) : Option Event :=
  match w.phase with
  | .waiting | .draining => w.queue.head?
  | .checking | .ended => none

variable [DebugEngine ε] (t : Handle) (chunk : Nat)

/-- Translates an event and goes on, unless a message could not be written. -/
def handle (w : NotifierThread ε) (event : Event) (rest : List Event) (next : ThreadPhase) :
    NotifierThread ε :=
  let (alive, channel) := Channel.translate t chunk event w.channel
  { w with channel, queue := rest, phase := if alive then next else .ended }

/-- A step of the thread. -/
def turn (w : NotifierThread ε) : NotifierThread ε :=
  match w.phase, w.queue with
  | .checking, _ => { w with phase := if w.stopping then .draining else .waiting }
  | .waiting, [] => { w with phase := if w.closed then .ended else .checking }
  | .waiting, event :: rest => w.handle t chunk event rest .checking
  | .draining, [] => { w with phase := .ended }
  | .draining, event :: rest => w.handle t chunk event rest .draining
  | .ended, _ => w

end NotifierThread

namespace Record

/-- The record of a turn. -/
def after (H : Record ε) (w : NotifierThread ε) : Record ε :=
  { H with handled := H.handled ++ w.next?.toList.map fun event => (event, w.channel.engine) }

variable [DebugEngine ε] (t : Handle) (chunk : Nat)

/-- The renditions of the events that were translated. -/
def renditions (H : Record ε) : List (Rendition ε) :=
  H.handled.map fun x => rendition t chunk x.1 x.2

/-- The notifications of these events, event by event. -/
def groups (H : Record ε) : List (List Notification) :=
  (H.renditions t chunk).map Rendition.notes

/-- All these notifications in their order. -/
def notes (H : Record ε) : List Notification :=
  (H.groups t chunk).flatten

/-- The engine answered all that it was asked for these events. -/
def Intact (H : Record ε) : Prop :=
  ∀ r ∈ H.renditions t chunk, r.intact = true

end Record

/-- Any interleaving of the turns of a notifier with what others do. -/
inductive ThreadRun [DebugEngine ε] (t : Handle) (chunk : Nat) (o : Outbox) :
    Record ε → NotifierThread ε → Prop
  | start (engine : ε) :
      ThreadRun t chunk o ⟨[], [], none⟩ ⟨⟨engine, o⟩, [], false, false, .checking⟩
  | turn {H : Record ε} {w : NotifierThread ε} (h : ThreadRun t chunk o H w) :
      ThreadRun t chunk o (H.after w) (w.turn t chunk)
  | send {H : Record ε} {w : NotifierThread ε} (h : ThreadRun t chunk o H w)
      (hopen : w.closed = false) (event : Event) :
      ThreadRun t chunk o { H with sent := H.sent ++ [event] }
        { w with queue := w.queue ++ [event] }
  | close {H : Record ε} {w : NotifierThread ε} (h : ThreadRun t chunk o H w) :
      ThreadRun t chunk o H { w with closed := true }
  | stop {H : Record ε} {w : NotifierThread ε} (h : ThreadRun t chunk o H w) :
      ThreadRun t chunk o { H with due := some (H.due.getD H.sent.length) }
        { w with stopping := true }
  | engine {H : Record ε} {w : NotifierThread ε} (h : ThreadRun t chunk o H w) (engine : ε) :
      ThreadRun t chunk o H { w with channel := { w.channel with engine } }

/-! ### What a run keeps -/

section Faithful

variable [DebugEngine ε] {t : Handle} {chunk : Nat} {o : Outbox}

/-- Nothing went wrong so far: all notifications were written, and the engine answered. -/
def Record.Healthy (H : Record ε) (t : Handle) (chunk : Nat) (o : Outbox) : Prop :=
  (o.sendUntil (H.notes t chunk)).1 = true ∧ H.Intact t chunk

/-- What holds of a notifier all the time. -/
structure Faithful (t : Handle) (chunk : Nat) (o : Outbox) (H : Record ε) (w : NotifierThread ε) :
    Prop where
  order : H.sent = H.handled.map Prod.fst ++ w.queue
  outbox : w.channel.outbox = (o.sendUntil (H.notes t chunk)).2
  healthy : w.phase ≠ .ended → H.Healthy t chunk o
  asked : w.stopping = H.due.isSome
  due : ∀ n, H.due = some n → n ≤ H.sent.length
  draining : w.phase = .draining → w.stopping = true
  drained : w.phase = .ended → H.Healthy t chunk o →
    (w.closed = true ∧ w.queue = []) ∨
      (w.stopping = true ∧ ∀ n, H.due = some n → n ≤ H.handled.length)

theorem faithful_start (engine : ε) :
    Faithful t chunk o (⟨[], [], none⟩ : Record ε)
      ⟨⟨engine, o⟩, [], false, false, .checking⟩ where
  order := rfl
  outbox := rfl
  healthy _ := ⟨rfl, List.forall_mem_nil _⟩
  asked := rfl
  due := nofun
  draining := nofun
  drained := nofun

variable {H : Record ε} {w : NotifierThread ε}

/-- An event is sent. -/
theorem Faithful.send (h : Faithful t chunk o H w) (hopen : w.closed = false) (event : Event) :
    Faithful t chunk o { H with sent := H.sent ++ [event] }
      { w with queue := w.queue ++ [event] } where
  order := by
    rw [h.order, List.append_assoc]
  outbox := h.outbox
  healthy := h.healthy
  asked := h.asked
  due n hn := by
    rw [List.length_append]
    exact Nat.le_add_right_of_le (h.due n hn)
  draining := h.draining
  drained hover hhealthy := by
    rcases h.drained hover hhealthy with ⟨hclosed, -⟩ | hstopped
    · rw [hopen] at hclosed
      cases hclosed
    · exact Or.inr hstopped

theorem Faithful.close (h : Faithful t chunk o H w) :
    Faithful t chunk o H { w with closed := true } where
  order := h.order
  outbox := h.outbox
  healthy := h.healthy
  asked := h.asked
  due := h.due
  draining := h.draining
  drained hover hhealthy := (h.drained hover hhealthy).imp (fun hclosed => ⟨rfl, hclosed.2⟩) id

/-- A notifier whose queue was closed has nothing left to do when it is asked to stop later. -/
theorem Faithful.stop (h : Faithful t chunk o H w) :
    Faithful t chunk o { H with due := some (H.due.getD H.sent.length) }
      { w with stopping := true } where
  order := h.order
  outbox := h.outbox
  healthy := h.healthy
  asked := rfl
  due n hn := by
    cases hn
    cases hdue : H.due with
    | none => exact Nat.le_refl _
    | some n => exact h.due n hdue
  draining _ := rfl
  drained hover hhealthy := by
    refine (h.drained hover hhealthy).imp id fun ⟨hstopping, hdue⟩ => ⟨rfl, fun n hn => ?_⟩
    obtain ⟨m, hm⟩ := Option.isSome_iff_exists.mp (h.asked.symm.trans hstopping)
    have hsame : H.due.getD H.sent.length = n := Option.some.inj hn
    rw [hm, Option.getD_some] at hsame
    exact hsame ▸ hdue m hm

theorem Faithful.engine (h : Faithful t chunk o H w) (engine : ε) :
    Faithful t chunk o H { w with channel := { w.channel with engine } } :=
  ⟨h.order, h.outbox, h.healthy, h.asked, h.due, h.draining, h.drained⟩

/-- An event was translated, with the engine as it was. -/
def Record.translated (H : Record ε) (event : Event) (engine : ε) : Record ε :=
  { H with handled := H.handled ++ [(event, engine)] }

theorem notes_translated (event : Event) (engine : ε) :
    (H.translated event engine).notes t chunk =
      H.notes t chunk ++ (rendition t chunk event engine).notes := by
  simp [Record.translated, Record.notes, Record.groups, Record.renditions]

theorem intact_translated (event : Event) (engine : ε) :
    (H.translated event engine).Intact t chunk ↔
      H.Intact t chunk ∧ (rendition t chunk event engine).intact = true := by
  simp [Record.translated, Record.Intact, Record.renditions, or_imp, forall_and]

omit [DebugEngine ε] in
/-- Nothing is translated in a turn without an event. -/
theorem after_of_none (h : w.next? = none) : H.after w = H := by
  rw [Record.after, h]
  exact congrArg (fun xs => { H with handled := xs }) (List.append_nil _)

/-- An event is translated while all is well: its rendition follows those of the others. -/
theorem Faithful.handle (h : Faithful t chunk o H w) (hphase : w.phase ≠ .ended) {event : Event}
    {rest : List Event} (hqueue : w.queue = event :: rest) {next : ThreadPhase}
    (hnext : next ≠ .ended) (hdraining : next = .draining → w.stopping = true) :
    Faithful t chunk o (H.translated event w.channel.engine)
      (w.handle t chunk event rest next) := by
  obtain ⟨hsent, hintact⟩ := h.healthy hphase
  have hperforms := translate_eq (t := t) chunk event w.channel
  have hall : o.sendUntil ((H.translated event w.channel.engine).notes t chunk) =
      w.channel.outbox.sendUntil (rendition t chunk event w.channel.engine).notes := by
    rw [notes_translated, Outbox.sendUntil_append, if_pos hsent, h.outbox]
  have halive : (Channel.translate t chunk event w.channel).1 = true ↔
      (H.translated event w.channel.engine).Healthy t chunk o := by
    rw [hperforms.alive, Bool.and_eq_true, Record.Healthy, hall, intact_translated]
    exact and_congr_right fun _ => (and_iff_right hintact).symm
  have hgoes : (w.handle t chunk event rest next).phase =
      if (Channel.translate t chunk event w.channel).1 then next else .ended := rfl
  exact
    { order := by
        rw [Record.translated, h.order, hqueue, List.map_append, List.append_assoc]
        rfl
      outbox := hperforms.outbox.trans (congrArg Prod.snd hall).symm
      healthy := fun hover => halive.mp (by
        by_contra hdead
        rw [hgoes, if_neg hdead] at hover
        exact hover rfl)
      asked := h.asked
      due := h.due
      draining := fun hdrains => hdraining (by
        rw [hgoes] at hdrains
        split at hdrains
        · exact hdrains
        · cases hdrains)
      drained := fun hover hhealthy => by
        rw [hgoes, if_pos (halive.mpr hhealthy)] at hover
        exact absurd hover hnext }

/-- The thread only goes from one loop to the other, or ends with an empty queue. -/
theorem Faithful.goes (h : Faithful t chunk o H w) (hphase : w.phase ≠ .ended) {phase : ThreadPhase}
    (hdraining : phase = .draining → w.stopping = true)
    (hover : phase = .ended → w.queue = [] ∧ (w.closed = true ∨ w.stopping = true)) :
    Faithful t chunk o H { w with phase } where
  order := h.order
  outbox := h.outbox
  healthy _ := h.healthy hphase
  asked := h.asked
  due := h.due
  draining := hdraining
  drained hends _ := by
    obtain ⟨hqueue, hreason⟩ := hover hends
    refine hreason.imp (fun hclosed => ⟨hclosed, hqueue⟩) fun hstopping => ⟨hstopping, fun n hn => ?_⟩
    have hsent := h.due n hn
    rwa [h.order, hqueue, List.append_nil, List.length_map] at hsent

theorem Faithful.turn (h : Faithful t chunk o H w) :
    Faithful t chunk o (H.after w) (w.turn t chunk) := by
  obtain ⟨channel, queue, closed, stopping, phase⟩ := w
  cases phase with
  | checking =>
    rw [after_of_none rfl]
    refine h.goes nofun (fun hdrains => ?_) fun hover => ?_
    · cases stopping with
      | true => rfl
      | false => cases hdrains
    · cases stopping <;> cases hover
  | waiting =>
    cases queue with
    | nil =>
      rw [after_of_none rfl]
      refine h.goes nofun (fun hdrains => ?_) fun hover => ⟨rfl, ?_⟩
      · cases closed <;> cases hdrains
      · cases closed with
        | true => exact Or.inl rfl
        | false => cases hover
    | cons event rest => exact h.handle nofun rfl nofun nofun
  | draining =>
    have hstopping := h.draining rfl
    cases queue with
    | nil =>
      rw [after_of_none rfl]
      exact h.goes nofun nofun fun _ => ⟨rfl, Or.inr hstopping⟩
    | cons event rest => exact h.handle nofun rfl nofun fun _ => hstopping
  | ended =>
    rw [after_of_none rfl]
    exact h

/-- A thread that has ended while all is well has translated all that was due, or all. -/
theorem Faithful.finished (h : Faithful t chunk o H w) (hover : w.phase = .ended)
    (hhealthy : H.Healthy t chunk o) :
    (∀ n, H.due = some n → n ≤ H.handled.length) ∧ (H.due = none → w.queue = []) := by
  rcases h.drained hover hhealthy with ⟨-, hqueue⟩ | ⟨hstopping, hdue⟩
  · refine ⟨fun n hn => ?_, fun _ => hqueue⟩
    have hsent := h.due n hn
    rwa [h.order, hqueue, List.append_nil, List.length_map] at hsent
  · refine ⟨hdue, fun hnone => ?_⟩
    rw [h.asked, hnone] at hstopping
    cases hstopping

theorem faithful_of_run (h : ThreadRun t chunk o H w) : Faithful t chunk o H w := by
  induction h with
  | start engine => exact faithful_start engine
  | turn _ ih => exact ih.turn
  | send _ hopen event ih => exact ih.send hopen event
  | close _ ih => exact ih.close
  | stop _ ih => exact ih.stop
  | engine _ engine ih => exact ih.engine engine

end Faithful

/-! ### The end of a thread -/

section End

variable [DebugEngine ε] {t : Handle} {chunk : Nat}

/-- The most turns that a thread still takes once it was asked to stop. -/
def NotifierThread.left (w : NotifierThread ε) : Nat :=
  match w.phase with
  | .ended => 0
  | .draining => w.queue.length + 1
  | .checking => w.queue.length + 2
  | .waiting => w.queue.length + 3

theorem left_handle (w : NotifierThread ε) (event : Event) (rest : List Event) :
    (w.handle t chunk event rest .checking).left ≤ rest.length + 2 ∧
      (w.handle t chunk event rest .draining).left ≤ rest.length + 1 := by
  rw [NotifierThread.handle, NotifierThread.handle]
  rcases Channel.translate t chunk event w.channel with ⟨_ | _, channel⟩
  · exact ⟨Nat.zero_le _, Nat.zero_le _⟩
  · exact ⟨Nat.le_refl _, Nat.le_refl _⟩

theorem turn_of_stopping (t : Handle) (chunk : Nat) {w : NotifierThread ε} (h : w.stopping = true) :
    (w.turn t chunk).stopping = true ∧ (w.turn t chunk).left ≤ w.left - 1 := by
  obtain ⟨channel, queue, closed, stopping, phase⟩ := w
  cases h
  cases phase with
  | checking => exact ⟨rfl, Nat.le_refl _⟩
  | waiting =>
    cases queue with
    | nil =>
      refine ⟨rfl, ?_⟩
      cases closed with
      | true => exact Nat.zero_le _
      | false => exact Nat.le_refl _
    | cons event rest =>
      refine ⟨rfl, (left_handle _ event rest).1.trans ?_⟩
      exact Nat.le_succ _
  | draining =>
    cases queue with
    | nil => exact ⟨rfl, Nat.zero_le _⟩
    | cons event rest => exact ⟨rfl, (left_handle _ event rest).2⟩
  | ended => exact ⟨rfl, Nat.le_refl _⟩

/-- A thread that was asked to stop ends by itself. -/
theorem ends_of_stopping {w : NotifierThread ε} (h : w.stopping = true) {n : Nat} (hn : w.left ≤ n) :
    ((NotifierThread.turn t chunk)^[n] w).phase = .ended := by
  induction n generalizing w with
  | zero =>
    obtain ⟨channel, queue, closed, stopping, phase⟩ := w
    cases phase with
    | ended => rfl
    | _ => exact absurd hn (by simp [NotifierThread.left])
  | succ n ih =>
    obtain ⟨hstopping, hleft⟩ := turn_of_stopping t chunk h
    rw [Function.iterate_succ_apply]
    exact ih hstopping (by omega)

end End

/-- What a thread does with the events in its queue is what a session does that delivers them. -/
theorem channel_draining [DebugEngine ε] {t : Handle} {chunk : Nat} {w : NotifierThread ε}
    (hphase : w.phase = .draining) :
    ((NotifierThread.turn t chunk)^[w.queue.length] w).channel =
      (Channel.translateAll t chunk w.queue w.channel).2 := by
  obtain ⟨channel, queue, closed, stopping, phase⟩ := w
  cases hphase
  induction queue generalizing channel with
  | nil => rfl
  | cons event rest ih =>
    rw [List.length_cons, Function.iterate_succ_apply, Channel.translateAll]
    simp only [NotifierThread.turn, NotifierThread.handle]
    rcases Channel.translate t chunk event channel with ⟨_ | _, channel'⟩
    · exact congrArg NotifierThread.channel (Function.iterate_fixed rfl rest.length)
    · exact ih channel'

/-- **Notifications follow the events.** At any time of any run of a notifier over any engine, the
events were translated in the order in which they were sent; each gave the notifications of its kind,
none with a status; and what was written is these notifications in their order, up to the first that
failed. A notifier whose thread has ended while all is well has translated every event that was sent
before it was asked to stop, and if it was not asked to, every event; and one that is asked to stop
does come to its end. -/
theorem notes_follow_events [DebugEngine ε] {t : Handle} {chunk : Nat} {o : Outbox} {H : Record ε}
    {w : NotifierThread ε} (h : ThreadRun t chunk o H w) :
    H.sent = H.handled.map Prod.fst ++ w.queue ∧
    List.Forall₂ (fun x ns => Renders x.1 ns) H.handled (H.groups t chunk) ∧
    (∀ n ∈ H.notes t chunk,
      ∃ members, n.document = .obj members ∧ Json.lookup "status" members = none) ∧
    (∃ healthy, Outbox.Written o (H.notes t chunk) (healthy, w.channel.outbox) ∧
      (w.phase ≠ .ended → healthy = true) ∧
      (w.phase = .ended → healthy = true → H.Intact t chunk →
        (∀ n, H.due = some n → n ≤ H.handled.length) ∧ (H.due = none → w.queue = []))) ∧
    (w.stopping = true → ∀ n, w.queue.length + 3 ≤ n →
      ((NotifierThread.turn t chunk)^[n] w).phase = .ended) := by
  have hfaithful := faithful_of_run h
  refine ⟨hfaithful.order, ?groups, fun n _ => document_status n, ?written, ?ends⟩
  case groups =>
    rw [Record.groups, Record.renditions, List.map_map, List.forall₂_map_right_iff,
      List.forall₂_same]
    exact fun x _ => renders_rendition t chunk x.1 x.2
  case written =>
    refine ⟨(o.sendUntil (H.notes t chunk)).1, ?_, fun hphase => (hfaithful.healthy hphase).1, ?_⟩
    · rw [hfaithful.outbox]
      exact Outbox.sendUntil_written o _
    · intro hover hsent hintact
      exact hfaithful.finished hover ⟨hsent, hintact⟩
  case ends =>
    intro hstopping n hn
    refine ends_of_stopping hstopping (Nat.le_trans ?_ hn)
    rw [NotifierThread.left]
    split <;> omega

/-- A target whose process has exited. -/
def exitedEngine : Engine.Scripted.Engine where
  capabilities := ⟨false, false, false⟩
  scripts := []
  targets := [⟨false, [], [.exited], none, some 7, none, [], [], []⟩]

/-- A notifier that is asked to stop while an event waits translates it and then ends. -/
theorem notes_follow_events_exited :
    ∃ (H : Record Engine.Scripted.Engine) (w : NotifierThread Engine.Scripted.Engine),
      ThreadRun 0 256 ⟨.line, .unlimited, none⟩ H w ∧ w.phase = .ended ∧ H.due = some 1 ∧
      H.notes 0 256 = [.state .exited (some 7)] ∧
      H.sent = H.handled.map Prod.fst ++ w.queue ∧
      ∃ healthy, Outbox.Written ⟨.line, .unlimited, none⟩ (H.notes 0 256)
        (healthy, w.channel.outbox) := by
  have hstart : ThreadRun 0 256 ⟨.line, .unlimited, none⟩ _ _ := .start exitedEngine
  have hasked := (hstart.send rfl (.stateChanged .exited)).stop
  have hrun := hasked.turn.turn.turn
  obtain ⟨horder, -, -, ⟨healthy, hwritten, -, -⟩, -⟩ := notes_follow_events hrun
  exact ⟨_, _, hrun, by decide +kernel, by decide +kernel, by decide +kernel, horder, healthy,
    hwritten⟩

end DebugAdapter.Session
