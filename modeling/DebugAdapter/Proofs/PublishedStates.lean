import DebugAdapter.Proofs.PublicRelations
import DebugAdapter.Proofs.Puppet
import Mathlib.Data.List.Chain

/-!
# Published states

The states that a tracer publishes tell the life of its processes: one begins, lives, and ends with its
exit or with being left to itself. `Proceeds A` says what is published while no process begins: as long
as one is there its states are in `A`, and it is gone exactly when its exit is published, after which
nothing is published any more. All operations proceed but for the starts of a process, and the last
part of a detach. A detach may find that the process exited while it received its stop signals
(`Overruns`), and then publishes two ends.

Main statement: `states_of_history`.
-/

namespace DebugAdapter

open Debuggee
open Linux
open Operation

namespace Debuggee

/-- The state that an event publishes. -/
def Event.state? : Event → Option ProcessState
  | stateChanged state => some state
  | _ => none

/-- The states that events publish, in order. -/
def statesOf (es : List Event) : List ProcessState := es.filterMap Event.state?

theorem statesOf_append (es es' : List Event) :
    statesOf (es ++ es') = statesOf es ++ statesOf es' :=
  List.filterMap_append

theorem statesOf_of_isOfModules {es : List Event} (h : ∀ e ∈ es, e.isOfModules = true) :
    statesOf es = [] := by
  refine List.filterMap_eq_nil_iff.mpr fun e he => ?_
  cases e with
  | stateChanged state => cases h _ he
  | _ => rfl

namespace ProcessState

/-- A state may come after another one: after an end only the beginning of a process. -/
def LeadsTo (a b : ProcessState) : Prop := a.isTerminal = true → b.isTransitional = true

instance (a b : ProcessState) : Decidable (LeadsTo a b) :=
  inferInstanceAs (Decidable (_ → _))

theorem LeadsTo.of_live {a : ProcessState} (h : a.isTerminal = false) (b : ProcessState) :
    LeadsTo a b :=
  fun hend => nomatch hend.symm.trans h

theorem isChain_append_singleton {l : List ProcessState} (last : ProcessState)
    (hl : ∀ x ∈ l, x.isTerminal = false) : (l ++ [last]).IsChain LeadsTo := by
  induction l with
  | nil => exact .singleton last
  | cons x l ih =>
    have hx : x.isTerminal = false := hl x List.mem_cons_self
    have ih := ih fun y hy => hl y (List.mem_cons_of_mem x hy)
    cases l with
    | nil => exact .cons_cons (.of_live hx _) ih
    | cons y l => exact .cons_cons (.of_live hx y) ih

theorem isChain_of_live {l : List ProcessState} (hl : ∀ x ∈ l, x.isTerminal = false) :
    l.IsChain LeadsTo :=
  (isChain_append_singleton .exited hl).left_of_append

end ProcessState

end Debuggee

namespace Tracer

open Debuggee.ProcessState (LeadsTo isChain_append_singleton isChain_of_live)
open Engine.Traced (Engine)

variable {κ : Type}

/-! ### What is published on a way -/

/-- On the way from one state of a system to another states were published, and the last one is that of
the snapshot. -/
structure Sends (states : List ProcessState) (s s' : System κ) : Prop where
  events : ∃ es, s'.tracer.events = s.tracer.events ++ es ∧ statesOf es = states
  state : s'.tracer.snapshot.state = states.getLast?.getD s.tracer.snapshot.state

theorem Sends.of_eq {s s' : System κ} (hevents : s'.tracer.events = s.tracer.events)
    (hstate : s'.tracer.snapshot.state = s.tracer.snapshot.state) : Sends [] s s' :=
  ⟨⟨[], hevents.trans (List.append_nil _).symm, rfl⟩, hstate⟩

theorem Sends.trans {states states' : List ProcessState} {s t u : System κ} (h : Sends states s t)
    (h' : Sends states' t u) : Sends (states ++ states') s u := by
  obtain ⟨es, hes, rfl⟩ := h.events
  obtain ⟨es', hes', rfl⟩ := h'.events
  refine ⟨⟨es ++ es', ?_, statesOf_append es es'⟩, ?_⟩
  · rw [hes', hes, List.append_assoc]
  · rw [h'.state, h.state, List.getLast?_append]
    cases (statesOf es').getLast? with
    | none => rfl
    | some state => rfl

/-- No state is published, and a process is there as before. -/
structure Withholds (s s' : System κ) : Prop extends Attended s s' where
  sends : Sends [] s s'

theorem Still.withholds {s s' : System κ} (h : Still s s') : Withholds s s' :=
  ⟨⟨h.process⟩, .of_eq h.events h.state⟩

instance [Kernel κ] : ModulesRelation (Withholds : System κ → System κ → Prop) where
  refl s := ⟨StepRelation.refl s, .of_eq rfl rfl⟩
  trans h h' := ⟨StepRelation.trans h.toAttended h'.toAttended, h.sends.trans h'.sends⟩
  look _ _ _ := Still.withholds (.of_tracer rfl)
  modules s t hprocess hsnapshot _ _ hevents := by
    obtain ⟨es, hes, hmodules⟩ := hevents
    refine ⟨⟨by rw [hprocess]⟩, ⟨es, hes, statesOf_of_isOfModules hmodules⟩, ?_⟩
    show t.snapshot.state = _
    rw [hsnapshot]
    rfl

/-- How a system proceeds while no process begins. -/
inductive Proceeds (A : ProcessState → Prop) (s s' : System κ) : Prop
  | absent : s.tracer.process = none → s'.tracer.process = none → Sends [] s s' → Proceeds A s s'
  | present {l : List ProcessState} : s.tracer.process ≠ none → s'.tracer.process ≠ none →
      (∀ x ∈ l, A x) → Sends l s s' → Proceeds A s s'
  | ended {l : List ProcessState} : s.tracer.process ≠ none → s'.tracer.process = none →
      (∀ x ∈ l, A x) → Sends (l ++ [.exited]) s s' → Proceeds A s s'

variable {A : ProcessState → Prop} {s s' t : System κ}

theorem Withholds.proceeds (h : Withholds s s') : Proceeds A s s' := by
  by_cases hs : s.tracer.process = none
  · exact .absent hs (h.process.mpr hs) h.sends
  · exact .present hs (fun hnone => hs (h.process.mp hnone))
      (fun _ hx => absurd hx List.not_mem_nil) h.sends

theorem Proceeds.mono {B : ProcessState → Prop} (h : Proceeds A s s') (hAB : ∀ x, A x → B x) :
    Proceeds B s s' := by
  cases h with
  | absent hs hs' hsends => exact .absent hs hs' hsends
  | present hs hs' hstates hsends => exact .present hs hs' (fun x hx => hAB x (hstates x hx)) hsends
  | ended hs hs' hstates hsends => exact .ended hs hs' (fun x hx => hAB x (hstates x hx)) hsends

instance : StepRelation (Proceeds A : System κ → System κ → Prop) where
  refl s := (Still.of_tracer rfl).withholds.proceeds
  trans {s t u} h h' := by
    have hboth : ∀ {l l' : List ProcessState}, (∀ x ∈ l, A x) → (∀ x ∈ l', A x) →
        ∀ x ∈ l ++ l', A x := fun hl hl' x hx => (List.mem_append.mp hx).elim (hl x) (hl' x)
    cases h with
    | absent hs ht hsends =>
      cases h' with
      | absent _ hu hsends' => exact .absent hs hu (hsends.trans hsends')
      | present ht' _ _ _ => exact absurd ht ht'
      | ended ht' _ _ _ => exact absurd ht ht'
    | present hs ht hstates hsends =>
      cases h' with
      | absent ht' _ _ => exact absurd ht' ht
      | present _ hu hstates' hsends' =>
        exact .present hs hu (hboth hstates hstates') (hsends.trans hsends')
      | ended _ hu hstates' hsends' =>
        refine .ended hs hu (hboth hstates hstates') ?_
        rw [List.append_assoc]
        exact hsends.trans hsends'
    | ended hs ht hstates hsends =>
      cases h' with
      | absent _ hu hsends' =>
        have hsends := hsends.trans hsends'
        rw [List.append_nil] at hsends
        exact .ended hs hu hstates hsends
      | present ht' _ _ _ => exact absurd ht ht'
      | ended ht' _ _ _ => exact absurd ht ht'

variable [Kernel κ]

instance : PublicRelation (Proceeds A : System κ → System κ → Prop) where
  still h := h.withholds.proceeds
  sync := (Tracing.moves_syncModules : Moves Withholds Tracing.syncModules).mono fun _ _ h => h.proceeds
  exited _ _ hs :=
    .ended (l := []) hs rfl (fun _ hx => absurd hx List.not_mem_nil)
      ⟨⟨[.stateChanged .exited], rfl, rfl⟩, rfl⟩

/-- The states of a process that is there. -/
def Live (state : ProcessState) : Prop := state.isTerminal = false

instance : LiveRelation (Proceeds Live : System κ → System κ → Prop) where
  publish _ state hs hstate :=
    .present hs hs (List.forall_mem_singleton.mpr hstate) ⟨⟨[.stateChanged state], rfl, rfl⟩, rfl⟩

/-! ### Acts -/

/-- An act that leaves a process to itself. -/
def Act.Detaches (s : System κ) : Act → Prop
  | perform .detach => True
  | perform .destroy => ∃ p, s.tracer.process = some p ∧ p.launched = false
  | _ => False

/-- An act lets a process go, after everything was taken back. -/
def Act.Leaves (a : Act) (s : System κ) : Prop :=
  a.Detaches s ∧ Ends Tracing.takeBack s fun r _ => r = .ok true

/-- An act lets a process go that has exited while everything was taken back. -/
def Act.Overruns (a : Act) (s : System κ) : Prop :=
  a.Detaches s ∧ Ends Tracing.takeBack s fun r t => r = .ok true ∧ t.tracer.process = none

/-- What an act publishes. -/
structure Turn (a : Act) (s : System κ) (states : List ProcessState) (s' : System κ) : Prop where
  sends : Sends states s s'
  /-- Nothing but the beginning of a process follows an end, unless the act overruns. -/
  isChain : (s.tracer.snapshot.state :: states).IsChain LeadsTo ↔ ¬a.Overruns s
  overrun : a.Overruns s → s.tracer.process ≠ none ∧ states = [.exited, .detached]
  /-- A process that is gone and was not let go of has exited. -/
  exited : s.tracer.process ≠ none → s'.tracer.process = none → ¬a.Leaves s →
    s'.tracer.snapshot.state = .exited
  live : s'.tracer.process ≠ none → Live s'.tracer.snapshot.state

omit [Kernel κ] in
theorem Sends.state_append {l : List ProcessState} {last : ProcessState}
    (h : Sends (l ++ [last]) s s') : s'.tracer.snapshot.state = last := by
  rw [h.state, List.getLast?_concat]
  rfl

omit [Kernel κ] in
theorem Sends.live {l : List ProcessState} (h : Sends l s s') (hl : ∀ x ∈ l, Live x)
    (hs : Live s.tracer.snapshot.state) : Live s'.tracer.snapshot.state := by
  rw [h.state]
  rcases hlast : l.getLast? with _ | x
  · exact hs
  · exact hl x (List.mem_of_getLast? hlast)

/-- An act that proceeds while no process begins. -/
theorem Proceeds.turn {a : Act} (h : Proceeds Live s s')
    (hlive : s.tracer.process ≠ none → Live s.tracer.snapshot.state) (ha : ¬a.Overruns s) :
    ∃ states, Turn a s states s' := by
  have hall : ∀ {l : List ProcessState}, s.tracer.process ≠ none → (∀ x ∈ l, Live x) →
      ∀ x ∈ s.tracer.snapshot.state :: l, Live x := fun hs hl =>
    List.forall_mem_cons.mpr ⟨hlive hs, hl⟩
  cases h with
  | absent hs hs' hsends =>
    exact ⟨[], hsends, iff_of_true (.singleton _) ha, fun h => absurd h ha, fun h => absurd hs h,
      fun h => absurd hs' h⟩
  | @present l hs hs' hl hsends =>
    exact ⟨l, hsends, iff_of_true (isChain_of_live (hall hs hl)) ha, fun h => absurd h ha,
      fun _ h => absurd h hs', fun _ => hsends.live hl (hlive hs)⟩
  | @ended l hs hs' hl hsends =>
    have hchain : (s.tracer.snapshot.state :: (l ++ [.exited])).IsChain LeadsTo :=
      isChain_append_singleton .exited (hall hs hl)
    exact ⟨l ++ [.exited], hsends, iff_of_true hchain ha, fun h => absurd h ha,
      fun _ _ _ => hsends.state_append, fun h => absurd hs' h⟩

namespace Tracing

/-! ### Starts and ends -/

/-- An act that makes a process. -/
theorem turn_beginning {a : Act} {state : ProcessState} (hstate : state.isTransitional = true)
    (ha : ∀ s : System κ, ¬a.Detaches s) {s : System κ}
    (hlive : s.tracer.process ≠ none → Live s.tracer.snapshot.state) :
    Beginning state s fun _ s' => ∃ states, Turn a s states s' := by
  have hover : ¬a.Overruns s := fun h => ha s h.1
  have hbegins : Live state := by
    cases state with
    | launching => rfl
    | attaching => rfl
    | _ => cases hstate
  have hfirst : ∀ {l : List ProcessState}, (state :: l).IsChain LeadsTo →
      (s.tracer.snapshot.state :: state :: l).IsChain LeadsTo := fun h =>
    .cons_cons (fun _ => hstate) h
  refine ⟨fun _ => (StepRelation.refl s : Proceeds Live s s).turn hlive hover,
    fun hs e k => ⟨[state, .unloaded], ⟨⟨[.stateChanged state, .stateChanged .unloaded], ?_, rfl⟩, rfl⟩,
      iff_of_true (hfirst ?_) hover, fun h => absurd h hover, fun h => absurd hs h,
      fun h => absurd hs h⟩,
    fun hs p stop program k _ _ => ?_⟩
  · exact List.append_assoc _ _ _
  · exact .cons_cons (.of_live hbegins _) (.singleton _)
  · let u : System κ := ⟨k, { s.tracer.begun state with executable := program }.adopting p⟩
    have hu : Sends [state] s u := ⟨⟨[.stateChanged state], rfl, rfl⟩, rfl⟩
    refine (moves_reportLive (R := Proceeds Live) stop u).mono fun _ s' h => ?_
    have hall : ∀ {l : List ProcessState}, (∀ x ∈ l, Live x) → ∀ x ∈ state :: l, Live x :=
      fun hl => List.forall_mem_cons.mpr ⟨hbegins, hl⟩
    cases h with
    | absent hnone _ _ => cases hnone
    | @present l _ hs' hl hsends =>
      exact ⟨state :: l, hu.trans hsends, iff_of_true (hfirst (isChain_of_live (hall hl))) hover,
        fun h => absurd h hover, fun h => absurd hs h, fun _ => hsends.live hl hbegins⟩
    | @ended l _ hs' hl hsends =>
      have hchain : (state :: (l ++ [.exited])).IsChain LeadsTo :=
        isChain_append_singleton .exited (hall hl)
      exact ⟨state :: (l ++ [.exited]), hu.trans hsends, iff_of_true (hfirst hchain) hover,
        fun h => absurd h hover, fun h => absurd hs h, fun h => absurd hs' h⟩

/-- While everything is taken back nothing is published but that the process has exited. -/
theorem proceeds_takeBack (s : System κ) : Ends takeBack s fun r t =>
    Proceeds (fun _ => False) s t ∧ (r = .ok true → s.tracer.process ≠ none) := by
  have hback : Moves (Proceeds fun _ => False) (takeBack : Tracing κ Bool) :=
    moves_takeBack moves_forgetPlan
  refine (hback s).and ?_
  rcases hp : s.tracer.process with _ | p
  · rw [takeBack, ends_process_bind_none hp]
    intro h
    cases h
  · exact fun _ => Option.some_ne_none p

/-- A detach publishes one end, or two if the process exits in the middle. -/
theorem turn_detach {a : Act} {s : System κ} (ha : a.Detaches s)
    (hlive : s.tracer.process ≠ none → Live s.tracer.snapshot.state) :
    Ends detach s fun _ s' => ∃ states, Turn a s states s' := by
  have hself : Ends takeBack s fun r t => Ends takeBack s fun r' t' => r' = r ∧ t' = t := ⟨rfl, rfl⟩
  have hquiet : ∀ {r : Except DebugError Bool} {t : System κ}, Proceeds (fun _ => False) s t →
      Ends takeBack s (fun r' t' => r' = r ∧ t' = t) → r ≠ .ok true → ∃ states, Turn a s states t := by
    intro r t h hends hr
    refine (h.mono fun _ hx => hx.elim).turn hlive fun hover => hr ?_
    exact hends.1.symm.trans hover.2.1
  rw [detach_eq]
  refine ((proceeds_takeBack s).and hself).bind ?_ ?_
  · rintro going t ⟨⟨h, hpresent⟩, hends⟩
    cases going with
    | false => exact hquiet h hends nofun
    | true =>
      have hs := hpresent rfl
      have hleaves : a.Leaves s := ⟨ha, hends.1⟩
      refine (ends_letGo t).mono ?_
      rintro _ ⟨k, u⟩ ⟨-, rfl⟩
      generalize hu : (⟨k, _⟩ : System κ) = u
      have hgone : u.tracer.process = none := by rw [← hu]
      have hsends : Sends [.detached] t u := by
        rw [← hu]
        exact ⟨⟨[.stateChanged .detached], rfl, rfl⟩, rfl⟩
      cases h with
      | absent hnone _ _ => exact absurd hnone hs
      | @present l _ ht hl hsent =>
        have hover : ¬a.Overruns s := fun hover => ht (hends.2 ▸ hover.2.2)
        have hnil : l = [] := List.eq_nil_iff_forall_not_mem.mpr fun x hx => hl x hx
        subst hnil
        exact ⟨[.detached], hsent.trans hsends,
          iff_of_true (.cons_cons (.of_live (hlive hs) _) (.singleton _)) hover,
          fun h => absurd h hover, fun _ _ h => absurd hleaves h, fun h => absurd hgone h⟩
      | @ended l _ ht hl hsent =>
        have hover : a.Overruns s := ⟨ha, hends.1, (congrArg (·.tracer.process) hends.2).trans ht⟩
        have hnil : l = [] := List.eq_nil_iff_forall_not_mem.mpr fun x hx => hl x hx
        subst hnil
        refine ⟨[.exited, .detached], hsent.trans hsends, iff_of_false ?_ (not_not.mpr hover),
          fun _ => ⟨hs, rfl⟩, fun _ _ h => absurd hleaves h, fun h => absurd hgone h⟩
        intro hchain
        have hlast := List.isChain_cons_cons.mp (List.isChain_cons_cons.mp hchain).2
        exact absurd hlast.1 (by decide)
  · rintro e t ⟨⟨h, -⟩, hends⟩
    exact hquiet h hends nofun

/-- What each act publishes. -/
theorem turn_act (a : Act) {s : System κ}
    (hlive : s.tracer.process ≠ none → Live s.tracer.snapshot.state) :
    Ends a.operation s fun _ s' => ∃ states, Turn a s states s' := by
  have hkeeps : ∀ {a : Act}, a.Keeps → ¬a.Detaches s →
      Ends a.operation s fun _ s' => ∃ states, Turn a s states s' := fun hkeep ha =>
    (moves_act_of_keeps (R := Proceeds Live) hkeep s).mono fun _ _ h =>
      h.turn hlive fun hover => ha hover.1
  cases a with
  | look => exact hkeeps True.intro id
  | perform r =>
    cases r with
    | launch info => exact ends_launchToEntry info (turn_beginning rfl (fun _ => id) hlive)
    | attach pid =>
      exact (ends_discard _ s _).mpr (ends_attach pid (turn_beginning rfl (fun _ => id) hlive))
    | detach => exact (ends_discard _ s _).mpr (turn_detach True.intro hlive)
    | destroy =>
      have hkept : ∀ {s' : System κ}, Proceeds Live s s' →
          (∀ p, s.tracer.process = some p → p.launched = true) →
          ∃ states, Turn (.perform .destroy) s states s' := by
        refine fun h hlaunched => h.turn hlive ?_
        rintro ⟨⟨p, hp, hattached⟩, -⟩
        exact absurd (hlaunched p hp) (ne_true_of_eq_false hattached)
      refine (ends_discard _ s fun s' => ∃ states, Turn (.perform .destroy) s states s').mpr ?_
      refine ends_destroy (fun hnone => ?_) (fun p hp hlaunched => ?_) fun p hp hattached => ?_
      · refine hkept (StepRelation.refl s) fun p hp => ?_
        cases hnone.symm.trans hp
      · refine (moves_kill (R := Proceeds Live) s).mono fun _ _ h => hkept h fun q hq => ?_
        cases hp.symm.trans hq
        exact hlaunched
      · exact turn_detach ⟨p, hp, hattached⟩ hlive
    | _ => exact hkeeps True.intro id

end Tracing

/-! ### Histories -/

/-- A state comes after another one in the life of processes, or an overrun published both. -/
def MayFollow (a b : ProcessState) : Prop := LeadsTo a b ∨ (a = .exited ∧ b = .detached)

/-- What was published up to a state of a history. -/
structure Settled (es : List Event) (s : System κ) : Prop where
  state : s.tracer.snapshot.state = (statesOf (es ++ s.tracer.events)).getLast?.getD .unloaded
  isChain : (statesOf (es ++ s.tracer.events)).IsChain MayFollow
  live : s.tracer.process ≠ none → Live s.tracer.snapshot.state

/-- What an act publishes comes after what was published before. -/
theorem Turn.settled {a : Act} {states : List ProcessState} {es : List Event}
    (h : Turn a s states s') (hs : Settled es s) : Settled es s' := by
  obtain ⟨new, hnew, hstates⟩ := h.sends.events
  have hall : statesOf (es ++ s'.tracer.events) = statesOf (es ++ s.tracer.events) ++ states := by
    rw [hnew, ← List.append_assoc, statesOf_append, hstates]
  have hchain : (s.tracer.snapshot.state :: states).IsChain MayFollow := by
    by_cases hover : a.Overruns s
    · obtain ⟨hpresent, rfl⟩ := h.overrun hover
      exact .cons_cons (Or.inl (.of_live (hs.live hpresent) _))
        (.cons_cons (Or.inr ⟨rfl, rfl⟩) (.singleton _))
    · exact (h.isChain.mpr hover).imp fun _ _ => Or.inl
  refine ⟨?_, ?_, h.live⟩
  · rw [hall, List.getLast?_append, h.sends.state, hs.state]
    cases states.getLast? with
    | none => rfl
    | some state => rfl
  · rw [hall]
    refine List.isChain_append.mpr ⟨hs.isChain, hchain.tail, fun x hx y hy => ?_⟩
    have hlast : s.tracer.snapshot.state = x := by
      rw [hs.state, Option.mem_def.mp hx]
      rfl
    obtain ⟨rest, rfl⟩ := List.head?_eq_some_iff.mp (Option.mem_def.mp hy)
    rw [hlast] at hchain
    exact (List.isChain_cons_cons.mp hchain).1

theorem settled_of_history {drift : κ → κ → Prop} {program : Option String} {k : κ}
    {es : List Event} {s : System κ} (h : History drift ⟨k, .new program⟩ es s) : Settled es s := by
  have hnew : Settled [] (⟨k, .new program⟩ : System κ) := ⟨rfl, .nil, fun h => absurd rfl h⟩
  generalize (⟨k, .new program⟩ : System κ) = s₀ at h hnew
  induction h with
  | start => exact hnew
  | @act es s a _ ih =>
    obtain ⟨states, hturn⟩ := Tracing.turn_act a ih.live
    exact hturn.settled ih
  | @collect es s _ ih =>
    refine ⟨?_, ?_, ih.live⟩
    · show s.tracer.snapshot.state = _
      rw [List.append_nil]
      exact ih.state
    · show (statesOf (es ++ s.tracer.events ++ [])).IsChain MayFollow
      rw [List.append_nil]
      exact ih.isChain
  | elapse _ _ ih => exact ⟨ih.state, ih.isChain, ih.live⟩

/-- What a tracer publishes of its processes: the state of its snapshot is the last one that it sent,
and after the end of a process it sends nothing but the beginning of the next one, unless a detach
finds that the process exited in the middle of it. Every act tells the end of a process that it did
not let go of as its exit. -/
theorem states_of_history {drift : κ → κ → Prop} {program : Option String} {k : κ}
    {es : List Event} {s : System κ} (h : History drift ⟨k, .new program⟩ es s) :
    s.tracer.snapshot.state = (statesOf (es ++ s.tracer.events)).getLast?.getD .unloaded ∧
    (statesOf (es ++ s.tracer.events)).IsChain MayFollow ∧
    (∀ a : Act, Ends a.operation s fun _ s' => ∃ states, Turn a s states s') ∧
    (∀ r : Request, Ends (Engine.operation r) s fun _ s' =>
      History drift ⟨k, .new program⟩ es s') ∧
    Ends Tracing.poll s fun _ s' => History drift ⟨k, .new program⟩ es s' := by
  have hs := settled_of_history h
  exact ⟨hs.state, hs.isChain, fun a => Tracing.turn_act a hs.live, h.request, h.poll⟩

/-- A tracer on a stage, before it does anything. -/
def staged (waits polls : List WaitStatus) : System Stage := ⟨.bare waits polls, .new none⟩

/-- A process that is attached to, and exits while it is looked at. -/
def visited : System Stage :=
  (staged [.stopped 1 .stop] [.exited 1 0]).through [.perform (.attach 1), .look]

/-- After its exit nothing is published of the process any more. -/
theorem states_visited :
    History (fun _ _ => True) (staged [.stopped 1 .stop] [.exited 1 0]) [] visited ∧
    statesOf visited.tracer.events = [.attaching, .stopped, .exited] ∧
    ∀ a : Act, Ends a.operation visited fun _ s' => ∃ states, Turn a visited states s' := by
  have h : History (fun _ _ => True) (staged [.stopped 1 .stop] [.exited 1 0]) [] visited :=
    .through _ .start
  exact ⟨h, by decide +kernel, (states_of_history h).2.2.1⟩

/-- A process that exits while a detach lets it receive its stop signal is published as exited, and
as left to itself then. -/
theorem states_overrun : ∃ s : System Stage,
    History (fun _ _ => True) (staged [.stopped 1 .usr1, .exited 1 0] []) [] s ∧
    statesOf s.tracer.events = [.attaching, .stopped, .exited, .detached] ∧
    s.tracer.snapshot.state = .detached ∧ ¬(statesOf s.tracer.events).IsChain LeadsTo := by
  let left : System Stage := (staged [.stopped 1 .usr1, .exited 1 0] []).through
    [.perform (.attach 1), .perform .detach]
  have hstates : statesOf left.tracer.events = [.attaching, .stopped, .exited, .detached] := by
    decide +kernel
  refine ⟨left, .through _ .start, hstates, by decide +kernel, ?_⟩
  rw [hstates]
  decide

end Tracer

end DebugAdapter
