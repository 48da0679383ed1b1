import DebugAdapter.Proofs.Journal
import DebugAdapter.Proofs.SessionOutcomes
import DebugAdapter.Engine.Scripted

/-!
# Bounded steps

A step of a session is bounded: the process is halted and then stepped, and each of the two is waited
for by looking at the state of the process a limited number of times. A journal of the target shows
everything that happens meanwhile. `StepEnded` is the journal of a step that comes to a reply, part by
part: the halt (`Halts`), the choice of a thread (`Picks`), the step itself (`Issues`), and what the
session says at the end (`Closes`). `StepFailed` is the journal of a step that is refused, with the
answer that is to blame; that the process did not stop in time is in neither case a reason to fail.

Main statement: `reply_step`, which holds whatever the target answers.
-/

namespace DebugAdapter

open Debuggee
open Operation

namespace Session

open Wire (Notification Response)

/-! ### What a journal shows -/

/-- The states that are seen by looking until one is good, at most `again` times after the first
look, and whether the last of them was good. -/
inductive Polled (good : ProcessState → Bool) (again : Nat) : List ProcessState → Bool → Prop
  | seen {missed : List ProcessState} {p : ProcessState} (hlength : missed.length ≤ again)
      (hmissed : ∀ q ∈ missed, good q = false) (hp : good p = true) :
      Polled good again (missed ++ [p]) true
  | missed {states : List ProcessState} (hlength : states.length = again + 1)
      (hmissed : ∀ q ∈ states, good q = false) : Polled good again states false

theorem Polled.at_once {good : ProcessState → Bool} {again : Nat} {p : ProcessState}
    (hp : good p = true) : Polled good again [p] true := by
  rw [← List.nil_append [p]]
  exact .seen (Nat.zero_le _) (List.forall_mem_nil _) hp

/-- The entries of looks at the state of a process. -/
def looks (t : Handle) (states : List ProcessState) : List Entry :=
  states.map (Entry.query t .state)

/-- What a delivery of events leaves in a journal, and what its notifier writes. -/
structure Delivery (t : Handle) (xs : List Entry) (ns : List Notification) : Prop where
  notices : ∀ x ∈ xs, x.Notices t
  told : Told xs ns

/-- The halt before a step: the process does not run, or it is asked to halt and looked at. -/
inductive Halts (t : Handle) (again : Nat) : List Entry → List Notification → Bool → Prop
  | already {p : ProcessState} (hp : p.isRunning = false) : Halts t again [.query t .state p] [] true
  | asked {p : ProcessState} (hp : p.isRunning = true) (answer : Except DebugError Unit)
      {ds : List Entry} {ns : List Notification} (hds : Delivery t ds ns)
      {states : List ProcessState} {halted : Bool}
      (hstates : Polled (fun p => !p.isRunning) again states halted) :
      Halts t again
        (.query t .state p :: .call (.request t .interrupt) (answer.mapError .error) ::
          (ds ++ looks t states)) ns halted

/-- The choice of the current thread: the selected one, that of the last stop, or the first one. -/
inductive Picks (t : Handle) : Option Nat → List Entry → Nat → Prop
  | selected (tid : Nat) : Picks t (some tid) [] tid
  | stopped (stop : StopInfo) : Picks t none [.query t .stopInfo (some stop)] stop.thread
  | first (th : ThreadInfo) (rest : List ThreadInfo) :
      Picks t none
        [.query t .stopInfo none, .call (.request t .threads) (.ok (th :: rest))] th.tid

/-- There is no current thread: the target does not list its threads, or has none. -/
inductive Threadless (t : Handle) : Option Nat → List Entry → Failure → Prop
  | refused (e : DebugError) :
      Threadless t none
        [.query t .stopInfo none, .call (.request t .threads) (.error (.error e))]
        (.refused (.engine "threads" e))
  | crashed (text : Option String) :
      Threadless t none
        [.query t .stopInfo none, .call (.request t .threads) (.error (.crash text))]
        (.crashed text)
  | none :
      Threadless t none [.query t .stopInfo none, .call (.request t .threads) (.ok [])]
        (.refused .noThreadSelected)

/-- The step of a thread, which is left out if the process is not halted. -/
inductive Issues (t : Handle) (thread : Nat) (kind : StepKind) (again : Nat) :
    Bool → List Entry → List Notification → Bool → Prop
  | skipped : Issues t thread kind again false [] [] false
  | issued {ds : List Entry} {ns : List Notification} (hds : Delivery t ds ns)
      {states : List ProcessState} {completed : Bool}
      (hstates : Polled (fun p => p.isStopped || p.isTerminal) again states completed) :
      Issues t thread kind again true
        (.call (.request t (.step thread kind)) (.ok ()) :: (ds ++ looks t states)) ns completed

/-- Where a step ended that came to its end: where the process stopped now, or else where it was. -/
def arrival (thread : Nat) (before now : Option StopInfo) : StepOutcome :=
  match now with
  | some stop => ⟨stop.thread, stop.pc, true⟩
  | none => ⟨thread, lastPc before, true⟩

/-- Why the process stopped last, for a report of the session itself. -/
def reportedReason (stop : Option StopInfo) : String :=
  match stop with
  | some s => s.reason.name
  | none => "Trace"

/-- What the session says at the end of a step. Only one that did not end in time is reported. -/
inductive Closes (t : Handle) (thread : Nat) (before now : Option StopInfo) :
    Bool → List Entry → List Notification → StepOutcome → Prop
  | completed : Closes t thread before now true [] [] (arrival thread before now)
  | missed (again : Option StopInfo) :
      Closes t thread before now false [.query t .stopInfo again]
        [.stopped (reportedReason again) thread (lastPc before)] ⟨thread, lastPc before, false⟩

/-- A bounded step that comes to a reply. -/
inductive StepEnded (a : ActiveTarget) (settings : Settings) (kind : StepKind) (halted : Bool)
    (thread : Nat) : List Entry → List Notification → StepOutcome → Prop
  | intro {first : ProcessState} (hfirst : first.isTerminal = false)
      {hs : List Entry} {ns : List Notification}
      (hhalt : Halts a.target settings.interrupt.maxPolls hs ns halted)
      {ps : List Entry} (hthread : Picks a.target a.selectedThread ps thread)
      (before : Option StopInfo)
      {ss : List Entry} {ms : List Notification} {completed : Bool}
      (hstep : Issues a.target thread kind settings.step.policy.maxPolls halted ss ms completed)
      (now : Option StopInfo)
      {cs : List Entry} {own : List Notification} {o : StepOutcome}
      (hclose : Closes a.target thread before now completed cs own o) :
      StepEnded a settings kind halted thread
        (.query a.target .state first :: (hs ++ (ps ++ .query a.target .stopInfo before ::
          (ss ++ .query a.target .stopInfo now :: cs))))
        (ns ++ (ms ++ own)) o

/-- A bounded step that is refused, with the answer that is the reason. -/
inductive StepFailed (a : ActiveTarget) (settings : Settings) (kind : StepKind) :
    List Entry → List Notification → Failure → Prop
  | gone {first : ProcessState} (hfirst : first.isTerminal = true) :
      StepFailed a settings kind [.query a.target .state first] [] (.refused .noProcess)
  | unhalted {first p : ProcessState} (hfirst : first.isTerminal = false)
      (hp : p.isRunning = true) (text : Option String) :
      StepFailed a settings kind
        [.query a.target .state first, .query a.target .state p,
          .call (.request a.target .interrupt) (.error (.crash text))] [] (.crashed text)
  | threadless {first : ProcessState} (hfirst : first.isTerminal = false)
      {hs : List Entry} {ns : List Notification} {halted : Bool}
      (hhalt : Halts a.target settings.interrupt.maxPolls hs ns halted)
      {ps : List Entry} {f : Failure} (hthread : Threadless a.target a.selectedThread ps f) :
      StepFailed a settings kind (.query a.target .state first :: (hs ++ ps)) ns f
  | refused {first : ProcessState} (hfirst : first.isTerminal = false)
      {hs : List Entry} {ns : List Notification}
      (hhalt : Halts a.target settings.interrupt.maxPolls hs ns true)
      {ps : List Entry} {thread : Nat} (hthread : Picks a.target a.selectedThread ps thread)
      (before : Option StopInfo) (e : DebugError)
      {ds : List Entry} {ms : List Notification} (hds : Delivery a.target ds ms) :
      StepFailed a settings kind
        (.query a.target .state first :: (hs ++ (ps ++ .query a.target .stopInfo before ::
          .call (.request a.target (.step thread kind)) (.error (.error e)) :: ds)))
        (ns ++ ms) (.refused (.engine "step" e))
  | crashed {first : ProcessState} (hfirst : first.isTerminal = false)
      {hs : List Entry} {ns : List Notification}
      (hhalt : Halts a.target settings.interrupt.maxPolls hs ns true)
      {ps : List Entry} {thread : Nat} (hthread : Picks a.target a.selectedThread ps thread)
      (before : Option StopInfo) (text : Option String) :
      StepFailed a settings kind
        (.query a.target .state first :: (hs ++ (ps ++ [.query a.target .stopInfo before,
          .call (.request a.target (.step thread kind)) (.error (.crash text))])))
        ns (.crashed text)

/-! ### What actions leave in a journal -/

variable {ε : Type}

/-- A session with a target and with settings, whatever its notifier does. -/
structure Stands (a : ActiveTarget) (settings : Settings) (s : Session ε) : Prop where
  settings : s.settings = settings
  active : ∃ n, s.lifecycle = .active { a with notifying := n }

/-- The engine and the outbox may change. -/
theorem Stands.on {a : ActiveTarget} {settings : Settings} {s : Session ε}
    (hs : Stands a settings s) (c : Channel ε) :
    Stands a settings { s with engine := c.engine, outbox := c.outbox } :=
  ⟨hs.settings, hs.active⟩

variable {α β : Type}

/-- In a session with a target, an action leaves a journal and notifications that fit its result. -/
def Leaves (a : ActiveTarget) (settings : Settings) (m : Action (Journal ε) α)
    (P : List Entry → List Notification → Except Failure α → Prop) : Prop :=
  ∀ s, Stands a settings s → Ends m s fun r s' =>
    ∃ xs ns, Happens xs ns s.channel s'.channel ∧ P xs ns r

section Leaves

variable {a : ActiveTarget} {settings : Settings}
  {P : List Entry → List Notification → Except Failure α → Prop}
  {Q : List Entry → List Notification → Except Failure β → Prop}

theorem leaves_refuse_bind {e : SessionError} {f : α → Action (Journal ε) β}
    (h : Q [] [] (.error (.refused e))) : Leaves a settings (refuse e >>= f) Q :=
  fun s _ => ⟨[], [], .refl s.channel, h⟩

theorem leaves_activeTarget_bind {f : ActiveTarget → Action (Journal ε) β}
    (h : ∀ n, Leaves a settings (f { a with notifying := n }) Q) :
    Leaves a settings (activeTarget >>= f) Q := by
  intro s hs
  obtain ⟨n, hn⟩ := hs.active
  rw [ends_activeTarget_bind hn]
  exact h n s hs

theorem leaves_target_bind {f : Handle → Action (Journal ε) β}
    (h : Leaves a settings (f a.target) Q) : Leaves a settings (target >>= f) Q := by
  rw [target, bind_assoc]
  exact leaves_activeTarget_bind fun _ => h

/-- Only the settings of a session are read. -/
theorem leaves_get_bind {f : Session (Journal ε) → Action (Journal ε) β}
    (h : ∀ s, s.settings = settings → Leaves a settings (f s) Q) :
    Leaves a settings (get >>= f) Q := by
  intro s hs
  rw [ends_get_bind]
  exact h s hs.settings s hs

/-- The selection is forgotten at the end of a command. -/
theorem leaves_resetFocus {v : β} (h : Q [] [] (.ok v)) :
    Leaves a settings (resetFocus >>= fun _ => pure v : Action (Journal ε) β) Q := by
  intro s hs
  obtain ⟨n, hn⟩ := hs.active
  rw [resetFocus, modifyActive, ends_modify_bind, hn]
  exact ⟨[], [], .refl s.channel, h⟩

theorem leaves_notify_bind (n : Notification) {f : Unit → Action (Journal ε) β}
    (h : Leaves a settings (f ()) fun ys ms r => Q ys (n :: ms) r) :
    Leaves a settings (notify n >>= f) Q := by
  intro s hs
  have hemit : Happens [] [n] s.channel ⟨s.engine, (s.outbox.send n.render).2⟩ := by
    have h := happens_emit n s.channel
    rwa [emit_snd] at h
  rw [notify, ends_modify_bind]
  refine (h _ (hs.on ⟨s.engine, (s.outbox.send n.render).2⟩)).mono ?_
  rintro r s' ⟨ys, ms, hys, hQ⟩
  exact ⟨ys, n :: ms, hemit.append hys, hQ⟩

variable [DebugEngine ε]

theorem leaves_observe_bind {t : Handle} {q : Query} {f : q.Answer → Action (Journal ε) β}
    (h : ∀ answer, Leaves a settings (f answer) fun ys ms r => Q (.query t q answer :: ys) ms r) :
    Leaves a settings (observe t q >>= f) Q := by
  intro s hs
  rw [ends_observe_bind]
  refine (h _ _ (hs.on ⟨(DebugEngine.observe t q s.engine).2, s.outbox⟩)).mono ?_
  rintro r s' ⟨ys, ms, hys, hQ⟩
  exact ⟨_, ms, (happens_observe t q s.channel).append hys, hQ⟩

/-- A request whose error refuses the command. -/
theorem leaves_request_bind {t : Handle} {r : Request} {operation : String}
    {f : r.Answer → Action (Journal ε) β}
    (hok : ∀ answer, Leaves a settings (f answer) fun ys ms r' =>
      Q (.call (.request t r) (.ok answer) :: ys) ms r')
    (herr : ∀ e, Q [.call (.request t r) (.error (.error e))] []
      (.error (.refused (.engine operation e))))
    (hcrash : ∀ text, Q [.call (.request t r) (.error (.crash text))] [] (.error (.crashed text))) :
    Leaves a settings (request t r operation >>= f) Q := by
  intro s hs
  have hcall := happens_perform (.request t r) s.channel
  rw [ends_bind, ends_request]
  rcases hperform : DebugEngine.perform (.request t r) s.engine with ⟨(e | text) | answer, engine⟩
  all_goals
    rw [show DebugEngine.perform (.request t r) s.channel.engine = _ from hperform] at hcall
  · exact ⟨_, [], hcall, herr e⟩
  · exact ⟨_, [], hcall, hcrash text⟩
  · refine (hok answer _ (hs.on ⟨engine, s.outbox⟩)).mono ?_
    rintro r' s' ⟨ys, ms, hys, hQ⟩
    exact ⟨_, ms, hcall.append hys, hQ⟩

/-- Events are delivered to the notifier of the target. -/
theorem delivery_deliverEvents {s : Session (Journal ε)} (hs : Stands a settings s) :
    Stands a settings (deliverEvents s) ∧ ∃ ds ns, Delivery a.target ds ns ∧
      Happens ds ns s.channel (deliverEvents s).channel := by
  obtain ⟨n, hn⟩ := hs.active
  rw [deliverEvents, hn]
  dsimp only
  split
  · have hpasses : Passes (Entry.Notices a.target) [] s.channel _ :=
      passes_events a.target s.settings.notifier.outputChunk s.channel
    obtain ⟨ds, ns, hds, hnotices, htold⟩ := hpasses
    exact ⟨⟨hs.settings, _, rfl⟩, ds, ns, ⟨hnotices, htold⟩, hds⟩
  · exact ⟨⟨hs.settings, n, rfl⟩, _, [], ⟨List.forall_mem_singleton.mpr (.events _), told_nil _⟩,
      happens_observe a.target .events s.channel⟩

/-- A request that changes how the process runs, with the delivery of the events. -/
theorem leaves_control_bind {r : Request}
    {f : Except DebugError r.Answer → Action (Journal ε) β}
    (h : ∀ answer ds ns, Delivery a.target ds ns →
      Leaves a settings (f answer) fun ys ms r' =>
        Q (.call (.request a.target r) (answer.mapError .error) :: (ds ++ ys)) (ns ++ ms) r')
    (hcrash : ∀ text,
      Q [.call (.request a.target r) (.error (.crash text))] [] (.error (.crashed text))) :
    Leaves a settings (control a.target r >>= f) Q := by
  intro s hs
  have hcall := happens_perform (.request a.target r) s.channel
  have hgo : ∀ (answer : Except DebugError r.Answer) (engine : Journal ε),
      Happens [.call (.request a.target r) (answer.mapError .error)] [] s.channel
          ⟨engine, s.outbox⟩ →
        Ends (f answer) (deliverEvents { s with engine }) fun r' s' =>
          ∃ xs ns, Happens xs ns s.channel s'.channel ∧ Q xs ns r' := by
    intro answer engine hcall
    obtain ⟨hs₁, ds, ns, hds, hdelivered⟩ :=
      delivery_deliverEvents (hs.on ⟨engine, s.outbox⟩)
    refine (h answer ds ns hds _ hs₁).mono ?_
    rintro r' s' ⟨ys, ms, hys, hQ⟩
    exact ⟨_, _, hcall.append (hdelivered.append hys), hQ⟩
  rw [control, bind_assoc, ends_get_bind]
  rcases hperform : DebugEngine.perform (.request a.target r) s.engine with
    ⟨(e | text) | answer, engine⟩
  all_goals
    rw [show DebugEngine.perform (.request a.target r) s.channel.engine = _ from hperform] at hcall
  · exact hgo (.error e) engine hcall
  · exact ⟨_, [], hcall, hcrash text⟩
  · exact hgo (.ok answer) engine hcall

/-! ### The parts of a step -/

/-- One more look, which was not good, before others. -/
theorem Polled.cons {good : ProcessState → Bool} {again : Nat} {states : List ProcessState}
    {seen : Bool} (h : Polled good again states seen) {p : ProcessState} (hp : good p = false) :
    Polled good (again + 1) (p :: states) seen := by
  cases h with
  | @seen missed q hlength hmissed hq =>
    exact .seen (Nat.succ_le_succ hlength) (List.forall_mem_cons.mpr ⟨hp, hmissed⟩) hq
  | missed hlength hmissed =>
    exact .missed (congrArg Nat.succ hlength) (List.forall_mem_cons.mpr ⟨hp, hmissed⟩)

theorem leaves_pollUpTo_bind {t : Handle} (good : ProcessState → Bool) (again : Nat)
    {f : PollOutcome → Action (Journal ε) β}
    {Q : List Entry → List Notification → Except Failure β → Prop}
    (h : ∀ states outcome, Polled good again states outcome.isReady →
      Leaves a settings (f outcome) fun ys ms r => Q (looks t states ++ ys) ms r) :
    Leaves a settings
      (pollUpTo (do let p ← observe t .state; return good p) again >>= f) Q := by
  induction again generalizing Q with
  | zero =>
    rw [pollUpTo, bind_assoc, bind_assoc]
    refine leaves_observe_bind fun p => ?_
    simp only [pure_bind]
    cases hp : good p with
    | true => exact h [p] .ready (.at_once hp)
    | false => exact h [p] .timedOut (.missed rfl (List.forall_mem_singleton.mpr hp))
  | succ again ih =>
    rw [pollUpTo, bind_assoc, bind_assoc]
    refine leaves_observe_bind fun p => ?_
    simp only [pure_bind]
    cases hp : good p with
    | true => exact h [p] .ready (.at_once hp)
    | false =>
      exact ih fun states outcome hstates => h (p :: states) outcome (hstates.cons hp)

theorem leaves_ensureStopped_bind {f : Bool → Action (Journal ε) β}
    (h : ∀ hs ns halted, Halts a.target settings.interrupt.maxPolls hs ns halted →
      Leaves a settings (f halted) fun ys ms r => Q (hs ++ ys) (ns ++ ms) r)
    (hcrash : ∀ p : ProcessState, p.isRunning = true → ∀ text,
      Q [.query a.target .state p, .call (.request a.target .interrupt) (.error (.crash text))] []
        (.error (.crashed text))) :
    Leaves a settings (ensureStopped a.target >>= f) Q := by
  rw [ensureStopped, bind_assoc]
  refine leaves_observe_bind fun p => ?_
  cases hp : p.isRunning with
  | false => exact h _ [] true (.already hp)
  | true =>
    rw [if_pos rfl, bind_assoc]
    refine leaves_control_bind (fun answer ds ns hds => ?_) (hcrash p hp)
    rw [bind_assoc]
    refine leaves_get_bind fun s hs => ?_
    rw [RetryPolicy.poll, hs, bind_assoc]
    refine leaves_pollUpTo_bind (fun p => !p.isRunning) _ fun states outcome hstates => ?_
    simpa [List.append_assoc] using h _ ns _ (.asked hp answer hds hstates)

theorem leaves_currentThread_bind {f : Nat → Action (Journal ε) β}
    (h : ∀ ps thread, Picks a.target a.selectedThread ps thread →
      Leaves a settings (f thread) fun ys ms r => Q (ps ++ ys) ms r)
    (hnone : ∀ ps e, Threadless a.target a.selectedThread ps e → Q ps [] (.error e)) :
    Leaves a settings (currentThread >>= f) Q := by
  rw [currentThread, bind_assoc]
  refine leaves_activeTarget_bind fun n => ?_
  dsimp only
  cases hselected : a.selectedThread with
  | some tid => exact h [] tid (hselected ▸ .selected tid)
  | none =>
    rw [hselected] at h hnone
    rw [bind_assoc]
    refine leaves_observe_bind fun stop => ?_
    cases stop with
    | some stop => exact h _ stop.thread (.stopped stop)
    | none =>
      rw [bind_assoc]
      refine leaves_request_bind (fun threads => ?_) (fun e => hnone _ _ (.refused e))
        fun text => hnone _ _ (.crashed text)
      cases threads with
      | nil => exact leaves_refuse_bind (hnone _ _ .none)
      | cons th rest => exact h _ th.tid (.first th rest)

/-! ### The whole step -/

/-- The journal of a bounded step, whether it comes to a reply or not. -/
theorem leaves_boundedStep (kind : StepKind) :
    Leaves a settings (boundedStep kind : Action (Journal ε) StepOutcome) fun xs ns r =>
      match r with
      | .ok o => ∃ halted thread, StepEnded a settings kind halted thread xs ns o
      | .error f => StepFailed a settings kind xs ns f := by
  rw [boundedStep]
  refine leaves_target_bind (leaves_observe_bind fun first => ?_)
  cases hfirst : first.isTerminal with
  | true => exact leaves_refuse_bind (.gone hfirst)
  | false =>
    refine leaves_ensureStopped_bind (fun hs ns halted hhalt => ?_) fun p hp text =>
      .unhalted hfirst hp text
    refine leaves_currentThread_bind (fun ps thread hthread => ?_) fun ps f hthread => ?_
    · refine leaves_observe_bind fun before => ?_
      extract_lets pcBefore finish
      have hfinish : ∀ (completed : Bool)
          {Q : List Entry → List Notification → Except Failure StepOutcome → Prop},
          (∀ now cs own o, Closes a.target thread before now completed cs own o →
            Q (.query a.target .stopInfo now :: cs) own (.ok o)) →
          Leaves a settings (finish completed) Q := by
        intro completed Q hQ
        refine leaves_observe_bind fun now => ?_
        cases completed with
        | true =>
          have hclose := hQ now [] [] _ .completed
          cases now <;> exact leaves_activeTarget_bind fun n => leaves_resetFocus hclose
        | false =>
          have hclose := fun again => hQ now _ _ _ (.missed again)
          cases now <;> exact leaves_observe_bind fun again => leaves_notify_bind _ <|
            leaves_activeTarget_bind fun n => leaves_resetFocus (hclose again)
      cases halted with
      | false =>
        refine hfinish false fun now cs own o hclose => ?_
        exact ⟨false, thread, .intro hfirst hhalt hthread before .skipped now hclose⟩
      | true =>
        refine leaves_control_bind (fun answer ds ms hds => ?_) fun text => ?_
        · cases answer with
          | error e =>
            have hanswer : (Except.error e : Except DebugError Unit).mapError Fault.error
                = .error (.error e) := rfl
            refine leaves_refuse_bind ?_
            simpa [hanswer] using StepFailed.refused hfirst hhalt hthread before e hds
          | ok =>
            have hanswer : (Except.ok () : Except DebugError Unit).mapError Fault.error = .ok () := rfl
            rw [orRefuse, pure_bind]
            refine leaves_get_bind fun s hs => ?_
            rw [hs, RetryPolicy.poll]
            refine leaves_pollUpTo_bind (fun p => p.isStopped || p.isTerminal) _
              fun states outcome hstates => ?_
            refine hfinish outcome.isReady fun now cs own o hclose => ?_
            refine ⟨true, thread, ?_⟩
            simpa [hanswer] using StepEnded.intro hfirst hhalt hthread before
              (.issued hds hstates) now hclose
        · simpa using StepFailed.crashed hfirst hhalt hthread before text
    · simpa using .threadless hfirst hhalt hthread

end Leaves

/-! ### The calls of a step -/

/-- The step that an entry asks for: the target, the thread and the kind. -/
def stepOf? : Entry → Option (Handle × Nat × StepKind)
  | .call (.request t (.step thread kind)) _ => some (t, thread, kind)
  | _ => none

theorem stepOf?_query (t : Handle) (q : Query) (answer : q.Answer) :
    stepOf? (.query t q answer) = none := rfl

theorem stepOf?_interrupt (t : Handle) (answer : Except Fault Unit) :
    stepOf? (.call (.request t .interrupt) answer) = none := rfl

theorem stepOf?_step (t : Handle) (thread : Nat) (kind : StepKind) (answer : Except Fault Unit) :
    stepOf? (.call (.request t (.step thread kind)) answer) = some (t, thread, kind) := rfl

section Calls

variable {t : Handle} {xs : List Entry} {ns : List Notification}

theorem stepOf?_of_notices {x : Entry} (h : x.Notices t) : stepOf? x = none := by
  cases h with
  | events es => rfl
  | details hq answer => rfl
  | @output r hr answer => cases r <;> first | rfl | cases hr

theorem Delivery.no_step (h : Delivery t xs ns) : xs.filterMap stepOf? = [] :=
  List.filterMap_eq_nil_iff.mpr fun x hx => stepOf?_of_notices (h.notices x hx)

theorem no_step_looks (t : Handle) (states : List ProcessState) :
    (looks t states).filterMap stepOf? = [] := by
  rw [looks, List.filterMap_map]
  exact List.filterMap_eq_nil_iff.mpr fun _ _ => rfl

theorem Halts.no_step {again : Nat} {halted : Bool} (h : Halts t again xs ns halted) :
    xs.filterMap stepOf? = [] := by
  cases h with
  | already hp => rfl
  | asked hp answer hds hstates =>
    simp only [List.filterMap_cons, List.filterMap_append, stepOf?_query, stepOf?_interrupt,
      hds.no_step, no_step_looks, List.append_nil]

theorem Picks.no_step {selected : Option Nat} {thread : Nat} (h : Picks t selected xs thread) :
    xs.filterMap stepOf? = [] := by
  cases h <;> rfl

theorem Issues.steps {thread again : Nat} {kind : StepKind} {halted completed : Bool}
    (h : Issues t thread kind again halted xs ns completed) :
    xs.filterMap stepOf? = if halted then [(t, thread, kind)] else [] := by
  cases h with
  | skipped => rfl
  | issued hds hstates =>
    simp only [List.filterMap_cons, List.filterMap_append, stepOf?_step, hds.no_step,
      no_step_looks, List.append_nil, if_true]

theorem Closes.no_step {thread : Nat} {before now : Option StopInfo} {completed : Bool}
    {o : StepOutcome} (h : Closes t thread before now completed xs ns o) :
    xs.filterMap stepOf? = [] := by
  cases h <;> rfl

/-- The target steps once, with the current thread, if its process was halted, and else not at
all. -/
theorem StepEnded.steps {a : ActiveTarget} {settings : Settings} {kind : StepKind} {halted : Bool}
    {thread : Nat} {o : StepOutcome} (h : StepEnded a settings kind halted thread xs ns o) :
    xs.filterMap stepOf? = if halted then [(a.target, thread, kind)] else [] := by
  cases h with
  | intro hfirst hhalt hthread before hstep now hclose =>
    simp only [List.filterMap_cons, List.filterMap_append, stepOf?_query, hhalt.no_step,
      hthread.no_step, hstep.steps, hclose.no_step, List.nil_append, List.append_nil]

end Calls

/-! ### The reply -/

/-- The reply to a step. -/
def stepReply (o : StepOutcome) : Response :=
  ((Response.ok.withMember "threadId" (Json.ofNat o.thread)).withMember "pc"
    (Json.ofWord o.pc)).withMember "completed" (.bool o.completed)

/-- Whatever its target answers, an active session that is asked for a step either replies with the
outcome, after it stepped the current thread exactly if the process was halted, or refuses it for an
answer that leaves nothing to step; a wait that ends without the change is no reason to refuse. -/
theorem reply_step [DebugEngine ε] {s : Session (Journal ε)} {a : ActiveTarget}
    (h : s.lifecycle = .active a) (kind : StepKind) :
    ∃ xs ns, Happens xs ns s.channel (reply (.step kind) s).2.channel ∧
      ((∃ halted thread o, StepEnded a s.settings kind halted thread xs ns o ∧
          xs.filterMap stepOf? = (if halted then [(a.target, thread, kind)] else []) ∧
          (reply (.step kind) s).1 = stepReply o) ∨
        ∃ f, StepFailed a s.settings kind xs ns f ∧
          (reply (.step kind) s).1 = replyTo (.error f)) := by
  refine reply_of_ends (Q := fun response s' => ∃ xs ns, Happens xs ns s.channel s'.channel ∧
    ((∃ halted thread o, StepEnded a s.settings kind halted thread xs ns o ∧
        xs.filterMap stepOf? = (if halted then [(a.target, thread, kind)] else []) ∧
        response = stepReply o) ∨
      ∃ f, StepFailed a s.settings kind xs ns f ∧ response = replyTo (.error f))) ?_
  refine (leaves_boundedStep kind s ⟨rfl, a.notifying, h⟩).bind ?_ ?_
  · rintro o s' ⟨xs, ns, hxs, halted, thread, hended⟩
    exact ⟨xs, ns, hxs, .inl ⟨halted, thread, o, hended, hended.steps, rfl⟩⟩
  · rintro f s' ⟨xs, ns, hxs, hfailed⟩
    exact ⟨xs, ns, hxs, .inr ⟨f, hfailed, rfl⟩⟩

/-- A session whose process stops when it is asked to, and then hangs in its step. -/
def hanging : Session (Journal Engine.Scripted.Engine) where
  engine := .blank
    { capabilities := ⟨false, false, false⟩
      scripts := []
      targets :=
        [{ unsubscribed := false
           events := []
           states := [.running, .running, .running, .stopped, .running]
           stop := some ⟨7, 0x1000, .breakpoint⟩
           exit := none
           pid := some 7
           stdout := []
           stderr := []
           methods := [] }] }
  capabilities := ⟨false, false, false⟩
  settings := { Settings.standard with interrupt := ⟨0, 1⟩, step := ⟨⟨0, 1⟩, 0⟩ }
  outbox := ⟨.binary, ⟨[], 0, fun _ offered => offered, none⟩, none⟩
  lifecycle := .active ⟨0, true, none, 0⟩
  lastPrepared := none
  breakpoints := .empty

theorem reply_step_hanging :
    ((boundedStep .over).run.run hanging).1.toOption = some ⟨7, 0x1000, false⟩ ∧
      ∃ xs ns, Happens xs ns hanging.channel (reply (.step .over) hanging).2.channel ∧
        ((∃ halted thread o,
            StepEnded ⟨0, true, none, 0⟩ hanging.settings .over halted thread xs ns o ∧
            xs.filterMap stepOf? = (if halted then [(0, thread, .over)] else []) ∧
            (reply (.step .over) hanging).1 = stepReply o) ∨
          ∃ f, StepFailed ⟨0, true, none, 0⟩ hanging.settings .over xs ns f ∧
            (reply (.step .over) hanging).1 = replyTo (.error f)) :=
  ⟨by decide +kernel, reply_step rfl .over⟩

end Session

end DebugAdapter
