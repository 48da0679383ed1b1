import DebugAdapter.Proofs.BoundedSteps
import DebugAdapter.Proofs.Refocusing

/-!
# Searching for user code

A search for user code hops from caller to caller: each hop is a bounded step out of the current
function, and forgets the thread that was selected. `Search` is the journal of such a search, hop by
hop, with the four ways to leave it; `Confined` collects what follows from it by induction over the
hops.

Main statement: `reply_stepUntilUserCode`, which holds whatever the target answers.
-/

namespace DebugAdapter.Session

open Debuggee
open Operation
open Wire (Notification)

variable {ε : Type}

/-! ### Hops -/

/-- How far a search came with some hops more. -/
def Hops.after (h : Hops) (trail : List StepOutcome) : Hops :=
  trail.foldl (fun h o => ⟨o.thread, o.pc, h.hops + 1⟩) h

@[simp] theorem Hops.after_nil (h : Hops) : h.after [] = h := rfl

@[simp] theorem Hops.after_cons (h : Hops) (o : StepOutcome) (trail : List StepOutcome) :
    h.after (o :: trail) = (⟨o.thread, o.pc, h.hops + 1⟩ : Hops).after trail := rfl

theorem Hops.after_hops (h : Hops) (trail : List StepOutcome) :
    (h.after trail).hops = h.hops + trail.length := by
  induction trail generalizing h with
  | nil => rfl
  | cons o trail ih =>
    rw [after_cons, ih, List.length_cons, Nat.add_right_comm, Nat.add_assoc]

/-- The journal of a search with some hops left: the outcomes of the hops that came to an end, and
the failure that ended the search, if one did. -/
inductive Search (settings : Settings) (arrived : UInt64 → Bool) :
    ActiveTarget → Nat → Hops → List Entry → List Notification → List StepOutcome →
      Option Failure → Prop
  /-- No hops are left. -/
  | limit {a : ActiveTarget} {h : Hops} : Search settings arrived a 0 h [] [] [] none
  | reached {a : ActiveTarget} {left : Nat} {h : Hops} (hpc : arrived h.pc = true) :
      Search settings arrived a (left + 1) h [] [] [] none
  | failed {a : ActiveTarget} {left : Nat} {h : Hops} (hpc : arrived h.pc = false)
      {xs : List Entry} {ns : List Notification} {f : Failure}
      (hstep : StepFailed a settings .out xs ns f) :
      Search settings arrived a (left + 1) h xs ns [] (some f)
  /-- A hop did not end in time. -/
  | missed {a : ActiveTarget} {left : Nat} {h : Hops} (hpc : arrived h.pc = false) {halted : Bool}
      {thread : Nat} {xs : List Entry} {ns : List Notification} {o : StepOutcome}
      (hstep : StepEnded a settings .out halted thread xs ns o) (hmissed : o.completed = false) :
      Search settings arrived a (left + 1) h xs ns [o] none
  | hopped {a : ActiveTarget} {left : Nat} {h : Hops} (hpc : arrived h.pc = false) {halted : Bool}
      {thread : Nat} {xs ys : List Entry} {ns ms : List Notification} {o : StepOutcome}
      {trail : List StepOutcome} {stop : Option Failure}
      (hstep : StepEnded a settings .out halted thread xs ns o) (hcompleted : o.completed = true)
      (hrest : Search settings arrived a.resetFocus left ⟨o.thread, o.pc, h.hops + 1⟩ ys ms trail
        stop) :
      Search settings arrived a (left + 1) h (xs ++ ys) (ns ++ ms) (o :: trail) stop

/-! ### What a search may do -/

/-- The hops that a search has begun: those that ended and the one that failed. -/
def begun (trail : List StepOutcome) (stop : Option Failure) : Nat :=
  trail.length + stop.toList.length

/-- A search keeps to its limit, steps only out and only from outside, and goes on only after hops
that ended in time. -/
structure Confined (t : Handle) (limit : Nat) (arrived : UInt64 → Bool) (h : Hops)
    (xs : List Entry) (trail : List StepOutcome) (stop : Option Failure) : Prop where
  bounded : begun trail stop ≤ limit
  /-- No hop steps more than once. -/
  steps : (xs.filterMap stepOf?).length ≤ begun trail stop
  out : ∀ call ∈ xs.filterMap stepOf?, ∃ thread, call = (t, thread, .out)
  /-- Before each hop that is begun the program counter is outside, and the hops so far ended in
  time. -/
  outside : ∀ i < begun trail stop,
    arrived (h.after (trail.take i)).pc = false ∧ ∀ o ∈ trail.take i, o.completed = true
  /-- A search that is inside at its start asks the target nothing. -/
  inside : arrived h.pc = true → xs = [] ∧ trail = [] ∧ stop = none
  /-- A search that does not arrive has no hops left or ends with one that did not end in time. -/
  ended : stop = none → arrived (h.after trail).pc = false →
    trail.length = limit ∨ ∃ o, trail.getLast? = some o ∧ o.completed = false

/-- What one hop may step: at most once, and out. -/
structure StepsOutOnce (t : Handle) (xs : List Entry) : Prop where
  steps : (xs.filterMap stepOf?).length ≤ 1
  out : ∀ call ∈ xs.filterMap stepOf?, ∃ thread, call = (t, thread, .out)

theorem Threadless.no_step {t : Handle} {selected : Option Nat} {xs : List Entry} {f : Failure}
    (h : Threadless t selected xs f) : xs.filterMap stepOf? = [] := by
  cases h <;> rfl

/-- A step that is refused steps at most once, and then as it was asked to. -/
theorem StepFailed.steps {a : ActiveTarget} {settings : Settings} {kind : StepKind}
    {xs : List Entry} {ns : List Notification} {f : Failure}
    (h : StepFailed a settings kind xs ns f) :
    xs.filterMap stepOf? = [] ∨ ∃ thread, xs.filterMap stepOf? = [(a.target, thread, kind)] := by
  cases h with
  | gone hfirst => exact .inl rfl
  | unhalted hfirst hp text => exact .inl rfl
  | threadless hfirst hhalt hthread =>
    refine .inl ?_
    simp only [List.filterMap_cons, List.filterMap_append, stepOf?_query, hhalt.no_step,
      hthread.no_step, List.append_nil]
  | @refused _ _ _ _ hhalt _ thread hthread before e _ _ hds =>
    refine .inr ⟨thread, ?_⟩
    simp only [List.filterMap_cons, List.filterMap_append, stepOf?_query, stepOf?_step,
      hhalt.no_step, hthread.no_step, hds.no_step, List.nil_append]
  | @crashed _ _ _ _ hhalt _ thread hthread before text =>
    refine .inr ⟨thread, ?_⟩
    simp only [List.filterMap_cons, List.filterMap_append, List.filterMap_nil, stepOf?_query,
      stepOf?_step, hhalt.no_step, hthread.no_step, List.nil_append]

section Search

variable {settings : Settings} {arrived : UInt64 → Bool} {a : ActiveTarget} {left : Nat} {h : Hops}
  {xs : List Entry} {ns : List Notification} {trail : List StepOutcome} {stop : Option Failure}

theorem stepsOutOnce_of_none {t : Handle} (hnone : xs.filterMap stepOf? = []) :
    StepsOutOnce t xs where
  steps := by rw [hnone]; exact Nat.zero_le 1
  out := by rw [hnone]; exact List.forall_mem_nil _

theorem stepsOutOnce_of_one {t : Handle} {thread : Nat}
    (hone : xs.filterMap stepOf? = [(t, thread, .out)]) : StepsOutOnce t xs where
  steps := by rw [hone]; exact Nat.le_refl 1
  out := by rw [hone]; exact List.forall_mem_singleton.mpr ⟨thread, rfl⟩

theorem StepEnded.out {halted : Bool} {thread : Nat} {o : StepOutcome}
    (hstep : StepEnded a settings .out halted thread xs ns o) : StepsOutOnce a.target xs := by
  cases halted with
  | true => exact stepsOutOnce_of_one hstep.steps
  | false => exact stepsOutOnce_of_none hstep.steps

theorem StepFailed.out {f : Failure} (hstep : StepFailed a settings .out xs ns f) :
    StepsOutOnce a.target xs := by
  rcases hstep.steps with hnone | ⟨thread, hone⟩
  · exact stepsOutOnce_of_none hnone
  · exact stepsOutOnce_of_one hone

/-- A search that begins no hop. -/
theorem confined_nil {t : Handle} (hlimit : arrived h.pc = true ∨ left = 0) :
    Confined t left arrived h [] [] none where
  bounded := Nat.zero_le left
  steps := Nat.zero_le 0
  out := List.forall_mem_nil _
  outside i hi := absurd hi (Nat.not_lt_zero i)
  inside _ := ⟨rfl, rfl, rfl⟩
  ended _ hpc := by
    rcases hlimit with hlimit | rfl
    · exact absurd (hpc.symm.trans hlimit) (by decide)
    · exact .inl rfl

/-- A search whose first hop is the last one that it begins. -/
theorem confined_last {t : Handle} (hpc : arrived h.pc = false) (hbegun : begun trail stop = 1)
    (hstep : StepsOutOnce t xs)
    (hended : stop = none → ∃ o, trail.getLast? = some o ∧ o.completed = false) :
    Confined t (left + 1) arrived h xs trail stop where
  bounded := hbegun.symm ▸ Nat.le_add_left 1 left
  steps := hbegun.symm ▸ hstep.steps
  out := hstep.out
  outside i hi := by
    rw [hbegun, Nat.lt_one_iff] at hi
    subst hi
    exact ⟨hpc, List.forall_mem_nil _⟩
  inside hin := absurd (hpc.symm.trans hin) (by decide)
  ended hstop _ := .inr (hended hstop)

/-- A search that goes on after a hop. -/
theorem Confined.hop {t : Handle} {ys : List Entry} {o : StepOutcome} (hpc : arrived h.pc = false)
    (hstep : StepsOutOnce t xs) (hcompleted : o.completed = true)
    (hrest : Confined t left arrived ⟨o.thread, o.pc, h.hops + 1⟩ ys trail stop) :
    Confined t (left + 1) arrived h (xs ++ ys) (o :: trail) stop := by
  have hbegun : begun (o :: trail) stop = begun trail stop + 1 := by
    rw [begun, begun, List.length_cons, Nat.add_right_comm]
  refine ⟨?_, ?_, ?_, ?_, ?_, ?_⟩
  · rw [hbegun]
    exact Nat.succ_le_succ hrest.bounded
  · rw [hbegun, List.filterMap_append, List.length_append, Nat.add_comm]
    exact Nat.add_le_add hrest.steps hstep.steps
  · rw [List.filterMap_append]
    exact fun call hcall => (List.mem_append.mp hcall).elim (hstep.out call) (hrest.out call)
  · intro i hi
    cases i with
    | zero => exact ⟨hpc, List.forall_mem_nil _⟩
    | succ i =>
      rw [hbegun] at hi
      obtain ⟨houtside, hall⟩ := hrest.outside i (Nat.lt_of_succ_lt_succ hi)
      exact ⟨houtside, List.forall_mem_cons.mpr ⟨hcompleted, hall⟩⟩
  · exact fun hin => absurd (hpc.symm.trans hin) (by decide)
  · intro hstop hout
    rcases hrest.ended hstop hout with hlimit | ⟨last, hlast, hmissed⟩
    · exact .inl (congrArg Nat.succ hlimit)
    · refine .inr ⟨last, ?_, hmissed⟩
      rw [List.getLast?_cons, hlast]
      rfl

/-- Every search keeps to what it may do. -/
theorem Search.confined (hsearch : Search settings arrived a left h xs ns trail stop) :
    Confined a.target left arrived h xs trail stop := by
  induction hsearch with
  | limit => exact confined_nil (.inr rfl)
  | reached hpc => exact confined_nil (.inl hpc)
  | failed hpc hstep => exact confined_last hpc rfl hstep.out nofun
  | missed hpc hstep hmissed => exact confined_last hpc rfl hstep.out fun _ => ⟨_, rfl, hmissed⟩
  | hopped hpc hstep hcompleted _ ih => exact .hop hpc hstep.out hcompleted ih

end Search

/-! ### The search of a session -/

variable [DebugEngine ε]

/-- After a step that came to a reply the session looks at no thread. -/
theorem stands_boundedStep (kind : StepKind) {a : ActiveTarget} {settings : Settings}
    {s : Session ε} (hs : Stands a settings s) : Ends (boundedStep kind) s fun r s' =>
      ∀ o, r = .ok o → Stands a.resetFocus settings s' := by
  obtain ⟨n, hn⟩ := hs.active
  refine (settles_boundedStep (E := AnyEngine) (D := AnyEngine) kind s).mono ?_
  rintro r s' h o rfl
  have hturns : Turns AnyEngine .unfocused s s' := h.elim id And.right
  refine ⟨hturns.settings.trans hs.settings, active_of_unnotified ?_⟩
  rw [hturns.lifecycle]
  show s.lifecycle.unnotified.refocus _ = _
  rw [hn]
  rfl

/-- The journal of a search from hop to hop. -/
theorem leaves_hopWith (settings : Settings) (arrived : UInt64 → Bool) (left : Nat) :
    ∀ (a : ActiveTarget) (h : Hops), Leaves a settings
      (hopWith arrived left h : Action (Journal ε) Hops) fun xs ns r =>
        ∃ trail stop, Search settings arrived a left h xs ns trail stop ∧
          r = stop.elim (.ok (h.after trail)) .error := by
  induction left with
  | zero => exact fun a h s _ => ⟨[], [], .refl s.channel, [], none, .limit, rfl⟩
  | succ left ih =>
    intro a h s hs
    rw [hopWith]
    cases hpc : arrived h.pc with
    | true => exact ⟨[], [], .refl s.channel, [], none, .reached hpc, rfl⟩
    | false =>
      rw [if_neg Bool.false_ne_true]
      refine ((leaves_boundedStep .out s hs).and (stands_boundedStep .out hs)).bind ?_ ?_
      · rintro o s' ⟨⟨xs, ns, hxs, halted, thread, hended⟩, hs'⟩
        dsimp only
        cases hcompleted : o.completed with
        | true =>
          refine (ih a.resetFocus ⟨o.thread, o.pc, h.hops + 1⟩ s' (hs' o rfl)).mono ?_
          rintro r u ⟨ys, ms, hys, trail, stop, hsearch, rfl⟩
          exact ⟨_, _, hxs.append hys, o :: trail, stop, .hopped hpc hended hcompleted hsearch, rfl⟩
        | false => exact ⟨xs, ns, hxs, [o], none, .missed hpc hended hcompleted, rfl⟩
      · rintro f s' ⟨⟨xs, ns, hxs, hfailed⟩, -⟩
        exact ⟨xs, ns, hxs, [], some f, .failed hpc hfailed, rfl⟩

/-- The journal of a search that is refused before its first hop. -/
inductive SearchRefused (a : ActiveTarget) : List Entry → Failure → Prop
  | failed (e : DebugError) :
      SearchRefused a [.call (.request a.target .mainModule) (.error (.error e))]
        (.refused (.engine "main module" e))
  | crashed (text : Option String) :
      SearchRefused a [.call (.request a.target .mainModule) (.error (.crash text))] (.crashed text)
  | moduleless :
      SearchRefused a [.call (.request a.target .mainModule) (.ok none)]
        (.refused (.engine "main module" .noMainModule))
  | threadless (main : Module) (before : Option StopInfo) {ps : List Entry} {f : Failure}
      (hthread : Threadless a.target a.selectedThread ps f) :
      SearchRefused a (.call (.request a.target .mainModule) (.ok (some main)) ::
        .query a.target .stopInfo before :: ps) f

/-- The journal of a search that begins: the main module, the place and the thread where it starts,
and its hops. -/
structure Searches (a : ActiveTarget) (settings : Settings) (main : Module) (h : Hops)
    (hs : List Entry) (trail : List StepOutcome) (stop : Option Failure)
    (xs : List Entry) (ns : List Notification) : Prop where
  search : Search settings main.contains a settings.step.maxHops h hs ns trail stop
  entries : ∃ before ps, Picks a.target a.selectedThread ps h.thread ∧ h.pc = lastPc before ∧
    h.hops = 0 ∧ xs = .call (.request a.target .mainModule) (.ok (some main)) ::
      .query a.target .stopInfo before :: (ps ++ hs)

theorem leaves_stepUntilUserCode (a : ActiveTarget) (settings : Settings) :
    Leaves a settings (stepUntilUserCode : Action (Journal ε) Wire.Response) fun xs ns r =>
      (∃ f, SearchRefused a xs f ∧ ns = [] ∧ r = .error f) ∨
      ∃ main h hs trail stop, Searches a settings main h hs trail stop xs ns ∧
        r = stop.elim (.ok (searchReply main (h.after trail))) .error := by
  rw [stepUntilUserCode]
  refine leaves_target_bind (leaves_request_bind (fun main => ?_)
    (fun e => .inl ⟨_, .failed e, rfl, rfl⟩) fun text => .inl ⟨_, .crashed text, rfl, rfl⟩)
  cases main with
  | none => exact leaves_refuse_bind (.inl ⟨_, .moduleless, rfl, rfl⟩)
  | some main =>
    dsimp only
    rw [pure_bind]
    refine leaves_observe_bind fun before => ?_
    refine leaves_currentThread_bind (fun ps thread hthread => ?_) fun ps f hthread =>
      .inl ⟨f, .threadless main before hthread, rfl, rfl⟩
    refine leaves_get_bind fun s hsettings => ?_
    rw [hsettings]
    have hsearch := leaves_hopWith (ε := ε) settings main.contains settings.step.maxHops a
      ⟨thread, lastPc before, 0⟩
    refine fun t ht => (hsearch t ht).bind ?_ ?_
    · rintro o u ⟨ys, ms, hys, trail, stop, hsearch, ho⟩
      cases stop with
      | some f => cases ho
      | none =>
        cases ho
        exact ⟨ys, ms, hys, .inr ⟨main, _, ys, trail, none,
          ⟨hsearch, before, ps, hthread, rfl, rfl, rfl⟩, rfl⟩⟩
    · rintro f u ⟨ys, ms, hys, trail, stop, hsearch, hf⟩
      cases stop with
      | none => cases hf
      | some f =>
        cases hf
        exact ⟨ys, ms, hys, .inr ⟨main, _, ys, trail, some f,
          ⟨hsearch, before, ps, hthread, rfl, rfl, rfl⟩, rfl⟩⟩

/-- Whatever its target answers, an active session that is asked to search for user code either has
no main module or no thread to start from, and steps nothing, or it hops at most as often as its
settings allow, and each time only from outside the main module and after hops that all ended in
time. It replies where it came to, whether that is inside, and how many hops it made, unless a hop
failed; a search that does not come inside has made all its hops or ends with one that did not end
in time. -/
theorem reply_stepUntilUserCode {s : Session (Journal ε)} {a : ActiveTarget}
    (h : s.lifecycle = .active a) :
    ∃ xs ns, Happens xs ns s.channel (reply .stepUntilUserCode s).2.channel ∧
      ((∃ f, SearchRefused a xs f ∧ ns = [] ∧
          (reply .stepUntilUserCode s).1 = replyTo (.error f)) ∨
        ∃ main start hs trail stop, Searches a s.settings main start hs trail stop xs ns ∧
          Confined a.target s.settings.step.maxHops main.contains start hs trail stop ∧
          (start.after trail).hops = trail.length ∧
          (reply .stepUntilUserCode s).1 =
            replyTo (stop.elim (.ok (searchReply main (start.after trail))) .error)) := by
  refine reply_of_ends (Q := fun response s' => ∃ xs ns, Happens xs ns s.channel s'.channel ∧
    ((∃ f, SearchRefused a xs f ∧ ns = [] ∧ response = replyTo (.error f)) ∨
      ∃ main start hs trail stop, Searches a s.settings main start hs trail stop xs ns ∧
        Confined a.target s.settings.step.maxHops main.contains start hs trail stop ∧
        (start.after trail).hops = trail.length ∧
        response = replyTo (stop.elim (.ok (searchReply main (start.after trail))) .error))) ?_
  refine (leaves_stepUntilUserCode a s.settings s ⟨rfl, a.notifying, h⟩).mono ?_
  rintro r s' ⟨xs, ns, hxs, ⟨f, hrefused, hns, rfl⟩ |
    ⟨main, start, hs, trail, stop, hsearches, rfl⟩⟩
  · exact ⟨xs, ns, hxs, .inl ⟨f, hrefused, hns, rfl⟩⟩
  · obtain ⟨before, ps, -, -, hstart, -⟩ := hsearches.entries
    have hhops : (start.after trail).hops = trail.length := by
      rw [Hops.after_hops, hstart, Nat.zero_add]
    exact ⟨xs, ns, hxs, .inr ⟨main, start, hs, trail, stop, hsearches, hsearches.search.confined,
      hhops, rfl⟩⟩

/-- The executable of a process that is halted in a library. -/
def userModule : Module := ⟨"/app", none, 0x1000, 0, 0x1000, []⟩

/-- A session whose process is halted in a library, and hangs when it is stepped for the second
time. -/
def roaming : Session (Journal Engine.Scripted.Engine) where
  engine := .blank
    { capabilities := ⟨false, false, false⟩
      scripts := []
      targets :=
        [{ unsubscribed := false
           events := []
           states := [.stopped, .stopped, .stopped, .stopped, .stopped, .running]
           stop := some ⟨7, 0x9000, .breakpoint⟩
           exit := none
           pid := some 7
           stdout := []
           stderr := []
           methods :=
            [("main_module", [⟨.none, [], .value (some (.module (some userModule)))⟩]),
              ("step", [⟨{ Engine.Scripted.Update.none with
                stop := some (some ⟨7, 0x8000, .trace⟩) }, [], .value none⟩])] }] }
  capabilities := ⟨false, false, false⟩
  settings := { Settings.standard with step := ⟨⟨0, 1⟩, 3⟩ }
  outbox := ⟨.binary, ⟨[], 0, fun _ offered => offered, none⟩, none⟩
  lifecycle := .active ⟨0, true, some 7, 2⟩
  lastPrepared := none
  breakpoints := .empty

/-- The search gives up after its second hop, before its limit. -/
theorem reply_stepUntilUserCode_roaming :
    ((hopWith userModule.contains 3 ⟨7, 0x9000, 0⟩).run.run roaming).1.toOption =
        some ⟨7, 0x8000, 2⟩ ∧
    ∃ xs ns, Happens xs ns roaming.channel (reply .stepUntilUserCode roaming).2.channel ∧
      ((∃ f, SearchRefused ⟨0, true, some 7, 2⟩ xs f ∧ ns = [] ∧
          (reply .stepUntilUserCode roaming).1 = replyTo (.error f)) ∨
        ∃ main start hs trail stop,
          Searches ⟨0, true, some 7, 2⟩ roaming.settings main start hs trail stop xs ns ∧
          Confined 0 3 main.contains start hs trail stop ∧
          (start.after trail).hops = trail.length ∧
          (reply .stepUntilUserCode roaming).1 =
            replyTo (stop.elim (.ok (searchReply main (start.after trail))) .error)) :=
  ⟨by decide +kernel, reply_stepUntilUserCode rfl⟩

end DebugAdapter.Session
