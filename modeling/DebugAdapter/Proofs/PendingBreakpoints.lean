import DebugAdapter.Proofs.Refocusing
import DebugAdapter.Proofs.TargetLives

/-!
# Pending breakpoints

A command that begins a process has two parts. The first one (`beginHalted`) makes a target, has it
start a process that stays halted, and asks it for every breakpoint that is pending; the second one
(`goOn`) lets a launched process run, if that is wanted, and makes the reply. So a process that the
session lets run has its breakpoints. `Planted` says what the first part leaves in the journal and
in the session.
-/

namespace DebugAdapter

open Operation

namespace Debuggee

/-- A request to unwind a call stack. -/
def Request.unwinds : Request → Bool
  | callStack _ => true
  | _ => false

/-- An engine that answers, with a result or an error, when it is asked for a breakpoint. -/
class DebugEngine.AnswersBreakpoints (ε : Type) [DebugEngine ε] : Prop where
  ne_crash : ∀ (t : Handle) (addr : UInt64) (e : ε) (text : Option String),
    (DebugEngine.perform (.request t (.setBreakpoint addr)) e).1 ≠ .error (.crash text)

/-- An engine whose requests come back, with a result or an error, but for the unwinding of a call
stack, which may break down. -/
class DebugEngine.BreaksOnlyUnwinding (ε : Type) [DebugEngine ε] : Prop where
  ne_crash : ∀ (t : Handle) (r : Request) (e : ε) (text : Option String), r.unwinds = false →
    (DebugEngine.perform (.request t r) e).1 ≠ .error (.crash text)

/-- The engine breaks down over some request other than to unwind a call stack. -/
def DebugEngine.BreaksElsewhere (ε : Type) [DebugEngine ε] : Prop :=
  ∃ (t : Handle) (r : Request) (e : ε) (text : Option String), r.unwinds = false ∧
    (DebugEngine.perform (.request t r) e).1 = .error (.crash text)

theorem not_breaksElsewhere {ε : Type} [DebugEngine ε] [DebugEngine.BreaksOnlyUnwinding ε] :
    ¬DebugEngine.BreaksElsewhere ε := by
  rintro ⟨t, r, e, text, hr, hcrash⟩
  exact DebugEngine.BreaksOnlyUnwinding.ne_crash t r e text hr hcrash

instance {ε : Type} [DebugEngine ε] [DebugEngine.BreaksOnlyUnwinding ε] :
    DebugEngine.AnswersBreakpoints ε where
  ne_crash t _ e text := DebugEngine.BreaksOnlyUnwinding.ne_crash t _ e text rfl

namespace Entry

/-- A target was asked for a breakpoint. -/
def plants : Entry → Bool
  | call (.request _ (.setBreakpoint _)) _ => true
  | _ => false

/-- A target was asked to let its process run. -/
def resumes : Entry → Bool
  | call (.request _ .resume) _ => true
  | _ => false

/-- A target was asked for a process that runs at once. -/
def runsAhead : Entry → Bool
  | call (.request _ (.launch info)) _ => !info.stopAtEntry
  | _ => false

/-- An entry from before the breakpoints are set. -/
structure Early (x : Entry) : Prop where
  plants : x.plants = false
  resumes : x.resumes = false
  runsAhead : x.runsAhead = false

/-- An entry from after the breakpoints are set. -/
structure Late (x : Entry) : Prop where
  plants : x.plants = false
  runsAhead : x.runsAhead = false

theorem Early.late {x : Entry} (h : x.Early) : x.Late := ⟨h.plants, h.runsAhead⟩

theorem early_query (t : Handle) (q : Query) (answer : q.Answer) : Early (.query t q answer) :=
  ⟨rfl, rfl, rfl⟩

end Entry

variable {ε : Type}

/-- The journal grows by entries with a property. -/
def Adds (P : Entry → Prop) (j j' : Journal ε) : Prop :=
  ∃ xs, j'.entries = j.entries ++ xs ∧ ∀ x ∈ xs, P x

section Adds

variable {P : Entry → Prop}

instance : StepRelation (Adds (ε := ε) P) where
  refl j := ⟨[], (List.append_nil _).symm, List.forall_mem_nil P⟩
  trans := by
    rintro j j' j'' ⟨xs, hxs, hP⟩ ⟨ys, hys, hP'⟩
    refine ⟨xs ++ ys, by rw [hys, hxs, List.append_assoc], fun x hx => ?_⟩
    exact (List.mem_append.mp hx).elim (hP x) (hP' x)

theorem Adds.mono {Q : Entry → Prop} {j j' : Journal ε} (h : Adds P j j') (hPQ : ∀ x, P x → Q x) :
    Adds Q j j' := by
  obtain ⟨xs, hxs, hP⟩ := h
  exact ⟨xs, hxs, fun x hx => hPQ x (hP x hx)⟩

variable [DebugEngine ε]

theorem adds_perform (c : Call) (j : Journal ε) (h : P (.call c (DebugEngine.perform c j).1)) :
    Adds P j (DebugEngine.perform c j).2 :=
  ⟨[.call c (DebugEngine.perform c j).1], rfl, List.forall_mem_singleton.mpr h⟩

theorem adds_observe (t : Handle) (q : Query) (j : Journal ε)
    (h : P (.query t q (DebugEngine.observe t q j).1)) : Adds P j (DebugEngine.observe t q j).2 :=
  ⟨[.query t q (DebugEngine.observe t q j).1], rfl, List.forall_mem_singleton.mpr h⟩

instance : BeginRelation (Adds (ε := ε) Entry.Early) where
  create executable arch j := adds_perform (.createTarget executable arch) j ⟨rfl, rfl, rfl⟩
  destroy t j := adds_perform (.request t .destroy) j ⟨rfl, rfl, rfl⟩
  look t q j := adds_observe t q j (Entry.early_query t q _)

instance : WatchRelation (Adds (ε := ε) Entry.Late) where
  output t r j hr := by
    refine adds_perform _ j ?_
    cases r <;> first | exact ⟨rfl, rfl⟩ | cases hr
  look t q j := adds_observe t q j (Entry.early_query t q _).late

end Adds

/-- A target has started a process, and nothing has happened that belongs after that. -/
def Started (t : Handle) (j j' : Journal ε) : Prop :=
  ∃ xs, j'.entries = j.entries ++ xs ∧ (∀ x ∈ xs, x.Early) ∧
    ∃ x ∈ xs, x.starts t = true ∧ x.succeeded = true

theorem Started.after {t : Handle} {j j' j'' : Journal ε} (h : Started t j j')
    (h' : Adds Entry.Early j' j'') : Started t j j'' := by
  obtain ⟨xs, hxs, hearly, x, hx, hstarts⟩ := h
  obtain ⟨ys, hys, hearly'⟩ := h'
  refine ⟨xs ++ ys, by rw [hys, hxs, List.append_assoc], fun y hy => ?_, x,
    List.mem_append_left ys hx, hstarts⟩
  exact (List.mem_append.mp hy).elim (hearly y) (hearly' y)

theorem Started.before {t : Handle} {j j' j'' : Journal ε} (h : Adds Entry.Early j j')
    (h' : Started t j' j'') : Started t j j'' := by
  obtain ⟨xs, hxs, hearly⟩ := h
  obtain ⟨ys, hys, hearly', y, hy, hstarts⟩ := h'
  refine ⟨xs ++ ys, by rw [hys, hxs, List.append_assoc], fun z hz => ?_, y,
    List.mem_append_right xs hy, hstarts⟩
  exact (List.mem_append.mp hz).elim (hearly z) (hearly' z)

instance [DebugEngine ε] [DebugEngine.AnswersBreakpoints ε] :
    DebugEngine.AnswersBreakpoints (Journal ε) where
  ne_crash t addr j := DebugEngine.AnswersBreakpoints.ne_crash t addr j.engine

instance [DebugEngine ε] [DebugEngine.BreaksOnlyUnwinding ε] :
    DebugEngine.BreaksOnlyUnwinding (Journal ε) where
  ne_crash t r j := DebugEngine.BreaksOnlyUnwinding.ne_crash t r j.engine

end Debuggee

namespace Session

open Debuggee
open Wire (Response)

variable {ε : Type}

/-! ### Breakpoints and the calls for them -/

/-- The calls for the breakpoints that are pending, in order, and the breakpoints after them: one
that the target sets is known by the id that the target gives it, one that it refuses stays
pending. -/
inductive Plants (t : Handle) : List BreakpointEntry → List Entry → List BreakpointEntry → Prop
  | none : Plants t [] [] []
  | known {e : BreakpointEntry} {es es' : List BreakpointEntry} {calls : List Entry}
      (he : e.engineId.isSome = true) (h : Plants t es calls es') :
      Plants t (e :: es) calls (e :: es')
  | set {e : BreakpointEntry} {es es' : List BreakpointEntry} {calls : List Entry}
      (he : e.engineId = .none) (info : BreakpointInfo) (h : Plants t es calls es') :
      Plants t (e :: es) (.call (.request t (.setBreakpoint e.address)) (.ok info) :: calls)
        ({ e with engineId := some info.id } :: es')
  | refused {e : BreakpointEntry} {es es' : List BreakpointEntry} {calls : List Entry}
      (he : e.engineId = .none) (error : DebugError) (h : Plants t es calls es') :
      Plants t (e :: es)
        (.call (.request t (.setBreakpoint e.address)) (.error (.error error)) :: calls) (e :: es')

/-- Ids and addresses stay. -/
theorem Plants.places {t : Handle} {es es' : List BreakpointEntry} {calls : List Entry}
    (h : Plants t es calls es') :
    es'.map (fun e => (e.id, e.address)) = es.map fun e => (e.id, e.address) := by
  induction h with
  | none => rfl
  | known _ _ ih => exact congrArg (List.cons _) ih
  | set _ _ _ ih => exact congrArg (List.cons _) ih
  | refused _ _ _ ih => exact congrArg (List.cons _) ih

/-- The breakpoint that a target was asked for. -/
def plantOf? : Entry → Option (Handle × UInt64)
  | .call (.request t (.setBreakpoint addr)) _ => some (t, addr)
  | _ => none

/-- There is one call for each pending breakpoint, in their order. -/
theorem Plants.calls {t : Handle} {es es' : List BreakpointEntry} {calls : List Entry}
    (h : Plants t es calls es') : calls.map plantOf? =
      (es.filter (·.engineId.isNone)).map fun e => some (t, e.address) := by
  induction h with
  | none => rfl
  | known he _ ih => simpa [Option.isSome_iff_ne_none.mp he] using ih
  | set he info _ ih => simpa [he, plantOf?] using ih
  | refused he error _ ih => simpa [he, plantOf?] using ih

/-- The calls for breakpoints do nothing else. -/
theorem Plants.late {t : Handle} {es es' : List BreakpointEntry} {calls : List Entry}
    (h : Plants t es calls es') : ∀ x ∈ calls, x.resumes = false ∧ x.runsAhead = false := by
  induction h with
  | none => exact List.forall_mem_nil _
  | known _ _ ih => exact ih
  | set _ _ _ ih => exact List.forall_mem_cons.mpr ⟨⟨rfl, rfl⟩, ih⟩
  | refused _ _ _ ih => exact List.forall_mem_cons.mpr ⟨⟨rfl, rfl⟩, ih⟩

/-- The order of breakpoints is that of their ids. -/
theorem sorted_of_ids {es es' : List BreakpointEntry} (h : es'.map (·.id) = es.map (·.id))
    (hes : es.Pairwise (·.id < ·.id)) : es'.Pairwise (·.id < ·.id) := by
  have hids : (es.map (·.id)).Pairwise (· < ·) := List.pairwise_map.mpr hes
  rw [← h] at hids
  exact List.pairwise_map.mp hids

/-- Only the entry with the id changes. -/
theorem entries_install {b : Breakpoints} {ds es : List BreakpointEntry} {e : BreakpointEntry}
    (hb : b.entries = ds ++ e :: es) (hsorted : (ds ++ e :: es).Pairwise (·.id < ·.id))
    (engineId : Nat) :
    (b.install e.id engineId).entries = ds ++ { e with engineId := some engineId } :: es := by
  obtain ⟨-, hes, hds⟩ := List.pairwise_append.mp hsorted
  have hkeep : ∀ l : List BreakpointEntry, (∀ d ∈ l, d.id ≠ e.id) →
      l.map (fun d => if d.id = e.id then { d with engineId := some engineId } else d) = l := by
    intro l hl
    refine (List.map_congr_left fun d hd => ?_).trans (List.map_id l)
    rw [if_neg (hl d hd), id]
  rw [Breakpoints.install, hb]
  dsimp only
  rw [List.map_append, List.map_cons, if_pos rfl,
    hkeep ds fun d hd => Nat.ne_of_lt (hds d hd e List.mem_cons_self),
    hkeep es fun d hd => Nat.ne_of_gt ((List.pairwise_cons.mp hes).1 d hd)]

variable [DebugEngine ε]

/-! ### The first part of a command that begins a process -/

/-- A process is started that stays halted, and becomes that of the session. -/
def startHalted (executable : Option String) (is64 : Bool) (r : Request)
    (failed : DebugError → SessionError) : Action ε Handle := do
  let t ← createTarget executable is64
  startTarget t r failed
  activate t
  return t

/-- The first part: a process is started, or taken charge of, and has its breakpoints. -/
def beginHalted : Command → Action ε Handle
  | .launch => launchStopped
  | .attach pid executable is64 => do
    requireInactive
    startHalted executable is64 (.attach pid) .attachFailed
  | .connectRemote is64 url plugin file => do
    requireInactive
    if (← get).capabilities.remoteConnect then
      startHalted file is64 (.connectRemote url plugin) .connectFailed
    else refuse (.unsupported "remote connection")
  | _ => refuse .noProcess

/-- The second part: a launched process runs if it is not to stay halted, and the reply is made. -/
def goOn (stopAtEntry : Bool) : Command → Handle → Action ε Response
  | .launch, t => resumeLaunched stopAtEntry t
  | .attach pid _ _, t => do
    let reply := Response.ok.withMember "pid" (Json.ofNat pid)
    match ← tryRequest t .mainModule with
    | .ok (some main) => return withSlide reply main
    | _ => return reply
  | _, _ => return .ok

/-- A command that begins a process consists of its two parts. -/
theorem ends_begins {c : Command} (hc : c.begins = true) (s : Session ε)
    (Q : Except Failure Response → Session ε → Prop) : Ends (execute c) s Q ↔
      Ends (beginHalted c >>= goOn s.settings.launch.stopAtEntry c) s Q := by
  cases c with
  | launch => exact ends_launch s Q
  | attach pid executable is64 =>
    simp only [execute, attach, beginHalted, startHalted, bind_assoc, pure_bind]
    exact Iff.rfl
  | connectRemote is64 url plugin file =>
    simp only [execute, connectRemote, beginHalted, startHalted, bind_assoc]
    rw [ends_bind, ends_bind]
    refine ends_congr fun r s₁ => ?_
    cases r with
    | error f => exact Iff.rfl
    | ok _ =>
      dsimp only
      rw [ends_get_bind, ends_get_bind]
      split
      · simp only [bind_assoc, pure_bind]
        exact Iff.rfl
      · exact Iff.rfl
  | _ => cases hc

/-! ### What the first part leaves -/

/-- A command that begins a process is refused, or breaks down, before breakpoints are set. -/
abbrev Unbegun (s s' : Session (Journal ε)) : Prop := Still (Adds Entry.Early) s s'

section Begin

variable {E : ε → ε → Prop} [BeginRelation E]

theorem idles_beginLook (t : Handle) (q : Query) : Idles E (observe t q : Action ε q.Answer) :=
  idles_observe_of (BeginRelation.look t q)

theorem idles_createTarget (executable : Option String) (is64 : Bool) :
    Idles E (createTarget executable is64 : Action ε Handle) := by
  refine (idles_perform_of (BeginRelation.create executable _)).bind fun answer => ?_
  cases answer with
  | error e => exact idles_refuse rfl
  | ok t =>
    refine (idles_beginLook t .subscribe).bind fun subscribed => ?_
    split
    · exact idles_pure t
    · exact idles_refuse rfl

theorem idles_destroy (t : Handle) :
    Idles E (tryRequest t .destroy : Action ε (Except DebugError Unit)) :=
  idles_perform_of (BeginRelation.destroy t)

/-- A target that has started a process is waited for and watched. -/
theorem idles_watchStart (t : Handle) {failed : DebugError → SessionError}
    (hfailed : ∀ e, (failed e).isMalformed = false) :
    Idles E (do
      let _ ← (← get).settings.attach.poll (do
        let state ← observe t .state
        return !state.isTransitional)
      startNotifier t failed : Action ε Unit) := by
  have hlook : Idles E (do
      let state ← observe t .state
      return !state.isTransitional : Action ε Bool) :=
    (idles_beginLook t .state).bind fun _ => idles_pure _
  refine idles_get.bind fun s => (idles_poll _ hlook).bind fun _ => idles_get.bind fun s => ?_
  split
  · exact idles_pure _
  · exact (idles_destroy t).bind fun _ => idles_refuse (hfailed _)

end Begin

/-- A request that starts a process is asked for one that stays halted. -/
def Request.StartsHalted (t : Handle) (r : Request) : Prop :=
  r.starts = true ∧ ∀ answer : Except Fault r.Answer, Entry.Early (.call (.request t r) answer)

/-- Either the target starts a process, or nothing is left of the attempt. -/
theorem settles_startTarget (t : Handle) {r : Request} (hr : Request.StartsHalted t r)
    {failed : DebugError → SessionError} (hfailed : ∀ e, (failed e).isMalformed = false)
    (s : Session (Journal ε)) :
    Settles (Adds Entry.Early) s (fun _ u => Still (Started t) s u) (startTarget t r failed) s := by
  have hasked : Unbegun s { s with engine := (DebugEngine.perform (.request t r) s.engine).2 } :=
    still_channel s (c := ⟨_, s.outbox⟩) (adds_perform (.request t r) s.engine (hr.2 _))
  rw [startTarget, Settles, ends_bind, tryRequest, ends_perform_iff]
  rcases hanswer : (DebugEngine.perform (.request t r) s.engine).1 with (e | text) | a
  · exact (idles_destroy t).settles hasked fun _ u h => ⟨h, hfailed e⟩
  · exact ⟨hasked, rfl⟩
  · have hstarted : Still (Started t) s
        { s with engine := (DebugEngine.perform (.request t r) s.engine).2 } := by
      refine still_channel s (c := ⟨_, s.outbox⟩)
        ⟨_, rfl, List.forall_mem_singleton.mpr (hr.2 _), _, List.mem_singleton_self _, ?_, ?_⟩
      · simp [Entry.starts, hr.1]
      · show Entry.succeeded
          (.call (.request t r) (DebugEngine.perform (.request t r) s.engine).1) = true
        rw [hanswer]
        rfl
    refine (idles_watchStart (E := Adds Entry.Early) t hfailed _).mono fun result u hu => ?_
    cases result with
    | error f => exact ⟨StepRelation.trans hasked hu.1, hu.2⟩
    | ok _ => exact hstarted.trans hu (hstarted.engine.after hu.engine)

/-- A request with its entry in the journal: it comes back, or the engine breaks down. -/
theorem ends_tryRequest_entry (t : Handle) (r : Request) (s : Session (Journal ε)) :
    Ends (tryRequest t r) s fun result s' => s' = { s with engine := s'.engine } ∧
      ((∃ answer : Except DebugError r.Answer, result = .ok answer ∧ s'.engine.entries =
          s.engine.entries ++ [.call (.request t r) (answer.mapError .error)]) ∨
        ∃ text, result = .error (.crashed text) ∧
          (DebugEngine.perform (.request t r) s.engine).1 = .error (.crash text) ∧
          s'.engine.entries = s.engine.entries ++
            [.call (.request t r) (.error (.crash text))]) := by
  have hentry : (DebugEngine.perform (.request t r) s.engine).2.entries =
      s.engine.entries ++ [.call (.request t r) (DebugEngine.perform (.request t r) s.engine).1] :=
    rfl
  rw [tryRequest, ends_perform_iff]
  refine ⟨rfl, ?_⟩
  rcases hanswer : (DebugEngine.perform (.request t r) s.engine).1 with (e | text) | a
  all_goals rw [hanswer] at hentry
  · exact .inl ⟨.error e, rfl, hentry⟩
  · exact .inr ⟨text, rfl, rfl, hentry⟩
  · exact .inl ⟨.ok a, rfl, hentry⟩

section Planting

variable [DebugEngine.AnswersBreakpoints ε]

/-- A request for a breakpoint comes back. -/
theorem ends_setBreakpoint_entry (t : Handle) (addr : UInt64) (s : Session (Journal ε)) :
    Ends (tryRequest t (.setBreakpoint addr)) s fun result s' =>
      ∃ answer : Except DebugError BreakpointInfo, result = .ok answer ∧
        s' = { s with engine := s'.engine } ∧ s'.engine.entries = s.engine.entries ++
          [.call (.request t (.setBreakpoint addr)) (answer.mapError .error)] := by
  refine (ends_tryRequest_entry t (.setBreakpoint addr) s).mono ?_
  rintro result s' ⟨hsame, ⟨answer, hresult, hcall⟩ | ⟨text, -, hcrash, -⟩⟩
  · exact ⟨answer, hresult, hsame, hcall⟩
  · exact absurd hcrash (DebugEngine.AnswersBreakpoints.ne_crash t addr s.engine text)

/-- What is left when the pending ones of the breakpoints `es` were asked for. Other breakpoints may
stand before them. -/
structure Asked (t : Handle) (es : List BreakpointEntry) (calls : List Entry)
    (s s' : Session (Journal ε)) : Prop where
  entries : s'.engine.entries = s.engine.entries ++ calls
  same : s' = { s with engine := s'.engine, breakpoints := s'.breakpoints }
  lastId : s'.breakpoints.lastId = s.breakpoints.lastId
  plants : ∀ ds, s.breakpoints.entries = ds ++ es → (ds ++ es).Pairwise (·.id < ·.id) →
    ∃ es', Plants t es calls es' ∧ s'.breakpoints.entries = ds ++ es'

section Asked

variable {t : Handle} {e : BreakpointEntry} {es : List BreakpointEntry} {calls : List Entry}
  {s s₁ s' : Session (Journal ε)}

omit [DebugEngine ε]

theorem asked_none (t : Handle) (s : Session (Journal ε)) : Asked t [] [] s s :=
  ⟨(List.append_nil _).symm, rfl, rfl, fun _ hds _ => ⟨[], .none, hds⟩⟩

theorem Asked.known (he : e.engineId.isSome = true) (h : Asked t es calls s s') :
    Asked t (e :: es) calls s s' where
  entries := h.entries
  same := h.same
  lastId := h.lastId
  plants ds hds hsorted := by
    rw [List.append_cons] at hds hsorted
    obtain ⟨es', hes', hentries⟩ := h.plants _ hds hsorted
    exact ⟨e :: es', .known he hes', by rw [hentries, ← List.append_cons]⟩

theorem Asked.refused (he : e.engineId = none) {error : DebugError}
    (hsame : s₁ = { s with engine := s₁.engine })
    (hcall : s₁.engine.entries = s.engine.entries ++
      [.call (.request t (.setBreakpoint e.address)) (.error (.error error))])
    (h : Asked t es calls s₁ s') :
    Asked t (e :: es)
      (.call (.request t (.setBreakpoint e.address)) (.error (.error error)) :: calls) s s' where
  entries := by rw [h.entries, hcall, List.append_assoc, List.singleton_append]
  same := by rw [h.same, hsame]
  lastId := by rw [h.lastId, hsame]
  plants ds hds hsorted := by
    rw [List.append_cons] at hds hsorted
    obtain ⟨es', hes', hentries⟩ := h.plants (ds ++ [e]) (by rw [hsame]; exact hds) hsorted
    exact ⟨e :: es', .refused he error hes', by rw [hentries, ← List.append_cons]⟩

theorem Asked.set (he : e.engineId = none) {info : BreakpointInfo}
    (hsame : s₁ = { s with engine := s₁.engine })
    (hcall : s₁.engine.entries = s.engine.entries ++
      [.call (.request t (.setBreakpoint e.address)) (.ok info)])
    (h : Asked t es calls { s₁ with breakpoints := s₁.breakpoints.install e.id info.id } s') :
    Asked t (e :: es) (.call (.request t (.setBreakpoint e.address)) (.ok info) :: calls) s s' where
  entries := by rw [h.entries, hcall, List.append_assoc, List.singleton_append]
  same := by rw [h.same, hsame]
  lastId := by
    rw [h.lastId, hsame]
    rfl
  plants ds hds hsorted := by
    have hentries : s₁.breakpoints.entries = ds ++ e :: es := by
      rw [hsame]
      exact hds
    have hset := entries_install hentries hsorted info.id
    rw [List.append_cons] at hset
    have hids : (ds ++ [{ e with engineId := some info.id }] ++ es : List BreakpointEntry).map
        (·.id) = (ds ++ e :: es).map (·.id) := by simp
    obtain ⟨es', hes', hentries'⟩ := h.plants _ hset (sorted_of_ids hids hsorted)
    exact ⟨_, .set he info hes', by rw [hentries', ← List.append_cons]⟩

end Asked

/-- The pending breakpoints are asked for one after the other, whatever becomes of them. -/
theorem asked_installPending (t : Handle) (es : List BreakpointEntry) :
    ∀ s : Session (Journal ε), Ends (installPending t (es.filter (·.engineId.isNone))) s fun r s' =>
      r = .ok () ∧ ∃ calls, Asked t es calls s s' := by
  induction es with
  | nil => exact fun s => ⟨rfl, [], asked_none t s⟩
  | cons e es ih =>
    intro s
    cases he : e.engineId with
    | some engineId =>
      rw [List.filter_cons_of_neg (by simp [he])]
      refine (ih s).mono ?_
      rintro r s' ⟨hr, calls, h⟩
      exact ⟨hr, calls, h.known (by rw [he]; rfl)⟩
    | none =>
      rw [List.filter_cons_of_pos (by simp [he]), installPending]
      refine (ends_setBreakpoint_entry t e.address s).bind_ok ?_
      rintro answer s₁ ⟨hsame, hcall⟩
      cases answer with
      | error error =>
        refine (ih s₁).mono ?_
        rintro r s' ⟨hr, calls, h⟩
        exact ⟨hr, _, h.refused he hsame hcall⟩
      | ok info =>
        dsimp only
        rw [ends_modify_bind]
        refine (ih _).mono ?_
        rintro r s' ⟨hr, calls, h⟩
        exact ⟨hr, _, h.set he hsame hcall⟩

/-- The first part of a command that begins a process: it is started and stays halted, the pending
breakpoints are asked for, and it is that of the session with nothing selected. -/
structure Planted (t : Handle) (s s' : Session (Journal ε)) : Prop where
  entries : ∃ before calls, s'.engine.entries = s.engine.entries ++ (before ++ calls) ∧
    (∀ x ∈ before, x.Early) ∧ (∃ x ∈ before, x.starts t = true ∧ x.succeeded = true) ∧
    (s.breakpoints.entries.Pairwise (·.id < ·.id) →
      Plants t s.breakpoints.entries calls s'.breakpoints.entries)
  lastId : s'.breakpoints.lastId = s.breakpoints.lastId
  lifecycle : s'.lifecycle = .active ⟨t, true, none, 0⟩
  lastPrepared : s'.lastPrepared = s.lastPrepared
  settings : s'.settings = s.settings

/-- A process that was started becomes that of the session. -/
theorem ends_activate_started {t : Handle} {s s₁ : Session (Journal ε)}
    (h : Still (Started t) s s₁) :
    Ends (activate t) s₁ fun r s' => r = .ok () ∧ Planted t s s' := by
  obtain ⟨before, hbefore, hearly, hstarts⟩ := h.engine
  rw [activate, ends_get_bind]
  refine (asked_installPending t s₁.breakpoints.entries s₁).bind_eq ?_
  rintro s₂ ⟨calls, hasked⟩
  rw [ends_modify]
  refine ⟨rfl, ⟨before, calls, ?_, hearly, hstarts, fun hsorted => ?_⟩, ?_, rfl, ?_, ?_⟩
  · show s₂.engine.entries = _
    rw [hasked.entries, hbefore, List.append_assoc]
  · rw [← h.breakpoints] at hsorted ⊢
    obtain ⟨es', hplants, hes'⟩ := hasked.plants [] rfl hsorted
    rw [show s₂.breakpoints.entries = es' from hes']
    exact hplants
  · show s₂.breakpoints.lastId = _
    rw [hasked.lastId, h.breakpoints]
  · show s₂.lastPrepared = _
    rw [hasked.same]
    exact h.lastPrepared
  · show s₂.settings = _
    rw [hasked.same]
    exact h.settings

/-- A target is made and started, and its process becomes that of the session. -/
theorem settles_startHalted (executable : Option String) (is64 : Bool) {r : Request}
    (hr : ∀ t, Request.StartsHalted t r) {failed : DebugError → SessionError}
    (hfailed : ∀ e, (failed e).isMalformed = false) (s : Session (Journal ε)) :
    Settles (Adds Entry.Early) s (fun t u => Planted t s u) (startHalted executable is64 r failed)
      s := by
  refine (idles_createTarget executable is64).settles (StepRelation.refl s) fun t u h => ?_
  refine (settles_startTarget t (hr t) hfailed u).bind ?_ fun f v hv =>
    ⟨StepRelation.trans h hv.1, hv.2⟩
  intro _ v hv
  have hstarted : Still (Started t) s v := h.trans hv (Started.before h.engine hv.engine)
  refine (ends_activate_started hstarted).bind_eq fun w hw => ?_
  exact hw

theorem startsHalted_launch (t : Handle) (args : List String) (cwd : Option String)
    (disableAslr : Bool) : Request.StartsHalted t (.launch ⟨args, cwd, disableAslr, true⟩) :=
  ⟨rfl, fun _ => ⟨rfl, rfl, rfl⟩⟩

theorem settles_beginHalted {c : Command} (hc : c.begins = true) (s : Session (Journal ε)) :
    Settles (Adds Entry.Early) s (fun t u => Planted t s u) (beginHalted c) s := by
  have hrefused : ∀ e : SessionError, e.isMalformed = false →
      Still (Adds Entry.Early) s s ∧ (Failure.refused e).isMalformed = false :=
    fun e he => ⟨StepRelation.refl s, he⟩
  cases c with
  | launch =>
    have hlaunch : ∀ e : Executable, Settles (Adds Entry.Early) s (fun t u => Planted t s u)
        (startHalted (some e.path) e.is64
          (.launch ⟨e.args, e.cwd, s.settings.launch.disableAslr, true⟩) .launchFailed) s :=
      fun e => settles_startHalted _ _ (fun t => startsHalted_launch t _ _ _) (fun _ => rfl) s
    rw [Settles, beginHalted, launchStopped, ends_get_bind]
    rcases s.lifecycle with _ | e | a
    · rcases s.lastPrepared with _ | e
      · exact hrefused _ rfl
      · exact hlaunch e
    · exact hlaunch e
    · exact hrefused _ rfl
  | attach pid executable is64 =>
    rw [Settles, beginHalted]
    by_cases hs : IsActive s
    · rw [ends_requireInactive_active hs]
      exact hrefused _ rfl
    · rw [ends_requireInactive_bind hs]
      exact settles_startHalted _ _ (fun t => ⟨rfl, fun _ => ⟨rfl, rfl, rfl⟩⟩) (fun _ => rfl) s
  | connectRemote is64 url plugin file =>
    rw [Settles, beginHalted]
    by_cases hs : IsActive s
    · rw [ends_requireInactive_active hs]
      exact hrefused _ rfl
    · rw [ends_requireInactive_bind hs, ends_get_bind]
      split
      · exact settles_startHalted _ _ (fun t => ⟨rfl, fun _ => ⟨rfl, rfl, rfl⟩⟩) (fun _ => rfl) s
      · exact hrefused _ rfl
  | _ => cases hc

end Planting

/-! ### What the second part leaves -/

/-- The process was asked to run, and what followed on that. -/
def Resumption (t : Handle) (answer : Except Fault Unit) (j j' : Journal ε) : Prop :=
  ∃ ys, j'.entries = j.entries ++ .call (.request t .resume) answer :: ys ∧ ∀ y ∈ ys, y.Late

omit [DebugEngine ε] in
theorem Resumption.after {t : Handle} {answer : Except Fault Unit} {j j' j'' : Journal ε}
    (h : Resumption t answer j j') (h' : Adds Entry.Late j' j'') : Resumption t answer j j'' := by
  obtain ⟨ys, hys, hlate⟩ := h
  obtain ⟨zs, hzs, hlate'⟩ := h'
  refine ⟨ys ++ zs, by rw [hzs, hys, List.append_assoc, List.cons_append], fun z hz => ?_⟩
  exact (List.mem_append.mp hz).elim (hlate z) (hlate' z)

/-- How a request to run ends. -/
inductive Resumed (t : Handle) (s : Session (Journal ε)) :
    Except Failure (Except DebugError Unit) → Session (Journal ε) → Prop
  | runs {s' : Session (Journal ε)} (h : Still (Resumption t (.ok ())) s s') :
      Resumed t s (.ok (.ok ())) s'
  | refused {e : DebugError} {s' : Session (Journal ε)}
      (h : Still (Resumption t (.error (.error e))) s s') : Resumed t s (.ok (.error e)) s'
  | crashed {text : Option String} {s' : Session (Journal ε)}
      (h : Still (Resumption t (.error (.crash text))) s s')
      (hbreaks : DebugEngine.BreaksElsewhere (Journal ε)) :
      Resumed t s (.error (.crashed text)) s'

theorem resumed_control (t : Handle) (s : Session (Journal ε)) :
    Ends (control t .resume) s (Resumed t s) := by
  have hentry : (DebugEngine.perform (.request t .resume) s.engine).2.entries =
      s.engine.entries ++
        [.call (.request t .resume) (DebugEngine.perform (.request t .resume) s.engine).1] := rfl
  have hasked : ∀ (answer : Except Fault Unit) (engine : Journal ε), engine.entries =
      s.engine.entries ++ [.call (.request t .resume) answer] →
        Still (Resumption t answer) s { s with engine } := fun answer engine hengine =>
    still_channel s (c := ⟨engine, s.outbox⟩) ⟨[], hengine, List.forall_mem_nil _⟩
  have hevents : ∀ {answer : Except Fault Unit} {u : Session (Journal ε)},
      Still (Resumption t answer) s u → Still (Resumption t answer) s (deliverEvents u) := by
    intro answer u hu
    have hlate := still_deliverEvents (E := Adds Entry.Late) u
    exact hu.trans hlate (hu.engine.after hlate.engine)
  rw [control, ends_get_bind]
  rcases hperform : DebugEngine.perform (.request t .resume) s.engine with ⟨(e | text) | a, engine⟩
  all_goals rw [hperform] at hentry
  · exact .refused (hevents (hasked _ engine hentry))
  · exact .crashed (hasked _ engine hentry)
      ⟨t, .resume, s.engine, text, rfl, congrArg Prod.fst hperform⟩
  · exact .runs (hevents (hasked _ engine hentry))

/-- What follows on the breakpoints: the process is asked to run exactly if it is to run. -/
def Sequel (c : Command) (s s' : Session (Journal ε)) : Prop :=
  ∃ after, s'.engine.entries = s.engine.entries ++ after ∧ (∀ x ∈ after, x.Late) ∧
    ((∃ x ∈ after, x.resumes = true) ↔ c = .launch ∧ s.settings.launch.stopAtEntry = false)

omit [DebugEngine ε] in
theorem sequel_of_early {c : Command} {s s' : Session (Journal ε)}
    (hc : ¬(c = .launch ∧ s.settings.launch.stopAtEntry = false))
    (h : Adds Entry.Early s.engine s'.engine) : Sequel c s s' := by
  obtain ⟨after, hafter, hearly⟩ := h
  refine ⟨after, hafter, fun x hx => (hearly x hx).late, ?_, fun hrun => absurd hrun hc⟩
  rintro ⟨x, hx, hresumes⟩
  rw [(hearly x hx).resumes] at hresumes
  cases hresumes

omit [DebugEngine ε] in
theorem sequel_of_resumption {c : Command} {s s' : Session (Journal ε)} {t : Handle}
    {answer : Except Fault Unit} (hc : c = .launch ∧ s.settings.launch.stopAtEntry = false)
    (h : Resumption t answer s.engine s'.engine) : Sequel c s s' := by
  obtain ⟨ys, hys, hlate⟩ := h
  exact ⟨_, hys, List.forall_mem_cons.mpr ⟨⟨rfl, rfl⟩, hlate⟩, fun _ => hc,
    fun _ => ⟨_, List.mem_cons_self, rfl⟩⟩

/-- How a command ends whose process is there: with the process halted; or after it was asked to
run, with the process or, if it could not run, without one; or the engine breaks down. -/
inductive Onwards (t : Handle) (c : Command) (s : Session (Journal ε)) :
    Except Failure Response → Session (Journal ε) → Prop
  | halted {response : Response} {s' : Session (Journal ε)}
      (hc : ¬(c = .launch ∧ s.settings.launch.stopAtEntry = false)) (hok : response.isOk = true)
      (h : Still (Adds Entry.Early) s s') : Onwards t c s (.ok response) s'
  | resumed {response : Response} {s' : Session (Journal ε)}
      (hc : c = .launch ∧ s.settings.launch.stopAtEntry = false) (hok : response.isOk = true)
      (h : Still (Resumption t (.ok ())) s s') : Onwards t c s (.ok response) s'
  | dropped {s' : Session (Journal ε)} (hc : c = .launch ∧ s.settings.launch.stopAtEntry = false)
      (e : DebugError) (hengine : Resumption t (.error (.error e)) s.engine s'.engine)
      (h : s'.bearings = ⟨.uninitialized, s.lastPrepared, s.breakpoints.clear⟩) :
      Onwards t c s (.error (.refused (.launchFailed e))) s'
  | broken {text : Option String} {s' : Session (Journal ε)} (h : Sequel c s s')
      (hbreakpoints : s'.breakpoints = s.breakpoints)
      (hbreaks : DebugEngine.BreaksElsewhere (Journal ε)) :
      Onwards t c s (.error (.crashed text)) s'

/-- The reply to a launch, with the number of the process. -/
theorem ends_launchReply (t : Handle) (s : Session (Journal ε)) :
    Ends (resumeLaunched true t) s fun r s' =>
      ∃ response, r = .ok response ∧ response.isOk = true ∧ Still (Adds Entry.Early) s s' :=
  ⟨_, rfl, isOk_withMember _ _ _, still_channel s (c := ⟨_, s.outbox⟩)
    (adds_observe t .processId s.engine (Entry.early_query t _ _))⟩

/-- A launched process that is to run. -/
theorem onwards_resumeLaunched {t : Handle} {s : Session (Journal ε)} (hs : IsActive s)
    (hrun : s.settings.launch.stopAtEntry = false) :
    Ends (resumeLaunched false t) s (Onwards t .launch s) := by
  have hc : Command.launch = .launch ∧ s.settings.launch.stopAtEntry = false := ⟨rfl, hrun⟩
  refine (resumed_control t s).bind ?_ ?_
  · rintro answer u hu
    cases hu with
    | runs hu =>
      refine (ends_launchReply t u).mono ?_
      rintro r v ⟨response, rfl, hok, hv⟩
      exact .resumed hc hok
        (hu.trans hv (hu.engine.after (hv.engine.mono fun _ => Entry.Early.late)))
    | @refused e _ hu =>
      refine (ends_deleteProcess_cases (E := Adds Entry.Early) u).bind ?_ ?_
      · rintro response v (⟨-, hr, -⟩ | ⟨-, hv, hgone, hprepared, ⟨-, hclear⟩ | ⟨_, _, hr, -⟩⟩)
        · cases hr
        · have hbearings : v.bearings = ⟨.uninitialized, s.lastPrepared, s.breakpoints.clear⟩ := by
            rw [bearings, hgone, hprepared, hclear, Still.lastPrepared hu, Still.breakpoints hu]
            rfl
          exact .dropped hc e (hu.engine.after (hv.mono fun _ => Entry.Early.late)) hbearings
        · cases hr
      · rintro f v (⟨hinactive, -⟩ | ⟨-, hv, -, -, ⟨hr, -⟩ | ⟨t', text, hr, hkept, hcrash⟩⟩)
        · exact absurd (Still.isActive hu hs) hinactive
        · cases hr
        · cases hr
          refine .broken (sequel_of_resumption hc
            (hu.engine.after (hv.mono fun _ => Entry.Early.late))) ?_
            ⟨t', .destroy, u.engine, text, rfl, hcrash⟩
          exact hkept.trans (Still.breakpoints hu)
  · rintro f u hu
    cases hu with
    | crashed hu hbreaks =>
      exact .broken (sequel_of_resumption hc hu.engine) (Still.breakpoints hu) hbreaks

theorem onwards_goOn {t : Handle} {c : Command} (hc : c.begins = true) {s : Session (Journal ε)}
    (hs : IsActive s) :
    Ends (goOn s.settings.launch.stopAtEntry c t) s (Onwards t c s) := by
  cases c with
  | launch =>
    rw [goOn]
    cases hstop : s.settings.launch.stopAtEntry with
    | true =>
      refine (ends_launchReply t s).mono ?_
      rintro r v ⟨response, rfl, hok, hv⟩
      exact .halted (by simp [hstop]) hok hv
    | false => exact onwards_resumeLaunched hs hstop
  | attach pid executable is64 =>
    have hhalted : ¬(Command.attach pid executable is64 = .launch ∧
        s.settings.launch.stopAtEntry = false) := by
      rintro ⟨⟨⟩, -⟩
    have hcalled : ∀ {u : Session (Journal ε)} {x : Entry}, u = { s with engine := u.engine } →
        x.Early → u.engine.entries = s.engine.entries ++ [x] → Still (Adds Entry.Early) s u := by
      intro u x hsame hx hcall
      rw [hsame]
      exact still_channel s (c := ⟨u.engine, s.outbox⟩)
        ⟨_, hcall, List.forall_mem_singleton.mpr hx⟩
    refine (ends_tryRequest_entry t .mainModule s).bind ?_ ?_
    · rintro answer u ⟨hsame, ⟨_, -, hcall⟩ | ⟨_, hr, -⟩⟩
      · have hu := hcalled hsame ⟨rfl, rfl, rfl⟩ hcall
        split
        · exact .halted hhalted ((isOk_withSlide _ _).trans (isOk_withMember _ _ _)) hu
        · exact .halted hhalted (isOk_withMember _ _ _) hu
      · cases hr
    · rintro f u ⟨hsame, ⟨_, hr, -⟩ | ⟨text, hr, hcrash, hcall⟩⟩
      · cases hr
      · cases hr
        have hu := hcalled hsame ⟨rfl, rfl, rfl⟩ hcall
        exact .broken (sequel_of_early hhalted hu.engine) (Still.breakpoints hu)
          ⟨t, .mainModule, s.engine, text, rfl, hcrash⟩
  | connectRemote is64 url plugin file =>
    refine .halted ?_ rfl (StepRelation.refl s)
    rintro ⟨⟨⟩, -⟩
  | _ => cases hc

/-! ### The whole command -/

/-- What a command that begins a process does to a session. -/
inductive Beginning (c : Command) (s : Session (Journal ε)) :
    Except Failure Response → Session (Journal ε) → Prop
  | failed {f : Failure} {s' : Session (Journal ε)} (hf : f.isMalformed = false)
      (hfirst : (beginHalted c).run.run s = (.error f, s')) (h : Unbegun s s') :
      Beginning c s (.error f) s'
  | begun {t : Handle} {s₁ s' : Session (Journal ε)} {r : Except Failure Response}
      (hfirst : (beginHalted c).run.run s = (.ok t, s₁)) (hplanted : Planted t s s₁)
      (h : Onwards t c s₁ r s') : Beginning c s r s'

theorem beginning_execute [DebugEngine.AnswersBreakpoints ε] {c : Command}
    (hc : c.begins = true) (s : Session (Journal ε)) :
    Ends (execute c) s (Beginning c s) := by
  have hself : Ends (beginHalted c) s fun r u => (beginHalted c).run.run s = (r, u) := rfl
  rw [ends_begins hc]
  refine (hself.and (settles_beginHalted hc s)).bind ?_ fun f u hu => .failed hu.2.2 hu.1 hu.2.1
  rintro t s₁ ⟨hfirst, hplanted⟩
  have hactive : IsActive s₁ := ⟨_, hplanted.lifecycle⟩
  rw [← hplanted.settings]
  exact (onwards_goOn hc hactive).mono fun r s' h => .begun hfirst hplanted h

/-! ### Breakpoints before anything runs -/

/-- In a command that begins a process, the target `t` was made and started halted, then it was
asked for each pending breakpoint, and only then, if at all, for the process to run. -/
structure InPlace (c : Command) (s : Session (Journal ε)) (t : Handle) (s₁ s' : Session (Journal ε))
    (before calls after : List Entry) : Prop where
  first : (beginHalted c).run.run s = (.ok t, s₁)
  entries₁ : s₁.engine.entries = s.engine.entries ++ (before ++ calls)
  entries : s'.engine.entries = s₁.engine.entries ++ after
  started : ∃ x ∈ before, x.starts t = true ∧ x.succeeded = true
  early : ∀ x ∈ before, x.plants = false ∧ x.resumes = false
  /-- One call for each, in order of the ids, whatever becomes of the others. -/
  plants : Plants t s.breakpoints.entries calls s₁.breakpoints.entries
  lastId : s₁.breakpoints.lastId = s.breakpoints.lastId
  late : ∀ x ∈ after, x.plants = false
  resumes : (∃ x ∈ after, x.resumes = true) ↔
    c = .launch ∧ s.settings.launch.stopAtEntry = false
  halts : ∀ x ∈ before ++ (calls ++ after), x.runsAhead = false

section InPlace

variable {c : Command} {s s₁ s' : Session (Journal ε)} {t : Handle} {r : Except Failure Response}

theorem Onwards.sequel (h : Onwards t c s₁ r s') : Sequel c s₁ s' := by
  cases h with
  | halted hc _ h => exact sequel_of_early hc h.engine
  | resumed hc _ h => exact sequel_of_resumption hc h.engine
  | dropped hc _ hengine _ => exact sequel_of_resumption hc hengine
  | broken h _ _ => exact h

/-- What becomes of the breakpoints: they stay, or go with a process that could not run. -/
theorem Onwards.breakpoints (h : Onwards t c s₁ r s') (hs₁ : s₁.lifecycle.target? = some t) :
    s'.breakpoints = s₁.breakpoints ∧
        ((replyTo r).isOk = true → s'.lifecycle.target? = some t) ∨
      (replyTo r).isOk = false ∧ (c = .launch ∧ s₁.settings.launch.stopAtEntry = false) ∧
        s'.breakpoints = s₁.breakpoints.clear := by
  cases h with
  | halted hc hok h =>
    exact .inl ⟨Still.breakpoints h, fun _ => (Still.target? h).trans hs₁⟩
  | resumed hc hok h =>
    exact .inl ⟨Still.breakpoints h, fun _ => (Still.target? h).trans hs₁⟩
  | dropped hc e _ h => exact .inr ⟨rfl, hc, congrArg Bearings.breakpoints h⟩
  | broken _ hbreakpoints _ =>
    exact .inl ⟨hbreakpoints, fun hok => by cases (isOk_replyTo_error _).symm.trans hok⟩

end InPlace

/-- Whatever its target does, as long as it answers when it is asked for a breakpoint, and with
either setting for launches, a command that begins a process either fails before any breakpoint is
asked for and leaves them all; or it asks for every pending breakpoint after the process has started
and before it runs. They are kept then, unless a launched process that should run could not, and
went with its breakpoints. -/
theorem breakpoints_in_place [DebugEngine.AnswersBreakpoints ε] {c : Command}
    (hc : c.begins = true) {s : Session (Journal ε)}
    (hsorted : s.breakpoints.entries.Pairwise (·.id < ·.id)) :
    ((reply c s).1.isOk = false ∧ (reply c s).2.breakpoints = s.breakpoints ∧
      ∃ xs, (reply c s).2.engine.entries = s.engine.entries ++ xs ∧ ∀ x ∈ xs, x.Early) ∨
    ∃ t s₁ before calls after, InPlace c s t s₁ (reply c s).2 before calls after ∧
      calls.map plantOf? = s.breakpoints.pending.map (fun e => some (t, e.address)) ∧
      s₁.breakpoints.entries.map (fun e => (e.id, e.address)) =
        s.breakpoints.entries.map (fun e => (e.id, e.address)) ∧
      ((reply c s).2.breakpoints = s₁.breakpoints ∧
          ((reply c s).1.isOk = true → (reply c s).2.lifecycle.target? = some t) ∨
        (reply c s).1.isOk = false ∧ (c = .launch ∧ s.settings.launch.stopAtEntry = false) ∧
          (reply c s).2.breakpoints = s₁.breakpoints.clear) := by
  have hends : Beginning c s ((execute c).run.run s).1 ((execute c).run.run s).2 :=
    beginning_execute hc s
  rw [reply_eq]
  generalize ((execute c).run.run s).1 = r at hends
  generalize ((execute c).run.run s).2 = s' at hends
  cases hends with
  | failed _ _ h =>
    exact .inl ⟨isOk_replyTo_error _, Still.breakpoints h, h.engine⟩
  | @begun t s₁ _ _ hfirst hplanted h =>
    obtain ⟨before, calls, hentries₁, hearly, hstarted, hplants⟩ := hplanted.entries
    obtain ⟨after, hentries, hlate, hresumes⟩ := h.sequel
    have hkept := h.breakpoints (by rw [hplanted.lifecycle]; rfl)
    rw [hplanted.settings] at hresumes hkept
    have hplants := hplants hsorted
    refine .inr ⟨t, s₁, before, calls, after, ?_, hplants.calls, hplants.places, hkept⟩
    exact
      { first := hfirst
        entries₁ := hentries₁
        entries := hentries
        started := hstarted
        early := fun x hx => ⟨(hearly x hx).plants, (hearly x hx).resumes⟩
        plants := hplants
        lastId := hplanted.lastId
        late := fun x hx => (hlate x hx).plants
        resumes := hresumes
        halts := by
          simp only [List.mem_append]
          rintro x (hx | hx | hx)
          · exact (hearly x hx).runsAhead
          · exact (hplants.late x hx).2
          · exact (hlate x hx).runsAhead }

end Session

open Debuggee

/-! ### An engine that is easily upset -/

/-- An engine that starts processes, sets breakpoints but at one address, and breaks down when it is
to unwind a call stack. -/
structure Frail where
  refused : UInt64
  /-- How many breakpoints were set. -/
  installed : Nat
  deriving DecidableEq

namespace Frail

def answer (e : Frail) : (r : Request) → Except Fault r.Answer × Frail
  | .launch _ => (.ok (), e)
  | .resume => (.ok (), e)
  | .setBreakpoint addr =>
    if addr = e.refused then (.error (.error (.unsupported "breakpoint")), e)
    else (.ok ⟨e.installed, addr⟩, { e with installed := e.installed + 1 })
  | .callStack _ => (.error (.crash (some "no unwind table")), e)
  | _ => (.error (.error (.unsupported "request")), e)

instance : DebugEngine Frail where
  capabilities _ := ⟨false, false, false⟩
  perform c e :=
    match c with
    | .createTarget .. => (.ok 0, e)
    | .rawCommand .. => (.error (.error (.unsupported "raw command")), e)
    | .complete .. => (.ok [], e)
    | .request _ r => e.answer r
  observe _ q e :=
    match q with
    | .subscribe => (true, e)
    | .events => ([], e)
    | .processId => (none, e)
    | .state => (.stopped, e)
    | .stopInfo => (some ⟨7, 0x1000, .breakpoint⟩, e)
    | .exitStatus => (none, e)

instance : DebugEngine.BreaksOnlyUnwinding Frail where
  ne_crash t r e text hr := by
    cases r with
    | callStack tid => cases hr
    | setBreakpoint addr =>
      show (e.answer (.setBreakpoint addr)).1 ≠ _
      rw [answer]
      split <;> exact nofun
    | _ => exact nofun

/-- A program is staged that is not to stay halted, with breakpoints. -/
def staged : Session (Journal Frail) where
  engine := .blank ⟨0x2000, 0⟩
  capabilities := ⟨false, false, false⟩
  settings := { Session.Settings.standard with launch := ⟨true, false⟩ }
  outbox := ⟨.binary, .unlimited, none⟩
  lifecycle := .prepared ⟨"/app", true, none, []⟩
  lastPrepared := some ⟨"/app", true, none, []⟩
  breakpoints := ⟨4, [⟨1, 0x1000, none⟩, ⟨2, 0x2000, none⟩, ⟨4, 0x3000, none⟩]⟩

end Frail

namespace Session

/-- The breakpoint that is refused stays pending between the two that are set. -/
theorem breakpoints_in_place_staged :
    Frail.staged.breakpoints.entries.Pairwise (·.id < ·.id) ∧
    ∃ t s₁ before calls after,
      InPlace .launch Frail.staged t s₁ (reply .launch Frail.staged).2 before calls after ∧
      calls.map plantOf? = [some (t, 0x1000), some (t, 0x2000), some (t, 0x3000)] ∧
      (reply .launch Frail.staged).2.breakpoints =
        ⟨4, [⟨1, 0x1000, some 0⟩, ⟨2, 0x2000, none⟩, ⟨4, 0x3000, some 1⟩]⟩ := by
  refine ⟨by decide, ?_⟩
  rcases breakpoints_in_place (c := .launch) rfl (s := Frail.staged) (by decide) with
    ⟨hfails, -⟩ | ⟨t, s₁, before, calls, after, h, hcalls, -⟩
  · exact absurd hfails (by decide +kernel)
  · exact ⟨t, s₁, before, calls, after, h, hcalls, by decide +kernel⟩

end Session

end DebugAdapter
