import DebugAdapter.Proofs.Effects
import DebugAdapter.Proofs.PendingBreakpoints

/-!
# Failed commands

A command that fails leaves the bearings of the session, in whatever state it is and whatever the
engine answers. There are two exceptions: a launch whose process could not run, which has deleted
the process again, and a search for user code that has made a step already. A request that is
refused for its own text leaves everything, the journal of the engine and the outbox included.
-/

namespace DebugAdapter

open Operation

namespace Debuggee

variable {ε : Type}

/-- Some target departs. -/
def Departs (j j' : Journal ε) : Prop :=
  ∃ xs, j'.entries = j.entries ++ xs ∧ ∃ x ∈ xs, x.departs = true

/-- No target departs. -/
abbrev Rests : Journal ε → Journal ε → Prop := Adds fun x => x.departs = false

variable [DebugEngine ε]

instance : RestRelation (Rests (ε := ε)) where
  rest c j hc := adds_perform c j hc
  look t q j := adds_observe t q j rfl
  inquiry focus line j i hi j' := by
    obtain ⟨output, rfl⟩ := Journal.inquiry_done hi
    exact StepRelation.refl (R := Rests) j'

instance : DepartRelation (Rests (ε := ε)) Departs where
  depart c j hc := ⟨_, rfl, _, List.mem_singleton_self _, hc⟩
  before := by
    rintro j j' j'' ⟨xs, hxs, -⟩ ⟨ys, hys, y, hy, hdeparts⟩
    exact ⟨xs ++ ys, by rw [hys, hxs, List.append_assoc], y, List.mem_append_right xs hy, hdeparts⟩
  after := by
    rintro j j' j'' ⟨xs, hxs, x, hx, hdeparts⟩ ⟨ys, hys, -⟩
    exact ⟨xs ++ ys, by rw [hys, hxs, List.append_assoc], x, List.mem_append_left ys hx, hdeparts⟩
  again := by
    rintro j j' j'' ⟨xs, hxs, x, hx, hdeparts⟩ ⟨ys, hys, -⟩
    exact ⟨xs ++ ys, by rw [hys, hxs, List.append_assoc], x, List.mem_append_left ys hx, hdeparts⟩

end Debuggee

namespace Session

open Debuggee
open Wire (Response)

variable {ε : Type}

/-! ### Requests that are refused for their text -/

/-- An unknown name or malformed arguments are refused for their text. -/
theorem malformed_of_read {name : String} {doc : Json.Members} {e : SessionError}
    (h : Command.read name doc = .error e) : e.isMalformed = true := by
  rw [Command.read] at h
  split at h
  · rw [readWriteByte] at h
    split at h
    · cases h
      rfl
    · split at h
      · cases h
      · cases h
        rfl
  · split at h
    · cases h
      rfl
    · split at h
      · cases h
      · cases h
        rfl

/-- What cannot be read as a command is refused for its text. -/
theorem malformed_of_command? {payload : Bytes} {e : SessionError}
    (h : (RequestDocument.read payload).command? = .error e) : e.isMalformed = true := by
  rw [RequestDocument.command?] at h
  split at h
  · rename_i e' hcommand
    cases h
    rw [RequestDocument.read] at hcommand
    split at hcommand
    · cases hcommand
      rfl
    · dsimp only at hcommand
      split at hcommand
      · cases hcommand
      · cases hcommand
        rfl
    · cases hcommand
      rfl
  · exact malformed_of_read h

/-! ### What a failure leaves -/

/-- What a command leaves that fails. -/
inductive Failed (c : Command) (s : Session (Journal ε)) (f : Failure) :
    Session (Journal ε) → Prop
  /-- A request that is refused for its own text leaves everything. -/
  | malformed (hf : f.isMalformed = true) : Failed c s f s
  | still {s' : Session (Journal ε)} (hf : f.isMalformed = false) (h : s'.bearings = s.bearings) :
      Failed c s f s'
  /-- A launched process could not run, and was deleted again. -/
  | dropped {t : Handle} {s' : Session (Journal ε)}
      (hc : c = .launch ∧ s.settings.launch.stopAtEntry = false) (hf : f.isMalformed = false)
      (hactive : ¬IsActive s) {before after : List Entry} {e : DebugError}
      (hentries : s'.engine.entries = s.engine.entries ++
        (before ++ .call (.request t .resume) (.error (.error e)) :: after))
      (h : s'.bearings = ⟨.uninitialized, s.lastPrepared, s.breakpoints.clear⟩) : Failed c s f s'
  /-- A search for user code has made a step. -/
  | searched {s' : Session (Journal ε)} (hc : c = .stepUntilUserCode) (hf : f.isMalformed = false)
      (hdeparts : Departs s.engine s'.engine) (h : s'.bearings = s.bearings.unfocused) :
      Failed c s f s'

variable [DebugEngine ε]

theorem failed_of_settles {c : Command} {s : Session (Journal ε)} {E : Journal ε → Journal ε → Prop}
    {good : Response → Session (Journal ε) → Prop} (h : Settles E s good (execute c) s) :
    Ends (execute c) s fun r s' => ∀ f, r = .error f → Failed c s f s' := by
  refine h.mono ?_
  rintro (f | response) s' h f' ⟨⟩
  exact .still h.2 h.1.bearings

omit [DebugEngine ε] in
/-- A failure that leaves the bearings, and everything if it is for the text of the request. -/
theorem failed_of_bearings {c : Command} {s s' : Session (Journal ε)} {f : Failure}
    (h : s'.bearings = s.bearings) (hmalformed : f.isMalformed = true → s' = s) :
    Failed c s f s' := by
  cases hf : f.isMalformed with
  | false => exact .still hf h
  | true =>
    cases hmalformed hf
    exact .malformed hf

section Processes

variable [DebugEngine.BreaksOnlyUnwinding ε]

theorem failed_begin {c : Command} (hc : c.begins = true) (s : Session (Journal ε)) :
    Ends (execute c) s fun r s' => ∀ f, r = .error f → Failed c s f s' := by
  by_cases hs : IsActive s
  · obtain ⟨a, ha⟩ := hs
    refine (refused_begin hc ha).mono ?_
    rintro r s' ⟨-, rfl⟩ f -
    exact failed_of_bearings rfl fun _ => rfl
  · refine (beginning_execute hc s).mono ?_
    rintro r s' h f rfl
    cases h with
    | failed hf _ h => exact .still hf h.bearings
    | @begun t s₁ _ _ hfirst hplanted h =>
      obtain ⟨before, calls, hentries₁, -⟩ := hplanted.entries
      cases h with
      | dropped hc e hengine h =>
        obtain ⟨after, hentries, -⟩ := hengine
        rw [hplanted.settings] at hc
        have hclear : s₁.breakpoints.clear = s.breakpoints.clear := by
          rw [Breakpoints.clear, Breakpoints.clear, hplanted.lastId]
        rw [hplanted.lastPrepared, hclear] at h
        have hsince : s'.engine.entries = s.engine.entries ++
            ((before ++ calls) ++ .call (.request t .resume) (.error (.error e)) :: after) := by
          rw [hentries, hentries₁, List.append_assoc]
        exact .dropped hc rfl hs hsince h
      | broken _ _ hbreaks => exact absurd hbreaks not_breaksElsewhere

theorem failed_deleteProcess (s : Session (Journal ε)) : Ends (execute .deleteProcess) s fun r s' =>
    ∀ f, r = .error f → Failed .deleteProcess s f s' := by
  refine (ends_deleteProcess_cases (E := Rests) s).mono ?_
  rintro r s' (⟨-, rfl, rfl⟩ | ⟨-, -, -, -, ⟨rfl, -⟩ | ⟨t, text, -, -, hcrash⟩⟩) f hf
  · cases hf
    exact .still rfl rfl
  · cases hf
  · exact absurd hcrash (DebugEngine.BreaksOnlyUnwinding.ne_crash t .destroy s.engine text rfl)

end Processes

theorem failed_execute [DebugEngine.BreaksOnlyUnwinding ε] (c : Command) (s : Session (Journal ε)) :
    Ends (execute c) s fun r s' => ∀ f, r = .error f → Failed c s f s' := by
  cases c.manner with
  | idle h => exact failed_of_settles (idles_execute (E := Rests) h s)
  | restages h => exact failed_of_settles (settles_restages (E := Rests) h s)
  | begins h => exact failed_begin h s
  | deleteProcess => exact failed_deleteProcess s
  | resume => exact failed_of_settles (settles_resume (E := Rests) (D := Departs) s)
  | forceStopAndReport => exact failed_of_settles (settles_forceStopAndReport (E := Rests) s)
  | step kind => exact failed_of_settles (settles_step (E := Rests) (D := Departs) kind s)
  | stepUntilUserCode =>
    refine (searched_stepUntilUserCode (E := Rests) (D := Departs) s).mono ?_
    rintro (f | response) s' h f' ⟨⟩
    rcases h with ⟨h | h, hf⟩
    · exact .still hf h.bearings
    · exact .searched rfl hf h.engine h.bearings
  | selectThread tid => exact failed_of_settles (settles_selectThread (E := Rests) tid s)
  | selectFrame index => exact failed_of_settles (settles_selectFrame (E := Rests) index s)
  | readMemory addr length =>
    refine (ends_readMemory (E := Rests) addr length s).mono ?_
    rintro r s' ⟨hstill, hmalformed⟩ f hf
    exact failed_of_bearings hstill.bearings (hmalformed f hf)

/-! ### Payloads -/

/-- A launch gave up a process: there was none before, the one that it started was not to stay
halted, and resuming it was refused. Then the breakpoints are gone and no program is staged. -/
structure Dropped (payload : Bytes) (s s' : Session (Journal ε)) : Prop where
  name : ∃ name ∈ Command.launch.names, commandName? payload = some name
  resumes : s.settings.launch.stopAtEntry = false
  inactive : ¬IsActive s
  refused : ∃ t e before after, s'.engine.entries = s.engine.entries ++
    (before ++ .call (.request t .resume) (.error (.error e)) :: after)
  bearings : s'.bearings = ⟨.uninitialized, s.lastPrepared, s.breakpoints.clear⟩

/-- A search for user code went on from a step that it had made: only the selection is gone. -/
structure Strayed (payload : Bytes) (s s' : Session (Journal ε)) : Prop where
  name : commandName? payload = some "stepUntilUserCode"
  departs : Departs s.engine s'.engine
  bearings : s'.bearings = s.bearings.unfocused

omit [DebugEngine ε] in
theorem Failed.payload {payload : Bytes} {c : Command} {name : String} {f : Failure}
    {s s' : Session (Journal ε)} (hpayload : commandName? payload = some name)
    (hname : c.Named name) (h : Failed c s f s') :
    (s'.bearings = s.bearings ∨ Dropped payload s s' ∨ Strayed payload s s') ∧
      (f.isMalformed = true → s' = s) := by
  cases h with
  | malformed hf => exact ⟨.inl rfl, fun _ => rfl⟩
  | still hf h => exact ⟨.inl h, fun hf' => by simp [hf] at hf'⟩
  | dropped hc hf hactive hentries h =>
    obtain ⟨rfl, hresumes⟩ := hc
    refine ⟨.inr (.inl ?_), fun hf' => by simp [hf] at hf'⟩
    exact ⟨⟨name, hname, hpayload⟩, hresumes, hactive, ⟨_, _, _, _, hentries⟩, h⟩
  | searched hc hf hdeparts h =>
    subst hc
    rw [List.mem_singleton.mp hname] at hpayload
    exact ⟨.inr (.inr ⟨hpayload, hdeparts, h⟩), fun hf' => by simp [hf] at hf'⟩

/-- **Failed commands leave the session as it was.** Over an engine that breaks down only while it
unwinds a call stack, a payload that is answered with an error leaves the state of the session, the
selected thread and frame, the breakpoints with their engine ids and the last id, and the staged
program, but for a launch that gave up its process and a search for user code that had made a step.
A payload that cannot be read as a command is refused for its text, and a refusal for the text of
the request asks the engine nothing and writes nothing: it leaves the whole session. -/
theorem bearings_of_failed [DebugEngine.BreaksOnlyUnwinding ε] (payload : Bytes)
    (s : Session (Journal ε)) (h : (handleFrame payload s).1.isOk = false) :
    ∃ f, (outcome payload s).1 = .error f ∧
      ((handleFrame payload s).2.bearings = s.bearings ∨
        Dropped payload s (handleFrame payload s).2 ∨
        Strayed payload s (handleFrame payload s).2) ∧
      (f.isMalformed = true → (handleFrame payload s).2 = s) ∧
      ∀ e, (RequestDocument.read payload).command? = .error e →
        f = .refused e ∧ e.isMalformed = true := by
  have hiff := isOk_handleFrame payload s
  rw [h] at hiff
  rw [handleFrame_eq]
  rcases houtcome : outcome payload s with ⟨f | response, s'⟩
  · refine ⟨f, rfl, ?_⟩
    rw [outcome] at houtcome
    split at houtcome
    · rename_i e hread
      cases houtcome
      have he := malformed_of_command? hread
      exact ⟨.inl rfl, fun _ => rfl, fun e' he' => by cases he'.symm.trans hread; exact ⟨rfl, he⟩⟩
    · rename_i c hread
      obtain ⟨name, hpayload, hname⟩ := named_of_command? hread
      have hfailed : ∀ f, ((execute c).run s).1 = .error f →
          Failed c s f ((execute c).run s).2 := failed_execute c s
      rw [houtcome] at hfailed
      obtain ⟨hleaves, hmalformed⟩ := (hfailed f rfl).payload hpayload hname
      exact ⟨hleaves, hmalformed, fun e he => by cases he.symm.trans hread⟩
  · exact absurd (hiff.mpr ⟨response, congrArg Prod.fst houtcome⟩) (by decide)

end Session

namespace Frail

open Debuggee

/-- A halted process with a thread and a frame selected. -/
def halted : Session (Journal Frail) where
  engine := .blank ⟨0x2000, 1⟩
  capabilities := ⟨false, false, false⟩
  settings := Session.Settings.standard
  outbox := ⟨.binary, .unlimited, none⟩
  lifecycle := .active ⟨0, true, some 7, 2⟩
  lastPrepared := some ⟨"/app", true, none, []⟩
  breakpoints := ⟨2, [⟨1, 0x1000, some 0⟩, ⟨2, 0x2000, none⟩]⟩

end Frail

namespace Session

/-- The engine breaks down over the call stack, and the session keeps what it knows. -/
theorem bearings_of_broken_stack :
    let payload : Bytes := [123, 34, 99, 111, 109, 109, 97, 110, 100, 34, 58, 34, 103, 101, 116, 67,
      97, 108, 108, 115, 116, 97, 99, 107, 34, 125]
    (handleFrame payload Frail.halted).1.isOk = false ∧
    (outcome payload Frail.halted).1 = .error (.crashed (some "no unwind table")) ∧
      (handleFrame payload Frail.halted).2.bearings = Frail.halted.bearings := by
  intro payload
  have hname : commandName? payload = some "getCallstack" := by decide +kernel
  have hread : (RequestDocument.read payload).command? = .ok .callStack := by rfl
  have hok : (handleFrame payload Frail.halted).1.isOk = false := by
    rw [handleFrame, hread]
    exact (isOk_withId (reply .callStack Frail.halted).1 _).trans rfl
  have hcrash : (outcome payload Frail.halted).1 = .error (.crashed (some "no unwind table")) := by
    rw [outcome, hread]
    rfl
  obtain ⟨f, -, hkept | hdropped | hstrayed, -⟩ := bearings_of_failed payload Frail.halted hok
  · exact ⟨hok, hcrash, hkept⟩
  · obtain ⟨name, hmem, hpayload⟩ := hdropped.name
    rw [hname] at hpayload
    cases hpayload
    exact absurd hmem (by decide)
  · exact absurd (hname.symm.trans hstrayed.name) (by decide)

end Session

end DebugAdapter
