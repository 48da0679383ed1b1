import DebugAdapter.Proofs.LiveTargets

/-!
# Sessions without a process

Without a process a session asks no target and writes nothing, unless a command begins one; and what
it writes after it let a process go is told by targets that were made since.
-/

namespace DebugAdapter.Session

open Debuggee
open Operation
open Wire (Notification Response)

variable {ε : Type} {s s' s'' : Session (Journal ε)}

/-! ### Commands that change nothing
-/

/-- The names of commands that work on what is staged. -/
def stagingNames : List String :=
  ["prepareExecutable", "setBreakpointAtVirtualAddress", "removeBreakpoint", "removeAllBreakpoints"]

theorem staging_of_named {c : Command} {l : Lifecycle} {name : String} (h : c.Named name)
    (hc : c.stages l = true) :
    name ∈ stagingNames ∧ (l = .uninitialized → name = "prepareExecutable") := by
  cases c with
  | prepare e =>
    cases List.mem_singleton.mp h
    exact ⟨by decide, fun _ => rfl⟩
  | setBreakpoint addr =>
    cases List.mem_singleton.mp h
    refine ⟨by decide, ?_⟩
    rintro rfl
    cases hc
  | removeBreakpoint id =>
    cases List.mem_singleton.mp h
    refine ⟨by decide, ?_⟩
    rintro rfl
    cases hc
  | removeAllBreakpoints =>
    cases List.mem_singleton.mp h
    refine ⟨by decide, ?_⟩
    rintro rfl
    cases hc
  | _ => cases hc

theorem releases_of_named {c : Command} {name : String} (hname : name ∈ ["detach", "deleteProcess"])
    (h : c.Named name) : c.releases = true := by
  have hnames : ∀ n ∈ c.names, n ∈ ["detach", "deleteProcess"] → c.releases = true := by
    cases c <;> simp [Command.names, Command.releases]
  exact hnames name h hname

section Idle

variable [DebugEngine ε] {c : Command} {r : Except Failure Response}

/-- Without a process, a command that begins none is refused, only answers, or stages something; the
engine and the outbox are left alone. -/
theorem Effect.idle (h : Effect s c r s') (hs : s.lifecycle.target? = none)
    (hc : c.begins = false) : (∃ e, r = .error (.refused e)) ∧ s' = s ∨ c = .ping ∧ s' = s ∨
      c.stages s.lifecycle = true ∧ s'.channel = s.channel := by
  cases h with
  | refused e => exact Or.inl ⟨⟨e, rfl⟩, rfl⟩
  | pong => exact Or.inr (Or.inl ⟨rfl, rfl⟩)
  | staged hstages _ _ hchannel => exact Or.inr (Or.inr ⟨hstages, hchannel⟩)
  | attended _ _ ht =>
    rw [hs] at ht
    cases ht
  | released _ ht =>
    rw [hs] at ht
    cases ht
  | began hbegins =>
    rw [hc] at hbegins
    cases hbegins

/-! ### What is known -/

/-- Between two states of a session only the target is asked that it had, and targets that were made
since; each notification is told by one of them; and the target that it has then is among them. -/
def Knows (s s' : Session (Journal ε)) : Prop :=
  ∃ xs ns, Happens xs ns s.channel s'.channel ∧ Told xs ns ∧
    OnlyKnown s.lifecycle.target?.toList xs ∧
    ∀ t, s'.lifecycle.target? = some t →
      s.lifecycle.target? = some t ∨ ∃ x ∈ xs, x.created? = some t

end Idle

instance : StepRelation (Knows (ε := ε)) where
  refl s := ⟨[], [], .refl _, told_nil _, True.intro, fun _ ht => Or.inl ht⟩
  trans := by
    rintro s s' s'' ⟨xs, ns, hxs, htold, hknown, htarget⟩ ⟨ys, ms, hys, htold', hknown', htarget'⟩
    refine ⟨xs ++ ys, ns ++ ms, hxs.append hys, htold.append htold',
      hknown.append hknown' fun u hu => ?_, fun t ht => ?_⟩
    · exact (htarget u (Option.mem_toList.mp hu)).imp_left Option.mem_toList.mpr
    · rcases htarget' t ht with ht | ⟨y, hy, hcreated⟩
      · rcases htarget t ht with ht | ⟨x, hx, hcreated⟩
        · exact Or.inl ht
        · exact Or.inr ⟨x, List.mem_append_left ys hx, hcreated⟩
      · exact Or.inr ⟨y, List.mem_append_right xs hy, hcreated⟩

/-- To attend to the target of a session. -/
theorem knows_of_tends {t : Handle} (ht : s.lifecycle.target? = some t)
    (ht' : s'.lifecycle.target? = some t) (h : Tends t s.channel s'.channel) : Knows s s' := by
  obtain ⟨xs, ns, hxs, hgentle, htold⟩ := h
  refine ⟨xs, ns, hxs, htold, ?_, fun u hu => Or.inl ?_⟩
  · rw [ht]
    exact onlyKnown_of_target fun x hx => (hgentle x hx).target
  · rw [ht, ← ht', hu]

section Runs

variable [DebugEngine ε]

/-- What a command knows that begins a process. -/
theorem Course.knows {α : Type} {r : Except Failure α} {target? : Option Handle} {xs : List Entry}
    (h : Course ε r target? xs) : OnlyKnown [] xs ∧
      ∀ t, target? = some t → ∃ x ∈ xs, x.created? = some t := by
  cases h with
  | refused e => exact ⟨True.intro, by rintro t ⟨⟩⟩
  | unmade executable arch fault => exact ⟨⟨by rintro u ⟨⟩, True.intro⟩, by rintro t ⟨⟩⟩
  | unused e h => exact ⟨(onlyKnown_life h).1, by rintro t ⟨⟩⟩
  | discarded e h => exact ⟨(onlyKnown_life h).1, by rintro t ⟨⟩⟩
  | running a h =>
    refine ⟨(onlyKnown_life h).1, ?_⟩
    rintro t ⟨⟩
    exact (onlyKnown_life h).2
  -- The engine may break down before or after the target became that of the session.
  | broken h hbreaks htarget =>
    refine ⟨(onlyKnown_life h).1, ?_⟩
    rintro t rfl
    rcases htarget with htarget | htarget
    · cases htarget
    · cases htarget
      exact (onlyKnown_life h).2

theorem Effect.knows {c : Command} {r : Except Failure Response} (h : Effect s c r s') :
    Knows s s' := by
  cases h with
  | refused e => exact StepRelation.refl s
  | pong => exact StepRelation.refl s
  | staged hc hs hs' hchannel =>
    refine ⟨[], [], ?_, told_nil _, True.intro, fun t ht => ?_⟩
    · rw [hchannel]
      exact .refl _
    · rw [hs'] at ht
      cases ht
  | attended _ _ hs hs' htends => exact knows_of_tends hs hs' htends
  | @released c r s' t x k hc hs hs' htarget hx hcall htends =>
    obtain ⟨ys, ns, hys, hgentle, htold⟩ := htends
    refine ⟨[x] ++ ys, [] ++ ns, hcall.append hys, (told_nil _).append htold, ?_, fun u hu => ?_⟩
    · rw [hs]
      refine onlyKnown_of_target fun y hy u hu => ?_
      rcases List.mem_cons.mp hy with rfl | hy
      · rw [htarget] at hu
        exact (Option.some.inj hu).symm
      · exact (hgentle y hy).target u hu
    · rw [hs'] at hu
      cases hu
  | began hc hs h =>
    obtain ⟨xs, ns, hxs, htold, hcourse⟩ := h
    refine ⟨xs, ns, hxs, htold, ?_, fun t ht => Or.inr (hcourse.knows.2 t ht)⟩
    rw [hs]
    exact hcourse.knows.1

theorem knows_events (s : Session (Journal ε)) : Knows s (deliverEvents s) := by
  rcases ht : s.lifecycle.target? with _ | t
  · rw [deliverEvents_none ht]
    exact StepRelation.refl s
  · have hevents := attending_deliverEvents (W := Tends) t s ht
    exact knows_of_tends ht hevents.target hevents.channel

theorem knows_of_run {log : Log} (h : Run s log s') : Knows s s' := by
  induction h with
  | start => exact StepRelation.refl s
  | @command log s' c _ ih =>
    obtain ⟨r, heffect, -⟩ := effect_reply c s'
    exact StepRelation.trans ih heffect.knows
  | events _ ih => exact StepRelation.trans ih (knows_events _)

/-- After a command that let go of the process there is none. -/
theorem Effect.released_of_isOk {c : Command} {response : Response}
    (h : Effect s c (.ok response) s') (hc : c.releases = true) : s'.lifecycle.target? = none := by
  cases h with
  | pong => cases hc
  | staged _ _ hs' _ => exact hs'
  | attended _ hreleases _ _ _ =>
    obtain ⟨f, hf⟩ := hreleases hc
    cases hf
  | released _ _ hs' _ _ _ _ => exact hs'
  | began hbegins _ _ =>
    cases c with
    | detach => cases hbegins
    | deleteProcess => cases hbegins
    | _ => cases hc

end Runs

/-! ### Payloads -/

section Payloads

variable [DebugEngine ε] {payload : Bytes}

theorem knows_payload (payload : Bytes) (s : Session (Journal ε)) :
    Knows s (handleFrame payload s).2 := by
  rw [handleFrame_eq]
  rcases effect_payload payload s with ⟨e, he⟩ | ⟨c, name, -, -, heffect⟩
  · rw [he]
    exact StepRelation.refl s
  · exact heffect.knows

/-- A payload that begins no process is answered by the session alone while there is none. -/
theorem channel_payload (hs : s.lifecycle.target? = none)
    (hname : ∀ name ∈ beginNames, commandName? payload ≠ some name) :
    (handleFrame payload s).2.channel = s.channel := by
  rw [handleFrame_eq]
  rcases effect_payload payload s with ⟨e, he⟩ | ⟨c, name, hpayload, hnamed, heffect⟩
  · rw [he]
  · have hbegins : c.begins = false := by
      rw [Bool.eq_false_iff]
      exact fun hc => hname name ((begins_iff_of_named hnamed).mp hc) hpayload
    rcases heffect.idle hs hbegins with ⟨-, h⟩ | ⟨-, h⟩ | ⟨-, h⟩
    · rw [h]
    · rw [h]
    · exact h

/-- If it does not stage anything either, it changes nothing. -/
theorem unchanged_payload (names : List String) (hs : s.lifecycle.target? = none)
    (hnames : ∀ (c : Command) (name : String), c.Named name → c.stages s.lifecycle = true →
      name ∈ names)
    (hname : ∀ name ∈ names ++ beginNames, commandName? payload ≠ some name) :
    (outcome payload s).2 = s ∧
      (commandName? payload ≠ some "ping" → ∃ f, (outcome payload s).1 = .error f) := by
  rcases effect_payload payload s with ⟨e, he⟩ | ⟨c, name, hpayload, hnamed, heffect⟩
  · rw [he]
    exact ⟨rfl, fun _ => ⟨_, rfl⟩⟩
  · have hbegins : c.begins = false := by
      rw [Bool.eq_false_iff]
      intro hc
      have hmem := (begins_iff_of_named hnamed).mp hc
      exact hname name (List.mem_append_right _ hmem) hpayload
    rcases heffect.idle hs hbegins with ⟨⟨e, he⟩, h⟩ | ⟨rfl, h⟩ | ⟨hstages, -⟩
    · exact ⟨h, fun _ => ⟨_, he⟩⟩
    -- Only `ping` succeeds and changes nothing.
    · refine ⟨h, fun hping => absurd hpayload ?_⟩
      rw [List.mem_singleton.mp hnamed]
      exact hping
    · exact absurd hpayload (hname name (List.mem_append_left _ (hnames c name hnamed hstages)))

/-- After a payload that let go of the process there is none. -/
theorem target?_of_released {name : String} (hname : name ∈ ["detach", "deleteProcess"])
    (hpayload : commandName? payload = some name) (hok : (handleFrame payload s).1.isOk = true) :
    (handleFrame payload s).2.lifecycle.target? = none := by
  rw [isOk_handleFrame] at hok
  obtain ⟨response, hresponse⟩ := hok
  rw [handleFrame_eq]
  rcases effect_payload payload s with ⟨e, he⟩ | ⟨c, name', hpayload', hnamed, heffect⟩
  · rw [he] at hresponse
    cases hresponse
  · rw [hpayload] at hpayload'
    cases hpayload'
    rw [hresponse] at heffect
    exact heffect.released_of_isOk (releases_of_named hname hnamed)

/-- A session without a program is left as it is, and says so. -/
theorem refused_uninitialized (hl : s.lifecycle = .uninitialized)
    (hname : ∀ name ∈ ["ping", "prepareExecutable"] ++ beginNames,
      commandName? payload ≠ some name) :
    (handleFrame payload s).1.isOk = false ∧ (handleFrame payload s).2 = s := by
  have hs : s.lifecycle.target? = none := by
    rw [hl]
    rfl
  have hstaging : ∀ (c : Command) (name : String), c.Named name → c.stages s.lifecycle = true →
      name ∈ ["ping", "prepareExecutable"] := by
    intro c name hnamed hstages
    rw [(staging_of_named hnamed hstages).2 hl]
    decide
  obtain ⟨hsame, herror⟩ := unchanged_payload _ hs hstaging hname
  obtain ⟨f, hf⟩ := herror (hname "ping" (by decide))
  refine ⟨?_, ?_⟩
  · rw [Bool.eq_false_iff, ne_eq, isOk_handleFrame, hf]
    rintro ⟨response, ⟨⟩⟩
  · rw [handleFrame_eq]
    exact hsame

/-- **Nothing happens without a process.** A payload that begins no process asks no target and
nothing of the engine, and sends nothing. Before a program is staged it is refused and changes
nothing, unless it stages one or only wants an answer; afterwards only what works on the staged
program changes anything. So once a process was let go or destroyed, whatever the session does then,
every target that is asked was made since, and each notification is told by one of these. -/
theorem silent_outside_active (payload : Bytes) (s : Session (Journal ε)) :
    (¬IsActive s → (∀ name ∈ beginNames, commandName? payload ≠ some name) →
      (handleFrame payload s).2.channel = s.channel) ∧
    (s.lifecycle = .uninitialized →
      (∀ name ∈ ["ping", "prepareExecutable"] ++ beginNames, commandName? payload ≠ some name) →
      (handleFrame payload s).1.isOk = false ∧ (handleFrame payload s).2 = s) ∧
    (∀ e, s.lifecycle = .prepared e →
      (∀ name ∈ stagingNames ++ beginNames, commandName? payload ≠ some name) →
      (handleFrame payload s).2 = s) ∧
    ((∃ name ∈ ["detach", "deleteProcess"], commandName? payload = some name) →
      (handleFrame payload s).1.isOk = true →
      ¬IsActive (handleFrame payload s).2 ∧
      ∀ log s', Run (handleFrame payload s).2 log s' → ∃ xs ns,
        Happens xs ns (handleFrame payload s).2.channel s'.channel ∧ Told xs ns ∧
          OnlyKnown [] xs) := by
  refine ⟨fun hs hname => channel_payload (not_isActive_iff.mp hs) hname,
    refused_uninitialized, ?_, ?_⟩
  · intro e hl hname
    have hs : s.lifecycle.target? = none := by
      rw [hl]
      rfl
    rw [handleFrame_eq]
    exact (unchanged_payload stagingNames hs
      (fun c name hnamed hstages => (staging_of_named hnamed hstages).1) hname).1
  · rintro ⟨name, hname, hpayload⟩ hok
    have hgone := target?_of_released hname hpayload hok
    refine ⟨not_isActive_iff.mpr hgone, fun log s' hrun => ?_⟩
    obtain ⟨xs, ns, hxs, htold, hknown, -⟩ := knows_of_run hrun
    rw [hgone] at hknown
    exact ⟨xs, ns, hxs, htold, hknown⟩

end Payloads

/-- A process was launched. -/
def launched : Session (Journal Obliging) :=
  (replies [] (.start (Journal.blank ⟨0⟩) .standard ⟨.binary, .unlimited, none⟩)
    [.prepare ⟨"/app", true, none, []⟩, .launch]).2

/-- It is let go, and nothing more is told of it. -/
theorem silent_after_detach :
    let payload : Bytes := [123, 34, 99, 111, 109, 109, 97, 110, 100, 34, 58, 32, 34, 100, 101, 116,
      97, 99, 104, 34, 125]
    IsActive launched ∧ ∀ log s', Run (handleFrame payload launched).2 log s' → ∃ xs ns,
      Happens xs ns (handleFrame payload launched).2.channel s'.channel ∧ Told xs ns ∧
        OnlyKnown [] xs := by
  intro payload
  have hpayload : commandName? payload = some "detach" := by decide +kernel
  have hread : (RequestDocument.read payload).command? = .ok .detach := by rfl
  have hok : (handleFrame payload launched).1.isOk = true := by
    rw [handleFrame, hread]
    exact (isOk_withId (reply .detach launched).1 _).trans rfl
  exact ⟨⟨_, rfl⟩, ((silent_outside_active payload launched).2.2.2
    ⟨"detach", by decide, hpayload⟩ hok).2⟩

end DebugAdapter.Session
