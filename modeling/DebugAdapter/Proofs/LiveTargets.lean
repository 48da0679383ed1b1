import DebugAdapter.Proofs.Effects
import DebugAdapter.Proofs.Serving
import DebugAdapter.Proofs.SessionRuns

/-!
# Live targets

A target is live from its successful start until it is destroyed or lets its process go. Over an
engine whose calls return, the target of the session is the only one that is live between commands,
and a command that fails to begin a process leaves none behind.
-/

namespace DebugAdapter

open Operation

namespace Debuggee

/-! ### What is live after what was asked
-/

namespace Entry

/-- A target has started a process or taken charge of one. -/
def begins (t : Handle) (x : Entry) : Bool := x.starts t && x.succeeded

/-- Whether a target is live after an entry. -/
def keepsLive (t : Handle) (live : Bool) (x : Entry) : Bool := x.begins t || live && !x.releases t

end Entry

/-- Whether a target is live after what was asked. -/
def live (t : Handle) (xs : List Entry) : Bool := xs.foldl (Entry.keepsLive t) false

theorem keepsLive_gentle {t : Handle} {x : Entry} (h : x.Gentle t) (u : Handle) (b : Bool) :
    x.keepsLive u b = b := by
  rw [Entry.keepsLive, Entry.begins, h.starts u, h.releases u]
  simp

/-- Gentle entries change nothing. -/
theorem foldl_gentle {t : Handle} {xs : List Entry} (h : ∀ x ∈ xs, x.Gentle t) (u : Handle)
    (b : Bool) : xs.foldl (Entry.keepsLive u) b = b := by
  induction xs with
  | nil => rfl
  | cons x xs ih =>
    rw [List.foldl_cons, keepsLive_gentle (h x List.mem_cons_self)]
    exact ih fun y hy => h y (List.mem_cons_of_mem x hy)

/-- An entry that releases a target. -/
theorem keepsLive_release {t : Handle} {x : Entry} (h : x.releases t = true) (u : Handle)
    (b : Bool) : x.keepsLive u b = (b && t != u) := by
  cases x with
  | query v q answer => cases h
  | call c answer =>
    cases c with
    | request v r =>
      cases r with
      | destroy =>
        rw [← show v = t from beq_iff_eq.mp h]
        simp [Entry.keepsLive, Entry.begins, Entry.starts, Entry.releases, Request.starts, bne]
      | detach =>
        cases answer with
        | error f => cases h
        | ok a =>
          rw [← show v = t from beq_iff_eq.mp h]
          simp [Entry.keepsLive, Entry.begins, Entry.starts, Entry.releases, Request.starts, bne]
      | _ => cases h
    | _ => cases h

/-- If nothing was live before, then at most the target of a life is live. -/
theorem live_life {t : Handle} {p : Phase} {xs : List Entry} (h : Life t p xs) (u : Handle) :
    live u xs = (decide (p = .started) && t == u) := by
  rw [live]
  induction h with
  | made executable arch subscribed => rfl
  | started h hr a ih =>
    rw [List.foldl_append, ih]
    simp [Entry.keepsLive, Entry.begins, Entry.starts, Entry.succeeded, hr]
  | failed h hr f ih =>
    rw [List.foldl_append, ih]
    simp [Entry.keepsLive, Entry.begins, Entry.succeeded]
  | attended h hys ih => rw [List.foldl_append, ih, foldl_gentle hys]
  | @discarded p xs h hp a ih =>
    have hx : Entry.releases t (.call (.request t .destroy) a) = true := beq_self_eq_true t
    rw [List.foldl_append, ih, List.foldl_cons, List.foldl_nil, keepsLive_release hx, bne]
    cases t == u <;> simp

/-! ### Which targets are asked -/

/-- Only targets are asked that were known before, or were made since. -/
def OnlyKnown : List Handle → List Entry → Prop
  | _, [] => True
  | ts, x :: xs => (∀ t, x.target? = some t → t ∈ ts) ∧ OnlyKnown (x.created?.toList ++ ts) xs

theorem OnlyKnown.mono {xs : List Entry} : ∀ {ts us : List Handle}, OnlyKnown ts xs → ts ⊆ us →
    OnlyKnown us xs := by
  induction xs with
  | nil => exact fun _ _ => True.intro
  | cons x xs ih =>
    rintro ts us ⟨hx, h⟩ hsub
    refine ⟨fun t ht => hsub (hx t ht), ih h fun u hu => ?_⟩
    rcases List.mem_append.mp hu with hu | hu
    · exact List.mem_append_left _ hu
    · exact List.mem_append_right _ (hsub hu)

/-- What is made is known to what follows. -/
theorem OnlyKnown.append {xs ys : List Entry} : ∀ {ts us : List Handle}, OnlyKnown ts xs →
    OnlyKnown us ys → (∀ u ∈ us, u ∈ ts ∨ ∃ x ∈ xs, x.created? = some u) →
    OnlyKnown ts (xs ++ ys) := by
  induction xs with
  | nil =>
    intro ts us _ h' hsub
    refine h'.mono fun u hu => ?_
    rcases hsub u hu with hu | ⟨x, hx, -⟩
    · exact hu
    · cases hx
  | cons x xs ih =>
    rintro ts us ⟨hx, h⟩ h' hsub
    refine ⟨hx, ih h h' fun u hu => ?_⟩
    rcases hsub u hu with hu | ⟨y, hy, hcreated⟩
    · exact Or.inl (List.mem_append_right _ hu)
    · rcases List.mem_cons.mp hy with rfl | hy
      · exact Or.inl (List.mem_append_left _ (Option.mem_toList.mpr hcreated))
      · exact Or.inr ⟨y, hy, hcreated⟩

theorem onlyKnown_of_target {t : Handle} {xs : List Entry}
    (h : ∀ x ∈ xs, ∀ u, x.target? = some u → u = t) : OnlyKnown [t] xs := by
  -- What is known grows along the entries, so the induction is for any list with the target.
  have hsome : ∀ ts : List Handle, t ∈ ts → OnlyKnown ts xs := by
    induction xs with
    | nil => exact fun _ _ => True.intro
    | cons x xs ih =>
      intro ts ht
      refine ⟨fun u hu => ?_, ih (fun y hy => h y (List.mem_cons_of_mem x hy)) _ ?_⟩
      · rw [h x List.mem_cons_self u hu]
        exact ht
      · exact List.mem_append_right _ ht
  exact hsome [t] (List.mem_singleton_self t)

/-- The target of a life is made before it is asked, and no other target is. -/
theorem onlyKnown_life {t : Handle} {p : Phase} {xs : List Entry} (h : Life t p xs) :
    OnlyKnown [] xs ∧ ∃ x ∈ xs, x.created? = some t := by
  have hfollows : ∀ {xs ys : List Entry}, (OnlyKnown [] xs ∧ ∃ x ∈ xs, x.created? = some t) →
      (∀ y ∈ ys, ∀ u, y.target? = some u → u = t) →
        OnlyKnown [] (xs ++ ys) ∧ ∃ x ∈ xs ++ ys, x.created? = some t := by
    rintro xs ys ⟨hxs, x, hx, hcreated⟩ hys
    refine ⟨hxs.append (onlyKnown_of_target hys) fun u hu => ?_,
      x, List.mem_append_left ys hx, hcreated⟩
    rw [List.mem_singleton.mp hu]
    exact Or.inr ⟨x, hx, hcreated⟩
  have hrequest : ∀ (r : Request) (answer : Except Fault r.Answer),
      ∀ y ∈ [Entry.call (.request t r) answer], ∀ u, y.target? = some u → u = t := by
    intro r answer y hy u hu
    rw [List.mem_singleton.mp hy] at hu
    exact (Option.some.inj hu).symm
  induction h with
  | made executable arch subscribed =>
    refine ⟨⟨by rintro u ⟨⟩, fun u hu => ?_, True.intro⟩, _, List.mem_cons_self, rfl⟩
    rw [← Option.some.inj hu]
    exact List.mem_cons_self
  | started h hr a ih => exact hfollows ih (hrequest _ _)
  | failed h hr f ih => exact hfollows ih (hrequest _ _)
  | attended h hys ih => exact hfollows ih fun y hy => (hys y hy).target
  | discarded h hp a ih => exact hfollows ih (hrequest _ _)

/-! ### Destroyed once -/

/-- The target of a life is the only one that is started. -/
theorem starts_life {t : Handle} {p : Phase} {xs : List Entry} (h : Life t p xs) :
    ∀ x ∈ xs, ∀ u, x.starts u = true → u = t := by
  have hfollows : ∀ {xs : List Entry} (r : Request) (answer : Except Fault r.Answer),
      (∀ x ∈ xs, ∀ u, x.starts u = true → u = t) →
        ∀ x ∈ xs ++ [.call (.request t r) answer], ∀ u, x.starts u = true → u = t := by
    intro xs r answer hxs x hx u hu
    rcases List.mem_append.mp hx with hx | hx
    · exact hxs x hx u hu
    · rw [List.mem_singleton.mp hx] at hu
      exact (beq_iff_eq.mp (Bool.and_eq_true_iff.mp hu).1).symm
  induction h with
  | made executable arch subscribed =>
    intro x hx u hu
    rcases List.mem_cons.mp hx with rfl | hx
    · cases hu
    · rw [List.mem_singleton.mp hx] at hu
      cases hu
  | started h hr a ih => exact hfollows _ _ ih
  | failed h hr f ih => exact hfollows _ _ ih
  | attended h hys ih =>
    intro x hx u hu
    rcases List.mem_append.mp hx with hx | hx
    · exact ih x hx u hu
    · rw [(hys x hx).starts u] at hu
      cases hu
  | discarded h hp a ih => exact hfollows _ _ ih

theorem destroys_of_starts {r : Request} (hr : r.starts = true) (t : Handle)
    (answer : Except Fault r.Answer) : Entry.destroys t (.call (.request t r) answer) = false := by
  cases r with
  | destroy => cases hr
  | _ => rfl

/-- The target of a life is destroyed once when the life is over. -/
theorem countP_destroys_life {t : Handle} {p : Phase} {xs : List Entry} (h : Life t p xs) :
    xs.countP (Entry.destroys t) = if p = .discarded then 1 else 0 := by
  induction h with
  | made executable arch subscribed => rfl
  | started h hr a ih => simp [ih, destroys_of_starts hr]
  | failed h hr f ih => simp [ih, destroys_of_starts hr]
  | @attended xs ys h hys ih =>
    have hnone : ys.countP (Entry.destroys t) = 0 := by
      rw [List.countP_eq_zero]
      intro y hy
      rw [Entry.destroys_of_gentle (hys y hy)]
      decide
    rw [List.countP_append, ih, hnone, Nat.add_zero]
  -- Only what was not destroyed yet is destroyed.
  | @discarded p xs h hp a ih =>
    have hbefore : p ≠ .discarded := by
      rintro rfl
      rcases hp with hp | hp <;> cases hp
    have hdestroys : Entry.destroys t (.call (.request t .destroy) a) = true := beq_self_eq_true t
    simp [ih, hbefore, hdestroys]

/-! ### Journals of engines whose calls return -/

section Returns

variable {ε : Type} [DebugEngine ε] [DebugEngine.Returns ε]

theorem Inquiry.isOk_run {α : Type} (i : Inquiry α) : ∀ e : ε, ∃ a, (i.run e).1 = .ok a := by
  induction i with
  | done a => exact fun e => ⟨a, rfl⟩
  | request t r next ih =>
    intro e
    have hreturns := DebugEngine.Returns.ne_crash (.request t r) e
    rw [Inquiry.run]
    rcases hperform : DebugEngine.perform (.request t r) e with ⟨(err | text) | a, e'⟩
    · exact ih _ e'
    · exact absurd (congrArg Prod.fst hperform) (hreturns text)
    · exact ih _ e'
  | query t q next ih => exact fun e => ih _ _

theorem rawOutput_ne_crash (focus : Focus) (line : String) (e : ε) (text : Option String) :
    (rawOutput focus line e).1 ≠ .error (.crash text) := by
  have hreturns := DebugEngine.Returns.ne_crash (.rawCommand focus line) e text
  rw [rawOutput]
  rcases hperform : DebugEngine.perform (.rawCommand focus line) e with ⟨f | i, e₁⟩
  · rw [hperform] at hreturns
    rintro ⟨⟩
    exact hreturns rfl
  · obtain ⟨output, houtput⟩ := i.isOk_run e₁
    dsimp only
    rcases hrun : i.run e₁ with ⟨_ | _, e₂⟩
    · rw [hrun] at houtput
      cases houtput
    · rintro ⟨⟩

instance : DebugEngine.Returns (Journal ε) where
  ne_crash c j text := by
    show (c.settle j.engine).1 ≠ _
    cases c with
    | rawCommand focus line =>
      have hreturns := rawOutput_ne_crash focus line j.engine text
      rw [Call.settle]
      rcases hraw : (rawOutput focus line j.engine).1 with f | output
      · rw [hraw] at hreturns
        rintro ⟨⟩
        exact hreturns rfl
      · rintro ⟨⟩
    | _ => exact DebugEngine.Returns.ne_crash _ j.engine text

theorem not_breaks (text : Option String) : ¬Breaks ε text := by
  rintro ⟨c, e, h⟩
  exact DebugEngine.Returns.ne_crash c e text h

end Returns

end Debuggee

namespace Session

open Debuggee

variable {ε : Type} [DebugEngine ε] {s s' : Session (Journal ε)}

/-! ### The target of a session is the one that is live -/

/-- The target of a session is live, and no other. -/
def Accounted (s : Session (Journal ε)) : Prop :=
  ∀ t, live t s.engine.entries = (s.lifecycle.target? == some t)

section Channels

variable {c c' : Channel (Journal ε)} {t : Handle}

omit [DebugEngine ε] in
theorem live_happens {xs : List Entry} {ns : List Wire.Notification} (h : Happens xs ns c c')
    (u : Handle) :
    live u c'.engine.entries = xs.foldl (Entry.keepsLive u) (live u c.engine.entries) := by
  rw [h.entries, live, List.foldl_append]
  rfl

omit [DebugEngine ε] in
theorem live_tends (h : Tends t c c') (u : Handle) :
    live u c'.engine.entries = live u c.engine.entries := by
  obtain ⟨xs, ns, hxs, hgentle, -⟩ := h
  rw [live_happens hxs, foldl_gentle hgentle]

omit [DebugEngine ε] in
/-- Nothing is live after the only live target was released. -/
theorem live_release {x : Entry} {ns : List Wire.Notification} (h : Happens [x] ns c c')
    (hx : x.releases t = true) (hlive : ∀ u, live u c.engine.entries = (some t == some u))
    (u : Handle) : live u c'.engine.entries = false := by
  rw [live_happens h, List.foldl_cons, List.foldl_nil, keepsLive_release hx, hlive u]
  by_cases hu : t = u
  · simp [hu]
  · simp [hu]

end Channels

/-- A command that begins a process leaves its target live if it succeeds, and nothing otherwise. -/
theorem Course.live [DebugEngine.Returns ε] {α : Type} {r : Except Failure α}
    {target? : Option Handle} {xs : List Entry} (h : Course ε r target? xs) (u : Handle) :
    Debuggee.live u xs = (target? == some u) := by
  cases h with
  | refused e => rfl
  | unmade executable arch fault => rfl
  | unused e h => exact live_life h u
  | discarded e h => exact live_life h u
  | @running t xs a h =>
    rw [live_life h]
    exact Bool.true_and _
  | broken h hbreaks htarget => exact absurd hbreaks (not_breaks _)

variable [DebugEngine.Returns ε]

theorem Effect.accounted {c : Command} {r : Except Failure Wire.Response} (h : Effect s c r s')
    (hs : Accounted s) : Accounted s' := by
  intro u
  cases h with
  | refused e => exact hs u
  | pong => exact hs u
  | staged hc hnone hnone' hchannel =>
    rw [show s'.engine = s.engine from congrArg Channel.engine hchannel, hs u, hnone, hnone']
  | attended hbegins hreleases ht ht' htends =>
    rw [ht', ← ht, ← hs u]
    exact live_tends htends u
  | @released c r s' t x k hc ht ht' htarget hx hcall htends =>
    have hlive : live u s'.channel.engine.entries = _ := live_tends htends u
    -- The events that follow the release make gentle entries only.
    refine hlive.trans ?_
    rw [ht']
    exact live_release hcall hx (fun v => (hs v).trans (by rw [ht])) u
  | began hc hnone h =>
    obtain ⟨xs, ns, hxs, -, hcourse⟩ := h
    have hlive : live u s'.channel.engine.entries = _ := live_happens hxs u
    have hbefore : live u s.channel.engine.entries = _ := hs u
    rw [hnone] at hbefore
    rw [hbefore] at hlive
    exact hlive.trans (hcourse.live u)

theorem kept_accounted : Server.Kept (Accounted (ε := ε)) where
  outbox s o hs := hs
  events s hs u := by
    rcases ht : s.lifecycle.target? with _ | t
    · rw [deliverEvents_none ht, hs u, ht]
    · have hevents := attending_deliverEvents (W := Tends) t s ht
      rw [hevents.target, ← ht, ← hs u]
      exact live_tends hevents.channel u
  reply c s hs := by
    obtain ⟨r, h, -⟩ := effect_reply c s
    exact h.accounted hs

omit [DebugEngine.Returns ε] in
theorem accounted_start (engine : ε) (settings : Settings) (outbox : Wire.Outbox) :
    Accounted (Session.start (Journal.blank engine) settings outbox) :=
  fun _ => rfl

/-! ### Commands that fail to begin a process -/

/-- What fails to begin a process destroys what it started, once, and asks no other target. -/
theorem Course.spares {f : Failure} {target? : Option Handle} {xs : List Entry}
    (h : Course ε (.error f : Except Failure Wire.Response) target? xs) : OnlyKnown [] xs ∧
      ∀ t, (∃ x ∈ xs, x.starts t = true) → xs.countP (Entry.destroys t) = 1 := by
  cases h with
  | refused e =>
    refine ⟨True.intro, ?_⟩
    rintro t ⟨x, hx, -⟩
    cases hx
  | unmade executable arch fault =>
    refine ⟨⟨by rintro u ⟨⟩, True.intro⟩, ?_⟩
    rintro t ⟨x, hx, hstarts⟩
    rw [List.mem_singleton.mp hx] at hstarts
    cases hstarts
  | unused e h =>
    refine ⟨(onlyKnown_life h).1, ?_⟩
    rintro t ⟨x, hx, hstarts⟩
    -- A target that was only made was not asked to start.
    cases h with
    | made executable arch subscribed =>
      rcases List.mem_cons.mp hx with rfl | hx
      · cases hstarts
      · rw [List.mem_singleton.mp hx] at hstarts
        cases hstarts
  | discarded e h =>
    refine ⟨(onlyKnown_life h).1, ?_⟩
    rintro t ⟨x, hx, hstarts⟩
    rw [starts_life h x hx t hstarts]
    exact countP_destroys_life h
  | broken h hbreaks htarget => exact absurd hbreaks (not_breaks _)

/-- A command that cannot begin a process leaves none of its targets behind, and no other target is
asked. -/
theorem Effect.spares {c : Command} {f : Failure} (h : Effect s c (.error f) s')
    (hc : c.begins = true) : ∃ xs, s'.engine.entries = s.engine.entries ++ xs ∧ OnlyKnown [] xs ∧
      ∀ t, (∃ x ∈ xs, x.starts t = true) → xs.countP (Entry.destroys t) = 1 := by
  cases h with
  | refused e =>
    refine ⟨[], (List.append_nil _).symm, True.intro, ?_⟩
    rintro t ⟨x, hx, -⟩
    cases hx
  | attended hbegins =>
    rw [hc] at hbegins
    cases hbegins
  | released hreleases =>
    cases c with
    | detach => cases hc
    | deleteProcess => cases hc
    | _ => cases hreleases
  | began _ _ h =>
    obtain ⟨xs, ns, hxs, -, hcourse⟩ := h
    exact ⟨xs, hxs.entries, hcourse.spares⟩

/-- So does a payload that asks for such a command, also if its arguments are malformed. -/
theorem spares_payload {payload : Bytes} {name : String} (hname : name ∈ beginNames)
    (hpayload : commandName? payload = some name) (hok : (handleFrame payload s).1.isOk = false) :
    ∃ xs, (handleFrame payload s).2.engine.entries = s.engine.entries ++ xs ∧ OnlyKnown [] xs ∧
      ∀ t, (∃ x ∈ xs, x.starts t = true) → xs.countP (Entry.destroys t) = 1 := by
  have hiff := isOk_handleFrame payload s
  rw [hok] at hiff
  rw [handleFrame_eq]
  rcases effect_payload payload s with ⟨e, he⟩ | ⟨c, name', hname', hnamed, heffect⟩
  · rw [he]
    exact (Effect.refused e).spares (c := .launch) rfl
  · rw [hpayload] at hname'
    cases hname'
    rcases houtcome : outcome payload s with ⟨f | response, s'⟩
    · rw [houtcome] at heffect
      exact heffect.spares ((begins_iff_of_named hnamed).mpr hname)
    · exact absurd (hiff.mpr ⟨response, congrArg Prod.fst houtcome⟩) (by decide)

omit [DebugEngine.Returns ε]

/-! ### The end of a session -/

/-- Nothing is live after the session was shut down. -/
theorem accounted_shutdown (hs : Accounted s) : Ends shutdown s fun _ s' =>
    ∀ t, live t s'.engine.entries = false := by
  refine (ends_shutdown s).mono ?_
  rintro r s' ⟨-, -, ⟨hnone, rfl⟩ | ⟨t, ht, hcall⟩⟩ u
  · rw [hs u, hnone]
    rfl
  · exact live_release hcall (beq_self_eq_true t) (fun v => (hs v).trans (by rw [ht])) u

/-- Nothing is live after the process was destroyed on request, or if there was none. -/
theorem accounted_deleteProcess (hs : Accounted s) : Ends deleteProcess s fun _ s' =>
    ∀ t, live t s'.engine.entries = false := by
  rcases ht : s.lifecycle.target? with _ | t
  · rw [ends_deleteProcess_inactive (not_isActive_iff.mpr ht)]
    intro u
    rw [hs u, ht]
    rfl
  · refine (released_deleteProcess ht).mono ?_
    rintro r s' ⟨-, -, hcall⟩ u
    exact live_release hcall (beq_self_eq_true t) (fun v => (hs v).trans (by rw [ht])) u

/-- Neither is it when a server ends. -/
theorem accounted_finish (hs : Accounted s) : Ends Server.finish s fun _ s' =>
    ∀ t, live t s'.engine.entries = false := by
  refine (accounted_shutdown hs).bind ?_ fun _ _ h => h
  intro _ s' h
  rw [ends_modify, Server.sendReply_snd]
  exact h

section Runs

variable [DebugEngine.Returns ε] {engine : ε} {settings : Settings} {outbox : Wire.Outbox}
  {log : Log}

theorem accounted_of_run (h : Run (Session.start (Journal.blank engine) settings outbox) log s) :
    Accounted s := by
  induction h with
  | start => exact accounted_start engine settings outbox
  | command c _ ih => exact kept_accounted.reply c _ ih
  | events _ ih => exact kept_accounted.events _ ih

/-- **No target is left behind.** In every run of a session over an engine whose calls return, a
target is live between commands if and only if it is the target of the session, so there is at most
one. A command that fails to begin a process has destroyed exactly once each target that it asked to
start, and has asked no target but what it made itself. After the process was deleted on request,
after the session was shut down and after a server ended nothing is live. -/
theorem live_of_run (h : Run (Session.start (Journal.blank engine) settings outbox) log s) :
    (∀ t, live t s.engine.entries = true ↔ s.lifecycle.target? = some t) ∧
    (∀ payload, (∃ name ∈ beginNames, commandName? payload = some name) →
      (handleFrame payload s).1.isOk = false →
      ∃ xs, (handleFrame payload s).2.engine.entries = s.engine.entries ++ xs ∧ OnlyKnown [] xs ∧
        ∀ t, (∃ x ∈ xs, x.starts t = true) → xs.countP (Entry.destroys t) = 1) ∧
    (∀ t, live t (reply .deleteProcess s).2.engine.entries = false) ∧
    (∀ t, live t ((shutdown : Action (Journal ε) Unit).run s).2.engine.entries = false) ∧
    ∀ input t, live t (Server.run input s).2.engine.entries = false := by
  have hs := accounted_of_run h
  refine ⟨fun t => ?_, ?_, ?_, accounted_shutdown hs, fun input => ?_⟩
  · rw [hs t, beq_iff_eq]
  · rintro payload ⟨name, hname, hpayload⟩ hok
    exact spares_payload hname hpayload hok
  · rw [reply_eq]
    exact accounted_deleteProcess hs
  · rw [Server.run_eq]
    exact accounted_finish (kept_accounted.converse _ hs)

end Runs

/-- A program is staged; its process is to be resumed once it was launched, which the engine
refuses. -/
def staged : Session (Journal Obliging) :=
  let settings : Settings :=
    { Settings.standard with launch := { Settings.standard.launch with stopAtEntry := false } }
  (replies [] (.start (Journal.blank ⟨0⟩) settings ⟨.binary, .unlimited, none⟩)
    [.prepare ⟨"/app", true, none, []⟩]).2

/-- The target is destroyed once. -/
theorem live_of_failed_launch :
    let payload : Bytes := [123, 34, 99, 111, 109, 109, 97, 110, 100, 34, 58, 32, 34, 108, 97, 117,
      110, 99, 104, 34, 125]
    (handleFrame payload staged).1.isOk = false ∧
    ∃ xs, (handleFrame payload staged).2.engine.entries = staged.engine.entries ++ xs ∧
      OnlyKnown [] xs ∧ ∀ t, (∃ x ∈ xs, x.starts t = true) → xs.countP (Entry.destroys t) = 1 := by
  intro payload
  have hpayload : commandName? payload = some "launch" := by decide +kernel
  have hread : (RequestDocument.read payload).command? = .ok .launch := by rfl
  have hok : (handleFrame payload staged).1.isOk = false := by
    rw [handleFrame, hread]
    exact (isOk_withId (reply .launch staged).1 _).trans rfl
  exact ⟨hok, (live_of_run (run_replies _ .start)).2.1 payload ⟨"launch", by decide, hpayload⟩ hok⟩

end Session

end DebugAdapter
