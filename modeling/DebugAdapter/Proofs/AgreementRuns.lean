import DebugAdapter.Proofs.BreakpointAgreement

/-!
# Runs in which breakpoints agree

In every run of commands that set and remove breakpoints the traps of the process are at the installed
breakpoints of the session, until a removal takes the trap of a breakpoint that stays. `Removal` says
what a removal does, whatever becomes of it; the rest is read off its cases.
-/

namespace DebugAdapter.Session

open Debuggee
open Engine.Traced (Engine)
open Linux
open Operation
open Tracer
open Tracer.BreakpointTable (Extends Removes)
open Wire (Response)

variable {κ : Type} [Kernel κ]

/-- The process of a session is there, if the session has one. -/
def Lives (s : Session (Engine κ)) : Prop :=
  ∀ a u, s.lifecycle = .active a → s.engine.system? a.target = some u → u.tracer.process ≠ none

/-- The memory of the process of a session can be accessed. -/
def Accessible (s : Session (Engine κ)) : Prop :=
  ∃ a u, s.lifecycle = .active a ∧ s.engine.system? a.target = some u ∧ Tracing.Accessible u

/-- The process of a session has a trap in place at an address, for a breakpoint of the user. -/
def Installed (s : Session (Engine κ)) (x : UInt64) : Prop :=
  ∃ a u, s.lifecycle = .active a ∧ s.engine.system? a.target = some u ∧
    u.tracer.process ≠ none ∧ u.tracer.breakpoints.Trapped x

/-- The traps are at the installed breakpoints of the session. -/
def Agrees (s : Session (Engine κ)) : Prop :=
  ∀ x, Installed s x ↔ ∃ e ∈ s.breakpoints.entries, e.address = x ∧ e.engineId ≠ none

/-- The command removes a breakpoint, and another one at its address stays. -/
def Robs (s : Session (Engine κ)) (c : Command) : Prop :=
  ∃ id, c = .removeBreakpoint id ∧ (reply c s).1.isOk = true ∧ s.breakpoints.Shares id

variable [ExecCount κ] {s s' : Session (Engine κ)} {id : Nat} {response : Response}

omit [Kernel κ] [ExecCount κ] in
theorem agrees_of_matches (hcoherent : Coherent s) (hs : Matches s) (hlives : Lives s) :
    Agrees s := by
  intro x
  constructor
  · rintro ⟨a, u, ha, hu, hpresent, htrapped⟩
    obtain ⟨v, hv, -, hmatched⟩ := hs a ha
    cases hu.symm.trans hv
    exact ((hmatched hpresent).trapped_iff x).mp htrapped
  · rintro ⟨e, he, hx, hinstalled⟩
    have hactive : IsActive s := by
      by_contra hinactive
      exact hinstalled (hcoherent.pending hinactive e he)
    obtain ⟨a, ha⟩ := hactive
    obtain ⟨u, hu, -, hmatched⟩ := hs a ha
    have hpresent := hlives a u ha hu
    exact ⟨a, u, ha, hu, hpresent, ((hmatched hpresent).trapped_iff x).mpr ⟨e, he, hx, hinstalled⟩⟩

/-! ### Removals -/

/-- How the removal of a breakpoint goes. -/
inductive Removal (s : Session (Engine κ)) (id : Nat) : Response → Session (Engine κ) → Prop
  /-- There is no such breakpoint. -/
  | unknown {response : Response} :
      s.lifecycle = .uninitialized ∨ s.breakpoints.get? id = none → response.isOk = false →
      Removal s id response s
  /-- The breakpoint is not installed. -/
  | pending {d : BreakpointEntry} : s.breakpoints.get? id = some d →
      ¬IsActive s ∨ d.engineId = none →
      Removal s id .ok { s with breakpoints := s.breakpoints.erase id }
  /-- The target removes it. -/
  | done {a : ActiveTarget} {d : BreakpointEntry} {u u' : System κ} {engine : Engine κ} :
      s.lifecycle = .active a → s.breakpoints.get? id = some d → d.engineId ≠ none →
      s.engine.system? a.target = some u → engine.system? a.target = some u' →
      Along Extends u u' → (u.tracer.process ≠ none → Tracing.Accessible u) →
      (u'.tracer.process ≠ none → Removes d.address u.tracer.breakpoints u'.tracer.breakpoints) →
      Removal s id .ok { s with engine, breakpoints := s.breakpoints.erase id }
  /-- The target does not remove it. -/
  | refused {a : ActiveTarget} {d : BreakpointEntry} {u u' : System κ} {engine : Engine κ}
      {response : Response} :
      s.lifecycle = .active a → s.breakpoints.get? id = some d → d.engineId ≠ none →
      s.engine.system? a.target = some u → engine.system? a.target = some u' →
      Along Extends u u' → (u.tracer.process ≠ none → ¬Tracing.Accessible u) →
      (u'.tracer.process ≠ none → u'.tracer.breakpoints = u.tracer.breakpoints) →
      response.isOk = false → Removal s id response { s with engine }

section Removal

variable [WordMemory κ] [Resumes κ]

theorem ends_removeInstalled {a : ActiveTarget} (ha : s.lifecycle = .active a)
    (hs : Mirrors a.target s) {d : BreakpointEntry} (hd : s.breakpoints.get? id = some d) {i : Nat}
    (hi : d.engineId = some i) :
    Ends (removeBreakpoint id) s fun r s' => Removal s id (replyTo r) s' := by
  obtain ⟨u, hu, hwf, hmatched⟩ := hs
  have hplaced : u.tracer.process ≠ none → u.tracer.breakpoints.userAt d.address = some i :=
    fun hpresent => ((hmatched hpresent).userAt _ i).mpr ⟨d, (mem_of_get? hd).1, rfl, hi⟩
  have hinstalled : d.engineId ≠ none := by
    rw [hi]
    rintro ⟨⟩
  have hremove := Ends.imp fun harmed : u.tracer.breakpoints.Armed =>
    Tracing.ends_removeBreakpoint_armed hwf harmed i
  rw [ends_removeBreakpoint_installed ha hd hi]
  refine (ends_request_of_try
    (ends_tryRequest_of_system (r := .removeBreakpoint i) rfl rfl hu hremove) _).mono ?_
  rintro (f | _) s' h
  · obtain ⟨e, engine, u', rfl, hu', halong, h⟩ := h
    refine .refused ha hd hinstalled hu hu' halong ?_ ?_ (isOk_replyTo_error f)
    · intro hpresent haccess
      have hok := (h (hmatched hpresent).armed).1.mpr ⟨⟨_, hplaced hpresent⟩, haccess⟩
      cases hok
    · intro hpresent'
      have hpresent : u.tracer.process ≠ none := fun hnone => hpresent' (halong.process hnone)
      exact (h (hmatched hpresent).armed).2 hpresent'
  · obtain ⟨engine, u', rfl, hu', halong, h⟩ := h
    refine .done ha hd hinstalled hu hu' halong ?_ ?_
    · exact fun hpresent => ((h (hmatched hpresent).armed).1.mp rfl).2
    · intro hpresent'
      have hpresent : u.tracer.process ≠ none := fun hnone => hpresent' (halong.process hnone)
      obtain ⟨x, hx, hremoves⟩ := (h (hmatched hpresent).armed).2 hpresent'
      cases hwf.unique x d.address i hx (hplaced hpresent)
      exact hremoves

theorem removal_of_reply (hs : Matches s) (id : Nat) :
    Removal s id (reply (.removeBreakpoint id) s).1 (reply (.removeBreakpoint id) s).2 := by
  refine reply_of_ends (c := .removeBreakpoint id) ?_
  show Ends (removeBreakpoint id) s _
  by_cases hl : s.lifecycle = .uninitialized
  · rw [removeBreakpoint, ends_breakpointTarget_uninitialized _ _ hl]
    exact .unknown (Or.inl hl) rfl
  · rcases hd : s.breakpoints.get? id with _ | d
    · rw [ends_removeBreakpoint_unknown hl hd]
      exact .unknown (Or.inr hd) rfl
    · rcases prepared_or_active hl with ⟨e, he⟩ | ⟨a, ha⟩
      · rw [ends_removeBreakpoint_pending (Or.inl ⟨e, he⟩) hd]
        exact .pending hd (Or.inl (not_isActive_of_lifecycle he fun _ h => by cases h))
      · rcases hi : d.engineId with _ | i
        · rw [ends_removeBreakpoint_pending (Or.inr ⟨⟨a, ha⟩, hi⟩) hd]
          exact .pending hd (Or.inr hi)
        · exact ends_removeInstalled ha (hs a ha) hd hi

omit [WordMemory κ] [Resumes κ] in
/-- A removal keeps the tables matched unless another breakpoint stays at the address. -/
theorem Removal.matches (h : Removal s id response s') (hcoherent : Coherent s) (hs : Matches s)
    (hshares : response.isOk = true → ¬s.breakpoints.Shares id) : Matches s' := by
  intro b hb
  cases h with
  | unknown _ _ => exact hs b hb
  | @pending d hd hpending =>
    obtain ⟨u, hu, hwf, hmatched⟩ := hs b hb
    have hnone : d.engineId = none := hpending.resolve_left fun hinactive => hinactive ⟨b, hb⟩
    refine ⟨u, hu, hwf, fun hpresent => (hmatched hpresent).congr fun x j => ?_⟩
    exact placed_erase_pending hcoherent.distinct hd hnone
  | done ha hd hinstalled hu hu' halong _ hremoves =>
    cases ha.symm.trans hb
    obtain ⟨v, hv, hwf, hmatched⟩ := hs _ ha
    cases hu.symm.trans hv
    refine ⟨_, hu', halong.wellFormed hwf, fun hpresent => ?_⟩
    refine (hmatched fun hnone => hpresent (halong.process hnone)).remove (hremoves hpresent) ?_
    exact fun x j => placed_erase hcoherent.distinct hd hinstalled (hshares rfl)
  | refused ha _ _ hu hu' halong _ hsame _ =>
    cases ha.symm.trans hb
    obtain ⟨v, hv, hwf, hmatched⟩ := hs _ ha
    cases hu.symm.trans hv
    refine ⟨_, hu', halong.wellFormed hwf, fun hpresent => ?_⟩
    rw [hsame hpresent]
    exact hmatched fun hnone => hpresent (halong.process hnone)

omit [WordMemory κ] [Resumes κ] in
/-- A breakpoint that the session knows can be removed if it is not installed, or if memory can be
accessed. -/
theorem Removal.isOk_iff {e : BreakpointEntry} (h : Removal s e.id response s')
    (hcoherent : Coherent s) (hlives : Lives s) (he : e ∈ s.breakpoints.entries) :
    response.isOk = true ↔ e.engineId = none ∨ Accessible s := by
  have hget := get?_of_mem hcoherent.distinct he
  cases h with
  | unknown hunknown hfails =>
    rcases hunknown with hl | hnone
    · rw [hcoherent.uninitialized hl] at he
      cases he
    · cases hget.symm.trans hnone
  | pending hd hpending =>
    cases hget.symm.trans hd
    refine ⟨fun _ => Or.inl ?_, fun _ => rfl⟩
    rcases hpending with hinactive | hnone
    · exact hcoherent.pending hinactive e he
    · exact hnone
  | done ha hd _ hu _ _ haccess _ =>
    exact ⟨fun _ => Or.inr ⟨_, _, ha, hu, haccess (hlives _ _ ha hu)⟩, fun _ => rfl⟩
  | refused ha hd hinstalled hu _ _ haccess _ hfails =>
    cases hget.symm.trans hd
    rw [hfails]
    refine ⟨nofun, ?_⟩
    rintro (hnone | ⟨b, v, hb, hv, hopen⟩)
    · exact absurd hnone hinstalled
    · cases ha.symm.trans hb
      cases hu.symm.trans hv
      exact absurd hopen (haccess (hlives _ _ ha hu))

omit [WordMemory κ] [Resumes κ] in
/-- A removal takes no trap at another address. -/
theorem Removal.installed_iff (h : Removal s id response s') (hs : Matches s) (hlives : Lives s')
    {e : BreakpointEntry} (he : s.breakpoints.get? id = some e) {x : UInt64} (hx : x ≠ e.address) :
    Installed s' x ↔ Installed s x := by
  have htarget : ∀ {engine : Engine κ} {b : Breakpoints} {a : ActiveTarget} {u u' : System κ},
      s.lifecycle = .active a → s.engine.system? a.target = some u →
      engine.system? a.target = some u' → Along Extends u u' → u'.tracer.process ≠ none →
      (u'.tracer.breakpoints.Trapped x ↔ u.tracer.breakpoints.Trapped x) →
      (Installed { s with engine, breakpoints := b } x ↔ Installed s x) := by
    intro engine b a u u' ha hu hu' halong hpresent htrapped
    constructor
    · rintro ⟨c, v, hc, hv, -, h⟩
      cases ha.symm.trans hc
      cases hu'.symm.trans hv
      exact ⟨a, u, ha, hu, fun hnone => hpresent (halong.process hnone), htrapped.mp h⟩
    · rintro ⟨c, v, hc, hv, -, h⟩
      cases ha.symm.trans hc
      cases hu.symm.trans hv
      exact ⟨a, u', ha, hu', hpresent, htrapped.mpr h⟩
  cases h with
  | unknown _ _ => exact Iff.rfl
  | pending _ _ => exact Iff.rfl
  | done ha hd _ hu hu' halong _ hremoves =>
    cases he.symm.trans hd
    have hpresent := hlives _ _ ha hu'
    obtain ⟨v, hv, -, hmatched⟩ := hs _ ha
    cases hu.symm.trans hv
    have harmed := (hmatched fun hnone => hpresent (halong.process hnone)).armed
    refine htarget ha hu hu' halong hpresent ?_
    rw [(hremoves hpresent).armed.trapped_iff, harmed.trapped_iff]
    simp only [(hremoves hpresent).userAt, if_neg hx]
  | refused ha _ _ hu hu' halong _ hsame _ =>
    have hpresent := hlives _ _ ha hu'
    refine htarget ha hu hu' halong hpresent ?_
    rw [hsame hpresent]

omit [WordMemory κ] [Resumes κ] in
/-- When another breakpoint stays at the address, its trap is gone. -/
theorem Removal.not_agrees (h : Removal s id response s') (hcoherent : Coherent s)
    (hok : response.isOk = true) (hshares : s.breakpoints.Shares id) : ¬Agrees s' := by
  obtain ⟨d, e, hd, hinstalled, he, hne, haddress, hinstalled'⟩ := hshares
  intro hagrees
  have hstays : e ∈ (s.breakpoints.erase id).entries :=
    List.mem_filter.mpr ⟨he, bne_iff_ne.mpr hne⟩
  cases h with
  | unknown _ hfails => cases hok.symm.trans hfails
  | pending hd' hpending =>
    cases hd.symm.trans hd'
    rcases hpending with hinactive | hnone
    · exact hinstalled (hcoherent.pending hinactive d (mem_of_get? hd).1)
    · exact hinstalled hnone
  | done ha hd' _ hu hu' halong _ hremoves =>
    cases hd.symm.trans hd'
    obtain ⟨b, v, hb, hv, hpresent, htrapped⟩ :=
      (hagrees d.address).mpr ⟨e, hstays, haddress, hinstalled'⟩
    cases ha.symm.trans hb
    cases hu'.symm.trans hv
    obtain ⟨i, hi⟩ := ((hremoves hpresent).armed.trapped_iff d.address).mp htrapped
    rw [(hremoves hpresent).userAt, if_pos rfl] at hi
    cases hi
  | refused _ _ _ _ _ _ _ _ hfails => cases hok.symm.trans hfails

theorem matches_removeAllBreakpoints (hs : Matches s) :
    Ends removeAllBreakpoints s fun _ s' => Matches s' := by
  rcases hl : s.lifecycle with _ | e | a
  · rw [removeAllBreakpoints, ends_breakpointTarget_uninitialized _ _ hl]
    exact hs
  · rw [ends_removeAllBreakpoints_prepared hl]
    exact matches_of_inactive (not_isActive_of_lifecycle hl fun _ h => by cases h)
  · obtain ⟨u, hu, hwf, hmatched⟩ := hs a hl
    have hremove := Ends.imp fun harmed : u.tracer.breakpoints.Armed =>
      Tracing.ends_removeAllBreakpoints_armed hwf harmed
    rw [ends_removeAllBreakpoints_active hl]
    refine (ends_request_of_try
      (ends_tryRequest_of_system (r := .removeAllBreakpoints) rfl rfl hu hremove) _).mono ?_
    rintro (f | _) s' h b hb
    · obtain ⟨e, engine, u', rfl, hu', halong, h⟩ := h
      cases hl.symm.trans hb
      refine ⟨u', hu', halong.wellFormed hwf, fun hpresent => ?_⟩
      have hmatched := hmatched fun hnone => hpresent (halong.process hnone)
      rw [h hmatched.armed hpresent]
      exact hmatched
    · obtain ⟨engine, u', rfl, hu', halong, h⟩ := h
      cases hl.symm.trans hb
      refine ⟨u', hu', halong.wellFormed hwf, fun hpresent => ?_⟩
      have hmatched := hmatched fun hnone => hpresent (halong.process hnone)
      obtain ⟨harmed, hnone⟩ := h hmatched.armed hpresent
      refine ⟨harmed, fun x i => ?_⟩
      rw [hnone]
      refine ⟨by rintro ⟨⟩, ?_⟩
      rintro ⟨e, he, -⟩
      cases he

end Removal

/-! ### Runs -/

/-- The commands that set and remove breakpoints, and those that lead to a process without letting go
of one. -/
def Command.placesBreakpoints : Command → Bool
  | .prepare _ | .launch | .setBreakpoint _ | .removeBreakpoint _ | .removeAllBreakpoints => true
  | _ => false

/-- A run of such commands in which no removal takes the trap of a breakpoint that stays. -/
inductive BreakpointRun (s₀ : Session (Engine κ)) : Session (Engine κ) → Prop
  | start : BreakpointRun s₀ s₀
  | command {s : Session (Engine κ)} (c : Command) : BreakpointRun s₀ s →
      c.placesBreakpoints = true → ¬Robs s c → BreakpointRun s₀ (reply c s).2
  | events {s : Session (Engine κ)} : BreakpointRun s₀ s → BreakpointRun s₀ (deliverEvents s)

omit [ExecCount κ] in
theorem BreakpointRun.run {s₀ : Session (Engine κ)} (h : BreakpointRun s₀ s) :
    ∃ log, Run s₀ log s := by
  induction h with
  | start => exact ⟨[], .start⟩
  | command c _ _ _ ih =>
    obtain ⟨log, h⟩ := ih
    exact ⟨_, .command c h⟩
  | events _ ih =>
    obtain ⟨log, h⟩ := ih
    exact ⟨log, .events h⟩

section Runs

variable [WordMemory κ] [Resumes κ] {engine : Engine κ} {settings : Settings}
  {outbox : Wire.Outbox} {c : Command}

/-- What one command preserves. -/
theorem matches_of_reply (hc : c.placesBreakpoints = true) (hcoherent : Coherent s)
    (hs : Matches s) (hrobs : ¬Robs s c) (himages : images (reply c s).2 = images s) :
    Matches (reply c s).2 := by
  cases c with
  | prepare e =>
    have hprepare : Ends (prepare e) s fun _ s' => Matches s' := by
      refine (ends_prepare e s).mono ?_
      rintro (f | response) s' h
      · obtain ⟨-, rfl⟩ := h
        exact hs
      · obtain ⟨-, -, rfl⟩ := h
        exact matches_of_inactive (not_isActive_of_lifecycle rfl nofun)
    exact reply_of_ends (Q := fun _ s' => Matches s') hprepare
  | launch =>
    exact reply_of_ends (c := .launch) (Q := fun _ s' => images s' = images s → Matches s')
      (matches_launch hcoherent hs) himages
  | setBreakpoint addr =>
    exact reply_of_ends (Q := fun _ s' => Matches s') (matches_setBreakpoint hs addr)
  | removeBreakpoint id =>
    exact (removal_of_reply hs id).matches hcoherent hs fun hok hshares =>
      hrobs ⟨id, rfl, hok, hshares⟩
  | removeAllBreakpoints =>
    exact reply_of_ends (Q := fun _ s' => Matches s') (matches_removeAllBreakpoints hs)
  | _ => cases hc

/-- What a whole run preserves, while the process keeps its image. -/
theorem matches_of_run (h : BreakpointRun (Session.start engine settings outbox) s)
    (himages : images s = images (Session.start engine settings outbox)) : Matches s := by
  induction h with
  | start => exact matches_of_inactive (not_isActive_of_lifecycle rfl nofun)
  | @command s c h hc hrobs ih =>
    obtain ⟨log, hrun⟩ := h.run
    have hle := images_of_run hrun
    have hle' := images_reply c s
    exact matches_of_reply hc (coherent_of_run hrun) (ih (by omega)) hrobs (by omega)
  | @events s h ih =>
    obtain ⟨log, hrun⟩ := h.run
    have hle := images_of_run hrun
    have hle' := images_deliverEvents s
    exact (ih (by omega)).quiet (quiet_deliverEvents s) (by omega)

/-- In every run of commands that set and remove breakpoints, the traps of the process are at the
installed breakpoints of the session while the process is there and keeps its image. Each breakpoint
of the session can then be removed if memory can be accessed, and no removal takes a trap at another
address. The next command parts the two exactly if it removes one of several breakpoints at an
address. -/
theorem agrees_of_run (h : BreakpointRun (Session.start engine settings outbox) s)
    (himages : images s = images (Session.start engine settings outbox)) (hlives : Lives s) :
    Agrees s ∧
    (∀ e ∈ s.breakpoints.entries, (reply (.removeBreakpoint e.id) s).1.isOk = true ↔
      e.engineId = none ∨ Accessible s) ∧
    (∀ id e, s.breakpoints.get? id = some e → Lives (reply (.removeBreakpoint id) s).2 →
      ∀ x, x ≠ e.address →
        (Installed (reply (.removeBreakpoint id) s).2 x ↔ Installed s x)) ∧
    ∀ c, c.placesBreakpoints = true → images (reply c s).2 = images s → Lives (reply c s).2 →
      (Agrees (reply c s).2 ↔ ¬Robs s c) := by
  obtain ⟨log, hrun⟩ := h.run
  have hcoherent := coherent_of_run hrun
  have hmatches := matches_of_run h himages
  refine ⟨agrees_of_matches hcoherent hmatches hlives, ?_, ?_, ?_⟩
  · exact fun e he => (removal_of_reply hmatches e.id).isOk_iff hcoherent hlives he
  · exact fun id e he hlives' x hx =>
      (removal_of_reply hmatches id).installed_iff hmatches hlives' he hx
  · intro c hc himages' hlives'
    constructor
    · rintro hagrees ⟨id, rfl, hok, hshares⟩
      exact (removal_of_reply hmatches id).not_agrees hcoherent hok hshares hagrees
    · intro hrobs
      have hmatches' := matches_of_reply hc hcoherent hmatches hrobs himages'
      exact agrees_of_matches (coherent_of_run (.command c hrun)) hmatches' hlives'

end Runs

/-! ### Two breakpoints -/

omit [ExecCount κ] in
theorem not_robs {c : Command} (hc : ∀ id, c ≠ .removeBreakpoint id) : ¬Robs s c := by
  rintro ⟨id, rfl, -⟩
  exact hc id rfl

omit [Kernel κ] [ExecCount κ] in
theorem lives_of_target {a : ActiveTarget} (ha : s.lifecycle = .active a)
    (h : (s.engine.system? a.target).map (·.tracer.process.isSome) = some true) : Lives s := by
  intro b u hb hu hnone
  cases ha.symm.trans hb
  rw [hu, Option.map_some, hnone] at h
  cases h

omit [ExecCount κ] in
theorem accessible_of_target {a : ActiveTarget} (ha : s.lifecycle = .active a)
    (h : (s.engine.system? a.target).map
      (fun u => (Tracing.access.run.run u).1.isOk) = some true) : Accessible s := by
  obtain ⟨u, hu, hok⟩ := Option.map_eq_some_iff.mp h
  rcases haccess : (Tracing.access.run.run u).1 with e | tid
  · rw [haccess] at hok
    cases hok
  · exact ⟨a, u, ha, hu, tid, haccess⟩

/-- A breakpoint in a new process. -/
theorem run_first : BreakpointRun (Puppet.session []) (first []) := by
  have hstart : BreakpointRun (Puppet.session []) (Puppet.session []) := .start
  have hprepared := hstart.command (.prepare ⟨"/app", true, none, []⟩) rfl (not_robs nofun)
  have hlaunched : BreakpointRun (Puppet.session []) (Puppet.launched []) :=
    hprepared.command .launch rfl (not_robs nofun)
  exact hlaunched.command (.setBreakpoint 0x1000) rfl (not_robs nofun)

/-- Two breakpoints at different addresses agree. -/
theorem agrees_second : Agrees second := by
  have hrun : BreakpointRun (Puppet.session []) second :=
    run_first.command (.setBreakpoint 0x2000) rfl (not_robs nofun)
  have hlives : Lives second :=
    lives_of_target (a := ⟨0, true, none, 0⟩) (by decide +kernel) (by decide +kernel)
  exact (agrees_of_run hrun (by decide +kernel) hlives).1

/-- A breakpoint that was set twice. -/
def twice : Session (Engine (Counted Puppet)) :=
  (reply (.setBreakpoint 0x1000) (first [])).2

/-- The first of two breakpoints at an address is removed. -/
def robbed : Session (Engine (Counted Puppet)) := (reply (.removeBreakpoint 1) twice).2

/-- The removal of one of two breakpoints at an address takes the trap of the other one as well, which
cannot be removed then. -/
theorem disagrees_robbed : (∃ log, Run (Puppet.session []) log robbed) ∧
    images robbed = images (Puppet.session []) ∧ Lives robbed ∧ Accessible robbed ∧
    (reply (.removeBreakpoint 1) twice).1.isOk = true ∧ ¬Agrees robbed ∧
    ∃ e ∈ robbed.breakpoints.entries, (reply (.removeBreakpoint e.id) robbed).1.isOk = false := by
  have hrun : BreakpointRun (Puppet.session []) twice :=
    run_first.command (.setBreakpoint 0x1000) rfl (not_robs nofun)
  obtain ⟨log, hlog⟩ := hrun.run
  have hactive : robbed.lifecycle = .active ⟨0, true, none, 0⟩ := by decide +kernel
  have hok : (reply (.removeBreakpoint 1) twice).1.isOk = true := by decide +kernel
  have hshares : twice.breakpoints.Shares 1 :=
    ⟨⟨1, 0x1000, some 1⟩, ⟨2, 0x1000, some 1⟩, by decide +kernel, nofun, by decide +kernel,
      by decide, rfl, nofun⟩
  have hremoval := removal_of_reply (matches_of_run hrun (by decide +kernel)) 1
  refine ⟨⟨_, .command (.removeBreakpoint 1) hlog⟩, by decide +kernel, ?_, ?_, hok, ?_, ?_⟩
  · exact lives_of_target hactive (by decide +kernel)
  · exact accessible_of_target hactive (by decide +kernel)
  · exact hremoval.not_agrees (coherent_of_run hlog) hok hshares
  · exact ⟨⟨2, 0x1000, some 1⟩, by decide +kernel, by decide +kernel⟩

end DebugAdapter.Session
