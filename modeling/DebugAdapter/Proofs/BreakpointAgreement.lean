import DebugAdapter.Proofs.ArmedRuns
import DebugAdapter.Proofs.BreakpointNames

/-!
# Breakpoints of a session and of its target

A session and its target keep a table of breakpoints each, with ids of their own. `Matched` says that
the two tables tell the same: the target has a breakpoint of the user exactly where the session has an
installed one, with the engine id that the session keeps. Requests about breakpoints keep this, and so
does a launch that installs what was pending, with one exception: the target has one breakpoint for
an address, however often it is set, while the session has one for each request. When one of several
breakpoints at an address is removed, the others lose their trap (`Robs`). `agrees_of_run` says that
nothing else ever parts the two tables while the process keeps its image.
-/

namespace DebugAdapter

open Debuggee
open Linux
open Operation
open Tracer
open Tracer.BreakpointTable (Extends Removes Sets Steady)

/-! ### Targets -/

namespace Engine.Traced.Engine

variable {κ : Type} [Kernel κ] [ExecCount κ]

instance : WatchRelation (Moved Steady : Engine κ → Engine κ → Prop) where
  output t r e hr := by
    cases r with
    | readStdout limit => exact moved_onTarget (Tracing.moves_readOutput .stdout limit) e t
    | readStderr limit => exact moved_onTarget (Tracing.moves_readOutput .stderr limit) e t
    | _ => cases hr
  look := moved_observe Tracing.steady_trapSeen

/-- A process that is resumed keeps its breakpoints. -/
theorem moved_resume {e : Engine κ} {t : Handle} {a : Unit}
    (h : (DebugEngine.perform (.request t .resume) e).1 = .ok a) :
    Moved Steady e (DebugEngine.perform (.request t .resume) e).2 := by
  have hanswer : (e.onTarget t Tracing.resume).1 = .ok a := h
  have hresume : Moved Steady e (e.onTarget t Tracing.resume).2 := by
    refine moved_of_system fun s hs => ?_
    obtain ⟨s', hs', hok⟩ := system?_of_onTarget_ok hanswer
    cases hs.symm.trans hs'
    exact Tracing.steady_resume s hok
  exact StepRelation.trans hresume (moved_onTarget Tracing.steady_poll _ t)

end Engine.Traced.Engine

namespace Session

open Engine.Traced (Engine)
open Engine.Traced.Engine (Moved theory)
open Wire (Response)

/-! ### Tables that match -/

/-- An installed breakpoint of the session with an address and an engine id. -/
def Breakpoints.Placed (b : Breakpoints) (x : UInt64) (i : Nat) : Prop :=
  ∃ e ∈ b.entries, e.address = x ∧ e.engineId = some i

/-- The breakpoint with an id is installed, and there is another one at its address. -/
def Breakpoints.Shares (b : Breakpoints) (id : Nat) : Prop :=
  ∃ d e, b.get? id = some d ∧ d.engineId ≠ none ∧
    e ∈ b.entries ∧ e.id ≠ id ∧ e.address = d.address ∧ e.engineId ≠ none

/-- No two breakpoints have the same id. -/
def Breakpoints.Distinct (b : Breakpoints) : Prop := b.entries.Pairwise (·.id ≠ ·.id)

/-- The table of a target tells the same as the breakpoints of a session. -/
structure Matched (t : BreakpointTable) (b : Breakpoints) : Prop where
  armed : t.Armed
  userAt : ∀ x i, t.userAt x = some i ↔ b.Placed x i

section Matched

variable {b : Breakpoints} {t t' : BreakpointTable} {x : UInt64} {i j : Nat}

theorem Coherent.distinct {ε : Type} {s : Session ε} (h : Coherent s) : s.breakpoints.Distinct :=
  h.sorted.imp Nat.ne_of_lt

theorem Breakpoints.Distinct.eq (h : b.Distinct) {e e' : BreakpointEntry} (he : e ∈ b.entries)
    (he' : e' ∈ b.entries) (heq : e.id = e'.id) : e = e' := by
  obtain ⟨i, hi, rfl⟩ := List.getElem_of_mem he
  obtain ⟨j, hj, rfl⟩ := List.getElem_of_mem he'
  rcases Nat.lt_trichotomy i j with hij | rfl | hij
  · exact absurd heq (List.pairwise_iff_getElem.mp h i j hi hj hij)
  · rfl
  · exact absurd heq.symm (List.pairwise_iff_getElem.mp h j i hj hi hij)

theorem Breakpoints.Distinct.install (h : b.Distinct) (id engineId : Nat) :
    (b.install id engineId).Distinct := by
  have hids : (b.entries.map (·.id)).Pairwise (· ≠ ·) := List.pairwise_map.mpr h
  rw [← ids_install b id engineId] at hids
  exact List.pairwise_map.mp hids

theorem mem_of_get? {id : Nat} {e : BreakpointEntry} (h : b.get? id = some e) :
    e ∈ b.entries ∧ e.id = id := by
  refine ⟨List.mem_of_find?_eq_some h, ?_⟩
  have hfound : (e.id == id) = true :=
    List.find?_some (p := fun c : BreakpointEntry => c.id == id) h
  exact eq_of_beq hfound

theorem get?_of_mem (h : b.Distinct) {e : BreakpointEntry} (he : e ∈ b.entries) :
    b.get? e.id = some e := by
  rcases hget : b.get? e.id with _ | d
  · have hnone := List.find?_eq_none.mp hget e he
    exact absurd (beq_self_eq_true e.id) hnone
  · obtain ⟨hd, hid⟩ := mem_of_get? hget
    rw [h.eq hd he hid]

theorem placed_add (addr : UInt64) (id : Option Nat) :
    (b.add addr id).2.Placed x j ↔ (x = addr ∧ id = some j) ∨ b.Placed x j := by
  constructor
  · rintro ⟨e, he, hx, hj⟩
    rcases List.mem_append.mp he with he | he
    · exact Or.inr ⟨e, he, hx, hj⟩
    · cases List.mem_singleton.mp he
      exact Or.inl ⟨hx.symm, hj⟩
  · rintro (⟨rfl, hj⟩ | ⟨e, he, hx, hj⟩)
    · exact ⟨_, List.mem_append_right _ (List.mem_singleton_self _), rfl, hj⟩
    · exact ⟨e, List.mem_append_left _ he, hx, hj⟩

/-- A breakpoint that was pending gets an engine id. -/
theorem placed_install (h : b.Distinct) {e : BreakpointEntry} (he : e ∈ b.entries)
    (hpending : e.engineId = none) :
    (b.install e.id i).Placed x j ↔ (x = e.address ∧ i = j) ∨ b.Placed x j := by
  constructor
  · rintro ⟨c, hc, hx, hj⟩
    obtain ⟨d, hd, rfl⟩ := List.mem_map.mp hc
    split at hx
    · rename_i hid
      rw [if_pos hid] at hj
      cases h.eq hd he hid
      exact Or.inl ⟨hx.symm, Option.some.inj hj⟩
    · rename_i hid
      rw [if_neg hid] at hj
      exact Or.inr ⟨d, hd, hx, hj⟩
  · rintro (⟨rfl, rfl⟩ | ⟨d, hd, hx, hj⟩)
    · refine ⟨{ e with engineId := some i }, List.mem_map.mpr ⟨e, he, if_pos rfl⟩, rfl, rfl⟩
    · refine ⟨d, List.mem_map.mpr ⟨d, hd, if_neg fun hid => ?_⟩, hx, hj⟩
      cases h.eq hd he hid
      cases hpending.symm.trans hj

/-- Forgetting a breakpoint that shares its address with no other leaves none there. -/
theorem placed_erase (h : b.Distinct) {id : Nat} {d : BreakpointEntry} (hd : b.get? id = some d)
    (hinstalled : d.engineId ≠ none) (hshares : ¬b.Shares id) :
    (b.erase id).Placed x j ↔ x ≠ d.address ∧ b.Placed x j := by
  obtain ⟨hmem, hid⟩ := mem_of_get? hd
  constructor
  · rintro ⟨e, he, rfl, hj⟩
    obtain ⟨he, hne⟩ := List.mem_filter.mp he
    refine ⟨fun haddress => hshares ?_, e, he, rfl, hj⟩
    have hne : e.id ≠ id := bne_iff_ne.mp hne
    exact ⟨d, e, hd, hinstalled, he, hne, haddress, fun hnone => nomatch hnone.symm.trans hj⟩
  · rintro ⟨hx, e, he, rfl, hj⟩
    refine ⟨e, List.mem_filter.mpr ⟨he, bne_iff_ne.mpr fun heq => hx ?_⟩, rfl, hj⟩
    rw [h.eq he hmem (heq.trans hid.symm)]

/-- Forgetting a breakpoint that is not installed. -/
theorem placed_erase_pending (h : b.Distinct) {id : Nat} {d : BreakpointEntry}
    (hd : b.get? id = some d) (hpending : d.engineId = none) :
    (b.erase id).Placed x j ↔ b.Placed x j := by
  obtain ⟨hmem, hid⟩ := mem_of_get? hd
  constructor
  · rintro ⟨e, he, hx, hj⟩
    exact ⟨e, (List.mem_filter.mp he).1, hx, hj⟩
  · rintro ⟨e, he, hx, hj⟩
    refine ⟨e, List.mem_filter.mpr ⟨he, bne_iff_ne.mpr fun heq => ?_⟩, hx, hj⟩
    cases h.eq he hmem (heq.trans hid.symm)
    cases hpending.symm.trans hj

/-- Tables without breakpoints match. -/
theorem Matched.empty (hentries : t.entries = []) (hpending : ∀ e ∈ b.entries, e.engineId = none) :
    Matched t b := by
  refine ⟨BreakpointTable.armed_of_entries hentries, fun x i => ⟨fun hid => ?_, ?_⟩⟩
  · rw [BreakpointTable.userAt, BreakpointTable.find?, hentries] at hid
    cases hid
  · rintro ⟨e, he, -, hi⟩
    cases (hpending e he).symm.trans hi

theorem Matched.congr {b' : Breakpoints} (h : Matched t b)
    (hb : ∀ x j, b'.Placed x j ↔ b.Placed x j) : Matched t b' :=
  ⟨h.armed, fun x j => (h.userAt x j).trans (hb x j).symm⟩

theorem Matched.steady (h : Matched t b) (hs : Steady t t') : Matched t' b :=
  ⟨hs.armed h.armed, fun x j => by rw [hs.userAt h.armed, h.userAt]⟩

/-- A breakpoint is set in both tables. -/
theorem Matched.set {b' : Breakpoints} {a : UInt64} (h : Matched t b) (hset : Sets a i t t')
    (hb : ∀ x j, b'.Placed x j ↔ (x = a ∧ i = j) ∨ b.Placed x j) : Matched t' b' := by
  refine ⟨hset.armed, fun x j => ?_⟩
  rw [hset.userAt, hb]
  split
  · rename_i hx
    refine ⟨fun hij => Or.inl ⟨hx, Option.some.inj hij⟩, ?_⟩
    rintro (⟨-, rfl⟩ | hplaced)
    · rfl
    · -- The target gave the id out before, so it gives out the same again.
      rw [hset.same j (hx ▸ (h.userAt x j).mpr hplaced)]
  · rename_i hx
    rw [h.userAt]
    exact ⟨Or.inr, fun hcases => hcases.resolve_left fun h => hx h.1⟩

/-- A breakpoint is removed from both tables. -/
theorem Matched.remove {b' : Breakpoints} {a : UInt64} (h : Matched t b) (hremove : Removes a t t')
    (hb : ∀ x j, b'.Placed x j ↔ x ≠ a ∧ b.Placed x j) : Matched t' b' := by
  refine ⟨hremove.armed, fun x j => ?_⟩
  rw [hremove.userAt, hb]
  split
  · rename_i hx
    exact ⟨nofun, fun h => absurd hx h.1⟩
  · rename_i hx
    rw [h.userAt]
    exact ⟨fun hplaced => ⟨hx, hplaced⟩, And.right⟩

/-- Where tables match, the traps are at the installed breakpoints. -/
theorem Matched.trapped_iff (h : Matched t b) (x : UInt64) :
    t.Trapped x ↔ ∃ e ∈ b.entries, e.address = x ∧ e.engineId ≠ none := by
  rw [h.armed.trapped_iff]
  constructor
  · rintro ⟨i, hi⟩
    obtain ⟨e, he, hx, hid⟩ := (h.userAt x i).mp hi
    exact ⟨e, he, hx, fun hnone => nomatch hnone.symm.trans hid⟩
  · rintro ⟨e, he, hx, hinstalled⟩
    obtain ⟨i, hi⟩ := Option.ne_none_iff_exists'.mp hinstalled
    exact ⟨i, (h.userAt x i).mpr ⟨e, he, hx, hi⟩⟩

end Matched

/-! ### Sessions that match their target -/

variable {κ : Type} [Kernel κ]

/-- While a target has a process, its table matches. -/
def Mirrors (t : Handle) (s : Session (Engine κ)) : Prop :=
  ∃ u, s.engine.system? t = some u ∧ u.tracer.breakpoints.WellFormed ∧
    (u.tracer.process ≠ none → Matched u.tracer.breakpoints s.breakpoints)

/-- The target of a session matches. -/
def Matches (s : Session (Engine κ)) : Prop :=
  ∀ a, s.lifecycle = .active a → Mirrors a.target s

variable [ExecCount κ]

section Requests

variable {s s' : Session (Engine κ)} {t : Handle}

omit [Kernel κ] [ExecCount κ] in
theorem matches_of_inactive (h : ¬IsActive s) : Matches s :=
  fun a ha => absurd ⟨a, ha⟩ h

theorem Mirrors.quiet (h : Mirrors t s) (hquiet : Quiet (Moved Steady) s s')
    (himages : images s' = images s) : Mirrors t s' := by
  obtain ⟨u, hu, hwf, hmatched⟩ := h
  obtain ⟨u', hu', halong⟩ := hquiet.engine.system t u hu
  refine ⟨u', hu', halong.wellFormed hwf, fun hpresent => ?_⟩
  have hprocess : u.tracer.process ≠ none := fun hnone => hpresent (halong.process hnone)
  have hexecs : ExecCount.execs u'.kernel = ExecCount.execs u.kernel := by
    rw [Engine.Traced.Engine.kernel_of_system? hu, Engine.Traced.Engine.kernel_of_system? hu']
    exact himages
  rw [hquiet.breakpoints]
  exact (hmatched hprocess).steady (halong.table hwf hexecs hpresent)

theorem Matches.quiet (h : Matches s) (hquiet : Quiet (Moved Steady) s s')
    (himages : images s' = images s) : Matches s' := by
  intro b hb
  obtain ⟨a, ha, htarget⟩ := hquiet.stage.target hb
  rw [htarget]
  exact (h a ha).quiet hquiet himages

/-- A request to a target that is there does what its operation does. -/
theorem ends_tryRequest_of_system {r : Request} (hr : Engine.Traced.Engine.movesProcess r = false)
    (hstarts : r.starts = false) {u : System κ} (hu : s.engine.system? t = some u)
    {Q : Except DebugError r.Answer → System κ → Prop}
    (h : Ends (Engine.Traced.Engine.operation r) u Q) :
    Ends (tryRequest t r) s fun result s' => ∃ answer, result = .ok answer ∧ ∃ engine u',
      s' = { s with engine } ∧ engine.system? t = some u' ∧ Along Extends u u' ∧ Q answer u' := by
  obtain ⟨hanswer, hsystem⟩ := Engine.Traced.Engine.perform_of_system hr hu
  have halong : Along Extends u _ := Engine.Traced.Engine.moves_operation hstarts u
  refine (ends_perform_of_returns (.request t r) s).mono ?_
  rintro result s' ⟨answer, rfl, heq, rfl⟩
  refine ⟨answer, rfl, _, _, rfl, hsystem, halong, ?_⟩
  have hrun : ((Engine.Traced.Engine.operation r).run.run u).1 = answer := by
    rw [hanswer] at heq
    rcases hrun : ((Engine.Traced.Engine.operation r).run.run u).1 with e | a
    · rw [hrun] at heq
      cases answer with
      | error e' => cases heq; rfl
      | ok a => cases heq
    · rw [hrun] at heq
      cases answer with
      | error e' => cases heq
      | ok a => cases heq; rfl
  rw [← hrun]
  exact h

variable [WordMemory κ] [Resumes κ]

/-- A target that is asked for a breakpoint. -/
theorem ends_set (h : Mirrors t s) (addr : UInt64) :
    Ends (tryRequest t (.setBreakpoint addr)) s fun result s' => ∃ answer, result = .ok answer ∧
      ∃ engine, s' = { s with engine } ∧
      match answer with
      | .ok info => ∀ b : Breakpoints,
          (∀ x j, b.Placed x j ↔ (x = addr ∧ info.id = j) ∨ s.breakpoints.Placed x j) →
          Mirrors t { s with engine, breakpoints := b }
      | .error _ => Mirrors t s' := by
  obtain ⟨u, hu, hwf, hmatched⟩ := h
  have hset := Ends.imp fun harmed : u.tracer.breakpoints.Armed =>
    Tracing.ends_setBreakpoint_armed hwf harmed addr
  refine (ends_tryRequest_of_system (r := .setBreakpoint addr) rfl rfl hu hset).mono ?_
  rintro _ _ ⟨answer, rfl, engine, u', rfl, hu', halong, hset⟩
  refine ⟨answer, rfl, engine, rfl, ?_⟩
  have hbefore : u'.tracer.process ≠ none → Matched u.tracer.breakpoints s.breakpoints :=
    fun hpresent => hmatched fun hnone => hpresent (halong.process hnone)
  cases answer with
  | ok info =>
    intro b hb
    refine ⟨u', hu', halong.wellFormed hwf, fun hpresent => ?_⟩
    exact (hbefore hpresent).set (hset (hbefore hpresent).armed hpresent) hb
  | error e =>
    refine ⟨u', hu', halong.wellFormed hwf, fun hpresent => ?_⟩
    rw [hset (hbefore hpresent).armed hpresent]
    exact hbefore hpresent

/-- Setting a breakpoint keeps the tables matched. -/
theorem matches_setBreakpoint (hs : Matches s) (addr : UInt64) :
    Ends (setBreakpoint addr) s fun _ s' => Matches s' := by
  rcases hl : s.lifecycle with _ | e | a
  · rw [setBreakpoint, ends_breakpointTarget_uninitialized _ _ hl]
    exact hs
  · rw [ends_setBreakpoint_prepared hl]
    exact matches_of_inactive (not_isActive_of_lifecycle hl fun _ h => by cases h)
  · rw [ends_setBreakpoint_active hl]
    refine (ends_request_of_try (ends_set (hs a hl) addr) _).mono ?_
    rintro (f | info) s' h
    · obtain ⟨e, engine, rfl, hmirrors⟩ := h
      intro b hb
      cases hl.symm.trans hb
      exact hmirrors
    · obtain ⟨engine, rfl, hmirrors⟩ := h
      intro b hb
      cases hl.symm.trans hb
      refine hmirrors _ fun x j => ?_
      rw [placed_add, Option.some_inj]

/-! ### Launches -/

/-- Pending breakpoints are set one by one. -/
theorem ends_installPending_mirrors (pending : List BreakpointEntry) :
    ∀ s : Session (Engine κ), Mirrors t s → s.breakpoints.Distinct → pending.Pairwise (·.id ≠ ·.id) →
      (∀ e ∈ pending, e ∈ s.breakpoints.entries ∧ e.engineId = none) →
      Ends (installPending t pending) s fun r s' => r = .ok () ∧ Mirrors t s' := by
  induction pending with
  | nil => exact fun s hs _ _ _ => ⟨rfl, hs⟩
  | cons e rest ih =>
    intro s hs hdistinct hrest hpending
    obtain ⟨he, hnone⟩ := hpending e List.mem_cons_self
    obtain ⟨hnew, hrest⟩ := List.pairwise_cons.mp hrest
    rw [installPending]
    refine (ends_set hs e.address).bind_ok ?_
    rintro answer _ ⟨engine, rfl, hanswer⟩
    cases answer with
    | error error =>
      exact ih _ hanswer hdistinct hrest fun e' he' => hpending e' (List.mem_cons_of_mem e he')
    | ok info =>
      dsimp only
      rw [ends_modify_bind]
      refine ih _ (hanswer _ fun x j => placed_install hdistinct he hnone) ?_ hrest ?_
      · exact hdistinct.install e.id info.id
      · intro e' he'
        obtain ⟨hmem, hnone'⟩ := hpending e' (List.mem_cons_of_mem e he')
        exact ⟨List.mem_map.mpr ⟨e', hmem, if_neg (hnew e' he').symm⟩, hnone'⟩

/-- A fresh target gets the breakpoints that are pending. -/
theorem ends_activate_mirrors (hfresh : Engine.Traced.Engine.Fresh s.engine t)
    (hdistinct : s.breakpoints.Distinct)
    (hpending : ∀ e ∈ s.breakpoints.entries, e.engineId = none) :
    Ends (activate t) s fun _ s' => Mirrors t s' := by
  have hmirrors : Mirrors t s := by
    obtain ⟨u, hu, hentries⟩ := hfresh
    exact ⟨u, hu, BreakpointTable.wellFormed_of_entries hentries,
      fun _ => Matched.empty hentries hpending⟩
  have hrest : s.breakpoints.pending.Pairwise (·.id ≠ ·.id) := hdistinct.sublist List.filter_sublist
  rw [activate, ends_get_bind]
  refine (ends_installPending_mirrors _ s hmirrors hdistinct hrest ?_).bind_eq fun s' h => h
  intro e he
  have hmem := (List.mem_filter.mp he).1
  exact ⟨hmem, hpending e hmem⟩

omit [WordMemory κ] [Resumes κ] in
/-- After a launch the process goes on with its breakpoints, or it is released. -/
theorem ends_resumeLaunched_quiet (stopAtEntry : Bool) (t : Handle) (hs : IsActive s) :
    Ends (resumeLaunched stopAtEntry t) s fun _ s' =>
      ¬IsActive s' ∨ Quiet (Moved Steady) s s' := by
  have hreply : ∀ (view : Option Nat → Response) (s₁ : Session (Engine κ)), Ends (do
      let pid ← observe t .processId
      return view pid) s₁ fun _ s' => Quiet (Moved Steady) s₁ s' :=
    fun view => (moves_observe_of (WatchRelation.look t .processId)).bind fun _ => Moves.pure _
  cases stopAtEntry with
  | true => exact (hreply _ s).mono fun _ _ h => Or.inr h
  | false =>
    have hcontrol := (ends_control (E := Moved Extends) t (r := .resume) rfl s).and
      (ends_control_of_ok (E := Moved Steady) t (r := .resume) s fun _ h =>
        Engine.Traced.Engine.moved_resume h)
    refine hcontrol.bind ?_ ?_
    · rintro answer s₁ ⟨⟨_, ⟨⟩, -, hquiet⟩, hsteady⟩
      cases answer with
      | ok a =>
        refine (hreply _ s₁).mono fun _ _ h => Or.inr ?_
        exact StepRelation.trans (hsteady a rfl) h
      | error e =>
        refine (ends_deleteProcess theory (hquiet.stage.isActive_iff.mp hs)).bind_eq ?_
        exact fun s₂ h => Or.inl (not_isActive_of_lifecycle h.lifecycle fun _ h => by cases h)
    · rintro f s₁ ⟨⟨_, ⟨⟩, -⟩, -⟩

/-- A launch leaves the session with a target that matches, or without one. -/
theorem matches_launch (hcoherent : Coherent s) (hs : Matches s) :
    Ends launch s fun _ s' => images s' = images s → Matches s' := by
  by_cases hactive : IsActive s
  · obtain ⟨a, ha⟩ := hactive
    rw [launch, ends_get_bind, ha]
    exact fun _ => hs
  · rw [ends_launch]
    refine (ends_launchStopped theory s).bind ?_ ?_
    · rintro t s₂ ⟨_, s₁, _, hbegun, rfl, rfl, -⟩
      have hbreakpoints := hbegun.starting.breakpoints
      have hdistinct : s₁.breakpoints.Distinct := by
        rw [hbreakpoints]
        exact hcoherent.distinct
      have hpending : ∀ e ∈ s₁.breakpoints.entries, e.engineId = none := by
        rw [hbreakpoints]
        exact hcoherent.pending hactive
      obtain ⟨⟨⟨-, heq⟩, hmirrors⟩, -, hactive₂, hengine, -⟩ :=
        (hbegun.activates.and (ends_activate_mirrors hbegun.fresh hdistinct hpending)).and
          (ends_activate theory t s₁)
      rw [heq] at hmirrors hactive₂ hengine
      refine (ends_resumeLaunched_quiet _ t ⟨_, hactive₂⟩).mono ?_
      rintro r s' (hinactive | hquiet) himages
      · exact matches_of_inactive hinactive
      · have hmatches : Matches s₂ := by
          intro a ha
          cases hactive₂.symm.trans ha
          exact hmirrors
        -- No part of the launch announced an image.
        have hle₁ : images s ≤ images s₁ := hbegun.starting.engine
        have hle₂ : images s₁ ≤ images s₂ := Moved.execs hengine
        have hle₃ : images s₂ ≤ images s' := Moved.execs hquiet.engine
        exact hmatches.quiet hquiet (by omega)
    · intro f s' hquiet _
      exact matches_of_inactive fun h => hactive (hquiet.stage.isActive_iff.mpr h)

end Requests

end Session

end DebugAdapter
