import DebugAdapter.Proofs.BreakpointRequests
import DebugAdapter.Proofs.Puppet
import DebugAdapter.Proofs.SessionRuns
import DebugAdapter.Proofs.TracedEngine

/-!
# What the id of a breakpoint stands for

A session keeps the engine id of each installed breakpoint, while the tracer begins a new table, and
counts from one again, whenever the image of its process is replaced. `Means` says that the engine
id which a session keeps under an id stands for no other address than the one that was given for it.
A new image ends this; nothing else does. `remove_of_run` draws the conclusion for runs:
removing a breakpoint spares every other one as long as no new image was announced since it was set,
and after that exactly if its engine id was not given out again.
-/

namespace DebugAdapter

open Debuggee
open Linux
open Operation
open Tracer
open Tracer.BreakpointTable (Extends)

/-! ### Targets -/

namespace Engine.Traced.Engine

variable {κ : Type}

/-- A target with a table that is well formed. -/
def Tidy (e : Engine κ) (t : Handle) : Prop :=
  ∃ s, e.system? t = some s ∧ s.tracer.breakpoints.WellFormed

/-- While a target has a process, an engine id was given out, and for no other address. -/
def Names (e : Engine κ) (t : Handle) (i : Nat) (a : UInt64) : Prop :=
  ∀ s, e.system? t = some s → s.tracer.process ≠ none →
    i ≤ s.tracer.breakpoints.lastId ∧ ∀ x, s.tracer.breakpoints.userAt x = some i → x = a

theorem Fresh.tidy {e : Engine κ} {t : Handle} (h : Fresh e t) : Tidy e t := by
  obtain ⟨s, hs, hentries⟩ := h
  exact ⟨s, hs, BreakpointTable.wellFormed_of_entries hentries⟩

variable [Kernel κ]

/-- What a request does to its target, and to the others. -/
theorem answer_of_system {e : Engine κ} {t : Handle} {r : Request} (hr : movesProcess r = false)
    {a : r.Answer} (h : (DebugEngine.perform (.request t r) e).1 = .ok a) :
    ∃ s, e.system? t = some s ∧ ((operation r).run.run s).1 = .ok a ∧
      (DebugEngine.perform (.request t r) e).2.system? t = some ((operation r).run.run s).2 ∧
      ∀ u s', u ≠ t → e.system? u = some s' →
        ∃ k, (DebugEngine.perform (.request t r) e).2.system? u = some ⟨k, s'.tracer⟩ := by
  have hanswer : DebugEngine.perform (.request t r) e = e.onTarget t (operation r) := by
    show e.answer t r = _
    rw [answer, hr]
    rfl
  rw [hanswer] at h ⊢
  obtain ⟨s, hs, hrun⟩ := system?_of_onTarget_ok h
  obtain ⟨-, -, hsystem, hothers⟩ := onTarget_eq hs (operation r)
  refine ⟨s, hs, hrun, hsystem, ?_⟩
  intro u s' hu hs'
  obtain ⟨target, htarget, rfl⟩ := Option.map_eq_some_iff.mp hs'
  refine ⟨(e.onTarget t (operation r)).2.kernel, ?_⟩
  rw [system?, hothers u target hu htarget]
  rfl

variable [ExecCount κ]

theorem Moved.tidy {T : BreakpointTable → BreakpointTable → Prop} {e e' : Engine κ} {t : Handle}
    (h : Moved T e e') (ht : Tidy e t) : Tidy e' t := by
  obtain ⟨s, hs, hwf⟩ := ht
  obtain ⟨s', hs', halong⟩ := h.system t s hs
  exact ⟨s', hs', halong.wellFormed hwf⟩

/-- An engine id keeps its meaning until a new image is announced. -/
theorem Names.moved {e e' : Engine κ} {t : Handle} {i : Nat} {a : UInt64} (hn : Names e t i a)
    (h : Moved Extends e e') (ht : Tidy e t)
    (hexecs : ExecCount.execs e'.kernel = ExecCount.execs e.kernel) : Names e' t i a := by
  intro s' hs' hprocess'
  obtain ⟨s, hs, hwf⟩ := ht
  obtain ⟨u, hu, halong⟩ := h.system t s hs
  cases hu.symm.trans hs'
  have hprocess : s.tracer.process ≠ none := fun hnone => hprocess' (halong.process hnone)
  obtain ⟨hle, hunique⟩ := hn s hs hprocess
  rw [← kernel_of_system? hs, ← kernel_of_system? hs'] at hexecs
  have hextends := halong.table hwf hexecs hprocess'
  exact ⟨Nat.le_trans hle hextends.lastId, fun x hx => hunique x (hextends.old x i hx hle)⟩

/-- The id that a target gives to a breakpoint stands for its address. -/
theorem names_of_setBreakpoint {e : Engine κ} {t : Handle} {a : UInt64} {info : BreakpointInfo}
    (ht : Tidy e t) (h : (DebugEngine.perform (.request t (.setBreakpoint a)) e).1 = .ok info) :
    Names (DebugEngine.perform (.request t (.setBreakpoint a)) e).2 t info.id a := by
  obtain ⟨s, hs, hwf⟩ := ht
  obtain ⟨u, hu, hrun, hsystem, -⟩ := answer_of_system rfl h
  cases hu.symm.trans hs
  intro s' hs' hprocess
  cases hsystem.symm.trans hs'
  have halong : Along Extends s _ := Tracing.moves_setBreakpoint a s
  have hwf' := halong.wellFormed hwf
  have huser := Tracing.ends_setBreakpoint a hwf info hrun hprocess
  exact ⟨hwf'.bounded a _ huser, fun x hx => hwf'.unique x a _ hx huser⟩

end Engine.Traced.Engine

/-! ### Sessions -/

namespace Session

open Engine.Traced (Engine)
open Engine.Traced.Engine (Moved Tidy Names theory)
open Wire (Response)

variable {κ : Type}

/-- The table of the target is well formed. -/
def Sane (s : Session (Engine κ)) : Prop := ∀ a, s.lifecycle = .active a → Tidy s.engine a.target

/-- With a target, the breakpoint with an id is at an address, and its engine id stands for no other
address. -/
structure Named (t : Handle) (id : Nat) (addr : UInt64) (s : Session (Engine κ)) : Prop where
  address : ∀ e ∈ s.breakpoints.entries, e.id = id → e.address = addr
  names : ∀ e ∈ s.breakpoints.entries, e.id = id → ∀ i, e.engineId = some i →
    Names s.engine t i addr

/-- An id was given out, and stands for an address. -/
structure Means (id : Nat) (addr : UInt64) (s : Session (Engine κ)) : Prop where
  bounded : id ≤ s.breakpoints.lastId
  address : ∀ e ∈ s.breakpoints.entries, e.id = id → e.address = addr
  named : ∀ a, s.lifecycle = .active a → Named a.target id addr s

/-- While the process of a target is there, its breakpoints stay but the one at an address. -/
def Spares (addr : UInt64) (e e' : Engine κ) : Prop :=
  ∀ t u, e.system? t = some u → ∃ u', e'.system? t = some u' ∧ (u'.tracer.process ≠ none →
    ∀ x, x ≠ addr → u'.tracer.breakpoints.find? x = u.tracer.breakpoints.find? x)

/-- A breakpoint at another address that is gone, although the process is there, was not spared. -/
theorem not_spares_of_gone {e e' : Engine κ} {addr : UInt64} (t : Handle) {x : UInt64} (hx : x ≠ addr)
    (hbefore : (e.system? t).map (fun u => (u.tracer.breakpoints.find? x).isSome) = some true)
    (hafter : (e'.system? t).map (fun u =>
      (u.tracer.process.isSome, (u.tracer.breakpoints.find? x).isSome)) = some (true, false)) :
    ¬Spares addr e e' := by
  intro hspares
  obtain ⟨u, hu, hset⟩ := Option.map_eq_some_iff.mp hbefore
  obtain ⟨u', hu', hkept⟩ := hspares t u hu
  rw [hu'] at hafter
  obtain ⟨hpresent, hgone⟩ := Prod.mk.inj (Option.some.inj hafter)
  have hprocess : u'.tracer.process ≠ none := by
    intro hnone
    rw [hnone] at hpresent
    cases hpresent
  rw [hkept hprocess x hx, hset] at hgone
  cases hgone

section Changes

variable {s s' : Session (Engine κ)} {id : Nat} {addr : UInt64} {t : Handle}

/-- A session without a target has nothing that could be sane or not. -/
theorem sane_of_lifecycle {l : Lifecycle} (hl : s.lifecycle = l) (h : ∀ a, l ≠ .active a) :
    Sane s :=
  fun a ha => absurd (hl.symm.trans ha) (h a)

/-- A breakpoint gets the engine id that the target gave for its address. -/
theorem Named.install (h : Named t id addr s) {e : BreakpointEntry} {i : Nat}
    (hi : e.id = id → Names s.engine t i addr) :
    Named t id addr { s with breakpoints := s.breakpoints.install e.id i } := by
  have hcases : ∀ b ∈ (s.breakpoints.install e.id i).entries, ∃ b' ∈ s.breakpoints.entries,
      b.id = b'.id ∧ b.address = b'.address ∧
        (b.engineId = b'.engineId ∨ b'.id = e.id ∧ b.engineId = some i) := by
    intro b hb
    obtain ⟨b', hb', rfl⟩ := List.mem_map.mp hb
    refine ⟨b', hb', ?_⟩
    split
    · exact ⟨rfl, rfl, Or.inr ⟨‹_›, rfl⟩⟩
    · exact ⟨rfl, rfl, Or.inl rfl⟩
  refine ⟨?_, ?_⟩
  · intro b hb hid
    obtain ⟨b', hb', hbid, haddress, -⟩ := hcases b hb
    exact haddress.trans (h.address b' hb' (hbid.symm.trans hid))
  · intro b hb hid j hj
    obtain ⟨b', hb', hbid, -, hold | ⟨heq, hnew⟩⟩ := hcases b hb
    · exact h.names b' hb' (hbid.symm.trans hid) j (hold.symm.trans hj)
    · cases hnew.symm.trans hj
      exact hi (heq.symm.trans (hbid.symm.trans hid))

/-- Without a target the engine does not matter. -/
theorem Means.of_inactive (h : Means id addr s) (hlast : s'.breakpoints.lastId = s.breakpoints.lastId)
    (hentries : s'.breakpoints.entries ⊆ s.breakpoints.entries)
    (hinactive : ∀ a, s'.lifecycle ≠ .active a) : Means id addr s' :=
  ⟨hlast ▸ h.bounded, fun e he => h.address e (hentries he), fun a ha => absurd ha (hinactive a)⟩

end Changes

variable [Kernel κ] [ExecCount κ]

/-- The images that were announced. -/
def images (s : Session (Engine κ)) : Nat := ExecCount.execs s.engine.kernel

section Steps

variable {s s' : Session (Engine κ)} {id : Nat} {addr : UInt64} {t : Handle}

theorem Named.moved (h : Named t id addr s) (ht : Tidy s.engine t)
    (hengine : Moved Extends s.engine s'.engine) (himages : images s' = images s)
    (hentries : s'.breakpoints.entries ⊆ s.breakpoints.entries) : Named t id addr s' where
  address e he := h.address e (hentries he)
  names e he hid i hi := (h.names e (hentries he) hid i hi).moved hengine ht himages

theorem SameStage.target {l m : Lifecycle} (h : SameStage l m) {b : ActiveTarget}
    (hb : m = .active b) : ∃ a, l = .active a ∧ b.target = a.target := by
  cases h with
  | uninitialized => cases hb
  | prepared e => cases hb
  | @active a b' heq =>
    cases hb
    exact ⟨a, rfl, heq⟩

theorem Quiet.sane (h : Quiet (Moved Extends) s s') (hs : Sane s) : Sane s' := by
  intro b hb
  obtain ⟨a, ha, htarget⟩ := h.stage.target hb
  rw [htarget]
  exact h.engine.tidy (hs a ha)

theorem Quiet.means (h : Quiet (Moved Extends) s s') (hs : Sane s) (himages : images s' = images s)
    (hmeans : Means id addr s) : Means id addr s' where
  bounded := by
    rw [h.breakpoints]
    exact hmeans.bounded
  address := by
    rw [h.breakpoints]
    exact hmeans.address
  named b hb := by
    obtain ⟨a, ha, htarget⟩ := h.stage.target hb
    rw [htarget]
    refine (hmeans.named a ha).moved (hs a ha) h.engine himages ?_
    rw [h.breakpoints]
    exact List.Subset.refl _

variable (id addr) in
/-- Pending breakpoints that are installed get engine ids for their addresses. -/
theorem ends_installPending_named (pending : List BreakpointEntry) :
    ∀ s : Session (Engine κ), Tidy s.engine t → (∀ e ∈ pending, e.id = id → e.address = addr) →
      Ends (installPending t pending) s fun r s' => r = .ok () ∧ images s ≤ images s' ∧
        (images s' = images s → Named t id addr s → Named t id addr s') := by
  induction pending with
  | nil => exact fun s _ _ => ⟨rfl, Nat.le_refl _, fun _ h => h⟩
  | cons e rest ih =>
    intro s ht hpending
    let c : Call := .request t (.setBreakpoint e.address)
    let s₁ : Session (Engine κ) := { s with engine := (DebugEngine.perform c s.engine).2 }
    have hmoved : Moved Extends s.engine s₁.engine := EngineRelation.perform c s.engine rfl
    have ht₁ : Tidy s₁.engine t := hmoved.tidy ht
    have hrest : ∀ e' ∈ rest, e'.id = id → e'.address = addr :=
      fun e' he' => hpending e' (List.mem_cons_of_mem e he')
    have hle : images s ≤ images s₁ := hmoved.execs
    have hnamed₁ : images s₁ = images s → Named t id addr s → Named t id addr s₁ :=
      fun himages h => h.moved ht hmoved himages (List.Subset.refl _)
    -- The count of images only grows, so if it is the same at the end it was the same throughout.
    have hnext : ∀ s₂ : Session (Engine κ), s₂.engine = s₁.engine →
        (Named t id addr s₁ → Named t id addr s₂) →
        Ends (installPending t rest) s₂ fun r s' => r = .ok () ∧ images s ≤ images s' ∧
          (images s' = images s → Named t id addr s → Named t id addr s') := by
      intro s₂ heq hnamed₂
      have himages₂ : images s₂ = images s₁ := by rw [images, heq, images]
      refine (ih s₂ (by rwa [heq]) hrest).mono ?_
      rintro r s' ⟨hr, hle', hnamed'⟩
      rw [himages₂] at hle' hnamed'
      refine ⟨hr, Nat.le_trans hle hle', fun himages h => ?_⟩
      have hsame : images s₁ = images s := Nat.le_antisymm (himages ▸ hle') hle
      exact hnamed' (himages.trans hsame.symm) (hnamed₂ (hnamed₁ hsame h))
    rw [installPending]
    refine (ends_perform_of_returns c s).bind_ok ?_
    rintro answer _ ⟨hanswer, rfl⟩
    cases answer with
    | error error => exact hnext s₁ rfl fun h => h
    | ok info =>
      dsimp only
      rw [ends_modify_bind]
      refine hnext { s₁ with breakpoints := s₁.breakpoints.install e.id info.id } rfl fun h => ?_
      refine h.install fun hid => ?_
      rw [← hpending e List.mem_cons_self hid]
      exact Engine.Traced.Engine.names_of_setBreakpoint ht hanswer

variable (id addr) in
/-- When a target becomes that of the session, the breakpoints that were pending get the engine ids
that it gives for their addresses. -/
theorem ends_activate_named (ht : Tidy s.engine t)
    (hpending : ∀ e ∈ s.breakpoints.entries, e.engineId = none)
    (haddress : ∀ e ∈ s.breakpoints.entries, e.id = id → e.address = addr) :
    Ends (activate t) s fun _ s' => images s' = images s → Named t id addr s' := by
  have hinstall := ends_installPending_named id addr s.breakpoints.pending s ht
    fun e he => haddress e (List.mem_filter.mp he).1
  rw [activate, ends_get_bind]
  refine hinstall.bind_eq fun s' h himages => ?_
  have hnamed : Named t id addr s := by
    refine ⟨haddress, fun e he _ i hi => ?_⟩
    cases (hpending e he).symm.trans hi
  have hnamed' := h.2 himages hnamed
  exact ⟨hnamed'.address, hnamed'.names⟩

theorem Activated.sane (h : Activated theory s s') : Sane s' := by
  obtain ⟨t, s₁, s₂, h⟩ := h
  obtain ⟨⟨-, heq⟩, -, hactive, hengine, -⟩ := h.activates.and (ends_activate theory t s₁)
  rw [heq] at hactive hengine
  refine Quiet.sane h.after fun a ha => ?_
  cases hactive.symm.trans ha
  exact Moved.tidy hengine (Engine.Traced.Engine.Fresh.tidy h.fresh)

theorem Activated.means (h : Activated theory s s')
    (hpending : ∀ e ∈ s.breakpoints.entries, e.engineId = none) (himages : images s' = images s)
    (hmeans : Means id addr s) : Means id addr s' := by
  obtain ⟨-, -, hlast, -⟩ := h.spec
  obtain ⟨t, s₁, s₂, h⟩ := h
  have hbreakpoints := h.starting.breakpoints
  have ht : Tidy s₁.engine t := Engine.Traced.Engine.Fresh.tidy h.fresh
  have hactivate := ends_activate theory t s₁
  have hnamed := ends_activate_named (s := s₁) id addr ht
    (hbreakpoints ▸ hpending) (hbreakpoints ▸ hmeans.address)
  obtain ⟨⟨⟨-, heq⟩, -, hactive, hengine, -⟩, hnamed⟩ := (h.activates.and hactivate).and hnamed
  rw [heq] at hactive hengine hnamed
  -- No part of the activation announced an image.
  have hle₁ : images s ≤ images s₁ := h.starting.engine
  have hle₂ : images s₁ ≤ images s₂ := Moved.execs hengine
  have hle₃ : images s₂ ≤ images s' := Moved.execs h.after.engine
  have hsame₂ : images s₂ = images s₁ := by omega
  have hsame₃ : images s' = images s₂ := by omega
  have hafter : Named t id addr s' := by
    refine (hnamed hsame₂).moved (Moved.tidy hengine ht) h.after.engine hsame₃ ?_
    rw [h.after.breakpoints]
    exact List.Subset.refl _
  refine ⟨hlast ▸ hmeans.bounded, hafter.address, fun b hb => ?_⟩
  obtain ⟨a, ha, htarget⟩ := h.after.stage.target hb
  cases hactive.symm.trans ha
  rw [htarget]
  exact hafter

/-! ### Outcomes of commands -/

variable {c : Command} {response : Response}

theorem moved_afterRequest (s : Session (Engine κ)) (t : Handle) {r : Request}
    (hr : r.starts = false) (b : Breakpoints) :
    Moved Extends s.engine (afterRequest s t r b).engine :=
  EngineRelation.perform (.request t r) s.engine hr

theorem sane_afterRequest (hs : Sane s) (t : Handle) {r : Request} (hr : r.starts = false)
    (b : Breakpoints) : Sane (afterRequest s t r b) :=
  fun a ha => (moved_afterRequest s t hr b).tidy (hs a ha)

/-- A change of breakpoints keeps the meaning of an id if every entry with the id was there. -/
theorem Means.change (h : Means id addr s) (hs : Sane s) (hengine : Moved Extends s.engine s'.engine)
    (himages : images s' = images s) (hlifecycle : s'.lifecycle = s.lifecycle)
    (hlast : s.breakpoints.lastId ≤ s'.breakpoints.lastId)
    (hentries : ∀ e ∈ s'.breakpoints.entries, e.id = id → e ∈ s.breakpoints.entries) :
    Means id addr s' where
  bounded := Nat.le_trans h.bounded hlast
  address e he hid := h.address e (hentries e he hid) hid
  named a ha := by
    rw [hlifecycle] at ha
    have hnamed := h.named a ha
    refine ⟨fun e he hid => hnamed.address e (hentries e he hid) hid, ?_⟩
    intro e he hid i hi
    exact (hnamed.names e (hentries e he hid) hid i hi).moved hengine (hs a ha) himages

/-- A new breakpoint has another id. -/
theorem mem_of_mem_add {b : Breakpoints} (hid : id ≤ b.lastId) {address : UInt64}
    {engineId : Option Nat} {e : BreakpointEntry} (he : e ∈ (b.add address engineId).2.entries)
    (heq : e.id = id) : e ∈ b.entries := by
  rcases List.mem_append.mp he with he | he
  · exact he
  · cases List.mem_singleton.mp he
    have : b.lastId + 1 = id := heq
    omega

theorem mem_of_mem_erase {b : Breakpoints} {id' : Nat} {e : BreakpointEntry}
    (he : e ∈ (b.erase id').entries) : e ∈ b.entries :=
  (List.mem_filter.mp he).1

theorem Outcome.sane (h : Outcome theory s c response s') (hs : Sane s) : Sane s' := by
  cases h with
  | quiet _ _ hquiet => exact Quiet.sane hquiet hs
  | prepared e _ => exact sane_of_lifecycle rfl nofun
  | began _ _ _ _ h => exact h.sane
  | failed _ _ hinactive hquiet =>
    intro b hb
    obtain ⟨a, ha, -⟩ := hquiet.stage.target hb
    exact absurd ⟨a, ha⟩ hinactive
  | resumeFailed _ _ _ _ h => exact sane_of_lifecycle h.lifecycle nofun
  | released _ _ _ h => exact sane_of_lifecycle h.lifecycle nofun
  | pending _ hl => exact hs
  | installed _ _ _ => exact sane_afterRequest hs _ rfl _
  | forgotten _ _ => exact hs
  | removed _ _ _ _ => exact sane_afterRequest hs _ rfl _
  | allForgotten _ => exact hs
  | allRemoved _ _ => exact sane_afterRequest hs _ rfl _

/-- Until a new image is announced, no command changes what an id stands for. -/
theorem Outcome.means (h : Outcome theory s c response s') (hcoherent : Coherent s) (hs : Sane s)
    (himages : images s' = images s) (hmeans : Means id addr s) : Means id addr s' := by
  cases h with
  | quiet _ _ hquiet => exact Quiet.means hquiet hs himages hmeans
  | prepared e _ => exact hmeans.of_inactive rfl (List.Subset.refl _) nofun
  | began _ _ hinactive _ h => exact h.means (hcoherent.pending hinactive) himages hmeans
  | failed _ _ hinactive hquiet =>
    refine hmeans.of_inactive ?_ ?_ fun b hb => ?_
    · rw [hquiet.breakpoints]
    · rw [hquiet.breakpoints]
      exact List.Subset.refl _
    · obtain ⟨a, ha, -⟩ := hquiet.stage.target hb
      exact hinactive ⟨a, ha⟩
  | resumeFailed _ _ _ h₁ h =>
    refine hmeans.of_inactive (h.lastId.trans h₁.spec.2.2.1) ?_ ?_
    · rw [h.entries]
      exact List.nil_subset _
    · rw [h.lifecycle]
      exact nofun
  | released _ _ _ h =>
    refine hmeans.of_inactive h.lastId ?_ ?_
    · rw [h.entries]
      exact List.nil_subset _
    · rw [h.lifecycle]
      exact nofun
  | pending _ _ =>
    exact hmeans.change hs (StepRelation.refl _) rfl rfl (Nat.le_succ _) fun _ =>
      mem_of_mem_add hmeans.bounded
  | installed _ _ _ =>
    exact hmeans.change hs (moved_afterRequest s _ rfl _) himages rfl (Nat.le_succ _) fun _ =>
      mem_of_mem_add hmeans.bounded
  | forgotten _ _ =>
    exact hmeans.change hs (StepRelation.refl _) rfl rfl (Nat.le_refl _) fun _ he _ =>
      mem_of_mem_erase he
  | removed _ _ _ _ =>
    exact hmeans.change hs (moved_afterRequest s _ rfl _) himages rfl (Nat.le_refl _) fun _ he _ =>
      mem_of_mem_erase he
  | allForgotten _ =>
    exact hmeans.change hs (StepRelation.refl _) rfl rfl (Nat.le_refl _) fun _ he _ => (nomatch he)
  | allRemoved _ _ =>
    exact hmeans.change hs (moved_afterRequest s _ rfl _) himages rfl (Nat.le_refl _) fun _ he _ =>
      (nomatch he)

theorem ofNat_injective {m n : Nat} (h : Json.ofNat m = Json.ofNat n) : m = n := by
  injection h with hnumber
  injection hnumber with hint
  exact Int.ofNat.inj hint

/-- The id that a command gives out stands for its address. -/
theorem Outcome.means_of_issued (h : Outcome theory s (.setBreakpoint addr) response s')
    (hissued : issued (.setBreakpoint addr) response = some (Json.ofNat id))
    (hcoherent : Coherent s) (hs : Sane s) : Means id addr s' := by
  have hold : ∀ e ∈ s.breakpoints.entries, e.id ≠ s.breakpoints.lastId + 1 := by
    intro e he heq
    have hle := hcoherent.bounded e he
    omega
  cases h with
  | quiet _ hnone _ => cases hnone.symm.trans hissued
  | began hc _ _ _ _ => cases hc
  | failed hc _ _ _ => cases hc
  | released hc _ _ _ => cases hc
  | pending _ hl =>
    cases ofNat_injective (Option.some.inj hissued)
    refine ⟨Nat.le_refl _, ?_, fun a ha => (nomatch hl.symm.trans ha)⟩
    intro e he hid
    rcases List.mem_append.mp he with he | he
    · exact absurd hid (hold e he)
    · rw [List.mem_singleton.mp he]
  | @installed a info _ hl hok =>
    cases ofNat_injective (Option.some.inj hissued)
    have haddress : ∀ e ∈ (s.breakpoints.add addr (some info.id)).2.entries,
        e.id = s.breakpoints.lastId + 1 → e = ⟨s.breakpoints.lastId + 1, addr, some info.id⟩ := by
      intro e he hid
      rcases List.mem_append.mp he with he | he
      · exact absurd hid (hold e he)
      · exact List.mem_singleton.mp he
    refine ⟨Nat.le_refl _, fun e he hid => by rw [haddress e he hid], fun b hb => ?_⟩
    refine ⟨fun e he hid => by rw [haddress e he hid], fun e he hid i hi => ?_⟩
    rw [haddress e he hid] at hi
    cases hi
    cases hl.symm.trans hb
    exact Engine.Traced.Engine.names_of_setBreakpoint (hs a hl) hok

end Steps

/-! ### Runs -/

section Runs

variable {engine : Engine κ} {settings : Settings} {outbox : Wire.Outbox} {log log' : Log}
  {s s' : Session (Engine κ)} {id : Nat} {addr : UInt64}

theorem sane_of_run (h : Run (Session.start engine settings outbox) log s) : Sane s := by
  induction h with
  | start => exact sane_of_lifecycle rfl nofun
  | command c _ ih => exact (outcome_reply theory c _).sane ih
  | events _ ih => exact Quiet.sane (quiet_deliverEvents _) ih

/-- The number of images that were announced does not fall. -/
theorem images_reply (c : Command) (s : Session (Engine κ)) : images s ≤ images (reply c s).2 :=
  (outcome_reply theory c s).engine

theorem images_deliverEvents (s : Session (Engine κ)) : images s ≤ images (deliverEvents s) :=
  Moved.execs (quiet_deliverEvents (E := Moved Extends) s).engine

theorem images_of_run (h : Run s log s') : images s ≤ images s' := by
  induction h with
  | start => exact Nat.le_refl _
  | command c _ ih => exact Nat.le_trans ih (images_reply c _)
  | events _ ih => exact Nat.le_trans ih (images_deliverEvents _)

/-- An id keeps its meaning through every run that announces no new image. -/
theorem means_of_run (hstart : Run (Session.start engine settings outbox) log s)
    (hmeans : Means id addr s) (h : Run s log' s') (himages : images s' = images s) :
    Means id addr s' := by
  induction h with
  | start => exact hmeans
  | @command log' s₁ c h ih =>
    have hle := images_of_run h
    have hle' := images_reply c s₁
    have hrun := hstart.append h
    refine (outcome_reply theory c s₁).means (coherent_of_run hrun) (sane_of_run hrun) ?_ (ih ?_)
    · omega
    · omega
  | @events log' s₁ h ih =>
    have hle := images_of_run h
    have hle' := images_deliverEvents s₁
    refine Quiet.means (quiet_deliverEvents s₁) (sane_of_run (hstart.append h)) ?_ (ih ?_)
    · omega
    · omega

/-! ### Removal -/

/-- The engine id that the session keeps under an id stands for another address now: a breakpoint
that was set there got it from the table of a new image. -/
def Strays (id : Nat) (addr : UInt64) (s s' : Session (Engine κ)) : Prop :=
  ∃ a e i u u' x, s.lifecycle = .active a ∧ s.breakpoints.get? id = some e ∧ e.engineId = some i ∧
    s.engine.system? a.target = some u ∧ s'.engine.system? a.target = some u' ∧
    u'.tracer.process ≠ none ∧ x ≠ addr ∧ u.tracer.breakpoints.userAt x = some i

/-- A removal spares the breakpoints at other addresses unless the id that it is given stands for
one of them. -/
theorem spares_iff {response : Response} (hs : Sane s)
    (h : Outcome theory s (.removeBreakpoint id) response s') (hok : response.isOk = true) :
    Spares addr s.engine s'.engine ↔ ¬Strays id addr s s' := by
  cases h with
  | quiet hstays _ _ => cases hok.symm.trans hstays
  | began hc _ _ _ _ => cases hc
  | failed hc _ _ _ => cases hc
  | released hc _ _ _ => cases hc
  | @forgotten _ entry hentry hpending =>
    refine ⟨?_, fun _ t u hu => ⟨u, hu, fun _ _ _ => rfl⟩⟩
    rintro - ⟨a, e, i, u, u', x, ha, he, hi, -⟩
    cases hentry.symm.trans he
    rcases hpending with ⟨e', hl⟩ | ⟨-, hnone⟩
    · cases hl.symm.trans ha
    · cases hnone.symm.trans hi
  | @removed a _ engineId entry ha hentry hengine hanswer =>
    obtain ⟨u, hu, hrun, hsystem, hothers⟩ :=
      Engine.Traced.Engine.answer_of_system (r := .removeBreakpoint engineId) rfl hanswer
    obtain ⟨v, hv, hwf⟩ := hs a ha
    cases hu.symm.trans hv
    have hremoved := Tracing.ends_removeBreakpoint engineId hwf hrun
    constructor
    · rintro hspares ⟨b, e, i, v, u', x, hb, he, hi, hv, hu', hprocess, hx, hid⟩
      cases ha.symm.trans hb
      cases hentry.symm.trans he
      cases hengine.symm.trans hi
      cases hu.symm.trans hv
      cases hsystem.symm.trans hu'
      -- What was removed is the breakpoint at `x`, which the removal should have spared.
      obtain ⟨y, hy, hgone⟩ := (hremoved hprocess).2
      cases hwf.unique x y _ hid hy
      obtain ⟨u'', hu'', hkept⟩ := hspares a.target u hu
      cases hsystem.symm.trans hu''
      have hfind : ((Tracing.removeBreakpoint engineId).run.run u).2.tracer.breakpoints.find? x
          = u.tracer.breakpoints.find? x := hkept hprocess x hx
      rw [BreakpointTable.userAt, hfind] at hgone
      cases hid.symm.trans hgone
    · intro hnot t w hw
      by_cases ht : t = a.target
      · subst ht
        cases hu.symm.trans hw
        refine ⟨_, hsystem, fun hprocess x hx => (hremoved hprocess).1 x fun hid => ?_⟩
        exact hnot ⟨a, entry, engineId, u, _, x, ha, hentry, hengine, hu, hsystem, hprocess, hx, hid⟩
      · obtain ⟨k, hk⟩ := hothers t w ht hw
        exact ⟨⟨k, w.tracer⟩, hk, fun _ _ _ => rfl⟩

theorem Outcome.moved_of_remove {response : Response}
    (h : Outcome theory s (.removeBreakpoint id) response s') :
    Moved Extends s.engine s'.engine := by
  cases h with
  | quiet _ _ hquiet => exact hquiet.engine
  | began hc _ _ _ _ => cases hc
  | failed hc _ _ _ => cases hc
  | released hc _ _ _ => cases hc
  | forgotten _ _ => exact StepRelation.refl _
  | removed _ _ _ _ => exact moved_afterRequest s _ rfl _

/-- An id that means an address does not stray from it. -/
theorem Means.not_strays (h : Means id addr s) (hmoved : Moved Extends s.engine s'.engine) :
    ¬Strays id addr s s' := by
  rintro ⟨a, e, i, u, u', x, ha, he, hi, hu, hu', hprocess', hx, hid⟩
  have hmem : e ∈ s.breakpoints.entries := List.mem_of_find?_eq_some he
  have heq : e.id = id := by
    have hfound : (e.id == id) = true :=
      List.find?_some (p := fun b : BreakpointEntry => b.id == id) he
    exact eq_of_beq hfound
  obtain ⟨v, hv, halong⟩ := hmoved.system a.target u hu
  cases hv.symm.trans hu'
  have hprocess : u.tracer.process ≠ none := fun hnone => hprocess' (halong.process hnone)
  exact hx (((h.named a ha).names e hmem heq i hi u hu hprocess).2 x hid)

/-- In the memory of a halted process the removal of an id that does not stray shows at its address
only. -/
theorem memory_of_remove [WordMemory κ] {response : Response} (hs : Sane s)
    (h : Outcome theory s (.removeBreakpoint id) response s') (hok : response.isOk = true)
    (hnot : ¬Strays id addr s s') {a : ActiveTarget} {u : System κ} {p : Process}
    (ha : s.lifecycle = .active a) (hu : s.engine.system? a.target = some u)
    (hp : u.tracer.process = some p) (hhalted : p.isRunning = false) (x : UInt64) (hx : x ≠ addr) :
    WordMemory.memory s'.engine.kernel x = WordMemory.memory s.engine.kernel x := by
  cases h with
  | quiet hstays _ _ => cases hok.symm.trans hstays
  | began hc _ _ _ _ => cases hc
  | failed hc _ _ _ => cases hc
  | released hc _ _ _ => cases hc
  | forgotten _ _ => rfl
  | @removed b _ engineId entry hb hentry hengine hanswer =>
    cases ha.symm.trans hb
    obtain ⟨v, hv, -, hsystem, -⟩ :=
      Engine.Traced.Engine.answer_of_system (r := .removeBreakpoint engineId) rfl hanswer
    cases hu.symm.trans hv
    obtain ⟨v, hv, hwf⟩ := hs a ha
    cases hu.symm.trans hv
    have hmemory := Tracing.memory_removeBreakpoint engineId hwf hp hhalted
    have hpresent : ((Tracing.removeBreakpoint engineId).run.run u).2.tracer.process ≠ none := by
      rw [hmemory.1]
      exact Option.some_ne_none p
    rw [← Engine.Traced.Engine.kernel_of_system? hu]
    show WordMemory.memory
      (DebugEngine.perform (.request a.target (.removeBreakpoint engineId)) s.engine).2.kernel x = _
    rw [← Engine.Traced.Engine.kernel_of_system? hsystem]
    refine hmemory.2 x fun hid => hnot ?_
    exact ⟨a, entry, engineId, u, _, x, ha, hentry, hengine, hu, hsystem, hpresent, hx, hid⟩

/-- In every run, what a breakpoint id that is removed takes from the process is at most the
breakpoint at the address for which the id was given out, as long as no new image was announced
since then. At any time it is that exactly if the engine id which the session keeps does not stand
for another address; and then the memory of a halted process changes at that address only. -/
theorem remove_of_run (hrun : Run (Session.start engine settings outbox) log s)
    (hset : issued (.setBreakpoint addr) (reply (.setBreakpoint addr) s).1 = some (Json.ofNat id))
    (hrun' : Run (reply (.setBreakpoint addr) s).2 log' s')
    (hok : (reply (.removeBreakpoint id) s').1.isOk = true) :
    let removed := (reply (.removeBreakpoint id) s').2
    (images removed = images (reply (.setBreakpoint addr) s).2 →
      Spares addr s'.engine removed.engine) ∧
    (Spares addr s'.engine removed.engine ↔ ¬Strays id addr s' removed) ∧
    ∀ [WordMemory κ], Spares addr s'.engine removed.engine → ∀ a u p, s'.lifecycle = .active a →
      s'.engine.system? a.target = some u → u.tracer.process = some p → p.isRunning = false →
      ∀ x, x ≠ addr →
        WordMemory.memory removed.engine.kernel x = WordMemory.memory s'.engine.kernel x := by
  intro removed
  have hafter := Run.command (.setBreakpoint addr) hrun
  have hsane := sane_of_run (hafter.append hrun')
  have houtcome := outcome_reply theory (.removeBreakpoint id) s'
  have hiff : Spares addr s'.engine (reply (.removeBreakpoint id) s').2.engine ↔ _ :=
    spares_iff hsane houtcome hok
  refine ⟨fun himages => hiff.mpr ?_, hiff, fun hspares a u p ha hu hp hhalted => ?_⟩
  · have hmeans : Means id addr (reply (.setBreakpoint addr) s).2 :=
      (outcome_reply theory _ s).means_of_issued hset (coherent_of_run hrun) (sane_of_run hrun)
    have hle := images_of_run hrun'
    have hle' := images_reply (.removeBreakpoint id) s'
    have hsame : images (reply (.removeBreakpoint id) s').2
        = images (reply (.setBreakpoint addr) s).2 := himages
    have hmeans' : Means id addr s' := by
      refine means_of_run hafter hmeans hrun' ?_
      omega
    exact hmeans'.not_strays houtcome.moved_of_remove
  · exact memory_of_remove hsane houtcome hok (hiff.mp hspares) ha hu hp hhalted

end Runs

/-- A reply that is ok gives out the next id. -/
theorem issued_of_reply {s : Session (Engine κ)} (addr : UInt64) (id : Nat)
    (hok : (reply (.setBreakpoint addr) s).1.isOk = true) (hid : s.breakpoints.lastId + 1 = id) :
    issued (.setBreakpoint addr) (reply (.setBreakpoint addr) s).1 = some (Json.ofNat id) := by
  rw [← hid]
  exact (outcome_reply theory _ s).issued_of_isOk hok

/-- A process with a breakpoint. -/
def first (statuses : List WaitStatus) : Session (Engine (Counted Puppet)) :=
  (reply (.setBreakpoint 0x1000) (Puppet.launched statuses)).2

/-- Another breakpoint in the same image. -/
def second : Session (Engine (Counted Puppet)) := (reply (.setBreakpoint 0x2000) (first [])).2

/-- Another breakpoint in an image that replaced the first one while the process ran. -/
def secondInNewImage : Session (Engine (Counted Puppet)) :=
  (reply (.setBreakpoint 0x2000) (reply .resume (first [.event 1 WaitStatus.execEvent])).2).2

/-- With two breakpoints in one image the removal of the first spares the second. -/
theorem remove_first : Spares 0x1000 second.engine (reply (.removeBreakpoint 1) second).2.engine := by
  obtain ⟨log, hrun⟩ := Puppet.run_launched []
  have hset := issued_of_reply 0x1000 1 (s := Puppet.launched [])
    (by decide +kernel) (by decide +kernel)
  have hrun' : Run (first []) _ second := .command (.setBreakpoint 0x2000) .start
  exact (remove_of_run hrun hset hrun' (by decide +kernel)).1 (by decide +kernel)

/-- After a new image the first breakpoint that is set there has the engine id of the first one before,
and is gone when that one is removed. -/
theorem remove_across_images : ∃ log s log' s',
    Run (Puppet.session [.event 1 WaitStatus.execEvent]) log s ∧
    issued (.setBreakpoint 0x1000) (reply (.setBreakpoint 0x1000) s).1 = some (Json.ofNat 1) ∧
    Run (reply (.setBreakpoint 0x1000) s).2 log' s' ∧
    (reply (.removeBreakpoint 1) s').1.isOk = true ∧
    ¬Spares 0x1000 s'.engine (reply (.removeBreakpoint 1) s').2.engine := by
  obtain ⟨log, hrun⟩ := Puppet.run_launched [.event 1 WaitStatus.execEvent]
  have hset := issued_of_reply 0x1000 1
    (s := Puppet.launched [.event 1 WaitStatus.execEvent])
    (by decide +kernel) (by decide +kernel)
  have hrun' : Run (first [.event 1 WaitStatus.execEvent]) _ secondInNewImage :=
    .command (.setBreakpoint 0x2000) (.command .resume .start)
  have hgone : ¬Spares 0x1000 secondInNewImage.engine
      (reply (.removeBreakpoint 1) secondInNewImage).2.engine :=
    not_spares_of_gone 0 (x := 0x2000) (by decide) (by decide +kernel) (by decide +kernel)
  exact ⟨log, _, _, secondInNewImage, hrun, hset, hrun', by decide +kernel, hgone⟩

end Session

end DebugAdapter
