import DebugAdapter.Proofs.ModuleSurveys
import DebugAdapter.Proofs.PublicRelations
import DebugAdapter.Proofs.Puppet
import Mathlib.Data.List.Pairwise

/-!
# Replay of module events

A client that takes the modules of each event about unloaded modules out of a set, and puts those of each
event about loaded ones into it, has the modules that the tracer knows (`Mirrors`). Modules are compared
as a whole, with their paths by components. Each look at the modules sends what one survey has and the
other one has not, first what went and then what came (`Synced`). So a module that moved comes after the
old one of its path has gone, and a client may as well keep modules by their paths.

Main statement: `modules_of_history`.
-/

namespace DebugAdapter

namespace Debuggee.Module

theorem same_iff {a b : Module} :
    a.same b = true ↔ Text.Path.same a.path b.path = true ∧ { a with path := b.path } = b := by
  rw [same, Bool.and_eq_true, beq_iff_eq]

theorem same_path {a b : Module} (h : a.same b = true) : Text.Path.same a.path b.path = true :=
  (same_iff.mp h).1

theorem same_refl (a : Module) : a.same a = true :=
  same_iff.mpr ⟨Text.Path.same_iff.mpr rfl, rfl⟩

theorem same_symm {a b : Module} (h : a.same b = true) : b.same a = true := by
  obtain ⟨hpath, hrest⟩ := same_iff.mp h
  refine same_iff.mpr ⟨Text.Path.same_symm hpath, ?_⟩
  rw [← hrest]

theorem same_trans {a b c : Module} (hab : a.same b = true) (hbc : b.same c = true) :
    a.same c = true := by
  obtain ⟨hpath, hrest⟩ := same_iff.mp hab
  obtain ⟨hpath', hrest'⟩ := same_iff.mp hbc
  refine same_iff.mpr ⟨Text.Path.same_trans hpath hpath', ?_⟩
  rw [← hrest', ← hrest]

end Debuggee.Module

namespace Tracer

open Debuggee
open Engine.Traced (Engine)
open Linux
open ModuleRegistry (Surveyed without)
open Operation
open Text.Path (same)

/-! ### Sets of modules -/

/-- No two modules have the same path. -/
def Distinct (modules : List Module) : Prop :=
  modules.Pairwise fun a b => same a.path b.path = false

theorem Distinct.eq_of_same {modules : List Module} (h : Distinct modules) {a b : Module}
    (ha : a ∈ modules) (hb : b ∈ modules) (hsame : same a.path b.path = true) : a = b := by
  have hsymm : Std.Symm fun a b : Module => same a.path b.path = false :=
    ⟨fun a b hab => (Text.Path.same_comm b.path a.path).trans hab⟩
  by_contra hne
  exact Bool.eq_false_iff.mp (h.forall ha hb hne) hsame

theorem any_same_iff {modules : List Module} {m : Module} :
    modules.any m.same = true ↔ ∃ n ∈ modules, m.same n = true :=
  List.any_eq_true

/-- What a client holds are the modules that are known, each of them once. -/
structure Mirrors (held modules : List Module) : Prop where
  distinct : Distinct held
  same : ∀ m : Module, held.any m.same = modules.any m.same

/-- Modules that are known are held by whoever mirrors them. -/
theorem Mirrors.exists_held {held modules : List Module} (h : Mirrors held modules) {m : Module}
    (hm : m ∈ modules) : ∃ n ∈ held, m.same n = true := by
  refine any_same_iff.mp ((h.same m).trans ?_)
  exact any_same_iff.mpr ⟨m, hm, m.same_refl⟩

theorem Mirrors.exists_known {held modules : List Module} (h : Mirrors held modules) {n : Module}
    (hn : n ∈ held) : ∃ m ∈ modules, n.same m = true := by
  refine any_same_iff.mp ((h.same n).symm.trans ?_)
  exact any_same_iff.mpr ⟨n, hn, n.same_refl⟩

section Update

variable {held before after : List Module}

/-- What is not unloaded is in both surveys. -/
theorem exists_of_mem_rest (h : Mirrors held before) {n : Module}
    (hn : n ∈ without held (without before after)) :
    n ∈ held ∧ ∃ b ∈ before, ∃ a ∈ after, n.same b = true ∧ n.same a = true := by
  obtain ⟨hheld, hkept⟩ := (mem_without_iff _ _ _).mp hn
  obtain ⟨b, hb, hnb⟩ := h.exists_known hheld
  refine ⟨hheld, b, hb, ?_⟩
  by_contra hnone
  refine Bool.eq_false_iff.mp (hkept b ((mem_without_iff _ _ _).mpr ⟨hb, fun a ha => ?_⟩)) hnb
  exact Bool.eq_false_iff.mpr fun hba => hnone ⟨a, ha, hnb, Module.same_trans hnb hba⟩

/-- A loaded module has another path than all that is held when it comes. -/
theorem path_of_loaded (h : Mirrors held before) (hafter : Distinct after) {m n : Module}
    (hm : m ∈ without after before) (hn : n ∈ without held (without before after)) :
    same m.path n.path = false := by
  obtain ⟨hmem, hnew⟩ := (mem_without_iff _ _ _).mp hm
  obtain ⟨-, b, hb, a, ha, hnb, hna⟩ := exists_of_mem_rest h hn
  refine Bool.eq_false_iff.mpr fun hpath => ?_
  have heq : m = a := hafter.eq_of_same hmem ha (Text.Path.same_trans hpath (Module.same_path hna))
  subst heq
  exact Bool.eq_false_iff.mp (hnew b hb) (Module.same_trans (Module.same_symm hna) hnb)

/-- What remains of the modules that are held, and what is loaded, are the modules of the next
survey. -/
theorem Mirrors.update (h : Mirrors held before) (hafter : Distinct after) :
    Mirrors (without held (without before after) ++ without after before) after := by
  refine ⟨List.pairwise_append.mpr ⟨?_, ?_, fun n hn m hm => ?_⟩, fun m => ?_⟩
  · exact h.distinct.sublist List.filter_sublist
  · exact hafter.sublist List.filter_sublist
  · rw [Text.Path.same_comm]
    exact path_of_loaded h hafter hm hn
  · refine Bool.eq_iff_iff.mpr (any_same_iff.trans (Iff.trans ⟨?_, ?_⟩ any_same_iff.symm))
    · rintro ⟨n, hn, hmn⟩
      rcases List.mem_append.mp hn with hn | hn
      · obtain ⟨-, b, -, a, ha, -, hna⟩ := exists_of_mem_rest h hn
        exact ⟨a, ha, Module.same_trans hmn hna⟩
      · exact ⟨n, ((mem_without_iff _ _ _).mp hn).1, hmn⟩
    · rintro ⟨a, ha, hma⟩
      by_cases hold : ∃ b ∈ before, a.same b = true
      · obtain ⟨b, hb, hab⟩ := hold
        obtain ⟨n, hn, hbn⟩ := h.exists_held hb
        have han : a.same n = true := Module.same_trans hab hbn
        refine ⟨n, List.mem_append_left _ ((mem_without_iff _ _ _).mpr ⟨hn, fun u hu => ?_⟩),
          Module.same_trans hma han⟩
        refine Bool.eq_false_iff.mpr fun hnu => ?_
        have hgone := ((mem_without_iff _ _ _).mp hu).2 a ha
        exact Bool.eq_false_iff.mp hgone (Module.same_symm (Module.same_trans han hnu))
      · refine ⟨a, List.mem_append_right _ ((mem_without_iff _ _ _).mpr ⟨ha, fun b hb => ?_⟩), hma⟩
        exact Bool.eq_false_iff.mpr fun hab => hold ⟨b, hb, hab⟩

end Update

/-! ### Replay -/

/-- What a client holds after an event. With the process its modules are gone. -/
def replayEvent (held : List Module) : Event → List Module
  | .modulesUnloaded ms => without held ms
  | .modulesLoaded ms => held ++ ms
  | .stateChanged state => if state.isTerminal then [] else held
  | _ => held

/-- What a client holds after events. -/
def replay (held : List Module) (es : List Event) : List Module := es.foldl replayEvent held

/-- An event about modules fits what is held: what is unloaded was held, and nothing with the path of what
is loaded is held any more. -/
def Fits (held : List Module) : Event → Prop
  | .modulesUnloaded ms => ms ≠ [] ∧ ∀ m ∈ ms, held.any m.same = true
  | .modulesLoaded ms => ms ≠ [] ∧ Distinct ms ∧ ∀ m ∈ ms, ∀ n ∈ held, same m.path n.path = false
  | _ => True

/-- Each event fits what is held when it comes. -/
def AllFit : (held : List Module) → List Event → Prop
  | _, [] => True
  | held, e :: es => Fits held e ∧ AllFit (replayEvent held e) es

/-- A client keeps what it holds when states of a living process are published. -/
theorem replay_states {states : List ProcessState}
    (h : ∀ state ∈ states, state.isTerminal = false) (held : List Module) :
    replay held (states.map .stateChanged) = held ∧ AllFit held (states.map .stateChanged) := by
  induction states with
  | nil => exact ⟨rfl, trivial⟩
  | cons state rest ih =>
    obtain ⟨hstate, hrest⟩ := List.forall_mem_cons.mp h
    have hkept : replayEvent held (.stateChanged state) = held :=
      if_neg (ne_true_of_eq_false hstate)
    obtain ⟨hreplay, hfit⟩ := ih hrest
    rw [List.map_cons]
    refine ⟨?_, trivial, ?_⟩
    · rw [replay, List.foldl_cons, hkept]
      exact hreplay
    · rw [hkept]
      exact hfit

theorem replay_append (held : List Module) (es es' : List Event) :
    replay held (es ++ es') = replay (replay held es) es' :=
  List.foldl_append

theorem allFit_append (es' : List Event) : ∀ (held : List Module) (es : List Event),
    AllFit held (es ++ es') ↔ AllFit held es ∧ AllFit (replay held es) es'
  | _, [] => (true_and _).to_iff.symm
  | held, e :: es => by
    show Fits held e ∧ AllFit _ (es ++ es') ↔ _
    rw [allFit_append es' _ es, ← and_assoc]
    rfl

/-- The events that a look at the modules sends. -/
def ModuleChanges.events (c : ModuleChanges) : List Event :=
  (if c.unloaded = [] then [] else [.modulesUnloaded c.unloaded]) ++
    (if c.loaded = [] then [] else [.modulesLoaded c.loaded])

theorem without_nil (held : List Module) : without held [] = held :=
  List.filter_eq_self.mpr fun _ _ => rfl

theorem replay_events (held : List Module) (c : ModuleChanges) :
    replay held c.events = without held c.unloaded ++ c.loaded := by
  have hunload : replay held (if c.unloaded = [] then [] else [.modulesUnloaded c.unloaded])
      = without held c.unloaded := by
    split
    · rename_i hnil
      rw [hnil, without_nil]
      rfl
    · rfl
  rw [ModuleChanges.events, replay_append, hunload]
  split
  · rename_i hnil
    rw [hnil, List.append_nil]
    rfl
  · rfl

/-- What a look sends fits what a client holds, who has the modules of the next survey then. -/
theorem Mirrors.replay_events {held before after : List Module} (h : Mirrors held before)
    (hafter : Distinct after) :
    Mirrors (replay held (ModuleChanges.events ⟨without after before, without before after⟩)) after ∧
      AllFit held (ModuleChanges.events ⟨without after before, without before after⟩) := by
  rw [Tracer.replay_events, ModuleChanges.events, allFit_append]
  refine ⟨h.update hafter, ?_, ?_⟩
  · split
    · trivial
    · rename_i hsome
      refine ⟨⟨hsome, fun m hm => ?_⟩, trivial⟩
      exact any_same_iff.mpr (h.exists_held ((mem_without_iff _ _ _).mp hm).1)
  · have hunload : replay held (if without before after = [] then []
        else [.modulesUnloaded (without before after)]) = without held (without before after) := by
      split
      · rename_i hnil
        rw [hnil, without_nil]
        rfl
      · rfl
    rw [hunload]
    split
    · trivial
    · rename_i hsome
      refine ⟨⟨hsome, hafter.sublist List.filter_sublist, fun m hm n hn => ?_⟩, trivial⟩
      exact path_of_loaded h hafter hm hn

/-! ### Looks at the modules -/

variable {κ : Type} [Kernel κ]

/-- The mappings of the process, if there is one and its memory map can be read. -/
def System.mappings? (s : System κ) : Option (List Mapping) :=
  s.tracer.process.bind fun p =>
    (Mapping.ofFile (Kernel.file s.kernel (Tracing.processPath p.pid "maps"))).toOption

/-- The program of the process. -/
def System.main? (s : System κ) : Option String := s.tracer.process.bind (·.executable)

/-- A look at the modules: with a memory map they are surveyed, and what changed is sent; without one
nothing happens. -/
inductive Synced (s s' : System κ) : Prop
  | unread : s.mappings? = none → s' = s → Synced s s'
  | read {mappings : List Mapping} {r : ModuleRegistry} {c : ModuleChanges} :
      s.mappings? = some mappings → Surveyed s.main? mappings r.modules →
      c = ⟨without r.modules s.tracer.modules.modules, without s.tracer.modules.modules r.modules⟩ →
      s' = { s with tracer := { s.tracer with modules := r, events := s.tracer.events ++ c.events } } →
      Synced s s'

namespace Tracing

omit [Kernel κ] in
theorem ends_sendChanges (c : ModuleChanges) (s : System κ) : Ends (do
    if !c.unloaded.isEmpty then emit (.modulesUnloaded c.unloaded)
    if !c.loaded.isEmpty then emit (.modulesLoaded c.loaded) : Tracing κ Unit) s fun r s' =>
      r = .ok () ∧
      s' = { s with tracer := { s.tracer with events := s.tracer.events ++ c.events } } := by
  let sending (es : List Event) : System κ := { s with tracer := { s.tracer with events := es } }
  obtain ⟨loaded, unloaded⟩ := c
  cases unloaded with
  | nil =>
    cases loaded with
    | nil => exact ⟨rfl, congrArg sending (List.append_nil _).symm⟩
    | cons m ms => exact ⟨rfl, rfl⟩
  | cons n ns =>
    cases loaded with
    | nil => exact ⟨rfl, rfl⟩
    | cons m ms => exact ⟨rfl, congrArg sending (List.append_assoc _ _ _)⟩

theorem ends_syncModules_synced (s : System κ) :
    Ends syncModules s fun r s' => r = .ok () ∧ Synced s s' := by
  rw [syncModules, ends_tracer_bind]
  split
  · rename_i hp
    exact ⟨rfl, .unread (by rw [System.mappings?, hp]; rfl) rfl⟩
  · rename_i p hp
    let files : Files := Kernel.file s.kernel
    let map := files (processPath p.pid "maps")
    have hmappings : s.mappings? = (Mapping.ofFile map).toOption := by
      rw [System.mappings?, hp]
      rfl
    have hmain : s.main? = p.executable := by
      rw [System.main?, hp]
      rfl
    have hrefresh := ModuleRegistry.refresh_run files p.executable map s.tracer.modules
    rw [ends_files_bind]
    show Ends (onModules (ModuleRegistry.refresh files p.executable map).run >>= _) s _
    rw [ends_onModules_bind]
    rcases hmap : Mapping.ofFile map with e | mappings
    · rw [hmap] at hrefresh hmappings
      rw [hrefresh]
      exact ⟨rfl, .unread hmappings rfl⟩
    · rw [hmap] at hrefresh hmappings
      obtain ⟨r, hsurveyed, hrun⟩ := hrefresh
      rw [hrun]
      refine (ends_sendChanges _ _).mono fun _ s' h => ⟨h.1, ?_⟩
      exact .read hmappings (hmain ▸ hsurveyed) rfl h.2

end Tracing

/-! ### Histories -/

/-- A client that has taken some events, and takes those that are there too, has the modules that the
tracer knows. -/
structure Replayed (es : List Event) (s : System κ) : Prop where
  mirrors : Mirrors (replay [] (es ++ s.tracer.events)) s.tracer.modules.modules
  fit : AllFit [] (es ++ s.tracer.events)
  surveyed : ∃ main mappings, Surveyed main mappings s.tracer.modules.modules
  idle : s.tracer.process = none → s.tracer.modules.modules = []

omit [Kernel κ] in
/-- More events are sent, and what a client makes of them are the modules then. -/
theorem Replayed.send {es new : List Event} {s s' : System κ} (h : Replayed es s)
    (hevents : s'.tracer.events = s.tracer.events ++ new)
    (hmirrors : Mirrors (replay (replay [] (es ++ s.tracer.events)) new) s'.tracer.modules.modules)
    (hfit : AllFit (replay [] (es ++ s.tracer.events)) new)
    (hsurveyed : ∃ main mappings, Surveyed main mappings s'.tracer.modules.modules)
    (hidle : s'.tracer.process = none → s'.tracer.modules.modules = []) : Replayed es s' := by
  have hall : es ++ s'.tracer.events = (es ++ s.tracer.events) ++ new := by
    rw [hevents, List.append_assoc]
  refine ⟨?_, ?_, hsurveyed, hidle⟩
  · rw [hall, replay_append]
    exact hmirrors
  · rw [hall, allFit_append]
    exact ⟨h.fit, hfit⟩

theorem surveyed_nil : Surveyed none [] [] :=
  ⟨nofun, .nil, nofun, nofun, nofun, nofun, .nil⟩

theorem mirrors_nil : Mirrors [] [] := ⟨.nil, fun _ => rfl⟩

omit [Kernel κ] in
/-- States are published, and the modules stay. -/
theorem Replayed.publish {es : List Event} {s s' : System κ} (h : Replayed es s)
    (states : List ProcessState) (hstates : ∀ state ∈ states, state.isTerminal = false)
    (hevents : s'.tracer.events = s.tracer.events ++ states.map .stateChanged)
    (hmodules : s'.tracer.modules.modules = s.tracer.modules.modules)
    (hidle : s'.tracer.process = none → s'.tracer.modules.modules = []) : Replayed es s' := by
  obtain ⟨hkept, hfit⟩ := replay_states hstates (replay [] (es ++ s.tracer.events))
  refine h.send hevents ?_ hfit ?_ hidle
  · rw [hkept, hmodules]
    exact h.mirrors
  · rw [hmodules]
    exact h.surveyed

omit [Kernel κ] in
/-- The process ends, and its modules with it. -/
theorem Replayed.clear {es : List Event} {s s' : System κ} (h : Replayed es s) (state : ProcessState)
    (hstate : state.isTerminal = true)
    (hevents : s'.tracer.events = s.tracer.events ++ [.stateChanged state])
    (hmodules : s'.tracer.modules.modules = []) : Replayed es s' := by
  refine h.send hevents ?_ ⟨trivial, trivial⟩ ?_ fun _ => hmodules
  · have hempty : ∀ held, replay held [.stateChanged state] = [] := fun held => if_pos hstate
    rw [hempty, hmodules]
    exact mirrors_nil
  · rw [hmodules]
    exact ⟨_, _, surveyed_nil⟩

theorem Synced.replayed {es : List Event} {s s' : System κ} (h : Synced s s') (hs : Replayed es s) :
    Replayed es s' := by
  cases h with
  | unread _ heq => exact heq ▸ hs
  | @read mappings r c hmappings hsurveyed hc heq =>
    have hpresent : s.tracer.process ≠ none := by
      intro hnone
      rw [System.mappings?, hnone] at hmappings
      cases hmappings
    obtain ⟨hmirrors, hfit⟩ := hs.mirrors.replay_events hsurveyed.distinct
    subst hc heq
    exact hs.send rfl hmirrors hfit ⟨_, _, hsurveyed⟩ fun hnone => absurd hnone hpresent

/-- What is replayed remains so. -/
structure Replays (s s' : System κ) : Prop where
  replayed : ∀ es, Replayed es s → Replayed es s'

instance : LiveRelation (Replays : System κ → System κ → Prop) where
  refl _ := ⟨fun _ => id⟩
  trans h h' := ⟨fun es hs => h'.replayed es (h.replayed es hs)⟩
  still {s s'} h := by
    refine ⟨fun es hs => ⟨?_, ?_, ?_, fun hnone => ?_⟩⟩
    · rw [h.events, h.modules]
      exact hs.mirrors
    · rw [h.events]
      exact hs.fit
    · rw [h.modules]
      exact hs.surveyed
    · rw [h.modules]
      exact hs.idle (h.process.mp hnone)
  sync s := (Tracing.ends_syncModules_synced s).mono fun _ _ h => ⟨fun _ => h.2.replayed⟩
  exited _ _ _ := ⟨fun _ hs => hs.clear .exited rfl rfl rfl⟩
  publish _ state _ hstate := ⟨fun _ hs =>
    hs.publish [state] (List.forall_mem_singleton.mpr hstate) rfl rfl hs.idle⟩

namespace Tracing

/-- A process that begins has no modules yet. -/
theorem replays_beginning {state : ProcessState} (hstate : state.isTerminal = false) (s : System κ) :
    Beginning state s fun _ s' => Replays s s' := by
  refine ⟨fun _ => StepRelation.refl s, fun _ _ k => ⟨fun es hs => ?_⟩,
    fun hnone p stop program k _ _ => ?_⟩
  · refine hs.publish [state, .unloaded] ?_ (List.append_assoc _ _ _) rfl hs.idle
    exact List.forall_mem_cons.mpr ⟨hstate, List.forall_mem_singleton.mpr rfl⟩
  · refine (moves_reportLive (R := Replays) stop _).mono fun _ _ h => StepRelation.trans ⟨?_⟩ h
    intro es hs
    exact hs.publish [state] (List.forall_mem_singleton.mpr hstate) rfl (hs.idle hnone).symm nofun

theorem replays_detach : Moves Replays (detach : Tracing κ Unit) := by
  rw [detach_eq]
  refine (moves_takeBack moves_forgetPlan).bind fun going => ?_
  cases going with
  | false => exact Moves.pure _
  | true =>
    refine fun s => (ends_letGo s).mono ?_
    rintro _ ⟨k, t⟩ ⟨-, rfl⟩
    exact ⟨fun es hs => hs.clear .detached rfl rfl rfl⟩

/-- Every act keeps what is replayed. -/
theorem replays_act (a : Act) : Moves Replays (a.operation : Tracing κ Unit) := by
  intro s
  have hkeeps : ∀ {a : Act}, a.Keeps → Ends a.operation s fun _ s' => Replays s s' :=
    fun ha => moves_act_of_keeps ha s
  cases a with
  | look => exact hkeeps True.intro
  | perform r =>
    cases r with
    | launch info => exact ends_launchToEntry info (replays_beginning rfl s)
    | attach pid => exact (ends_discard _ s _).mpr (ends_attach pid (replays_beginning rfl s))
    | detach => exact (ends_discard _ s _).mpr (replays_detach s)
    | destroy =>
      refine (ends_discard _ s (Replays s)).mpr (ends_destroy (fun _ => StepRelation.refl s) ?_ ?_)
      · exact fun _ _ _ => moves_kill s
      · exact fun _ _ _ => replays_detach s
    | _ => exact hkeeps True.intro

end Tracing

theorem replayed_of_history {drift : κ → κ → Prop} {program : Option String} {k : κ}
    {es : List Event} {s : System κ} (h : History drift ⟨k, .new program⟩ es s) : Replayed es s := by
  have hnew : Replayed [] (⟨k, .new program⟩ : System κ) :=
    ⟨mirrors_nil, trivial, ⟨_, _, surveyed_nil⟩, fun _ => rfl⟩
  generalize (⟨k, .new program⟩ : System κ) = s₀ at h hnew
  induction h with
  | start => exact hnew
  | @act es s a _ ih => exact (Tracing.replays_act a s).replayed es ih
  | @collect es s _ ih =>
    refine ⟨?_, ?_, ih.surveyed, ih.idle⟩
    · rw [List.append_nil]
      exact ih.mirrors
    · rw [List.append_nil]
      exact ih.fit
  | elapse _ _ ih => exact ⟨ih.mirrors, ih.fit, ih.surveyed, ih.idle⟩

end Tracer

end DebugAdapter
