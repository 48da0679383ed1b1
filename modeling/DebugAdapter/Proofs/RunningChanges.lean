import DebugAdapter.Proofs.EntryOutcomes
import DebugAdapter.Proofs.Puppet
import DebugAdapter.Proofs.StopLogs

/-!
# Changes of a running process

Breakpoints can be changed while the process runs: its threads are stopped, the change is made, and the
threads go on. `RunningChange` tells such a change call by call, whether the change succeeds or fails:
nobody is told that the process stopped, each thread goes on with the signal that was kept for it, and a
thread that reported a trap at a breakpoint stands at the breakpoint again. There it meets the trap
instruction once more, or what belongs there if the breakpoint was the one that was removed (`Fate`).

Main statement: `changes_unnoticed`.
-/

namespace DebugAdapter.Tracer

open Debuggee
open Linux
open Operation
open BreakpointTable

variable {κ : Type}

/-! ### Work on breakpoints -/

/-- What becomes of a patch by some calls: it stays, or the byte that belongs there is put back. -/
inductive Fate (a : UInt64) (b : Breakpoint) (calls : List Answered) (t : BreakpointTable) : Prop
  | stands {b' : Breakpoint} (hfind : t.find? a = some b') (henabled : b'.enabled = true)
      (hsaved : b'.saved = b.saved)
      (hpoke : ∀ tid word, (⟨.poke tid a word, .ok ()⟩ : Answered) ∉ calls)
  | removed {tid : Nat} {word : UInt64} (hfind : t.find? a = none)
      (hpeek : ⟨.peek tid a, .ok word⟩ ∈ calls)
      (hpoke : ⟨.poke tid a (withLowByte word b.saved), .ok ()⟩ ∈ calls)

/-- Calls about the word at an address. -/
def About (a : UInt64) (calls : List Answered) : Prop :=
  ∀ x ∈ calls, ∃ tid, x.call = .peek tid a ∨ ∃ word, x.call = .poke tid a word

theorem About.memory {a : UInt64} {calls : List Answered} (h : About a calls) :
    ∀ x ∈ calls, x.call.isMemory = true := by
  intro x hx
  obtain ⟨tid, hpeek | ⟨word, hpoke⟩⟩ := h x hx
  · rw [hpeek]
    rfl
  · rw [hpoke]
    rfl

/-- A patch stays while calls are about other words and its entry is left alone. -/
theorem About.stands {a x : UInt64} {b : Breakpoint} {calls : List Answered} {t : BreakpointTable}
    (h : About a calls) (hx : x ≠ a) (hfind : t.find? x = some b) (henabled : b.enabled = true) :
    Fate x b calls t := by
  refine .stands hfind henabled rfl fun tid word hmem => ?_
  obtain ⟨u, hpeek | ⟨word', hpoke⟩⟩ := h _ hmem
  · cases hpeek
  · cases hpoke
    exact hx rfl

/-- What work on breakpoints does to the patches that are in place. -/
structure Reworks (calls : List Answered) (p p' : Patched (Logged κ)) : Prop where
  log : p'.kernel.log = p.kernel.log ++ calls
  memory : ∀ x ∈ calls, x.call.isMemory = true
  fate : ∀ a b, p.table.find? a = some b → b.enabled = true → Fate a b calls p'.table

/-- Work that adds no entry. -/
structure Unuses (p p' : Patched (Logged κ)) : Prop where
  reworks : ∃ calls, Reworks calls p p'
  absent : ∀ a, p.table.find? a = none → p'.table.find? a = none

theorem Reworks.refl (p : Patched (Logged κ)) : Reworks [] p p :=
  ⟨(List.append_nil _).symm, List.forall_mem_nil _, fun _ _ hb henabled =>
    .stands hb henabled rfl fun _ _ => List.not_mem_nil⟩

/-- Work on one entry, by what becomes of its own patch. -/
theorem Reworks.of_about {a : UInt64} {calls : List Answered} {p p' : Patched (Logged κ)}
    (hlog : p'.kernel.log = p.kernel.log ++ calls) (habout : About a calls)
    (helsewhere : Elsewhere a p p')
    (hfate : ∀ b, p.table.find? a = some b → b.enabled = true → Fate a b calls p'.table) :
    Reworks calls p p' := by
  refine ⟨hlog, habout.memory, fun x b hb henabled => ?_⟩
  by_cases hx : x = a
  · subst hx
    exact hfate b hb henabled
  · exact habout.stands hx ((helsewhere.find? x hx).trans hb) henabled

instance : StepRelation (Unuses : Patched (Logged κ) → Patched (Logged κ) → Prop) where
  refl p := ⟨⟨[], .refl p⟩, fun _ => id⟩
  trans {p q p'} h h' := by
    obtain ⟨calls, hcalls⟩ := h.reworks
    obtain ⟨more, hmore⟩ := h'.reworks
    refine ⟨⟨calls ++ more, ?_, ?_, fun a b hb henabled => ?_⟩, fun a ha => h'.absent a (h.absent a ha)⟩
    · rw [hmore.log, hcalls.log, List.append_assoc]
    · exact List.forall_mem_append.mpr ⟨hcalls.memory, hmore.memory⟩
    · cases hcalls.fate a b hb henabled with
      | removed hfind hpeek hpoke =>
        exact .removed (h'.absent a hfind) (List.mem_append_left _ hpeek) (List.mem_append_left _ hpoke)
      | stands hfind henabled' hsaved hpoke =>
        cases hmore.fate a _ hfind henabled' with
        | removed hfind' hpeek' hpoke' =>
          exact .removed hfind' (List.mem_append_right _ hpeek')
            (List.mem_append_right _ (hsaved ▸ hpoke'))
        | stands hfind' henabled'' hsaved' hpoke' =>
          refine .stands hfind' henabled'' (hsaved'.trans hsaved) fun tid word hmem => ?_
          exact (List.mem_append.mp hmem).elim (hpoke tid word) (hpoke' tid word)

namespace Patching

variable [Kernel κ] {p : Patched (Logged κ)} {a : UInt64}

theorem logged_call (c : SystemCall) (p : Patched (Logged κ)) :
    Ends (calls (call c)) p fun r p' =>
      p'.table = p.table ∧ p'.kernel.log = p.kernel.log ++ [⟨c, r⟩] :=
  ⟨rfl, rfl⟩

/-- A lift that fails, or finds no patch, pokes nothing. -/
theorem logged_disable (tid : Nat) (a : UInt64) (p : Patched (Logged κ)) :
    Ends (disable tid a) p fun r p' => ∃ new, p'.kernel.log = p.kernel.log ++ new ∧ About a new ∧
      ((p'.table = p.table ∧ (r = .ok () → p.table.isEnabledAt a = false) ∧
        ∀ tid word, (⟨.poke tid a word, .ok ()⟩ : Answered) ∉ new) ∨
      r = .ok () ∧ ∃ b word, p.table.find? a = some b ∧
        new = [⟨.peek tid a, .ok word⟩, ⟨.poke tid a (withLowByte word b.saved), .ok ()⟩]) := by
  rw [disable, ends_get_bind]
  split
  · rename_i hb
    refine ⟨[], (List.append_nil _).symm, List.forall_mem_nil _,
      Or.inl ⟨rfl, fun _ => ?_, fun _ _ => List.not_mem_nil⟩⟩
    rw [isEnabledAt, hb]
    rfl
  rename_i b hb
  split
  · rename_i hdisabled
    refine ⟨[], (List.append_nil _).symm, List.forall_mem_nil _,
      Or.inl ⟨rfl, fun _ => ?_, fun _ _ => List.not_mem_nil⟩⟩
    rw [isEnabledAt, hb]
    simpa using hdisabled
  refine (logged_call (.peek tid a) p).bind ?_ ?_
  · rintro word p₁ ⟨htable₁, hlog₁⟩
    refine (logged_call (.poke tid a (withLowByte word b.saved)) p₁).bind ?_ ?_
    · rintro ⟨⟩ p₂ ⟨htable₂, hlog₂⟩
      refine ⟨_, ?_, ?_, Or.inr ⟨rfl, b, word, hb, rfl⟩⟩
      · show p₂.kernel.log = _
        rw [hlog₂, hlog₁, List.append_assoc]
        rfl
      · exact List.forall_mem_cons.mpr ⟨⟨tid, Or.inl rfl⟩,
          List.forall_mem_singleton.mpr ⟨tid, Or.inr ⟨_, rfl⟩⟩⟩
    · rintro e p₂ ⟨htable₂, hlog₂⟩
      refine ⟨[⟨.peek tid a, .ok word⟩, ⟨.poke tid a (withLowByte word b.saved), .error e⟩], ?_, ?_,
        Or.inl ⟨htable₂.trans htable₁, (fun h => by cases h), ?_⟩⟩
      · rw [hlog₂, hlog₁, List.append_assoc]
        rfl
      · exact List.forall_mem_cons.mpr ⟨⟨tid, Or.inl rfl⟩,
          List.forall_mem_singleton.mpr ⟨tid, Or.inr ⟨_, rfl⟩⟩⟩
      · rintro u w hmem
        rcases List.mem_cons.mp hmem with h | h
        · cases h
        · cases List.mem_singleton.mp h
  · rintro e p₁ ⟨htable₁, hlog₁⟩
    refine ⟨_, hlog₁, List.forall_mem_singleton.mpr ⟨tid, Or.inl rfl⟩,
      Or.inl ⟨htable₁, (fun h => by cases h), ?_⟩⟩
    rintro u w hmem
    cases List.mem_singleton.mp hmem

theorem unuses_release (tid : Nat) (a : UInt64) {unset : Breakpoint → Breakpoint}
    (haddress : ∀ b, (unset b).address = b.address) (henabled : ∀ b, (unset b).enabled = b.enabled)
    (hsaved : ∀ b, (unset b).saved = b.saved) :
    Moves Unuses (release tid a unset : Patching (Logged κ) Unit) := by
  intro p
  have hself : Ends (release tid a unset) p fun _ p' => ∃ new,
      p'.kernel.log = p.kernel.log ++ new ∧ About a new ∧
      (∀ b, p.table.find? a = some b → b.enabled = true → Fate a b new p'.table) ∧
      (p.table.find? a = none → p'.table.find? a = none) := by
    have hfind : (p.table.modify a unset).find? a = (p.table.find? a).map unset :=
      find?_modify_self haddress p.table a
    rw [release, ends_modifyTable_bind, ends_get_bind]
    dsimp only
    rw [hfind]
    rcases hb : p.table.find? a with _ | b
    · rw [hb] at hfind
      exact ⟨[], (List.append_nil _).symm, List.forall_mem_nil _, (fun _ h => by cases h), fun _ => hfind⟩
    rw [hb] at hfind
    have hstands : ∀ {new : List Answered} {t : BreakpointTable}, t = p.table.modify a unset →
        (∀ tid word, (⟨.poke tid a word, .ok ()⟩ : Answered) ∉ new) →
        ∀ b', some b = some b' → b'.enabled = true → Fate a b' new t := by
      rintro new _ rfl hpoke _ ⟨⟩ hon
      exact .stands hfind ((henabled b).trans hon) (hsaved b) hpoke
    dsimp only [Option.map_some]
    split
    · refine (logged_disable tid a { p with table := p.table.modify a unset }).bind ?_ ?_
      · rintro _ p₂ ⟨new, hlog, habout, ⟨htable, hidle, hpoke⟩ | ⟨-, b', word, hb', rfl⟩⟩
        · refine ⟨new, hlog, habout, ?_, fun h => by cases h⟩
          rintro _ ⟨⟩ hon
          have hoff := hidle rfl
          rw [isEnabledAt, hfind] at hoff
          exact absurd (((henabled b).trans hon).symm.trans hoff) Bool.true_eq_false.mp
        · refine ⟨_, hlog, habout, ?_, fun h => by cases h⟩
          rintro _ ⟨⟩ -
          cases hfind.symm.trans hb'
          refine .removed ?_ List.mem_cons_self (List.mem_cons_of_mem _ ?_)
          · show (p₂.table.erase a).find? a = none
            rw [find?_erase, if_pos rfl]
          · rw [hsaved]
            exact List.mem_singleton.mpr rfl
      · rintro e p₂ ⟨new, hlog, habout, ⟨htable, -, hpoke⟩ | ⟨hok, -⟩⟩
        · exact ⟨new, hlog, habout, hstands htable hpoke, fun h => by cases h⟩
        · cases hok
    · exact ⟨[], (List.append_nil _).symm, List.forall_mem_nil _,
        hstands rfl fun _ _ => List.not_mem_nil, fun h => by cases h⟩
  refine ((elsewhere_release a tid haddress p).and hself).mono ?_
  rintro r p' ⟨helsewhere, new, hlog, habout, hfate, habsent⟩
  refine ⟨⟨new, .of_about hlog habout helsewhere hfate⟩, fun x hx => ?_⟩
  by_cases hat : x = a
  · subst hat
    exact habsent hx
  · exact (helsewhere.find? x hat).trans hx

theorem unuses_removeUser (tid id : Nat) :
    Moves Unuses (removeUser tid id : Patching (Logged κ) Bool) := by
  refine Moves.get.bind fun p => ?_
  split
  · exact Moves.pure _
  · exact Moves.bind (unuses_release tid _ (fun _ => rfl) (fun _ => rfl) fun _ => rfl)
      fun _ => Moves.pure _

theorem unuses_removeAllUser (tid : Nat) :
    Moves Unuses (removeAllUser tid : Patching (Logged κ) Unit) :=
  Moves.get.bind fun _ => Moves.forM fun _ _ =>
    unuses_release tid _ (fun _ => rfl) (fun _ => rfl) fun _ => rfl

theorem logged_enable (tid : Nat) (a : UInt64) (p : Patched (Logged κ)) :
    Ends (enable tid a) p fun _ p' => ∃ new, p'.kernel.log = p.kernel.log ++ new ∧ About a new ∧
      (p.table.isEnabledAt a = true → new = [] ∧ p'.table = p.table) := by
  rw [enable, ends_get_bind]
  split
  · exact ⟨[], (List.append_nil _).symm, List.forall_mem_nil _, fun _ => ⟨rfl, rfl⟩⟩
  rename_i b hb
  split
  · exact ⟨[], (List.append_nil _).symm, List.forall_mem_nil _, fun _ => ⟨rfl, rfl⟩⟩
  rename_i hdisabled
  have hnot : ∀ {q : Prop}, p.table.isEnabledAt a = true → q := by
    intro q hon
    rw [isEnabledAt, hb] at hon
    exact absurd hon hdisabled
  refine (logged_call (.peek tid a) p).bind ?_ ?_
  · rintro word p₁ ⟨-, hlog₁⟩
    rw [ends_modifyTable_bind]
    have hpoke : ∀ r (p₂ : Patched (Logged κ)),
        p₂.kernel.log = p₁.kernel.log ++ [⟨.poke tid a (withLowByte word Breakpoint.trapByte), r⟩] →
        ∃ new, p₂.kernel.log = p.kernel.log ++ new ∧ About a new ∧
          (p.table.isEnabledAt a = true → new = [] ∧ p₂.table = p.table) := by
      intro r p₂ hlog₂
      refine ⟨_, by rw [hlog₂, hlog₁, List.append_assoc], ?_, hnot⟩
      exact List.forall_mem_append.mpr ⟨List.forall_mem_singleton.mpr ⟨tid, Or.inl rfl⟩,
        List.forall_mem_singleton.mpr ⟨tid, Or.inr ⟨_, rfl⟩⟩⟩
    refine (logged_call (.poke tid a _) _).bind ?_ fun e p₂ h => hpoke _ p₂ h.2
    rintro _ p₂ ⟨-, hlog₂⟩
    rw [ends_modifyTable]
    exact hpoke _ _ hlog₂
  · rintro e p₁ ⟨-, hlog₁⟩
    exact ⟨_, hlog₁, List.forall_mem_singleton.mpr ⟨tid, Or.inl rfl⟩, hnot⟩

theorem reworks_addUser (tid : Nat) (a : UInt64) {p : Patched (Logged κ)} (hp : p.table.Sorted) :
    Ends (addUser tid a) p fun _ p' => ∃ calls, Reworks calls p p' := by
  have hself : Ends (addUser tid a) p fun _ p' => ∃ new,
      p'.kernel.log = p.kernel.log ++ new ∧ About a new ∧
      ∀ b, p.table.find? a = some b → b.enabled = true → Fate a b new p'.table := by
    rw [addUser, ends_modifyTable_bind]
    have hinsert : ∀ b, p.table.find? a = some b → (p.table.insert a).find? a = some b := by
      intro b hb
      rw [find?_insert_self hp, hb]
      rfl
    -- Where the trap instruction is in place, the entry may get an id and nothing else.
    have hfate : ∀ (new : List Answered) (p₁ : Patched (Logged κ)) (f : Breakpoint → Breakpoint),
        (∀ b, (f b).address = b.address ∧ (f b).enabled = b.enabled ∧ (f b).saved = b.saved) →
        ((p.table.insert a).isEnabledAt a = true → new = [] ∧ p₁.table = p.table.insert a) →
        ∀ b, p.table.find? a = some b → b.enabled = true →
          Fate a b new (p₁.table.modify a f) := by
      intro new p₁ f hf hsame b hb hon
      obtain ⟨rfl, htable⟩ := hsame (by rw [isEnabledAt, hinsert b hb]; exact hon)
      have hfind : (p₁.table.modify a f).find? a = some (f b) := by
        rw [htable, find?_modify_self fun b => (hf b).1, hinsert b hb]
        rfl
      exact .stands hfind ((hf b).2.1.trans hon) (hf b).2.2 fun _ _ => List.not_mem_nil
    refine (logged_enable tid a { p with table := p.table.insert a }).bind ?_ ?_
    · rintro _ p₁ ⟨new, hlog, habout, hsame⟩
      rw [ends_get_bind]
      dsimp only
      split
      · refine ⟨new, hlog, habout, ?_⟩
        have := hfate new p₁ id (fun _ => ⟨rfl, rfl, rfl⟩) hsame
        rwa [modify_id] at this
      · rw [ends_modifyTable_bind]
        refine ⟨new, hlog, habout, fun b hb hon => ?_⟩
        cases hfate new p₁ (fun b => { b with userId := some (p₁.table.lastId + 1) })
          (fun _ => ⟨rfl, rfl, rfl⟩) hsame b hb hon with
        | stands hfind henabled hsaved hpoke => exact .stands hfind henabled hsaved hpoke
        | removed hfind hpeek hpoke => exact .removed hfind hpeek hpoke
    · rintro e p₁ ⟨new, hlog, habout, hsame⟩
      refine ⟨new, hlog, habout, ?_⟩
      have := hfate new p₁ id (fun _ => ⟨rfl, rfl, rfl⟩) hsame
      rwa [modify_id] at this
  refine ((elsewhere_addUser a tid p).and hself).mono ?_
  rintro r p' ⟨helsewhere, new, hlog, habout, hfate⟩
  exact ⟨new, .of_about hlog habout helsewhere hfate⟩

end Patching

/-- Work on breakpoints changes nothing else. -/
structure Works (changes : List Answered) (s s' : System (Logged κ)) : Prop where
  reworks : Reworks changes (Tracing.breakpointsOf s) (Tracing.breakpointsOf s')
  tracer : s'.tracer = { s.tracer with breakpoints := s'.tracer.breakpoints }

/-! ### Going on -/

/-- A thread that goes on. -/
def Thread.freed (t : Thread) : Thread := { t with running := true, pendingSignal := none }

namespace Process

/-- The signal that is kept for a thread. -/
def signalFor (p : Process) (tid : Nat) : Option Signal := (p.thread? tid).bind (·.pendingSignal)

/-- A process of which a thread takes the signal that was kept for it. -/
def unsignal (p : Process) (tid : Nat) : Process :=
  p.modifyThread tid fun t => { t with pendingSignal := none }

/-- A process after one of its threads went on. -/
def letGo (p : Process) (tid : Nat) : Process := p.modifyThread tid Thread.freed

/-- A process after all its threads went on. -/
def afoot (p : Process) : Process := { p with threads := p.threads.map Thread.freed }

theorem modifyThread_modifyThread (p : Process) (tid : Nat) {f : Thread → Thread}
    (hf : ∀ t, (f t).tid = t.tid) (g : Thread → Thread) :
    (p.modifyThread tid f).modifyThread tid g = p.modifyThread tid fun t => g (f t) := by
  rw [modifyThread, modifyThread, modifyThread, List.map_map]
  congr 1
  refine List.map_congr_left fun t _ => ?_
  by_cases h : t.tid = tid
  · simp only [Function.comp, if_pos h, hf]
  · simp only [Function.comp, if_neg h]

theorem thread?_letGo_of_ne (p : Process) {tid u : Nat} (h : u ≠ tid) :
    (p.letGo tid).thread? u = p.thread? u := by
  rw [thread?, thread?, letGo, modifyThread]
  induction p.threads with
  | nil => rfl
  | cons t r ih =>
    rw [List.map_cons, List.find?_cons, List.find?_cons, ih]
    by_cases ht : t.tid = tid
    · have hne : (t.tid == u) = false := beq_false_of_ne fun heq => h (heq.symm.trans ht)
      have hfreed : (t.freed.tid == u) = false := hne
      rw [if_pos ht, hne, hfreed]
    · rw [if_neg ht]

theorem threadIds_letGo (p : Process) (tid : Nat) : (p.letGo tid).threadIds = p.threadIds := by
  rw [threadIds, threadIds, letGo, modifyThread, List.map_map]
  refine List.map_congr_left fun t _ => ?_
  by_cases h : t.tid = tid
  · simp [h, Thread.freed]
  · simp [h]

theorem isSome_thread? {p : Process} {tid : Nat} (h : tid ∈ p.threadIds) :
    (p.thread? tid).isSome = true := by
  obtain ⟨t, ht, rfl⟩ := List.mem_map.mp h
  exact List.find?_isSome.mpr ⟨t, ht, beq_self_eq_true _⟩

end Process

/-- Threads go on in turn, each with the signal that is kept for it. -/
inductive LetsGo : List Nat → Process → List Answered → Process → Prop
  | nil (p : Process) : LetsGo [] p [] p
  | cons {tid : Nat} {rest : List Nat} {p p' : Process} {new : List Answered}
      (h : LetsGo rest (p.letGo tid) new p') :
      LetsGo (tid :: rest) p (⟨.resume tid (p.signalFor tid), .ok ()⟩ :: new) p'

namespace LetsGo

variable {tids : List Nat} {p p' : Process} {new : List Answered}

theorem length (h : LetsGo tids p new p') : new.length = tids.length := by
  induction h with
  | nil => rfl
  | cons _ ih => exact congrArg (· + 1) ih

theorem resumed (h : LetsGo tids p new p') :
    ∀ tid ∈ tids, (⟨.resume tid (p.signalFor tid), .ok ()⟩ : Answered) ∈ new := by
  induction h with
  | nil => exact List.forall_mem_nil _
  | @cons tid rest p p' new h ih =>
    intro u hu
    by_cases heq : u = tid
    · rw [heq]
      exact List.mem_cons_self
    · have hmem := ih u ((List.mem_cons.mp hu).resolve_left heq)
      rw [Process.signalFor, Process.thread?_letGo_of_ne p heq] at hmem
      exact List.mem_cons_of_mem _ hmem

theorem threads (h : LetsGo tids p new p') :
    p' = { p with threads := p.threads.map fun t => if t.tid ∈ tids then t.freed else t } := by
  induction h with
  | nil p => simp
  | @cons tid rest p p' new h ih =>
    rw [ih, Process.letGo, Process.modifyThread]
    congr 1
    rw [List.map_map]
    refine List.map_congr_left fun t _ => ?_
    by_cases heq : t.tid = tid
    · by_cases hrest : tid ∈ rest
      · simp [heq, hrest, Thread.freed]
      · simp [heq, hrest, Thread.freed]
    · simp [heq]

theorem afoot (h : LetsGo p.threadIds p new p') : p' = p.afoot := by
  rw [h.threads, Process.afoot]
  congr 1
  refine List.map_congr_left fun t ht => ?_
  exact if_pos (List.mem_map_of_mem ht)

end LetsGo

namespace Tracing

variable {s : System (Logged κ)} {p : Process}

theorem ends_takeSignal (hp : s.tracer.process = some p) (tid : Nat) :
    Ends (takeSignal tid) s fun r t => r = .ok (p.signalFor tid) ∧ t.kernel = s.kernel ∧
      t.tracer = s.tracer.withProcess (p.unsignal tid) := by
  rw [takeSignal, ends_tracer_bind, hp]
  exact ⟨rfl, rfl, State.map_process hp (·.unsignal tid)⟩

theorem goes_takeSignal (hp : s.tracer.process = some p) (tid : Nat) :
    Ends (takeSignal tid) s (Goes s fun signal new p' =>
      signal = p.signalFor tid ∧ new = [] ∧ p' = p.unsignal tid) := by
  refine (ends_takeSignal hp tid).mono ?_
  rintro _ t ⟨rfl, hkernel, htracer⟩
  exact .done (by rw [hkernel, List.append_nil]) htracer ⟨rfl, rfl, rfl⟩

variable [Kernel κ]

theorem goes_continueThread (hp : s.tracer.process = some p) {tid : Nat}
    (hknown : (p.thread? tid).isSome = true) :
    Ends (continueThread tid) s (Goes s fun _ new p' =>
      new = [⟨.resume tid (p.signalFor tid), .ok ()⟩] ∧ p' = p.letGo tid) := by
  rw [continueThread, ends_tracer_bind, hp]
  dsimp only [Option.bind_some]
  rw [if_pos hknown]
  refine Goes.bind (goes_takeSignal hp tid) (fun signal => ?_) ?_
  · refine Moves.bind (moves_probe rfl) fun answer => ?_
    split
    · exact moves_changeProcess fun _ => rfl
    · exact Moves.pure _
    · exact Moves.throw _
  rintro _ _ _ t ⟨rfl, rfl, rfl⟩ ht
  refine Goes.bind (goes_attempt (by rw [ht]; rfl) rfl) (fun answer => ?_) ?_
  · split
    · exact moves_changeProcess fun _ => rfl
    · exact Moves.pure _
    · exact Moves.throw _
  rintro _ _ _ u ⟨_, rfl, rfl, rfl⟩ hu
  refine (goes_modifyThread (by rw [hu]; rfl) tid _).mono fun _ _ h => h.mono ?_
  rintro _ _ _ ⟨rfl, rfl⟩
  exact ⟨rfl, p.modifyThread_modifyThread tid (f := fun t => { t with pendingSignal := none })
    (fun _ => rfl) _⟩

theorem goes_continueThreads (tids : List Nat) : ∀ {s : System (Logged κ)} {p : Process},
    s.tracer.process = some p → (∀ tid ∈ tids, tid ∈ p.threadIds) →
    Ends (tids.forM continueThread) s (Goes s fun _ new p' => LetsGo tids p new p') := by
  induction tids with
  | nil => exact fun hp _ => goes_pure hp (.nil _)
  | cons tid rest ih =>
    intro s p hp hknown
    obtain ⟨htid, hrest⟩ := List.forall_mem_cons.mp hknown
    refine Goes.bind (goes_continueThread hp (Process.isSome_thread? htid))
      (fun _ => moves_continueThreads rest) ?_
    rintro _ _ _ t ⟨rfl, rfl⟩ ht
    refine (ih (by rw [ht]; rfl) fun u hu => ?_).mono fun _ _ h => h.mono fun _ _ _ h => .cons h
    rw [Process.threadIds_letGo]
    exact hrest u hu

end Tracing

/-! ### Changes -/

/-- A change of the breakpoints of a process that nobody notices but those who look at the breakpoints:
what is published stays as it is. -/
inductive Unnoticed {α : Type} [Kernel κ] (work : Nat → Tracing (Logged κ) α) (s : System (Logged κ))
    (p : Process) (r : Except DebugError α) (s' : System (Logged κ)) : Prop
  /-- A running process is stopped for the work, and each of its threads goes on after it, with the signal
  that was kept for it. -/
  | running {tid : Nat} {stops changes runs : List Answered} {p₁ : Process} {s₁ s₂ : System (Logged κ)}
      (hrunning : p.isRunning = true)
      (hstops : StopsThreads s.tracer.breakpoints p.runningThreads p stops p₁)
      (hhalted : p₁.isRunning = false)
      (hs₁ : s₁.tracer = s.tracer.withProcess p₁)
      (hwork : Ends (work tid) s₁ fun r' u => r' = r ∧ u = s₂)
      (hworks : Works changes s₁ s₂)
      (hlength : runs.length = p₁.threadIds.length)
      (hruns : ∀ u ∈ p₁.threadIds, (⟨.resume u (p₁.signalFor u), .ok ()⟩ : Answered) ∈ runs)
      (hlog : s'.kernel.log = s.kernel.log ++ (stops ++ (changes ++ runs)))
      (htracer : s'.tracer = { s.tracer with
        process := some p₁.afoot, breakpoints := s₂.tracer.breakpoints }) : Unnoticed work s p r s'
  /-- A stopped process stays as it is. -/
  | halted {tid : Nat} {changes : List Answered}
      (hhalted : p.isRunning = false)
      (hwork : Ends (work tid) s fun r' u => r' = r ∧ u = s')
      (hworks : Works changes s s') : Unnoticed work s p r s'

/-- A halted process with a main thread has a thread through which its memory is accessed. -/
theorem Process.exists_memoryThread {p : Process} (hhalted : p.isRunning = false)
    (hmain : p.hasThread p.pid = true) : ∃ tid, p.memoryThread? = some tid := by
  obtain ⟨t, ht, htid⟩ := List.any_eq_true.mp hmain
  have hstopped : t.running = false := eq_false_of_ne_true (List.any_eq_false.mp hhalted t ht)
  rw [memoryThread?]
  rcases hfind : p.threads.find? fun t => t.tid == p.pid && !t.running with _ | u
  · have hnone := List.find?_eq_none.mp hfind t ht
    rw [htid, hstopped] at hnone
    exact absurd rfl hnone
  · refine ⟨u.tid, ?_⟩
    rw [hfind]

namespace Tracing

variable [Kernel κ] [Kernel.Lawful κ] {α : Type} {work : Nat → Tracing (Logged κ) α}
  {s : System (Logged κ)} {p : Process}

omit [Kernel.Lawful κ] in
/-- After the work, the threads of a process that ran go on. -/
theorem unnoticed_goOn {tid : Nat} {stops changes : List Answered} {p₁ : Process}
    {s₁ s₂ : System (Logged κ)} {result : Except DebugError α} (hrunning : p.isRunning = true)
    (hstops : StopsThreads s.tracer.breakpoints p.runningThreads p stops p₁)
    (hhalted : p₁.isRunning = false) (hlog₁ : s₁.kernel.log = s.kernel.log ++ stops)
    (hs₁ : s₁.tracer = s.tracer.withProcess p₁)
    (hwork : Ends (work tid) s₁ fun r u => r = result ∧ u = s₂) (hworks : Works changes s₁ s₂) :
    Ends (goOn true >>= fun _ => ofOutcome result) s₂ fun r s' =>
      Fares s s' → Unnoticed work s p r s' := by
  have hlog₂ : s₂.kernel.log = s₁.kernel.log ++ changes := hworks.reworks.log
  have hp₂ : s₂.tracer.process = some p₁ := by
    rw [hworks.tracer, hs₁]
    rfl
  have hpre : s.kernel.log <+: s₂.kernel.log := by
    rw [hlog₂, hlog₁, List.append_assoc]
    exact List.prefix_append _ _
  have hdone : ∀ {r : Except DebugError Unit} {s' : System (Logged κ)},
      Goes s₂ (fun _ new p' => LetsGo p₁.threadIds p₁ new p') r s' ∧ Lengthens s₂ s' → Fares s s' →
      r = .ok () ∧ Unnoticed work s p result s' := by
    rintro r s' ⟨hgoes, hlengthens⟩ hfares
    obtain ⟨_, runs, p', rfl, hlog', hs', hruns⟩ :=
      hgoes.done_of_fares (StepRelation.refl s') (hfares.after hpre hlengthens.log)
    refine ⟨rfl, .running hrunning hstops hhalted hs₁ hwork hworks hruns.length hruns.resumed ?_ ?_⟩
    · rw [hlog', hlog₂, hlog₁, List.append_assoc, List.append_assoc]
    · rw [hs', hruns.afoot, hworks.tracer, hs₁]
      rfl
  rw [goOn, if_pos rfl, bind_assoc, ends_process_bind hp₂]
  refine ((goes_continueThreads p₁.threadIds hp₂ fun _ h => h).and
    (moves_continueThreads (R := Lengthens) p₁.threadIds s₂)).bind ?_ ?_
  · exact fun _ s' h hfares => (hdone h hfares).2
  · intro e s' h hfares
    cases (hdone h hfares).1

theorem unnoticed_withAllStopped (hp : s.tracer.process = some p)
    (hlengthens : ∀ tid, Moves Lengthens (work tid))
    (hworks : ∀ tid (s₁ : System (Logged κ)), s₁.tracer.breakpoints = s.tracer.breakpoints →
      Ends (work tid) s₁ fun _ s₂ => ∃ changes, Works changes s₁ s₂) :
    Ends (withAllStopped work) s fun r s' => Fares s s' → Unnoticed work s p r s' := by
  cases hrunning : p.isRunning with
  | false =>
    rw [ends_withAllStopped_halted hp hrunning, memoryThread, bind_assoc, ends_process_bind hp]
    split
    · rename_i tid _
      rw [pure_bind]
      have hself : Ends (work tid) s fun r s' => Ends (work tid) s fun r' u => r' = r ∧ u = s' :=
        ⟨rfl, rfl⟩
      refine (hself.and (hworks tid s rfl)).mono ?_
      rintro r s' ⟨hwork, changes, hchanges⟩ -
      exact .halted hrunning hwork hchanges
    · rename_i hnone
      intro hfares
      obtain ⟨p', hp', hmain⟩ := hfares.survives
      cases hp.symm.trans hp'
      obtain ⟨tid, htid⟩ := Process.exists_memoryThread hrunning hmain
      cases hnone.symm.trans htid
  | true =>
    have hrest : ∀ tid, Moves Lengthens (do
        let result ← outcome (work tid)
        goOn true
        ofOutcome result : Tracing (Logged κ) α) := fun tid =>
      (moves_outcome (hlengthens tid)).bind fun result => (moves_goOn true).bind fun _ =>
        moves_ofOutcome result
    have hafter : Moves Lengthens (do
        let tid ← memoryThread
        let result ← outcome (work tid)
        goOn true
        ofOutcome result : Tracing (Logged κ) α) := moves_memoryThread.bind hrest
    rw [ends_withAllStopped hp, access, bind_assoc, ends_process_bind hp, hrunning, if_pos rfl,
      bind_assoc]
    refine ((goes_stopAll hp).and (halted_stopAll s)).bind ?_ ?_
    · rintro _ t ⟨hgoes, -, hhalt⟩
      by_cases hdone : ∃ stops p₁, t.kernel.log = s.kernel.log ++ stops ∧
          t.tracer = s.tracer.withProcess p₁ ∧
          StopsThreads s.tracer.breakpoints p.runningThreads p stops p₁
      · obtain ⟨stops, p₁, hlog, ht, hstops⟩ := hdone
        have hp₁ : t.tracer.process = some p₁ := by rw [ht]; rfl
        have hhalted : p₁.isRunning = false := hhalt rfl p₁ hp₁
        rw [memoryThread, bind_assoc, ends_process_bind hp₁]
        split
        · rename_i tid _
          rw [pure_bind, ends_outcome_bind]
          have hself : Ends (work tid) t fun r s' => Ends (work tid) t fun r' u => r' = r ∧ u = s' :=
            ⟨rfl, rfl⟩
          refine (hself.and (hworks tid t (by rw [ht]; rfl))).mono ?_
          rintro result s₂ ⟨hwork, changes, hchanges⟩
          exact unnoticed_goOn hrunning hstops hhalted hlog ht hwork hchanges
        · rename_i hnone
          intro hfares
          obtain ⟨p', hp', hmain⟩ := hfares.survives
          cases hp₁.symm.trans hp'
          obtain ⟨tid, htid⟩ := Process.exists_memoryThread hhalted hmain
          cases hnone.symm.trans htid
      · refine (hafter t).mono fun r s' hts hfares => ?_
        obtain ⟨_, stops, p₁, -, hlog, ht, hstops⟩ := hgoes.done_of_fares hts hfares
        exact absurd ⟨stops, p₁, hlog, ht, hstops⟩ hdone
    · rintro e t ⟨hgoes, -⟩ hfares
      obtain ⟨_, _, _, hr, -⟩ := hgoes.done_of_fares (StepRelation.refl t) hfares
      cases hr

/-! ### Requests -/

omit [Kernel κ] [Kernel.Lawful κ] in
theorem works_patching (error : OsError → DebugError) {m : Patching (Logged κ) α}
    (h : Ends m (breakpointsOf s) fun _ t => ∃ calls, Reworks calls (breakpointsOf s) t) :
    Ends (patching error m) s fun _ s' => ∃ changes, Works changes s s' := by
  rw [ends_patching]
  refine h.mono ?_
  rintro r t ⟨calls, hcalls⟩
  exact ⟨calls, hcalls, rfl⟩

/-- The work of setting a breakpoint. -/
def settingWork (a : UInt64) (tid : Nat) : Tracing (Logged κ) BreakpointInfo :=
  patching (fun _ => .memoryAccess a) (Patching.addUser tid a)

/-- The work of removing a breakpoint. -/
def removingWork (id tid : Nat) : Tracing (Logged κ) Unit := do
  if !(← patching .ptrace (Patching.removeUser tid id)) then throw (.breakpointNotFound id)

/-- The work of removing all breakpoints. -/
def clearingWork (tid : Nat) : Tracing (Logged κ) Unit :=
  patching .ptrace (Patching.removeAllUser tid)

/-- Changes of breakpoints are not noticed, whether the process runs or not and whether they succeed or
fail, as long as the process can be stopped and let go on and survives. -/
theorem changes_unnoticed (hp : s.tracer.process = some p) (hs : s.tracer.breakpoints.Sorted)
    (a : UInt64) (id : Nat) :
    (Ends (setBreakpoint a) s fun r s' => Fares s s' → Unnoticed (settingWork a) s p r s') ∧
    (Ends (removeBreakpoint id) s fun r s' => Fares s s' → Unnoticed (removingWork id) s p r s') ∧
    (Ends removeAllBreakpoints s fun r s' => Fares s s' → Unnoticed clearingWork s p r s') := by
  refine ⟨?_, ?_, ?_⟩
  · refine unnoticed_withAllStopped hp (fun tid => moves_work _ (.addUser tid a)) ?_
    intro tid s₁ hs₁
    exact works_patching _ (Patching.reworks_addUser tid a (by rw [← hs₁] at hs; exact hs))
  · refine unnoticed_withAllStopped hp (fun tid => ?_) fun tid s₁ _ => ?_
    · refine (moves_work _ (.removeUser tid id)).bind fun removed => ?_
      split
      · exact Moves.throw _
      · exact Moves.pure _
    · refine (works_patching _ ((Patching.unuses_removeUser tid id _).mono
        fun _ _ h => h.reworks)).bind ?_ fun _ _ h => h
      intro removed s₂ h
      split
      · exact h
      · exact h
  · refine unnoticed_withAllStopped hp (fun tid => moves_work _ (.removeAllUser tid)) ?_
    intro tid s₁ _
    exact works_patching _ ((Patching.unuses_removeAllUser tid _).mono fun _ _ h => h.reworks)

end Tracing

/-- A process of two threads that run, with a breakpoint that one of them has just met. -/
def crossing : System (Logged Stage) :=
  let process : Process :=
    ⟨1, true, none, [⟨1, true, some .usr1, 0⟩, ⟨2, true, none, 0⟩], none, false, none⟩
  let stage : Stage := { Stage.bare [.stopped 1 .stop, .stopped 2 .trap] [] with
    registers := fun _ => .set .zero .rip 0x1001 }
  ⟨⟨stage, []⟩, { State.new none with
    breakpoints := ⟨[⟨0x1000, 0x90, true, some 1, false⟩], 1⟩, process := some process }⟩

/-- A breakpoint that is set meanwhile goes unnoticed. -/
theorem change_unnoticed_crossing : ∃ p, crossing.tracer.process = some p ∧
    crossing.tracer.breakpoints.Sorted ∧
    Ends (Tracing.setBreakpoint 0x2000) crossing fun r s' =>
      Fares crossing s' ∧ Unnoticed (Tracing.settingWork 0x2000) crossing p r s' := by
  have hsorted : crossing.tracer.breakpoints.Sorted := List.pairwise_singleton _ _
  have hsurvives : Ends (Tracing.setBreakpoint 0x2000) crossing fun _ s' =>
      s'.tracer.process.any (fun p => p.hasThread p.pid) = true := by
    rw [Ends]
    decide +kernel
  have hsmooth : Ends (Tracing.setBreakpoint 0x2000) crossing fun _ s' =>
      ∀ x ∈ s'.kernel.log, x.Smooth := by
    rw [Ends]
    decide +kernel
  have hfares : Ends (Tracing.setBreakpoint 0x2000) crossing fun _ s' => Fares crossing s' := by
    refine (hsurvives.and hsmooth).mono fun _ s' h => ⟨?_, s'.kernel.log, (List.nil_append _).symm, h.2⟩
    rcases hp : s'.tracer.process with _ | p
    · cases hp ▸ h.1
    · exact ⟨p, rfl, by simpa [hp] using h.1⟩
  refine ⟨_, rfl, hsorted, ?_⟩
  refine (hfares.and (Tracing.changes_unnoticed (s := crossing) rfl hsorted 0x2000 1).1).mono ?_
  exact fun r s' h => ⟨h.1, h.2 h.1⟩

end DebugAdapter.Tracer
