import DebugAdapter.Proofs.BreakpointIds

/-!
# Relations that work on breakpoints moves along

Work on breakpoints reads and writes words of memory and changes the table one entry at a time. A
`PatchRelation` bears these steps. An `EntryRelation` bears a trap to be put in place as a whole, and of
the other changes of the table only those that leave the saved bytes as they are. Either way it bears all
work on breakpoints that a tracer does.
-/

namespace DebugAdapter.Tracer

open Linux
open Operation

/-- A table changes by one entry, or loses all of them. -/
inductive BreakpointTable.Changes : BreakpointTable → BreakpointTable → Prop
  | insert (t : BreakpointTable) (a : UInt64) : Changes t (t.insert a)
  /-- The entry keeps its id or loses it. -/
  | modify (t : BreakpointTable) (a : UInt64) {f : Breakpoint → Breakpoint}
      (haddress : ∀ b, (f b).address = b.address)
      (hid : ∀ b id, (f b).userId = some id → b.userId = some id) : Changes t (t.modify a f)
  | assign (t : BreakpointTable) (a : UInt64) : Changes t (t.assign a)
  | erase (t : BreakpointTable) (a : UInt64) : Changes t (t.erase a)
  | clear (t : BreakpointTable) : Changes t { t with entries := [] }

/-- A table changes by one entry, or loses all of them, and no trap is put in place. -/
inductive BreakpointTable.Eases : BreakpointTable → BreakpointTable → Prop
  | insert (t : BreakpointTable) (a : UInt64) : Eases t (t.insert a)
  /-- The entry keeps its saved byte, and its id and its trap unless it loses them. -/
  | modify (t : BreakpointTable) (a : UInt64) {f : Breakpoint → Breakpoint}
      (haddress : ∀ b, (f b).address = b.address)
      (hid : ∀ b id, (f b).userId = some id → b.userId = some id)
      (hsaved : ∀ b, (f b).saved = b.saved)
      (henabled : ∀ b, (f b).enabled = true → b.enabled = true) : Eases t (t.modify a f)
  | assign (t : BreakpointTable) (a : UInt64) : Eases t (t.assign a)
  | erase (t : BreakpointTable) (a : UInt64) : Eases t (t.erase a)
  | clear (t : BreakpointTable) : Eases t { t with entries := [] }

theorem BreakpointTable.Eases.changes {t t' : BreakpointTable} (h : t.Eases t') : t.Changes t' := by
  cases h with
  | insert a => exact .insert t a
  | modify a haddress hid => exact .modify t a haddress hid
  | assign a => exact .assign t a
  | erase a => exact .erase t a
  | clear => exact .clear t

/-- A relation that bears words to be read and written. -/
class MemoryRelation {κ : Type} [Kernel κ] (P : Patched κ → Patched κ → Prop) : Prop extends
    StepRelation P where
  peek : ∀ (tid : Nat) (a : UInt64) (p : Patched κ),
    P p { p with kernel := (Kernel.perform (.peek tid a) p.kernel).2 }
  poke : ∀ (tid : Nat) (a word : UInt64) (p : Patched κ),
    P p { p with kernel := (Kernel.perform (.poke tid a word) p.kernel).2 }

/-- A relation that bears single steps of work on breakpoints. -/
class PatchRelation {κ : Type} [Kernel κ] (P : Patched κ → Patched κ → Prop) : Prop extends
    MemoryRelation P where
  table : ∀ (p : Patched κ) (t : BreakpointTable), p.table.Changes t → P p { p with table := t }

/-- A relation that bears work on breakpoints with the putting in place of a trap as a whole. -/
class EntryRelation {κ : Type} [Kernel κ] (P : Patched κ → Patched κ → Prop) : Prop extends
    MemoryRelation P where
  ease : ∀ (p : Patched κ) (t : BreakpointTable), p.table.Eases t → P p { p with table := t }
  enable : ∀ (tid : Nat) (a : UInt64), Moves P (Patching.enable tid a : Patching κ Unit)

namespace Patching

variable {κ : Type} [Kernel κ] {P : Patched κ → Patched κ → Prop}

section Memory

variable [MemoryRelation P]

/-! ### Memory -/

/-- A relation between kernels with a table. -/
def OnKernels (P : Patched κ → Patched κ → Prop) (k k' : κ) : Prop :=
  ∀ t : BreakpointTable, P ⟨k, t⟩ ⟨k', t⟩

instance : StepRelation (OnKernels P) where
  refl k t := StepRelation.refl (⟨k, t⟩ : Patched κ)
  trans h h' t := StepRelation.trans (h t) (h' t)

theorem moves_peekWord (tid : Nat) (a : UInt64) :
    Moves (OnKernels P) (call (.peek tid a) : Calls κ UInt64) :=
  fun k t => MemoryRelation.peek tid a ⟨k, t⟩

theorem moves_pokeWord (tid : Nat) (a word : UInt64) :
    Moves (OnKernels P) (call (.poke tid a word) : Calls κ Unit) :=
  fun k t => MemoryRelation.poke tid a word ⟨k, t⟩

theorem moves_writeWords (tid : Nat) (fuel : Nat) : ∀ (a : UInt64) (data : Bytes),
    Moves (OnKernels P) (Memory.writeWords tid fuel a data : Calls κ Unit) := by
  induction fuel with
  | zero => exact fun a data => Moves.pure _
  | succ fuel ih =>
    intro a data
    cases data with
    | nil => exact Moves.pure _
    | cons b r =>
      have hrest : ∀ word, Moves (OnKernels P) (do
          call (.poke tid a word)
          Memory.writeWords tid fuel (a + 8) ((b :: r).drop Memory.wordLength) : Calls κ Unit) :=
        fun word => (moves_pokeWord tid a word).bind fun _ => ih _ _
      rw [Memory.writeWords]
      · dsimp only
        split
        · exact Moves.bind (Moves.pure _) hrest
        · exact (moves_peekWord tid a).bind fun old => Moves.bind (Moves.pure _) hrest
      · rintro ⟨⟩

theorem moves_writeBytes (tid : Nat) (a : UInt64) (data : Bytes) :
    Moves (OnKernels P) (Memory.write tid a data : Calls κ Nat) :=
  (moves_writeWords tid _ a data).bind fun _ => Moves.pure _

omit [Kernel κ] [MemoryRelation P] in
theorem moves_calls {α : Type} {c : Calls κ α} (h : Moves (OnKernels P) c) : Moves P (calls c) :=
  fun p => h p.kernel p.table

end Memory

/-! ### Entries -/

instance [PatchRelation P] : EntryRelation P where
  ease p t h := PatchRelation.table p t h.changes
  enable tid a := by
    have hmodify : ∀ {f : Breakpoint → Breakpoint}, (∀ b, (f b).address = b.address) →
        (∀ b, (f b).userId = b.userId) → Moves P (modifyTable (·.modify a f) : Patching κ Unit) :=
      fun hf hid => Moves.modify fun p =>
        PatchRelation.table p _ (.modify p.table a hf fun b _ h => (hid b).symm.trans h)
    refine Moves.get.bind fun p => ?_
    split
    · exact Moves.pure _
    · split
      · exact Moves.pure _
      · refine Moves.bind (moves_calls (moves_peekWord tid a)) fun word => ?_
        refine Moves.bind (hmodify (fun _ => rfl) fun _ => rfl) fun _ => ?_
        refine Moves.bind (moves_calls (moves_pokeWord tid a _)) fun _ => ?_
        exact hmodify (fun _ => rfl) fun _ => rfl

variable [EntryRelation P]

theorem moves_changeTable {f : BreakpointTable → BreakpointTable}
    (h : ∀ t : BreakpointTable, t.Eases (f t)) : Moves P (modifyTable f : Patching κ Unit) :=
  Moves.modify fun p => EntryRelation.ease p _ (h p.table)

theorem moves_enable (tid : Nat) (a : UInt64) : Moves P (enable tid a : Patching κ Unit) :=
  EntryRelation.enable tid a

theorem moves_disable (tid : Nat) (a : UInt64) : Moves P (disable tid a : Patching κ Unit) := by
  refine Moves.get.bind fun p => ?_
  split
  · exact Moves.pure _
  · split
    · exact Moves.pure _
    · refine Moves.bind (moves_calls (moves_peekWord tid a)) fun word => ?_
      refine Moves.bind (moves_calls (moves_pokeWord tid a _)) fun _ => ?_
      exact moves_changeTable fun t => .modify t a (fun _ => rfl) (fun _ _ => id) (fun _ => rfl) nofun

theorem moves_release (tid : Nat) (a : UInt64) {unset : Breakpoint → Breakpoint}
    (hf : ∀ b, (unset b).address = b.address)
    (hid : ∀ b id, (unset b).userId = some id → b.userId = some id)
    (hsaved : ∀ b, (unset b).saved = b.saved) (henabled : ∀ b, (unset b).enabled = b.enabled) :
    Moves P (release tid a unset : Patching κ Unit) := by
  refine (moves_changeTable fun t =>
    .modify t a hf hid hsaved fun b => (henabled b).symm.trans).bind fun _ => ?_
  refine Moves.get.bind fun p => ?_
  split
  · exact Moves.pure _
  · split
    · exact (moves_disable tid a).bind fun _ => moves_changeTable fun t => .erase t a
    · exact Moves.pure _

theorem moves_removePlanned (tid : Nat) (a : UInt64) :
    Moves P (removePlanned tid a : Patching κ Unit) :=
  moves_release tid a (fun _ => rfl) (fun _ _ => id) (fun _ => rfl) fun _ => rfl

theorem moves_addPlanned (tid : Nat) (a : UInt64) :
    Moves P (addPlanned tid a : Patching κ Unit) := by
  have hinsert : Moves P (modifyTable (·.insert a) : Patching κ Unit) :=
    moves_changeTable fun t => .insert t a
  refine hinsert.bind fun _ => ?_
  have hplan : Moves P (modifyTable (·.modify a fun b => { b with planned := true }) :
      Patching κ Unit) :=
    moves_changeTable fun t => .modify t a (fun _ => rfl) (fun _ _ => id) (fun _ => rfl) fun _ => id
  exact hplan.bind fun _ => moves_enable tid a

theorem moves_releaseUser (tid : Nat) (a : UInt64) :
    Moves P (release tid a fun b => { b with userId := none } : Patching κ Unit) :=
  moves_release tid a (fun _ => rfl) nofun (fun _ => rfl) fun _ => rfl

theorem moves_removeUser (tid id : Nat) : Moves P (removeUser tid id : Patching κ Bool) := by
  refine Moves.get.bind fun p => ?_
  split
  · exact Moves.pure _
  · exact (moves_releaseUser tid _).bind fun _ => Moves.pure _

theorem moves_removeAllUser (tid : Nat) : Moves P (removeAllUser tid : Patching κ Unit) :=
  Moves.get.bind fun _ => Moves.forM fun a _ => moves_releaseUser tid a

theorem moves_disableAll (tid : Nat) : Moves P (disableAll tid : Patching κ Unit) := by
  refine Moves.get.bind fun p => ?_
  refine (Moves.forM fun a _ => moves_disable tid a).bind fun _ => ?_
  exact moves_changeTable fun t => .clear t

theorem moves_rewrite (tid : Nat) (a : UInt64) (data : Bytes) :
    Moves P (rewrite tid a data : Patching κ Nat) := by
  refine Moves.get.bind fun p => ?_
  refine (Moves.forM fun x _ => moves_disable tid x).bind fun _ => ?_
  refine Moves.bind (moves_calls (moves_writeBytes tid a data)) fun written => ?_
  exact (Moves.forM fun x _ => moves_enable tid x).bind fun _ => Moves.pure _

theorem moves_addUser (tid : Nat) (a : UInt64) :
    Moves P (addUser tid a : Patching κ Debuggee.BreakpointInfo) := by
  refine (moves_changeTable fun t => .insert t a).bind fun _ => ?_
  refine (moves_enable tid a).bind fun _ => ?_
  intro p
  rw [ends_get_bind]
  dsimp only
  split
  · exact StepRelation.refl p
  · exact EntryRelation.ease p _ (.assign p.table a)

theorem Requested.moves {α : Type} {m : Patching κ α} (h : m.Requested) : Moves P m := by
  cases h with
  | addUser tid a => exact moves_addUser tid a
  | removeUser tid id => exact moves_removeUser tid id
  | removeAllUser tid => exact moves_removeAllUser tid
  | addPlanned tid a => exact moves_addPlanned tid a
  | disableAll tid => exact moves_disableAll tid
  | rewrite tid a data => exact moves_rewrite tid a data

end Patching

end DebugAdapter.Tracer
