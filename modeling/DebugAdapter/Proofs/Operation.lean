/-!
# Reasoning about operations

Sessions, tracers and breakpoint tables all work by operations on a state that give a result or fail,
and that keep what they changed when they fail. This module holds the two ways in which the theory
speaks of them:

* `Ends m s Q`: from the state `s`, the operation `m` ends with an outcome and a state that satisfy
  `Q`. The rules below take a `do` block apart step by step, and `Ends.mono` puts the specification
  of a function in the place of its body, so no proof unfolds a function twice.
* `Moves R m`: from every state, `m` moves along the relation `R`, whatever its outcome. For a
  reflexive and transitive `R` this is closed under everything an operation is built from, which
  makes it the way to say what an operation leaves alone.
-/

namespace DebugAdapter

/-- An operation on a state, up to the first failure. -/
abbrev Operation (ε σ α : Type) := ExceptT ε (StateM σ) α

namespace Operation

variable {ε σ α β : Type}

/-- From a state, an operation ends with an outcome and a state that satisfy `Q`. -/
def Ends (m : Operation ε σ α) (s : σ) (Q : Except ε α → σ → Prop) : Prop :=
  Q (m.run.run s).1 (m.run.run s).2

/-- A specification serves wherever a weaker one is asked for. -/
theorem Ends.mono {m : Operation ε σ α} {s : σ} {P Q : Except ε α → σ → Prop} (h : Ends m s P)
    (hPQ : ∀ r s', P r s' → Q r s') : Ends m s Q :=
  hPQ _ _ h

theorem ends_congr {m : Operation ε σ α} {s : σ} {P Q : Except ε α → σ → Prop}
    (h : ∀ r s', P r s' ↔ Q r s') : Ends m s P ↔ Ends m s Q :=
  h _ _

theorem Ends.and {m : Operation ε σ α} {s : σ} {P Q : Except ε α → σ → Prop} (hP : Ends m s P)
    (hQ : Ends m s Q) : Ends m s fun r s' => P r s' ∧ Q r s' :=
  ⟨hP, hQ⟩

/-- What is known of the state before an operation may be a condition on what it does. -/
theorem Ends.imp {m : Operation ε σ α} {s : σ} {p : Prop} {Q : Except ε α → σ → Prop}
    (h : p → Ends m s Q) : Ends m s fun r s' => p → Q r s' :=
  h

/-! ### Rules for each construct -/

@[simp] theorem ends_pure (a : α) (s : σ) (Q : Except ε α → σ → Prop) :
    Ends (pure a) s Q ↔ Q (.ok a) s := Iff.rfl

@[simp] theorem ends_throw (e : ε) (s : σ) (Q : Except ε α → σ → Prop) :
    Ends (throw e) s Q ↔ Q (.error e) s := Iff.rfl

@[simp] theorem ends_get (s : σ) (Q : Except ε σ → σ → Prop) :
    Ends get s Q ↔ Q (.ok s) s := Iff.rfl

@[simp] theorem ends_set (s s' : σ) (Q : Except ε PUnit → σ → Prop) :
    Ends (set s') s Q ↔ Q (.ok ⟨⟩) s' := Iff.rfl

@[simp] theorem ends_modify (f : σ → σ) (s : σ) (Q : Except ε PUnit → σ → Prop) :
    Ends (modify f) s Q ↔ Q (.ok ⟨⟩) (f s) := Iff.rfl

/-- What a sequence does: its second part runs from where the first part succeeded, and a failure of
the first part is the failure of the whole. -/
theorem ends_bind (m : Operation ε σ α) (f : α → Operation ε σ β) (s : σ)
    (Q : Except ε β → σ → Prop) :
    Ends (m >>= f) s Q ↔ Ends m s fun r s' =>
      match r with
      | .ok a => Ends (f a) s' Q
      | .error e => Q (.error e) s' := by
  have hrun : (m >>= f).run.run s = match m.run.run s with
      | (.ok a, s') => (f a).run.run s'
      | (.error e, s') => (.error e, s') := by
    show (ExceptT.bindCont f (m.run.run s).1).run (m.run.run s).2 = _
    rcases m.run.run s with ⟨_ | _, _⟩ <;> rfl
  rw [Ends, Ends, hrun]
  rcases m.run.run s with ⟨_ | _, _⟩ <;> exact Iff.rfl

/-- What the handling of a failure does: it goes on from the state that the failure left. -/
theorem ends_tryCatch (m : Operation ε σ α) (f : ε → Operation ε σ α) (s : σ)
    (Q : Except ε α → σ → Prop) :
    Ends (tryCatch m f) s Q ↔ Ends m s fun r s' =>
      match r with
      | .ok a => Q (.ok a) s'
      | .error e => Ends (f e) s' Q := by
  have hrun : (tryCatch m f).run.run s = match m.run.run s with
      | (.ok a, s') => (.ok a, s')
      | (.error e, s') => (f e).run.run s' := by
    show (match (m.run.run s).1 with
      | .ok a => (pure (.ok a) : StateM σ (Except ε α))
      | .error e => (f e).run) (m.run.run s).2 = _
    rcases m.run.run s with ⟨_ | _, _⟩ <;> rfl
  rw [Ends, Ends, hrun]
  rcases m.run.run s with ⟨_ | _, _⟩ <;> exact Iff.rfl

theorem ends_map (m : Operation ε σ α) (f : α → β) (s : σ) (Q : Except ε β → σ → Prop) :
    Ends (f <$> m) s Q ↔ Ends m s fun r s' => Q (r.map f) s' := by
  have hrun : (f <$> m).run.run s = ((m.run.run s).1.map f, (m.run.run s).2) := by
    show (match (m.run.run s).1 with
      | .ok a => (pure (.ok (f a)) : StateM σ (Except ε β))
      | .error e => pure (.error e)) (m.run.run s).2 = _
    rcases m.run.run s with ⟨_ | _, _⟩ <;> rfl
  rw [Ends, Ends, hrun]

@[simp] theorem ends_get_bind (f : σ → Operation ε σ β) (s : σ) (Q : Except ε β → σ → Prop) :
    Ends (get >>= f) s Q ↔ Ends (f s) s Q :=
  ends_bind get f s Q

@[simp] theorem ends_modify_bind (g : σ → σ) (f : PUnit → Operation ε σ β) (s : σ)
    (Q : Except ε β → σ → Prop) : Ends (modify g >>= f) s Q ↔ Ends (f ⟨⟩) (g s) Q :=
  ends_bind (modify g) f s Q

/-- The rule of sequences in the direction of proofs. -/
theorem Ends.bind {m : Operation ε σ α} {f : α → Operation ε σ β} {s : σ}
    {P : Except ε α → σ → Prop} {Q : Except ε β → σ → Prop} (h : Ends m s P)
    (hok : ∀ a s', P (.ok a) s' → Ends (f a) s' Q)
    (herr : ∀ e s', P (.error e) s' → Q (.error e) s') : Ends (m >>= f) s Q := by
  rw [ends_bind]
  refine h.mono ?_
  intro r s' hr
  cases r with
  | ok a => exact hok a s' hr
  | error e => exact herr e s' hr

/-- An operation that cannot fail, followed by another. -/
theorem Ends.bind_ok {m : Operation ε σ α} {f : α → Operation ε σ β} {s : σ} {P : α → σ → Prop}
    {Q : Except ε β → σ → Prop} (h : Ends m s fun r s' => ∃ a, r = .ok a ∧ P a s')
    (hf : ∀ a s', P a s' → Ends (f a) s' Q) : Ends (m >>= f) s Q := by
  refine h.bind ?_ ?_
  · rintro a s' ⟨b, hb, hP⟩
    cases hb
    exact hf a s' hP
  · rintro e s' ⟨b, hb, -⟩
    cases hb

/-- An operation with a known result, followed by another. -/
theorem Ends.bind_eq {m : Operation ε σ α} {f : α → Operation ε σ β} {s : σ} {a : α}
    {P : σ → Prop} {Q : Except ε β → σ → Prop} (h : Ends m s fun r s' => r = .ok a ∧ P s')
    (hf : ∀ s', P s' → Ends (f a) s' Q) : Ends (m >>= f) s Q := by
  refine h.bind ?_ ?_
  · rintro b s' ⟨hb, hP⟩
    cases hb
    exact hf s' hP
  · rintro e s' ⟨hb, -⟩
    cases hb

/-! ### Relations that operations move along -/

/-- From every state, an operation moves along a relation, whatever its outcome. -/
def Moves (R : σ → σ → Prop) (m : Operation ε σ α) : Prop :=
  ∀ s, Ends m s fun _ s' => R s s'

theorem Moves.mono {R S : σ → σ → Prop} {m : Operation ε σ α} (h : Moves R m)
    (hRS : ∀ s s', R s s' → S s s') : Moves S m :=
  fun s => (h s).mono fun _ s' => hRS s s'

/-- A relation between states that takes any number of steps: what an operation does along it may be
split into what its parts do. -/
class StepRelation (R : σ → σ → Prop) : Prop where
  refl : ∀ s, R s s
  trans : ∀ {s t u}, R s t → R t u → R s u

section Closure

variable {R : σ → σ → Prop} [StepRelation R]

theorem Moves.pure (a : α) : Moves R (Pure.pure a : Operation ε σ α) :=
  fun s => StepRelation.refl s

theorem Moves.throw (e : ε) : Moves R (MonadExcept.throw e : Operation ε σ α) :=
  fun s => StepRelation.refl s

/-- What would follow a failure does not matter. -/
theorem Moves.throw_bind (e : ε) (f : α → Operation ε σ β) :
    Moves R (MonadExcept.throw e >>= f) :=
  fun s => StepRelation.refl s

theorem Moves.get : Moves R (MonadState.get : Operation ε σ σ) :=
  fun s => StepRelation.refl s

/-- A sequence moves along a relation from a state if its parts do, from where they start. -/
theorem Ends.bind_along {m : Operation ε σ α} {f : α → Operation ε σ β} {s : σ}
    (hm : Ends m s fun _ t => R s t) (hf : ∀ a t, R s t → Ends (f a) t fun _ u => R t u) :
    Ends (m >>= f) s fun _ u => R s u := by
  refine hm.bind ?_ ?_
  · intro a t hst
    exact (hf a t hst).mono fun _ u htu => StepRelation.trans hst htu
  · intro e t hst
    exact hst

theorem Moves.bind {m : Operation ε σ α} {f : α → Operation ε σ β} (hm : Moves R m)
    (hf : ∀ a, Moves R (f a)) : Moves R (m >>= f) :=
  fun s => (hm s).bind_along fun a t _ => hf a t

theorem Moves.tryCatch {m : Operation ε σ α} {f : ε → Operation ε σ α} (hm : Moves R m)
    (hf : ∀ e, Moves R (f e)) : Moves R (tryCatch m f) := by
  intro s
  rw [ends_tryCatch]
  refine (hm s).mono fun r t hst => ?_
  cases r with
  | ok a => exact hst
  | error e => exact (hf e t).mono fun _ u htu => StepRelation.trans hst htu

theorem Moves.forM {f : α → Operation ε σ PUnit} :
    ∀ {as : List α}, (∀ a ∈ as, Moves R (f a)) → Moves R (as.forM f)
  | [], _ => Moves.pure _
  | a :: _, h =>
      (h a List.mem_cons_self).bind fun _ =>
        Moves.forM fun b hb => h b (List.mem_cons_of_mem a hb)

end Closure

theorem Moves.map {R : σ → σ → Prop} {m : Operation ε σ α} (f : α → β) (hm : Moves R m) :
    Moves R (f <$> m) := by
  intro s
  rw [ends_map]
  exact hm s

theorem Moves.modify {R : σ → σ → Prop} {f : σ → σ} (h : ∀ s, R s (f s)) :
    Moves R (MonadState.modifyGet (fun s => (PUnit.unit, f s)) : Operation ε σ PUnit) :=
  h

end Operation

end DebugAdapter
