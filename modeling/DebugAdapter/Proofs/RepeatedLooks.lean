import DebugAdapter.Session.Retry
import Mathlib.Data.List.Basic

/-!
# Looks that are repeated

Whoever waits for a change looks again and again, and a look may change what the next one sees. `Repeats`
is what comes of this: which answers are seen, how the wait ends, and what is left of the state. A look
that takes notes (`noting`) shows that no other looks are made.

Main statement: `poll_spec`.
-/

namespace DebugAdapter.Session

variable {σ : Type}

/-- A look that writes down what it sees. -/
def noting (look : StateM σ Bool) : StateM (σ × List Bool) Bool := fun (s, seen) =>
  ((look.run s).1, (look.run s).2, seen ++ [(look.run s).1])

/-- So many looks in a row. -/
def looksInRow (look : StateM σ Bool) : Nat → StateM σ (List Bool)
  | 0 => return []
  | n + 1 => do
    let seen ← look
    let later ← looksInRow look n
    return seen :: later

/-- What comes of a look that is repeated until it is positive, at most so many times. -/
inductive Repeats (look : StateM σ Bool) : Nat → σ → List Bool → PollOutcome → σ → Prop
  | seen {again : Nat} {s s' : σ} (h : look.run s = (true, s')) : Repeats look again s [true] .ready s'
  | missed {s s' : σ} (h : look.run s = (false, s')) : Repeats look 0 s [false] .timedOut s'
  | again {again : Nat} {s t s' : σ} {answers : List Bool} {outcome : PollOutcome}
      (h : look.run s = (false, t)) (hrest : Repeats look again t answers outcome s') :
      Repeats look (again + 1) s (false :: answers) outcome s'

theorem run_pollUpTo_zero (look : StateM σ Bool) (s : σ) : (pollUpTo look 0).run s =
    ((if (look.run s).1 then .ready else .timedOut), (look.run s).2) := rfl

/-- The first look decides whether there is another one. -/
theorem run_pollUpTo_succ (look : StateM σ Bool) (again : Nat) (s : σ) :
    (pollUpTo look (again + 1)).run s =
      if (look.run s).1 then (.ready, (look.run s).2) else (pollUpTo look again).run (look.run s).2 := by
  show (if (look.run s).1 = true then pure PollOutcome.ready else pollUpTo look again : StateM σ _).run
    (look.run s).2 = _
  split
  · rfl
  · rfl

theorem exists_repeats (look : StateM σ Bool) (again : Nat) (s : σ) :
    ∃ answers outcome s', Repeats look again s answers outcome s' := by
  induction again generalizing s with
  | zero =>
    rcases h : look.run s with ⟨_ | _, s'⟩
    · exact ⟨_, _, _, .missed h⟩
    · exact ⟨_, _, _, .seen h⟩
  | succ again ih =>
    rcases h : look.run s with ⟨_ | _, t⟩
    · obtain ⟨answers, outcome, s', hrest⟩ := ih t
      exact ⟨_, _, _, .again h hrest⟩
    · exact ⟨_, _, _, .seen h⟩

namespace Repeats

variable {look : StateM σ Bool} {again : Nat} {s s' : σ} {answers : List Bool} {outcome : PollOutcome}

theorem run (h : Repeats look again s answers outcome s') :
    (pollUpTo look again).run s = (outcome, s') := by
  induction h with
  | @seen again s s' h =>
    cases again with
    | zero =>
      rw [run_pollUpTo_zero, h]
      rfl
    | succ again =>
      rw [run_pollUpTo_succ, h]
      rfl
  | missed h =>
    rw [run_pollUpTo_zero, h]
    rfl
  | again h _ ih =>
    rw [run_pollUpTo_succ, h]
    exact ih

/-- Looks that are noted have the same answers and end in the same way. -/
theorem noting (h : Repeats look again s answers outcome s') (before : List Bool) :
    Repeats (Session.noting look) again (s, before) answers outcome (s', before ++ answers) := by
  have hnotes : ∀ {s t : σ} {before : List Bool} {seen : Bool}, look.run s = (seen, t) →
      (Session.noting look).run (s, before) = (seen, t, before ++ [seen]) := by
    intro s t before seen h
    show ((look.run s).1, (look.run s).2, before ++ [(look.run s).1]) = _
    rw [h]
  induction h generalizing before with
  | seen h => exact .seen (hnotes h)
  | missed h => exact .missed (hnotes h)
  | again h _ ih =>
    have hrest := ih (before ++ [false])
    rw [List.append_assoc] at hrest
    exact .again (hnotes h) hrest

/-- The answers are those of as many looks in a row. -/
theorem inRow (h : Repeats look again s answers outcome s') :
    (looksInRow look answers.length).run s = (answers, s') := by
  have hnext : ∀ {s t s' : σ} {seen : Bool} {later : List Bool} (n : Nat), look.run s = (seen, t) →
      (looksInRow look n).run t = (later, s') →
      (looksInRow look (n + 1)).run s = (seen :: later, s') := by
    intro s t s' seen later n h hrest
    show (((look.run s).1 :: ((looksInRow look n).run (look.run s).2).1),
      ((looksInRow look n).run (look.run s).2).2) = _
    rw [h, hrest]
  induction h with
  | seen h => exact hnext 0 h rfl
  | missed h => exact hnext 0 h rfl
  | again h _ ih => exact hnext _ h ih

theorem length_le (h : Repeats look again s answers outcome s') : answers.length ≤ again + 1 := by
  induction h with
  | seen => exact Nat.le_add_left 1 _
  | missed => exact Nat.le_refl 1
  | again _ _ ih => exact Nat.succ_le_succ ih

theorem length_pos (h : Repeats look again s answers outcome s') : 0 < answers.length := by
  cases h with
  | seen => exact Nat.one_pos
  | missed => exact Nat.one_pos
  | again => exact Nat.succ_pos _

/-- Either the last look was the first positive one, or none of the looks was positive and there may be
no other. -/
theorem outcome_cases (h : Repeats look again s answers outcome s') :
    (outcome = .ready ∧ ∃ missed, answers = missed ++ [true] ∧ true ∉ missed) ∨
    (outcome = .timedOut ∧ answers = List.replicate (again + 1) false) := by
  induction h with
  | seen => exact Or.inl ⟨rfl, [], rfl, List.not_mem_nil⟩
  | missed => exact Or.inr ⟨rfl, rfl⟩
  | again _ _ ih =>
    rcases ih with ⟨hready, missed, rfl, hmissed⟩ | ⟨htimedOut, rfl⟩
    · refine Or.inl ⟨hready, false :: missed, rfl, ?_⟩
      exact List.not_mem_cons_of_ne_of_not_mem Bool.true_eq_false.mp hmissed
    · exact Or.inr ⟨htimedOut, rfl⟩

/-- A positive answer is among those of as many looks as there may be. -/
theorem mem_inRow (h : Repeats look again s answers outcome s') (hseen : true ∈ answers) :
    true ∈ ((looksInRow look (again + 1)).run s).1 := by
  have hrow : ∀ s n, ((looksInRow look (n + 1)).run s).1 =
      (look.run s).1 :: ((looksInRow look n).run (look.run s).2).1 := fun _ _ => rfl
  induction h with
  | seen h =>
    rw [hrow, h]
    exact List.mem_cons_self
  | missed => exact absurd (List.mem_singleton.mp hseen) Bool.true_eq_false.mp
  | again h _ ih =>
    rw [hrow, h]
    refine List.mem_cons_of_mem false (ih ?_)
    exact (List.mem_cons.mp hseen).resolve_left Bool.true_eq_false.mp

end Repeats

/-- A wait for a change looks at least once and at most as often as its policy allows, and no more once
a look was positive. It says that the change was seen exactly if one of these looks was positive, so it
is given up exactly if all the looks that there may be are negative. -/
theorem poll_spec (p : RetryPolicy) (look : StateM σ Bool) (s : σ) :
    ∃ answers outcome s', (p.poll look).run s = (outcome, s') ∧
      (p.poll (noting look)).run (s, []) = (outcome, s', answers) ∧
      (looksInRow look answers.length).run s = (answers, s') ∧
      1 ≤ answers.length ∧ answers.length ≤ p.maxPolls + 1 ∧
      (∀ missed later, answers = missed ++ true :: later → later = []) ∧
      (true ∉ answers → answers.length = p.maxPolls + 1) ∧
      (outcome = .ready ↔ true ∈ answers) ∧
      (outcome = .timedOut ↔
        ∀ seen ∈ ((looksInRow look (p.maxPolls + 1)).run s).1, seen = false) := by
  obtain ⟨answers, outcome, s', h⟩ := exists_repeats look p.maxPolls s
  refine ⟨answers, outcome, s', h.run, (h.noting []).run, h.inRow, h.length_pos, h.length_le, ?_⟩
  rcases h.outcome_cases with ⟨rfl, missed, rfl, hmissed⟩ | ⟨rfl, rfl⟩
  · have hseen : true ∈ missed ++ [true] := List.mem_append_right missed (List.mem_singleton.mpr rfl)
    refine ⟨fun before later heq => ?_, fun hnot => absurd hseen hnot, iff_of_true rfl hseen,
      iff_of_false nofun fun hall => ?_⟩
    · by_contra hlater
      refine hmissed ?_
      have hbefore : missed = before ++ true :: later.dropLast := by
        rw [← List.dropLast_cons_of_ne_nil hlater, ← List.dropLast_append_cons, ← heq,
          List.dropLast_concat]
      rw [hbefore]
      exact List.mem_append_right before List.mem_cons_self
    · exact absurd (hall true (h.mem_inRow hseen)) Bool.true_eq_false.mp
  · have hnot : true ∉ List.replicate (p.maxPolls + 1) false := fun hmem =>
      absurd (List.eq_of_mem_replicate hmem) Bool.true_eq_false.mp
    have hrow := h.inRow
    rw [List.length_replicate] at hrow
    refine ⟨fun before later heq => absurd ?_ hnot, fun _ => List.length_replicate,
      iff_of_false nofun hnot, iff_of_true rfl fun seen hmem => ?_⟩
    · rw [heq]
      exact List.mem_append_right before List.mem_cons_self
    · rw [hrow] at hmem
      exact List.eq_of_mem_replicate hmem

end DebugAdapter.Session
