import DebugAdapter.Proofs.Numerals
import DebugAdapter.Text.Words

/-!
# Words in quotes

How words are written on a command line: each is spelled by pieces, in quotes of either kind or bare
(`Spells`), and blanks stand between the words (`Line`). Splitting a line gives back the words that are
written there. A line that is left in quotes at its end is split as if they were closed: every text is a
line of words, or becomes one when a quote is put behind it.

Main statement: `splitCommandLine_spec`.
-/

namespace DebugAdapter.Text

/-! ### Written words -/

/-- A piece of a word as it is written, and the characters that it stands for. Between two quotes of one
kind everything but this quote belongs to the piece; a bare piece has neither quotes nor blanks. -/
inductive Piece : (written : List Char) → (content : List Char) → Prop
  | quoted {q : Char} {cs : List Char} : isQuote q = true → q ∉ cs → Piece (q :: (cs ++ [q])) cs
  | bare {cs : List Char} : cs ≠ [] → (∀ c ∈ cs, isQuote c = false ∧ isBlank c = false) → Piece cs cs

/-- A word is spelled by one or more pieces, which follow each other at once. -/
inductive Spells : (written : List Char) → (word : List Char) → Prop
  | piece {t w : List Char} : Piece t w → Spells t w
  | cons {t t' w w' : List Char} : Piece t w → Spells t' w' → Spells (t ++ t') (w ++ w')

/-- What may follow a word: nothing, or something that begins with a blank. -/
def Separated (rest : List Char) : Prop := ∀ c ∈ rest.head?, isBlank c = true

/-- A line of words: there are one or more blanks between the words, and any number of them before the
first word and behind the last one. -/
inductive Line : (words : List (List Char)) → List Char → Prop
  | blank {gap : List Char} : Blanks gap → Line [] gap
  | word {gap t w rest : List Char} {ws : List (List Char)} : Blanks gap → Spells t w → Separated rest →
      Line ws rest → Line (w :: ws) (gap ++ (t ++ rest))

/-- The words are written on the line. -/
def Writes (line : String) (words : List String) : Prop :=
  Line (words.map String.toList) line.toList

theorem isBlank_eq_false_of_isQuote {c : Char} (h : isQuote c = true) : isBlank c = false := by
  rw [isQuote, Bool.or_eq_true, beq_iff_eq, beq_iff_eq] at h
  rcases h with rfl | rfl <;> decide

theorem isQuote_eq_false_of_isBlank {c : Char} (h : isBlank c = true) : isQuote c = false :=
  Bool.eq_false_iff.mpr fun hq => by rw [isBlank_eq_false_of_isQuote hq] at h; cases h

theorem Line.cons_blank {c : Char} {ws : List (List Char)} {l : List Char} (hc : isBlank c = true)
    (h : Line ws l) : Line ws (c :: l) := by
  cases h with
  | blank hgap => exact .blank (List.forall_mem_cons.mpr ⟨hc, hgap⟩)
  | @word gap _ _ _ _ hgap hw hrest hl =>
    have hgap : Blanks (c :: gap) := List.forall_mem_cons.mpr ⟨hc, hgap⟩
    exact .word hgap hw hrest hl

/-- Every word can be spelled: each character in quotes of the other kind, and an empty word by empty
quotes. -/
theorem exists_spells (w : List Char) : ∃ t, Spells t w := by
  induction w with
  | nil => exact ⟨_, .piece (.quoted (q := '"') rfl List.not_mem_nil)⟩
  | cons c w ih =>
    obtain ⟨t, ht⟩ := ih
    have hpiece : ∃ p, Piece p [c] := by
      by_cases hc : c = '"'
      · exact ⟨_, .quoted (q := '\'') rfl (by simp [hc])⟩
      · exact ⟨_, .quoted (q := '"') rfl (by simpa using Ne.symm hc)⟩
    obtain ⟨p, hp⟩ := hpiece
    exact ⟨p ++ t, .cons hp ht⟩

theorem exists_line (ws : List (List Char)) : ∃ l, Line ws l := by
  induction ws with
  | nil => exact ⟨[], .blank nofun⟩
  | cons w ws ih =>
    obtain ⟨l, hl⟩ := ih
    obtain ⟨t, ht⟩ := exists_spells w
    have hblank : isBlank ' ' = true := by decide
    have hnone : Blanks [] := nofun
    have hrest : Separated (' ' :: l) := by
      rintro c ⟨⟩
      exact hblank
    exact ⟨_, .word hnone ht hrest (hl.cons_blank hblank)⟩

/-! ### States of the reader -/

namespace WordState

/-- The state after a character. -/
def next (st : WordState) (c : Char) : WordState :=
  match st with
  | between => if isQuote c then quoted c [] else if isBlank c then between else inWord [c]
  | inWord w => if isQuote c then quoted c w else if isBlank c then between else inWord (c :: w)
  | quoted q w => if c = q then inWord w else quoted q (c :: w)

/-- The word that ends with a character. -/
def ended (st : WordState) (c : Char) : List (List Char) :=
  match st with
  | inWord w => if isBlank c then [w.reverse] else []
  | between => []
  | quoted .. => []

/-- The state after a text. -/
def after (st : WordState) (cs : List Char) : WordState := cs.foldl next st

/-- The reader is within quotes. -/
def isQuoted : WordState → Bool
  | quoted .. => true
  | _ => false

theorem after_append (st : WordState) (cs cs' : List Char) :
    st.after (cs ++ cs') = (st.after cs).after cs' :=
  List.foldl_append

theorem after_cons (st : WordState) (c : Char) (cs : List Char) :
    st.after (c :: cs) = (st.next c).after cs :=
  rfl

end WordState

open WordState

theorem quotedWordsFrom_cons (st : WordState) (c : Char) (r : List Char) :
    quotedWordsFrom st (c :: r) = st.ended c ++ quotedWordsFrom (st.next c) r := by
  cases st with
  | between =>
    rw [quotedWordsFrom, next, ended]
    split_ifs <;> rfl
  | inWord w =>
    rw [quotedWordsFrom, next, ended]
    by_cases hq : isQuote c = true
    · rw [if_pos hq, if_pos hq, isBlank_eq_false_of_isQuote hq]
      rfl
    · rw [if_neg hq, if_neg hq]
      split_ifs <;> rfl
  | quoted q w =>
    rw [quotedWordsFrom, next, ended]
    split_ifs <;> rfl

/-- Reading a text ends some words and leads from one state to another. -/
structure Reads (st : WordState) (cs : List Char) (ws : List (List Char)) (st' : WordState) : Prop where
  words : ∀ r, quotedWordsFrom st (cs ++ r) = ws ++ quotedWordsFrom st' r
  state : st.after cs = st'

section Reads

variable {st st' st'' : WordState} {c : Char} {cs cs' : List Char} {ws ws' : List (List Char)}

theorem Reads.refl (st : WordState) : Reads st [] [] st := ⟨fun _ => rfl, rfl⟩

theorem Reads.append (h : Reads st cs ws st') (h' : Reads st' cs' ws' st'') :
    Reads st (cs ++ cs') (ws ++ ws') st'' := by
  refine ⟨fun r => ?_, ?_⟩
  · rw [List.append_assoc, h.words, h'.words, List.append_assoc]
  · rw [after_append, h.state, h'.state]

theorem reads_char (st : WordState) (c : Char) : Reads st [c] (st.ended c) (st.next c) :=
  ⟨quotedWordsFrom_cons st c, rfl⟩

theorem reads_blanks (h : Blanks cs) : Reads .between cs [] .between := by
  induction cs with
  | nil => exact .refl _
  | cons c cs ih =>
    obtain ⟨hc, hcs⟩ := List.forall_mem_cons.mp h
    have hnext : between.next c = between := by
      simp [next, isQuote_eq_false_of_isBlank hc, hc]
    have hchar := reads_char between c
    rw [hnext] at hchar
    exact hchar.append (ih hcs)

theorem reads_bare (w : List Char) (h : ∀ c ∈ cs, isQuote c = false ∧ isBlank c = false) :
    Reads (.inWord w) cs [] (.inWord (cs.reverse ++ w)) := by
  induction cs generalizing w with
  | nil => exact .refl _
  | cons c cs ih =>
    obtain ⟨⟨hquote, hblank⟩, hcs⟩ := List.forall_mem_cons.mp h
    have hchar := reads_char (.inWord w) c
    simp only [next, ended, hquote, hblank, Bool.false_eq_true, if_false] at hchar
    rw [List.reverse_cons, List.append_assoc]
    exact hchar.append (ih (c :: w) hcs)

theorem reads_inQuotes {q : Char} (w : List Char) (h : q ∉ cs) :
    Reads (.quoted q w) (cs ++ [q]) [] (.inWord (cs.reverse ++ w)) := by
  induction cs generalizing w with
  | nil =>
    have hchar := reads_char (.quoted q w) q
    rwa [next, ended, if_pos rfl] at hchar
  | cons c cs ih =>
    obtain ⟨hne, hcs⟩ := List.ne_and_not_mem_of_not_mem_cons h
    have hchar := reads_char (.quoted q w) c
    rw [next, ended, if_neg (Ne.symm hne)] at hchar
    rw [List.reverse_cons, List.append_assoc]
    exact hchar.append (ih (c :: w) hcs)

theorem Piece.reads {t x : List Char} (h : Piece t x) (w : List Char) :
    Reads (.inWord w) t [] (.inWord (x.reverse ++ w)) := by
  cases h with
  | @quoted q _ hq hcs =>
    have hchar := reads_char (.inWord w) q
    rw [next, ended, if_pos hq, isBlank_eq_false_of_isQuote hq] at hchar
    exact hchar.append (reads_inQuotes w hcs)
  | bare _ hcs => exact reads_bare w hcs

theorem Spells.reads_inWord {t x : List Char} (h : Spells t x) (w : List Char) :
    Reads (.inWord w) t [] (.inWord (x.reverse ++ w)) := by
  induction h generalizing w with
  | piece hp => exact hp.reads w
  | @cons t t' x x' hp _ ih =>
    rw [List.reverse_append, List.append_assoc]
    exact (hp.reads w).append (ih _)

theorem Piece.exists_cons {t x : List Char} (h : Piece t x) :
    ∃ c r, t = c :: r ∧ isBlank c = false := by
  cases h with
  | quoted hq _ => exact ⟨_, _, rfl, isBlank_eq_false_of_isQuote hq⟩
  | bare hne hcs =>
    obtain ⟨c, r, rfl⟩ := List.exists_cons_of_ne_nil hne
    exact ⟨c, r, rfl, (hcs c List.mem_cons_self).2⟩

theorem Spells.exists_cons {t x : List Char} (h : Spells t x) :
    ∃ c r, t = c :: r ∧ isBlank c = false := by
  cases h with
  | piece hp => exact hp.exists_cons
  | cons hp _ =>
    obtain ⟨c, r, rfl, hc⟩ := hp.exists_cons
    exact ⟨c, _, rfl, hc⟩

/-- What begins a word is read between words as in an empty word. -/
theorem next_between (hc : isBlank c = false) : WordState.between.next c = (inWord []).next c := by
  rw [next, next, hc]

theorem Spells.reads {t x : List Char} (h : Spells t x) :
    Reads .between t [] (.inWord x.reverse) := by
  have hin := h.reads_inWord []
  rw [List.append_nil] at hin
  obtain ⟨c, r, rfl, hc⟩ := h.exists_cons
  refine ⟨fun rest => ?_, ?_⟩
  · rw [← hin.words rest, List.cons_append, quotedWordsFrom_cons, quotedWordsFrom_cons, next_between hc]
    simp [ended, hc]
  · rw [← hin.state, after_cons, after_cons, next_between hc]

/-! ### Lines are split into their words -/

/-- A word ends where something follows that is separated from it. -/
theorem quotedWordsFrom_separated (w : List Char) (h : Separated cs) :
    quotedWordsFrom (.inWord w) cs = w.reverse :: quotedWordsFrom .between cs := by
  cases cs with
  | nil => rfl
  | cons c r =>
    have hc := h c rfl
    rw [quotedWordsFrom_cons, quotedWordsFrom_cons]
    simp [ended, next, hc, isQuote_eq_false_of_isBlank hc]

theorem after_separated (w : List Char) (h : Separated cs) (hcs : (between.after cs).isQuoted = false) :
    ((inWord w).after cs).isQuoted = false := by
  cases cs with
  | nil => rfl
  | cons c r =>
    have hc := h c rfl
    have hnext : (inWord w).next c = between.next c := by
      simp [next, hc, isQuote_eq_false_of_isBlank hc]
    rwa [after_cons, hnext]

/-- A line of words is split into them, and no quotes are open at its end. -/
theorem Line.split {l : List Char} (h : Line ws l) :
    quotedWordsFrom .between l = ws ∧ (between.after l).isQuoted = false := by
  induction h with
  | blank hgap =>
    have hread := reads_blanks hgap
    refine ⟨?_, by rw [hread.state]; rfl⟩
    have hwords := hread.words []
    rwa [List.append_nil] at hwords
  | @word gap t w rest ws hgap hw hrest _ ih =>
    have hread := (reads_blanks hgap).append hw.reads
    rw [← List.append_assoc]
    refine ⟨?_, ?_⟩
    · rw [hread.words, quotedWordsFrom_separated _ hrest, List.reverse_reverse, ih.1]
      rfl
    · rw [after_append, hread.state]
      exact after_separated _ hrest ih.2

/-- A quote that closes an open one at the end of a text changes nothing. -/
theorem quotedWordsFrom_close {q : Char} {w : List Char} (h : st.after cs = .quoted q w) :
    quotedWordsFrom st (cs ++ [q]) = quotedWordsFrom st cs := by
  induction cs generalizing st with
  | nil =>
    have hst : st = .quoted q w := h
    rw [hst, List.nil_append, quotedWordsFrom_cons, next, if_pos rfl]
    rfl
  | cons c r ih =>
    rw [List.cons_append, quotedWordsFrom_cons, quotedWordsFrom_cons]
    exact congrArg _ (ih h)

/-- Where a quote at the end of a text is no open one, a quote was open before. -/
theorem exists_quoted_of_close {q : Char} (hq : isQuote q = true)
    (h : (st.after (cs ++ [q])).isQuoted = false) : ∃ w, st.after cs = .quoted q w := by
  rw [after_append, after_cons] at h
  rcases hst : st.after cs with _ | w | ⟨q', w⟩
  · rw [hst, next, if_pos hq] at h
    cases h
  · rw [hst, next, if_pos hq] at h
    cases h
  · by_cases heq : q = q'
    · exact ⟨w, heq ▸ rfl⟩
    · rw [hst, next, if_neg heq] at h
      cases h

end Reads

/-! ### Every text is a line of words -/

section Lines

variable {c q : Char} {w l : List Char} {ws : List (List Char)}

/-- A text goes on with the rest of a word, of which some characters are read, and the words after it. -/
def GoesOn (w l : List Char) (ws : List (List Char)) : Prop :=
  ∃ t x rest ws', l = t ++ rest ∧ (t = [] ∧ x = [] ∨ Spells t x) ∧ Separated rest ∧ Line ws' rest ∧
    ws = (w.reverse ++ x) :: ws'

/-- A text goes on from a state of the reader. -/
def WordState.Continues (st : WordState) (l : List Char) (ws : List (List Char)) : Prop :=
  match st with
  | between => Line ws l
  | inWord w => GoesOn w l ws
  | quoted q w => ∃ cs r, l = cs ++ q :: r ∧ q ∉ cs ∧ GoesOn (cs.reverse ++ w) r ws

theorem GoesOn.piece {p x : List Char} (hp : Piece p x) (h : GoesOn (x.reverse ++ w) l ws) :
    GoesOn w (p ++ l) ws := by
  obtain ⟨t, y, rest, ws', rfl, ht, hrest, hl, rfl⟩ := h
  refine ⟨p ++ t, x ++ y, rest, ws', (List.append_assoc _ _ _).symm, Or.inr ?_, hrest, hl, ?_⟩
  · rcases ht with ⟨rfl, rfl⟩ | ht
    · rw [List.append_nil, List.append_nil]
      exact .piece hp
    · exact .cons hp ht
  · rw [List.reverse_append, List.reverse_reverse, List.append_assoc]

/-- What begins no word that is read already begins a word of the line. -/
theorem GoesOn.line (hc : isBlank c = false) (h : GoesOn [] (c :: l) ws) : Line ws (c :: l) := by
  obtain ⟨t, x, rest, ws', heq, ht, hrest, hl, rfl⟩ := h
  rcases ht with ⟨rfl, rfl⟩ | ht
  · rw [List.nil_append] at heq
    subst heq
    have hblank := hrest c rfl
    rw [hc] at hblank
    cases hblank
  · have hnone : Blanks [] := nofun
    rw [heq]
    exact .word hnone ht hrest hl

/-- A character and what goes on after it go on from the state before. -/
theorem continues_cons {st : WordState} (h : (st.next c).Continues l ws) :
    st.Continues (c :: l) (st.ended c ++ ws) := by
  -- In a word: a quote, a blank or a character of the word.
  have hword : ∀ w, ((inWord w).next c).Continues l ws →
      GoesOn w (c :: l) ((inWord w).ended c ++ ws) := by
    intro w h
    rw [next] at h
    by_cases hq : isQuote c = true
    · rw [if_pos hq] at h
      obtain ⟨cs, r, rfl, hcs, h⟩ := h
      have hpiece := GoesOn.piece (.quoted hq hcs) h
      rw [List.cons_append, List.append_assoc] at hpiece
      simpa [ended, isBlank_eq_false_of_isQuote hq] using hpiece
    · rw [if_neg hq] at h
      by_cases hb : isBlank c = true
      · rw [if_pos hb] at h
        have hl : Line ws (c :: l) := Line.cons_blank hb h
        refine ⟨[], [], c :: l, ws, rfl, Or.inl ⟨rfl, rfl⟩, ?_, hl, by simp [ended, hb]⟩
        rintro _ ⟨⟩
        exact hb
      · rw [if_neg hb] at h
        have hbare : ∀ d ∈ [c], isQuote d = false ∧ isBlank d = false :=
          List.forall_mem_singleton.mpr ⟨Bool.eq_false_iff.mpr hq, Bool.eq_false_iff.mpr hb⟩
        have hpiece := GoesOn.piece (.bare (List.cons_ne_nil c []) hbare) h
        simpa [ended, hb] using hpiece
  cases st with
  | between =>
    by_cases hb : isBlank c = true
    · rw [next, isQuote_eq_false_of_isBlank hb, hb] at h
      exact Line.cons_blank hb h
    · have hb := Bool.eq_false_iff.mpr hb
      rw [next_between hb] at h
      have hgoes := hword [] h
      rw [ended, hb] at hgoes
      exact hgoes.line hb
  | inWord w => exact hword w h
  | quoted q w =>
    rw [next] at h
    split_ifs at h with heq
    · exact ⟨[], l, by rw [heq]; rfl, List.not_mem_nil, h⟩
    · obtain ⟨cs, r, rfl, hcs, h⟩ := h
      refine ⟨c :: cs, r, rfl, List.not_mem_cons_of_ne_of_not_mem (Ne.symm heq) hcs, ?_⟩
      rwa [List.reverse_cons, List.append_assoc]

/-- From every state, a text goes on with the words that are read in it, if a quote is put behind it
where one is open. -/
theorem continues_close (l : List Char) : ∀ st : WordState,
    (∀ q w, st = .quoted q w → isQuote q = true) → ∃ closing : List Char,
      (closing = [] ∨ ∃ q, isQuote q = true ∧ closing = [q]) ∧
      st.Continues (l ++ closing) (quotedWordsFrom st l) := by
  induction l with
  | nil =>
    intro st hst
    have hnil : ∀ w, GoesOn w [] [w.reverse] := fun w =>
      ⟨[], [], [], [], rfl, Or.inl ⟨rfl, rfl⟩, nofun, .blank nofun, by rw [List.append_nil]⟩
    cases st with
    | between => exact ⟨[], Or.inl rfl, .blank nofun⟩
    | inWord w => exact ⟨[], Or.inl rfl, hnil w⟩
    | quoted q w =>
      exact ⟨[q], Or.inr ⟨q, hst q w rfl, rfl⟩, [], [], rfl, List.not_mem_nil, hnil w⟩
  | cons c l ih =>
    intro st hst
    have hnext : ∀ q w, st.next c = .quoted q w → isQuote q = true := by
      intro q w h
      cases st with
      | between =>
        rw [next] at h
        split_ifs at h with hq
        cases h
        exact hq
      | inWord _ =>
        rw [next] at h
        split_ifs at h with hq
        cases h
        exact hq
      | quoted q' w' =>
        rw [next] at h
        split_ifs at h
        cases h
        exact hst _ _ rfl
    obtain ⟨closing, hclosing, h⟩ := ih (st.next c) hnext
    refine ⟨closing, hclosing, ?_⟩
    rw [quotedWordsFrom_cons]
    exact continues_cons h

/-- Every text is a line of the words that it is split into, or it becomes one when a quote is put behind
it. -/
theorem line_quotedWordsFrom (l : List Char) : Line (quotedWordsFrom .between l) l ∨
    ∃ q, isQuote q = true ∧ Line (quotedWordsFrom .between l) (l ++ [q]) := by
  obtain ⟨closing, hclosing, h⟩ := continues_close l .between nofun
  rcases hclosing with rfl | ⟨q, hq, rfl⟩
  · rw [List.append_nil] at h
    exact Or.inl h
  · exact Or.inr ⟨q, hq, h⟩

theorem quotedWordsFrom_between_iff {l : List Char} : quotedWordsFrom .between l = ws ↔
    Line ws l ∨ ∃ q, isQuote q = true ∧ Line ws (l ++ [q]) := by
  constructor
  · rintro rfl
    exact line_quotedWordsFrom l
  · rintro (h | ⟨q, hq, h⟩)
    · exact h.split.1
    · obtain ⟨hwords, hclosed⟩ := h.split
      obtain ⟨w, hst⟩ := exists_quoted_of_close hq hclosed
      rw [← quotedWordsFrom_close hst, hwords]

end Lines

theorem splitCommandLine_eq_iff {line : String} {words : List String} :
    splitCommandLine line = words ↔ quotedWordsFrom .between line.toList = words.map String.toList := by
  constructor
  · rintro rfl
    simp [splitCommandLine]
  · intro h
    simp [splitCommandLine, h]

/-- **Splitting undoes quoting.** A command line is split into words exactly if they are written on it,
or written on it with a quote put behind it. So words that are written on a line in any way are what it
is split into, and a quote that is open at the end is read as if it were closed there. Words can always be
written, also empty ones and such that have blanks and both quotes. -/
theorem splitCommandLine_spec (line : String) (words : List String) :
    (splitCommandLine line = words ↔
      Writes line words ∨ ∃ q, isQuote q = true ∧ Writes (line.push q) words) ∧
    (Writes line (splitCommandLine line) ∨ ∃ q, isQuote q = true ∧
      Writes (line.push q) (splitCommandLine line) ∧
      splitCommandLine (line.push q) = splitCommandLine line) ∧
    ∃ line, Writes line words := by
  have hiff : ∀ {line : String} {words : List String}, splitCommandLine line = words ↔
      Writes line words ∨ ∃ q, isQuote q = true ∧ Writes (line.push q) words := by
    intro line words
    rw [splitCommandLine_eq_iff, quotedWordsFrom_between_iff]
    simp only [Writes, String.toList_push]
  refine ⟨hiff, (hiff.mp rfl).imp_right ?_, ?_⟩
  · rintro ⟨q, hq, h⟩
    exact ⟨q, hq, h, hiff.mpr (Or.inl h)⟩
  · obtain ⟨l, hl⟩ := exists_line (words.map String.toList)
    exact ⟨String.ofList l, by rwa [Writes, String.toList_ofList]⟩

example : splitCommandLine " a '' \"b c\"'d e" = ["a", "", "b cd e"] := by decide

end DebugAdapter.Text
