import Mathlib.Data.List.TakeWhile
import DebugAdapter.Proofs.BinaryFrames

/-!
# Line framing

A byte stream is a sequence of lines, each with its line feed; only the last one may lack it. What a
reader finds in a line depends on this line alone: nothing if it is blank, an error if it is longer
than the limit, and otherwise the line without its end (`lineResult?`, `results_found`). So written
payloads are read back whatever blank lines stand between them, and a line that is too long is
passed over (`results_line`).

The induction is on the lines of a stream (`line_induction`).
-/

namespace DebugAdapter.Wire.Stream

variable {f : Framing} {limit : Nat} {bs body rest line p : Bytes}

/-! ### Lines of a stream -/

/-- The lines of a stream with their line feeds. -/
def lines : Bytes → List Bytes
  | [] => []
  | b :: r =>
    if b = 10 then [b] :: lines r
    else match lines r with
      | [] => [[b]]
      | l :: ls => (b :: l) :: ls

theorem lines_line (h : 10 ∉ body) (rest : Bytes) :
    lines (body ++ 10 :: rest) = (body ++ [10]) :: lines rest := by
  induction body with
  | nil => simp [lines]
  | cons b body ih =>
    have hb : b ≠ 10 := fun e => h (e ▸ List.mem_cons_self)
    have hbody : 10 ∉ body := fun m => h (List.mem_cons_of_mem b m)
    simp [lines, hb, ih hbody]

theorem lines_last (h : 10 ∉ body) (hne : body ≠ []) : lines body = [body] := by
  induction body with
  | nil => exact absurd rfl hne
  | cons b body ih =>
    have hb : b ≠ 10 := fun e => h (e ▸ List.mem_cons_self)
    have hbody : 10 ∉ body := fun m => h (List.mem_cons_of_mem b m)
    cases body with
    | nil => simp [lines, hb]
    | cons c body => rw [lines, if_neg hb, ih hbody (List.cons_ne_nil c body)]

/-- A stream has no line feed, or a first one. -/
theorem exists_line (bs : Bytes) :
    10 ∉ bs ∨ ∃ body rest, 10 ∉ body ∧ bs = body ++ 10 :: rest := by
  induction bs with
  | nil => exact Or.inl List.not_mem_nil
  | cons b bs ih =>
    by_cases hb : b = 10
    · exact Or.inr ⟨[], bs, List.not_mem_nil, by rw [hb]; rfl⟩
    · have hcons : ∀ body : Bytes, 10 ∉ body → 10 ∉ b :: body := by
        intro body hbody
        simp [hbody, Ne.symm hb]
      rcases ih with h | ⟨body, rest, hbody, rfl⟩
      · exact Or.inl (hcons bs h)
      · exact Or.inr ⟨b :: body, rest, hcons body hbody, rfl⟩

/-- What holds of a last line, and of a line with what follows it if it holds of what follows, holds
of every stream. -/
theorem line_induction {P : Bytes → Prop} (last : ∀ body, 10 ∉ body → P body)
    (line : ∀ body rest, 10 ∉ body → P rest → P (body ++ 10 :: rest)) (bs : Bytes) :
    P bs := by
  induction hn : bs.length using Nat.strongRecOn generalizing bs with
  | ind n ih =>
    rcases exists_line bs with h | ⟨body, rest, hbody, rfl⟩
    · exact last bs h
    · refine line body rest hbody (ih rest.length ?_ rest rfl)
      simp only [List.length_append, List.length_cons] at hn
      omega

/-- Lines may be taken apart behind a line feed. -/
theorem lines_append {before : Bytes} (h : before = [] ∨ before.getLast? = some 10)
    (after : Bytes) : lines (before ++ after) = lines before ++ lines after := by
  induction before using line_induction with
  | last body hbody =>
    rcases h with rfl | h
    · rfl
    · exact absurd (List.mem_of_getLast? h) hbody
  | line body rest hbody ih =>
    have hrest : rest = [] ∨ rest.getLast? = some 10 := by
      rcases h with h | h
      · simp at h
      · cases rest with
        | nil => exact Or.inl rfl
        | cons b r =>
          right
          simpa using h
    rw [List.append_assoc, List.cons_append, lines_line hbody, lines_line hbody, ih hrest,
      List.cons_append]

/-! ### Ends of lines -/

theorem stripLineEnd_sublist (line : Bytes) : (stripLineEnd line).Sublist line := by
  have h := (List.dropWhile_sublist (fun b => b == 10 || b == 13) (l := line.reverse)).reverse
  rwa [List.reverse_reverse] at h

@[simp] theorem stripLineEnd_lf (line : Bytes) :
    stripLineEnd (line ++ [10]) = stripLineEnd line := by
  simp [stripLineEnd]

@[simp] theorem stripLineEnd_cr (line : Bytes) :
    stripLineEnd (line ++ [13]) = stripLineEnd line := by
  simp [stripLineEnd]

/-- A line without an end stays as it is. -/
theorem stripLineEnd_eq_self (hlf : p.getLast? ≠ some 10) (hcr : p.getLast? ≠ some 13) :
    stripLineEnd p = p := by
  unfold stripLineEnd
  rw [List.getLast?_eq_head?_reverse] at hlf hcr
  rcases hp : p.reverse with _ | ⟨b, r⟩
  · simpa using hp
  · rw [hp, List.head?_cons, ne_eq, Option.some.injEq] at hlf hcr
    rw [List.dropWhile_cons_of_neg (by simp [hlf, hcr]), ← hp, List.reverse_reverse]

theorem getLast?_stripLineEnd (line : Bytes) : (stripLineEnd line).getLast? ≠ some 13 := by
  unfold stripLineEnd
  rw [List.getLast?_reverse]
  intro h
  have hhead := List.head?_dropWhile_not (fun b : UInt8 => b == 10 || b == 13) line.reverse
  rw [h] at hhead
  simp at hhead

theorem all_stripLineEnd (h : line.all isBlankByte = true) :
    (stripLineEnd line).all isBlankByte = true := by
  rw [List.all_eq_true] at h ⊢
  exact fun b hb => h b ((stripLineEnd_sublist line).subset hb)

/-! ### What a line gives -/

/-- What a reader finds in a line, if it is not blank. -/
def lineResult? (limit : Nat) (line : Bytes) : Option ReadResult :=
  if limit < line.length then some (.failed (.tooLarge line.length limit))
  else if (stripLineEnd line).all isBlankByte then none
  else some (.payload (stripLineEnd line))

/-- What follows the last line of a stream. -/
def afterLast (limit : Nat) (body : Bytes) (failure : Option Linux.OsError) : ReadResult :=
  match failure with
  | some e => .failed (.io e)
  | none => (lineResult? limit body).getD .endOfStream

theorem ne_of_not_mem (h : 10 ∉ body) : ∀ b ∈ body, (b != 10) = true := by
  intro b hb
  simp only [bne_iff_ne, ne_eq]
  rintro rfl
  exact h hb

theorem readLineWith_line (h : 10 ∉ body) (rest : Bytes) (failure : Option Linux.OsError)
    (fuel : Nat) : readLineWith limit (fuel + 1) ⟨body ++ 10 :: rest, failure⟩ =
      match lineResult? limit (body ++ [10]) with
      | some r => (r, ⟨rest, failure⟩)
      | none => readLineWith limit fuel ⟨rest, failure⟩ := by
  have htake : (body ++ 10 :: rest).takeWhile (· != 10) = body := by
    rw [List.takeWhile_append_of_pos (ne_of_not_mem h)]
    simp
  have hdrop : (body ++ 10 :: rest).dropWhile (· != 10) = 10 :: rest := by
    rw [List.dropWhile_append_of_pos (ne_of_not_mem h)]
    simp
  rw [readLineWith, htake, hdrop]
  simp only [lineResult?, stripLineEnd_lf, List.length_append, List.length_singleton]
  split
  · rfl
  · split
    · rfl
    · rfl

theorem readLineWith_last (h : 10 ∉ body) (failure : Option Linux.OsError) (fuel : Nat) :
    readLineWith limit (fuel + 1) ⟨body, failure⟩ =
      (afterLast limit body failure, ⟨[], failure⟩) := by
  have htake : body.takeWhile (· != 10) = body := List.takeWhile_eq_self_iff.mpr (ne_of_not_mem h)
  have hdrop : body.dropWhile (· != 10) = [] := List.dropWhile_eq_nil_iff.mpr (ne_of_not_mem h)
  rw [readLineWith, htake, hdrop]
  cases failure with
  | some e => rfl
  | none =>
    cases body with
    | nil => rfl
    | cons b body =>
      simp only [afterLast, lineResult?, List.isEmpty_cons, Bool.false_eq_true, if_false]
      split
      · rfl
      · split
        · rfl
        · rfl

/-- Each line takes a byte at least, so enough fuel does not matter. -/
theorem readLineWith_eq (failure : Option Linux.OsError) (bs : Bytes) :
    ∀ fuel fuel' : Nat, bs.length < fuel → bs.length < fuel' →
      readLineWith limit fuel ⟨bs, failure⟩ = readLineWith limit fuel' ⟨bs, failure⟩ := by
  induction bs using line_induction with
  | last body hbody =>
    intro fuel fuel' h h'
    obtain ⟨n, rfl⟩ := Nat.exists_eq_add_one_of_ne_zero (Nat.ne_of_gt (Nat.zero_lt_of_lt h))
    obtain ⟨n', rfl⟩ := Nat.exists_eq_add_one_of_ne_zero (Nat.ne_of_gt (Nat.zero_lt_of_lt h'))
    rw [readLineWith_last hbody, readLineWith_last hbody]
  | line body rest hbody ih =>
    intro fuel fuel' h h'
    obtain ⟨n, rfl⟩ := Nat.exists_eq_add_one_of_ne_zero (Nat.ne_of_gt (Nat.zero_lt_of_lt h))
    obtain ⟨n', rfl⟩ := Nat.exists_eq_add_one_of_ne_zero (Nat.ne_of_gt (Nat.zero_lt_of_lt h'))
    simp only [List.length_append, List.length_cons] at h h'
    rw [readLineWith_line hbody, readLineWith_line hbody,
      ih n n' (by omega) (by omega)]

/-! ### One read -/

theorem readFrame_line (limit : Nat) (h : 10 ∉ body) (rest : Bytes)
    (failure : Option Linux.OsError) :
    (⟨body ++ 10 :: rest, failure⟩ : Stream).readFrame .line limit =
      match lineResult? limit (body ++ [10]) with
      | some r => (r, ⟨rest, failure⟩)
      | none => (⟨rest, failure⟩ : Stream).readFrame .line limit := by
  unfold readFrame readLine
  rw [readLineWith_line h]
  have hfuel : rest.length < (body ++ 10 :: rest).length := by
    simp only [List.length_append, List.length_cons]
    omega
  rw [readLineWith_eq failure rest _ _ hfuel (Nat.lt_succ_self _)]

theorem readFrame_last (h : 10 ∉ body) (failure : Option Linux.OsError) :
    (⟨body, failure⟩ : Stream).readFrame .line limit =
      (afterLast limit body failure, ⟨[], failure⟩) := by
  unfold readFrame readLine
  exact readLineWith_last h failure _

theorem readFrame_line_nil (limit : Nat) :
    (ofBytes []).readFrame .line limit = (.endOfStream, ofBytes []) := rfl

/-- What a reader finds in a stream, line by line. -/
def found (limit : Nat) (bs : Bytes) : List ReadResult :=
  (lines bs).filterMap (lineResult? limit)

@[simp] theorem found_nil (limit : Nat) : found limit [] = [] := rfl

theorem found_line (h : 10 ∉ body) (rest : Bytes) : found limit (body ++ 10 :: rest) =
    (lineResult? limit (body ++ [10])).toList ++ found limit rest := by
  unfold found
  rw [lines_line h, List.filterMap_cons]
  cases lineResult? limit (body ++ [10]) with
  | none => rfl
  | some r => rfl

theorem found_last (h : 10 ∉ body) (hne : body ≠ []) :
    found limit body = (lineResult? limit body).toList := by
  unfold found
  rw [lines_last h hne, List.filterMap_cons, List.filterMap_nil]
  cases lineResult? limit body with
  | none => rfl
  | some r => rfl

theorem found_append (limit : Nat) {before : Bytes} (h : before = [] ∨ before.getLast? = some 10)
    (after : Bytes) : found limit (before ++ after) = found limit before ++ found limit after := by
  unfold found
  rw [lines_append h, List.filterMap_append]

/-- A line never gives the end of the stream. -/
theorem endOfStream_not_mem_found (limit : Nat) (bs : Bytes) :
    .endOfStream ∉ found limit bs := by
  intro h
  obtain ⟨line, -, hline⟩ := List.mem_filterMap.mp h
  unfold lineResult? at hline
  split at hline
  · cases hline
  · split at hline
    · cases hline
    · cases hline

/-- A read that passes over a line is the next read. -/
theorem results_congr {s s' : Stream} (h : s.readFrame f limit = s'.readFrame f limit)
    (n : Nat) : results f limit n s = results f limit n s' := by
  cases n with
  | zero => rfl
  | succ n => rw [results, results, h]

/-- A reader finds in a stream what it finds in its lines, and then the end. -/
theorem results_found (limit : Nat) (bs : Bytes) (n : Nat) :
    results .line limit ((found limit bs).length + n) (ofBytes bs) =
      found limit bs ++ List.replicate n .endOfStream := by
  have hover := results_over (readFrame_line_nil limit)
  induction bs using line_induction with
  | last body hbody =>
    have hread : (ofBytes body).readFrame .line limit = _ := readFrame_last hbody none
    by_cases hempty : body = []
    · subst hempty
      simpa using hover n
    · rw [found_last hbody hempty]
      cases hresult : lineResult? limit body with
      | none =>
        rw [afterLast, hresult] at hread
        have hskip := results_congr (hread.trans (readFrame_line_nil limit).symm) n
        simpa using hskip.trans (hover n)
      | some r =>
        rw [afterLast, hresult] at hread
        simp only [Option.toList_some, List.length_singleton, Nat.add_comm 1 n]
        rw [results_succ hread]
        exact congrArg (r :: ·) (hover n)
  | line body rest hbody ih =>
    have hread := readFrame_line limit hbody rest none
    rw [found_line hbody]
    cases hresult : lineResult? limit (body ++ [10]) with
    | none =>
      rw [hresult] at hread
      exact (results_congr hread _).trans ih
    | some r =>
      rw [hresult] at hread
      simp only [Option.toList_some, List.cons_append, List.nil_append, List.length_cons,
        Nat.add_right_comm _ 1 n]
      exact (results_succ hread _).trans (congrArg (r :: ·) ih)

/-! ### Written lines -/

/-- A payload that a line can hold: it has no line feed, no carriage return at its end, and is not
blank. -/
structure Plain (p : Bytes) : Prop where
  noLineFeed : 10 ∉ p
  noReturn : p.getLast? ≠ some 13
  notBlank : p.all isBlankByte = false

/-- A line of blank bytes. -/
structure Blank (ws : Bytes) : Prop where
  noLineFeed : 10 ∉ ws
  all : ws.all isBlankByte = true

/-- A stream that payloads are written to, with blank lines anywhere between them. -/
inductive Written (limit : Nat) : List Bytes → Bytes → Prop
  /-- The last line is blank, or there is none. -/
  | finish {ws : Bytes} (hws : Blank ws) (h : ws.length ≤ limit) : Written limit [] ws
  | blank {ps : List Bytes} {ws bs : Bytes} (hws : Blank ws) (h : ws.length + 1 ≤ limit)
      (rest : Written limit ps bs) : Written limit ps (ws ++ 10 :: bs)
  | lf {ps : List Bytes} {p bs : Bytes} (hp : Plain p) (h : p.length + 1 ≤ limit)
      (rest : Written limit ps bs) : Written limit (p :: ps) (p ++ 10 :: bs)
  | crlf {ps : List Bytes} {p bs : Bytes} (hp : Plain p) (h : p.length + 2 ≤ limit)
      (rest : Written limit ps bs) : Written limit (p :: ps) (p ++ 13 :: 10 :: bs)
  /-- The last line lacks its end. -/
  | last {p : Bytes} (hp : Plain p) (h : p.length ≤ limit) : Written limit [p] p

theorem lineResult?_blank (hline : line.length ≤ limit)
    (h : (stripLineEnd line).all isBlankByte = true) : lineResult? limit line = none := by
  rw [lineResult?, if_neg (Nat.not_lt.mpr hline), if_pos h]

theorem lineResult?_plain (hp : Plain p) (hline : line.length ≤ limit)
    (h : stripLineEnd line = stripLineEnd p) :
    lineResult? limit line = some (.payload p) := by
  have hlf : p.getLast? ≠ some 10 := fun e => hp.noLineFeed (List.mem_of_getLast? e)
  have hnot : ¬ p.all isBlankByte = true := Bool.not_eq_true _ ▸ hp.notBlank
  rw [lineResult?, if_neg (Nat.not_lt.mpr hline), h, stripLineEnd_eq_self hlf hp.noReturn,
    if_neg hnot]

theorem lineResult?_tooLarge (h : limit < line.length) :
    lineResult? limit line = some (.failed (.tooLarge line.length limit)) :=
  if_pos h

theorem Plain.ne_nil (hp : Plain p) : p ≠ [] := by
  rintro rfl
  cases hp.notBlank

theorem found_written {ps : List Bytes} (h : Written limit ps bs) :
    found limit bs = ps.map .payload := by
  induction h with
  | @finish ws hws hle =>
    by_cases hempty : ws = []
    · subst hempty
      rfl
    · rw [found_last hws.noLineFeed hempty, lineResult?_blank hle (all_stripLineEnd hws.all)]
      rfl
  | @blank ps ws bs hws hle _ ih =>
    have hresult : lineResult? limit (ws ++ [10]) = none := by
      apply lineResult?_blank
      · simpa using hle
      · rw [stripLineEnd_lf]
        exact all_stripLineEnd hws.all
    rw [found_line hws.noLineFeed, hresult, ih]
    rfl
  | @lf ps p bs hp hle _ ih =>
    have hresult : lineResult? limit (p ++ [10]) = some (.payload p) :=
      lineResult?_plain hp (by simpa using hle) (stripLineEnd_lf p)
    rw [found_line hp.noLineFeed, hresult, ih]
    rfl
  | @crlf ps p bs hp hle _ ih =>
    have hbody : 10 ∉ p ++ [13] := by simp [hp.noLineFeed]
    have hresult : lineResult? limit (p ++ [13] ++ [10]) = some (.payload p) := by
      apply lineResult?_plain hp
      · simpa using hle
      · rw [stripLineEnd_lf, stripLineEnd_cr]
    have hsplit : p ++ 13 :: 10 :: bs = (p ++ [13]) ++ 10 :: bs := by simp
    rw [hsplit, found_line hbody, hresult, ih]
    rfl
  | @last p hp hle =>
    rw [found_last hp.noLineFeed hp.ne_nil, lineResult?_plain hp hle rfl]
    rfl

/-! ### Payloads that are read -/

theorem lineResult?_eq_payload (h : 10 ∉ body)
    (hline : line = body ∨ line = body ++ [10])
    (hresult : lineResult? limit line = some (.payload p)) : Plain p ∧ p.length ≤ limit := by
  have hstrip : stripLineEnd line = stripLineEnd body := by
    rcases hline with rfl | rfl
    · rfl
    · exact stripLineEnd_lf body
  have hsub := stripLineEnd_sublist body
  unfold lineResult? at hresult
  split at hresult
  · cases hresult
  · split at hresult
    · cases hresult
    · rename_i hlong hblank
      rw [hstrip] at hresult hblank
      cases hresult
      have hlength : body.length ≤ line.length := by
        rcases hline with rfl | rfl
        · exact Nat.le_refl _
        · simp
      have hle := hsub.length_le
      exact ⟨⟨fun hmem => h (hsub.subset hmem), getLast?_stripLineEnd body,
        Bool.eq_false_iff.mpr hblank⟩, by omega⟩

/-- What is read from a line is plain and within the limit, whatever the stream. -/
theorem plain_of_readFrame {failure : Option Linux.OsError}
    (h : ((⟨bs, failure⟩ : Stream).readFrame .line limit).1 = .payload p) :
    Plain p ∧ p.length ≤ limit := by
  induction bs using line_induction with
  | last body hbody =>
    rw [readFrame_last hbody] at h
    unfold afterLast at h
    split at h
    · cases h
    · cases hresult : lineResult? limit body with
      | none =>
        rw [hresult] at h
        cases h
      | some r =>
        rw [hresult] at h
        cases h
        exact lineResult?_eq_payload hbody (Or.inl rfl) hresult
  | line body rest hbody ih =>
    rw [readFrame_line limit hbody] at h
    cases hresult : lineResult? limit (body ++ [10]) with
    | none =>
      rw [hresult] at h
      exact ih h
    | some r =>
      rw [hresult] at h
      cases h
      exact lineResult?_eq_payload hbody (Or.inr rfl) hresult

/-! ### Streams of lines -/

/-- A line of its own: it ends in a line feed, or the stream ends behind it. -/
def IsLine (line after : Bytes) : Prop :=
  ∃ body, 10 ∉ body ∧ (line = body ++ [10] ∨ line = body ∧ after = [])

/-- A line that is too long is reported, and nothing else changes. -/
theorem found_tooLarge {before after : Bytes}
    (hbefore : before = [] ∨ before.getLast? = some 10) (hline : IsLine line after)
    (h : limit < line.length) : found limit (before ++ line ++ after) =
      found limit before ++ .failed (.tooLarge line.length limit) :: found limit after := by
  have hresult := lineResult?_tooLarge h
  rw [List.append_assoc, found_append limit hbefore]
  congr 1
  obtain ⟨body, hbody, rfl | ⟨rfl, rfl⟩⟩ := hline
  · rw [List.append_assoc, List.cons_append, List.nil_append, found_line hbody, hresult]
    rfl
  · have hne : line ≠ [] := List.ne_nil_of_length_pos (Nat.zero_lt_of_lt h)
    rw [List.append_nil, found_last hbody hne, hresult]
    rfl

/-- **Line framing gives back what is written, and no more than lines can hold.** Payloads written
in lines, with blank lines anywhere between them, are read back in their order, and then the stream
is over. What is read from any stream is plain and within the limit. A line above the limit is
reported where it stands, and everything else is read as if it were absent. -/
theorem results_line (limit : Nat) :
    (∀ (ps : List Bytes) (bs : Bytes) (n : Nat), Written limit ps bs →
      results .line limit (ps.length + n) (ofBytes bs) =
        ps.map .payload ++ List.replicate n .endOfStream) ∧
    (∀ (s : Stream) (p : Bytes), (s.readFrame .line limit).1 = .payload p →
      p.all isBlankByte = false ∧ p.length ≤ limit ∧ 10 ∉ p ∧ p.getLast? ≠ some 13) ∧
    ∀ before line after : Bytes, (before = [] ∨ before.getLast? = some 10) →
      IsLine line after → limit < line.length → ∃ rs rs' : List ReadResult,
        .endOfStream ∉ rs ++ rs' ∧ ∀ n,
          results .line limit (rs.length + n) (ofBytes before) =
            rs ++ List.replicate n .endOfStream ∧
          results .line limit ((rs ++ rs').length + n) (ofBytes (before ++ after)) =
            rs ++ rs' ++ List.replicate n .endOfStream ∧
          results .line limit ((rs ++ rs').length + 1 + n) (ofBytes (before ++ line ++ after)) =
            rs ++ .failed (.tooLarge line.length limit) :: rs' ++
              List.replicate n .endOfStream := by
  refine ⟨?written, ?plain, ?tooLarge⟩
  case written =>
    intro ps bs n h
    have hread := results_found limit bs n
    rw [found_written h, List.length_map] at hread
    exact hread
  case plain =>
    intro s p h
    obtain ⟨hp, hlimit⟩ := plain_of_readFrame h
    exact ⟨hp.notBlank, hlimit, hp.noLineFeed, hp.noReturn⟩
  case tooLarge =>
    intro before line after hbefore hline hlong
    have hwithout := found_append limit hbefore after
    have hwith := found_tooLarge hbefore hline hlong
    refine ⟨found limit before, found limit after, ?_, fun n =>
      ⟨results_found limit before n, ?_, ?_⟩⟩
    · rw [← hwithout]
      exact endOfStream_not_mem_found limit (before ++ after)
    · have hread := results_found limit (before ++ after) n
      rwa [hwithout] at hread
    · have hread := results_found limit (before ++ line ++ after) n
      rw [hwith] at hread
      simpa [Nat.add_assoc] using hread

/-- Two payloads with a blank line between them, and a line that is too long between two others. -/
theorem results_two_lines :
    results .line 4 (2 + 1) (ofBytes [97, 13, 10, 32, 10, 98, 32, 99]) =
      [.payload [97], .payload [98, 32, 99], .endOfStream] ∧
    ∃ rs rs' : List ReadResult, .endOfStream ∉ rs ++ rs' ∧ ∀ n,
      results .line 4 (rs.length + n) (ofBytes [97, 10]) =
        rs ++ List.replicate n .endOfStream ∧
      results .line 4 ((rs ++ rs').length + n) (ofBytes [97, 10, 99, 10]) =
        rs ++ rs' ++ List.replicate n .endOfStream ∧
      results .line 4 ((rs ++ rs').length + 1 + n)
          (ofBytes [97, 10, 98, 98, 98, 98, 10, 99, 10]) =
        rs ++ .failed (.tooLarge 5 4) :: rs' ++ List.replicate n .endOfStream :=
  have hlast : Written 4 [[98, 32, 99]] [98, 32, 99] :=
    .last ⟨by decide, by decide, rfl⟩ (by decide)
  have hwritten : Written 4 [[97], [98, 32, 99]] [97, 13, 10, 32, 10, 98, 32, 99] :=
    @Written.crlf 4 _ [97] _ ⟨by decide, by decide, rfl⟩ (by decide)
      (@Written.blank 4 _ [32] _ ⟨by decide, rfl⟩ (by decide) hlast)
  ⟨(results_line 4).1 _ _ 1 hwritten,
    (results_line 4).2.2 [97, 10] [98, 98, 98, 98, 10] [99, 10] (Or.inr rfl)
      ⟨[98, 98, 98, 98], by decide, Or.inl rfl⟩ (by decide)⟩

end DebugAdapter.Wire.Stream
