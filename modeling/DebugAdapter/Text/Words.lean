import DebugAdapter.Text.Numeral

/-!
# Words of a line

Splitting a line at blanks, with quotes or without, and cutting it at a byte position.

Quotes group characters into one word: between two quotes of one kind everything else, blanks and
the other quote included, belongs to the word. A quote that is never closed reaches to the end of
the line.
-/

namespace DebugAdapter.Text

/-- The words of a line between blanks, in order; `word` is the word being read, last character
first. -/
def blankWordsFrom (word : List Char) : List Char → List (List Char)
  | [] => if word.isEmpty then [] else [word.reverse]
  | c :: r =>
    if isBlank c then
      if word.isEmpty then blankWordsFrom [] r else word.reverse :: blankWordsFrom [] r
    else blankWordsFrom (c :: word) r

/-- The words of a line between blanks. -/
def blankWords (line : String) : List String :=
  (blankWordsFrom [] line.toList).map String.ofList

/-- Where a reader of quoted words stands: between words, in a word, or within quotes of a kind. The
characters of the word so far are kept last first. -/
inductive WordState where
  | between
  | inWord (word : List Char)
  | quoted (quote : Char) (word : List Char)
  deriving Repr, DecidableEq

/-- Whether a character is a quote. -/
def isQuote (c : Char) : Bool :=
  c == '"' || c == '\''

/-- The words of the rest of a line. -/
def quotedWordsFrom : WordState → List Char → List (List Char)
  | .between, [] => []
  | .inWord w, [] => [w.reverse]
  | .quoted _ w, [] => [w.reverse]
  | .between, c :: r =>
    if isQuote c then quotedWordsFrom (.quoted c []) r
    else if isBlank c then quotedWordsFrom .between r
    else quotedWordsFrom (.inWord [c]) r
  | .inWord w, c :: r =>
    if isQuote c then quotedWordsFrom (.quoted c w) r
    else if isBlank c then w.reverse :: quotedWordsFrom .between r
    else quotedWordsFrom (.inWord (c :: w)) r
  | .quoted q w, c :: r =>
    if c = q then quotedWordsFrom (.inWord w) r else quotedWordsFrom (.quoted q (c :: w)) r

/-- Splits a command line into words, with quotes. -/
def splitCommandLine (line : String) : List String :=
  (quotedWordsFrom .between line.toList).map String.ofList

/-- The characters that make up the first `n` bytes, if a character ends there. -/
def takeBytes? : List Char → (n : Nat) → Option (List Char)
  | [], n => if n = 0 then some [] else none
  | c :: r, n =>
    if n = 0 then some []
    else if c.utf8Size ≤ n then (takeBytes? r (n - c.utf8Size)).map (c :: ·)
    else none

/-- The part of a line before a byte position; the whole line if the position lies behind the end or
within a character. -/
def beforePosition (line : String) (position : Nat) : String :=
  match takeBytes? line.toList position with
  | some cs => String.ofList cs
  | none => line

end DebugAdapter.Text
