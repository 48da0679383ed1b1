import DebugAdapter.Decimal.Overflow
import DebugAdapter.Text.Numeral
import DebugAdapter.Toml.Basic

/-!
# Reading configuration documents

A reader of TOML 1.0: comments, bare and quoted keys, dotted keys, headers, strings of all four
kinds, integers in four bases, reals, times, arrays and inline tables. It tells whether a document
is well-formed and what it defines; it does not say where a fault lies.
-/

namespace DebugAdapter.Toml

/-- The outcome of a reader: what was read and the characters after it. -/
abbrev Parsed (α : Type) := Option (α × List Char)

/-- Nesting of arrays and inline tables that is still accepted, and names of a dotted key. -/
def maxDepth : Nat := 79

/-- The blanks within a line. -/
def isLineBlank (c : Char) : Bool :=
  c == ' ' || c == '\t'

/-- Drops blanks within a line. -/
def skipBlanks (cs : List Char) : List Char :=
  cs.dropWhile isLineBlank

/-- Characters that may stand in comments and strings: tabs and everything but controls. -/
def isPlain (c : Char) : Bool :=
  c == '\t' || (0x20 ≤ c.toNat && c.toNat != 0x7F)

/-- A line end. -/
def newline? : List Char → Option (List Char)
  | '\n' :: r => some r
  | '\r' :: '\n' :: r => some r
  | _ => none

/-- Drops a comment. -/
def skipComment : List Char → List Char
  | '#' :: r => r.dropWhile isPlain
  | cs => cs

/-- The end of a line: blanks, perhaps a comment, then a line end or the end of the document. -/
def endOfLine? (cs : List Char) : Option (List Char) :=
  match skipComment (skipBlanks cs) with
  | [] => some []
  | r => newline? r

/-- Drops blanks, line ends and comments, as between the items of an array; `fuel` bounds the lines.
-/
def skipLines : (fuel : Nat) → List Char → List Char
  | 0, cs => cs
  | fuel + 1, cs =>
    match skipComment (skipBlanks cs) with
    | r => match newline? r with
      | some r => skipLines fuel r
      | none => r

/-! ### Strings -/

/-- The character that hexadecimal digits denote. -/
def scalar? (ds : List Char) : Option Char :=
  match Text.digitsValue? 16 0 ds with
  | some n =>
    if n < 0xD800 ∨ (0xDFFF < n ∧ n < 0x110000) then some (Char.ofNat n) else none
  | none => none

/-- The character of an escape, read behind its backslash. -/
def escape? : List Char → Parsed Char
  | 'b' :: r => some (Char.ofNat 8, r)
  | 't' :: r => some ('\t', r)
  | 'n' :: r => some ('\n', r)
  | 'f' :: r => some (Char.ofNat 12, r)
  | 'r' :: r => some ('\r', r)
  | '"' :: r => some ('"', r)
  | '\\' :: r => some ('\\', r)
  | 'u' :: r =>
    if 4 ≤ r.length then (scalar? (r.take 4)).map (·, r.drop 4) else none
  | 'U' :: r =>
    if 8 ≤ r.length then (scalar? (r.take 8)).map (·, r.drop 8) else none
  | _ => none

/-- A basic string behind its quote; `found` holds its characters so far, last first. -/
def basicString? (found : List Char) : (fuel : Nat) → List Char → Parsed String
  | 0, _ => none
  | _ + 1, [] => none
  | _ + 1, '"' :: r => some (String.ofList found.reverse, r)
  | fuel + 1, '\\' :: r =>
    match escape? r with
    | some (c, r) => basicString? (c :: found) fuel r
    | none => none
  | fuel + 1, c :: r => if isPlain c then basicString? (c :: found) fuel r else none

/-- A literal string behind its quote. -/
def literalString? (found : List Char) : List Char → Parsed String
  | [] => none
  | c :: r =>
    if c = '\'' then some (String.ofList found.reverse, r)
    else if isPlain c then literalString? (c :: found) r
    else none

/-- Drops a line end right behind the opening quotes of a string of several lines. -/
def dropFirstNewline (cs : List Char) : List Char :=
  (newline? cs).getD cs

/-- Drops blanks and line ends behind a backslash at the end of a line. -/
def skipFolded : (fuel : Nat) → List Char → List Char
  | 0, cs => cs
  | fuel + 1, cs =>
    let r := skipBlanks cs
    match newline? r with
    | some r => skipFolded fuel r
    | none => r

/-- The end of a string of several lines: three quotes, with up to two more that belong to it. -/
def closeQuotes? (q : Char) (found : List Char) (cs : List Char) : Parsed String :=
  let n := (cs.takeWhile (· == q)).length
  if 3 ≤ n then
    let inside := min (n - 3) 2
    some (String.ofList (found.reverse ++ List.replicate inside q), cs.drop (inside + 3))
  else none

/-- A string of several lines behind its quotes; in a basic one backslashes escape. -/
def multilineString? (q : Char) (found : List Char) : (fuel : Nat) → List Char → Parsed String
  | 0, _ => none
  | _ + 1, [] => none
  | fuel + 1, c :: r =>
    if c = q then
      match closeQuotes? q found (c :: r) with
      | some result => some result
      | none => multilineString? q (c :: found) fuel r
    else if c = '\\' ∧ q = '"' then
      match escape? r with
      | some (e, r) => multilineString? q (e :: found) fuel r
      | none =>
        match newline? (skipBlanks r) with
        | some r => multilineString? q found fuel (skipFolded (r.length + 1) r)
        | none => none
    else
      match newline? (c :: r) with
      | some r => multilineString? q ('\n' :: found) fuel r
      | none => if isPlain c then multilineString? q (c :: found) fuel r else none

/-- A string of any kind. -/
def string? (cs : List Char) : Parsed String :=
  match cs with
  | '"' :: '"' :: '"' :: r =>
    multilineString? '"' [] (r.length + 1) (dropFirstNewline r)
  | '\'' :: '\'' :: '\'' :: r =>
    multilineString? '\'' [] (r.length + 1) (dropFirstNewline r)
  | '"' :: r => basicString? [] (r.length + 1) r
  | '\'' :: r => literalString? [] r
  | _ => none

/-! ### Numbers and times -/

/-- Digits of a base with underscores between them. -/
def digitRun? (base : Nat) (cs : List Char) : Parsed (List Char) :=
  let isDigit := fun c => (Text.digitValue? base c).isSome
  let run := cs.takeWhile (fun c => isDigit c || c == '_')
  let rest := cs.drop run.length
  let pieces := run.foldr
    (fun c acc => if c == '_' then [] :: acc else match acc with
      | p :: r => (c :: p) :: r
      | [] => [[c]]) [[]]
  if pieces.any (·.isEmpty) then none else some (pieces.flatten, rest)

/-- An integer of 64 bits. -/
def signed64? (i : Int) : Option Item :=
  if -(wordSign : Int) ≤ i ∧ i < wordSign then some (.integer i) else none

/-- The digits of a decimal integer: no leading zero unless it is alone. -/
def decimalRun? (cs : List Char) : Parsed (List Char) :=
  match digitRun? 10 cs with
  | some (ds, r) => if 1 < ds.length ∧ ds.head? = some '0' then none else some (ds, r)
  | none => none

/-- A sign. -/
def sign (cs : List Char) : Int × List Char :=
  match cs with
  | '+' :: r => (1, r)
  | '-' :: r => (-1, r)
  | _ => (1, cs)

/-- The exponent behind its mark; without a mark it is zero. -/
def exponent? (cs : List Char) : Option (Int × List Char) :=
  match cs with
  | c :: r =>
    if c == 'e' || c == 'E' then do
      let (s, r) := sign r
      let (ds, r) ← digitRun? 10 r
      let n ← Text.digitsValue? 10 0 ds
      return (s * n, r)
    else some (0, cs)
  | [] => some (0, [])

/-- A fraction or an exponent or both behind an integer part: the digits behind the point, and the
power of ten. -/
def realTail? (cs : List Char) : Option ((List Char × Int) × List Char) :=
  match cs with
  | '.' :: r => do
    let (ds, r) ← digitRun? 10 r
    let (e, r) ← exponent? r
    return ((ds, e), r)
  | c :: _ =>
    if c == 'e' || c == 'E' then (exponent? cs).map fun (e, r) => (([], e), r) else none
  | [] => none

/-- A real from its digits before and behind the point and its power of ten. A positive one that is
too large is refused. -/
def real? (sign : Int) (whole fraction : List Char) (power : Int) : Option Item :=
  let digits := (whole ++ fraction).dropWhile (· == '0')
  match Text.digitsValue? 10 0 digits with
  | none => none
  | some m =>
    if 0 < sign ∧ Decimal.overflows digits.length m (power - fraction.length) then none
    else some .real

/-- Exactly `n` digits as a number below `limit` and not below `least`. -/
def fixedDigits? (n least limit : Nat) (cs : List Char) : Option (List Char) :=
  if n ≤ cs.length then
    match Text.digitsValue? 10 0 (cs.take n) with
    | some v => if least ≤ v ∧ v < limit then some (cs.drop n) else none
    | none => none
  else none

/-- A given character. -/
def char? (c : Char) : List Char → Option (List Char)
  | d :: r => if d = c then some r else none
  | [] => none

/-- A time of day. -/
def timeOfDay? (cs : List Char) : Option (List Char) := do
  let cs ← fixedDigits? 2 0 24 cs
  let cs ← char? ':' cs
  let cs ← fixedDigits? 2 0 60 cs
  let cs ← char? ':' cs
  let cs ← fixedDigits? 2 0 61 cs
  match cs with
  | '.' :: r =>
    let ds := r.takeWhile (·.isDigit)
    if ds.isEmpty then none else some (r.drop ds.length)
  | _ => some cs

/-- The offset of a time from universal time. -/
def timeOffset? : List Char → Option (List Char)
  | 'Z' :: r => some r
  | 'z' :: r => some r
  | c :: r =>
    if c = '+' ∨ c = '-' then do
      let r ← fixedDigits? 2 0 24 r
      let r ← char? ':' r
      fixedDigits? 2 0 60 r
    else some (c :: r)
  | [] => some []

/-- The days of a month. -/
def daysOf (year month : Nat) : Nat :=
  if month = 2 then
    if year % 4 = 0 ∧ (year % 100 ≠ 0 ∨ year % 400 = 0) then 29 else 28
  else if month = 4 ∨ month = 6 ∨ month = 9 ∨ month = 11 then 30
  else 31

/-- A date, with a time of day or without. -/
def date? (cs : List Char) : Option (List Char) := do
  let r ← fixedDigits? 4 0 10000 cs
  let r ← char? '-' r
  let s ← fixedDigits? 2 1 13 r
  let s ← char? '-' s
  let year ← Text.digitsValue? 10 0 (cs.take 4)
  let month ← Text.digitsValue? 10 0 (r.take 2)
  let s ← fixedDigits? 2 1 (daysOf year month + 1) s
  match s with
  | c :: t =>
    if c = 'T' ∨ c = 't' ∨ c = ' ' then
      match timeOfDay? t with
      | some t => timeOffset? t
      | none => if c = ' ' then some s else none
    else some s
  | [] => some s

/-- A number or a time. -/
def number? (cs : List Char) : Option (Item × List Char) :=
  match date? cs with
  | some r => some (.time, r)
  | none =>
    match timeOfDay? cs with
    | some r => some (.time, r)
    | none =>
      let (s, body) := sign cs
      match body with
      | 'i' :: 'n' :: 'f' :: r => some (.real, r)
      | 'n' :: 'a' :: 'n' :: r => some (.real, r)
      | _ =>
        let based : Nat → List Char → Option (Item × List Char) := fun base r => do
          let (ds, r) ← digitRun? base r
          let n ← Text.digitsValue? base 0 ds
          let i ← signed64? n
          return (i, r)
        match cs with
        | '0' :: 'x' :: r => based 16 r
        | '0' :: 'o' :: r => based 8 r
        | '0' :: 'b' :: r => based 2 r
        | _ => do
          let (ds, r) ← decimalRun? body
          match realTail? r with
          | some ((fraction, power), r) => return (← real? s ds fraction power, r)
          | none =>
            let n ← Text.digitsValue? 10 0 ds
            let i ← signed64? (s * n)
            return (i, r)

/-! ### Keys -/

/-- The characters of a bare key. -/
def isKeyChar (c : Char) : Bool :=
  c.isAlphanum || c == '_' || c == '-'

/-- A key without dots. -/
def simpleKey? (cs : List Char) : Parsed String :=
  match cs with
  | '"' :: r => basicString? [] (r.length + 1) r
  | '\'' :: r => literalString? [] r
  | _ =>
    let name := cs.takeWhile isKeyChar
    if name.isEmpty then none else some (String.ofList name, cs.drop name.length)

/-- The keys behind a dot, and so on. -/
def moreKeys? : (fuel : Nat) → (found : List String) → List Char → Parsed (List String)
  | 0, _, _ => none
  | fuel + 1, found, cs =>
    match skipBlanks cs with
    | '.' :: r =>
      match simpleKey? (skipBlanks r) with
      | some (k, r) => moreKeys? fuel (k :: found) r
      | none => none
    | r => some (found.reverse, r)

/-- A key, perhaps dotted: its path and its name, and the characters after it and its blanks. -/
def key? (cs : List Char) : Option ((List String × String) × List Char) := do
  let (k, r) ← simpleKey? (skipBlanks cs)
  let (ks, r) ← moreKeys? (r.length + 1) [k] r
  if maxDepth < ks.length then none
  let name ← ks.getLast?
  return ((ks.dropLast, name), r)

/-! ### Values -/

mutual

/-- A value; `fuel` bounds the steps and `depth` the brackets that may still be opened. -/
def value? : (fuel depth : Nat) → List Char → Parsed Item
  | 0, _, _ => none
  | fuel + 1, depth, cs =>
    match cs with
    | [] => none
    | 't' :: 'r' :: 'u' :: 'e' :: r => some (.flag true, r)
    | 'f' :: 'a' :: 'l' :: 's' :: 'e' :: r => some (.flag false, r)
    | '[' :: r => if depth = 0 then none else items? fuel (depth - 1) [] r
    | '\x7b' :: r =>
      if depth = 0 then none
      else match skipBlanks r with
        | '\x7d' :: r => some (.inlineTable [], r)
        | r => entries? fuel (depth - 1) [] r
    | c :: _ =>
      if c = '"' ∨ c = '\'' then (string? cs).map fun (s, r) => (.text s, r) else number? cs

/-- The items of an array behind its bracket or a comma. -/
def items? : (fuel depth : Nat) → (found : List Item) → List Char → Parsed Item
  | 0, _, _, _ => none
  | fuel + 1, depth, found, cs =>
    match skipLines (cs.length + 1) cs with
    | ']' :: r => some (.list found.reverse, r)
    | r =>
      match value? fuel depth r with
      | none => none
      | some (v, r) =>
        match skipLines (r.length + 1) r with
        | ',' :: r => items? fuel depth (v :: found) r
        | ']' :: r => some (.list (v :: found).reverse, r)
        | _ => none

/-- The entries of an inline table behind its brace or a comma. -/
def entries? : (fuel depth : Nat) → (found : Entries) → List Char → Parsed Item
  | 0, _, _, _ => none
  | fuel + 1, depth, found, cs =>
    match key? cs with
    | some ((path, name), '=' :: r) =>
      match value? fuel depth (skipBlanks r) with
      | none => none
      | some (v, r) =>
        match defineDotted? v path name found with
        | none => none
        | some found =>
          match skipBlanks r with
          | ',' :: r => entries? fuel depth found r
          | '\x7d' :: r => some (.inlineTable found, r)
          | _ => none
    | _ => none

end

/-! ### Documents -/

/-- A document as far as it was read: what it defines, and the table that keys go to. -/
structure Progress where
  root : Entries
  path : List String

/-- A header behind its brackets: the key and the characters after the closing brackets. -/
def header? (closing : List Char) (cs : List Char) : Parsed (List String × String) :=
  match key? cs with
  | none => none
  | some (k, r) => if closing.isPrefixOf r then some (k, r.drop closing.length) else none

/-- One line of a document (an entry may take several). -/
def line? (p : Progress) (cs : List Char) : Option (Progress × List Char) :=
  match skipBlanks cs with
  | '[' :: '[' :: r => do
    let ((path, name), r) ← header? [']', ']'] r
    let root ← openArrayTable? path name p.root
    let r ← endOfLine? r
    return (⟨root, path ++ [name]⟩, r)
  | '[' :: r => do
    let ((path, name), r) ← header? [']'] r
    let root ← openTable? path name p.root
    let r ← endOfLine? r
    return (⟨root, path ++ [name]⟩, r)
  | r =>
    match endOfLine? r with
    | some r => some (p, r)
    | none =>
      match key? r with
      | some ((path, name), '=' :: r) => do
        let (v, r) ← value? (r.length + 1) maxDepth (skipBlanks r)
        let root ← updateAt? (fun _ es => defineDotted? v path name es) p.path .header p.root
        let r ← endOfLine? r
        return (⟨root, p.path⟩, r)
      | _ => none

/-- The lines of a document; each takes at least one character. -/
def lines? : (fuel : Nat) → Progress → List Char → Option Entries
  | _, p, [] => some p.root
  | 0, _, _ :: _ => none
  | fuel + 1, p, cs =>
    match line? p cs with
    | some (p, r) => lines? fuel p r
    | none => none

/-- What a document defines; `none` if it is not well-formed. -/
def parse? (text : String) : Option Entries :=
  let cs := match text.toList with
    | c :: r => if c.toNat = 0xFEFF then r else c :: r
    | [] => []
  lines? (cs.length + 1) ⟨[], []⟩ cs

end DebugAdapter.Toml
