import DebugAdapter.Elf.MangledPath
import DebugAdapter.Text.Numeral

/-!
# Mangled names

Linkers see qualified names as one symbol. The first scheme writes `_ZN`, then each part after its
length, then `E`; in a part, `$` encloses the name of a character that symbols cannot hold, and two
dots stand for the separator of parts. The second scheme writes `_R` and a mangled path. A symbol of
another form is its own name.
-/

namespace DebugAdapter.Elf.MangledName

open MangledPath (isDigit)

/-- The parts of a mangled name after its mark, up to the closing `E`, and what follows it. `fuel`
bounds the number of parts. -/
def parts? : (fuel : Nat) → List Char → Option (List (List Char) × List Char)
  | 0, _ => none
  | fuel + 1, cs =>
    match cs with
    | 'E' :: r => some ([], r)
    | _ =>
      match Text.digitsValue? 10 0 (cs.takeWhile isDigit) with
      | none => none
      | some n =>
        let body := cs.dropWhile isDigit
        if cs.takeWhile isDigit = [] ∨ body.length < n then none
        else (parts? fuel (body.drop n)).map fun (ps, rest) => (body.take n :: ps, rest)

/-- A character that is not shown. -/
def isControl (c : Char) : Bool :=
  c.toNat < 0x20 || (0x7F ≤ c.toNat && c.toNat < 0xA0)

/-- The character with a number given in lower-case hexadecimal digits. -/
def numbered? (digits : List Char) : Option Char :=
  if digits.isEmpty || digits.any fun c => 'A' ≤ c && c ≤ 'F' then none
  else match Text.digitsValue? 16 0 digits with
    | some n =>
      if n.isValidChar then
        let c := Char.ofNat n
        if isControl c then none else some c
      else none
    | none => none

/-- The character that a name between `$` stands for. -/
def escaped? (name : List Char) : Option Char :=
  match name with
  | ['S', 'P'] => some '@'
  | ['B', 'P'] => some '*'
  | ['R', 'F'] => some '&'
  | ['L', 'T'] => some '<'
  | ['G', 'T'] => some '>'
  | ['L', 'P'] => some '('
  | ['R', 'P'] => some ')'
  | ['C'] => some ','
  | 'u' :: digits => numbered? digits
  | _ => none

/-- The characters that a part stands for; from an unknown name between `$` on, it stands for
itself. `fuel` bounds the number of steps. -/
def plainChars : (fuel : Nat) → List Char → List Char
  | 0, cs => cs
  | _, [] => []
  | fuel + 1, '.' :: '.' :: r => ':' :: ':' :: plainChars fuel r
  | fuel + 1, '$' :: r =>
    let name := r.takeWhile (· ≠ '$')
    match r.dropWhile (· ≠ '$'), escaped? name with
    | _ :: rest, some c => c :: plainChars fuel rest
    | _, _ => '$' :: r
  | fuel + 1, c :: r => c :: plainChars fuel r

/-- The text of a part. -/
def partText (part : List Char) : String :=
  let cs := match part with
    | '_' :: '$' :: r => '$' :: r
    | cs => cs
  String.ofList (plainChars cs.length cs)

/-- The name after the mark of mangled names. -/
def afterMark? : List Char → Option (List Char)
  | '_' :: 'Z' :: 'N' :: r => some r
  | 'Z' :: 'N' :: r => some r
  | '_' :: '_' :: 'Z' :: 'N' :: r => some r
  | _ => none

/-- A visible ASCII character. -/
def isVisible (c : Char) : Bool :=
  0x20 < c.toNat && c.toNat < 0x7F

/-- What may follow a mangled name: nothing, or words of visible characters that start with a
dot. -/
def isSuffix (cs : List Char) : Bool :=
  cs.isEmpty || (cs.head? == some '.' && cs.all isVisible)

/-- Whether a text after the mark of a copied symbol consists of upper-case hexadecimal digits. -/
def isCopyNumber (cs : List Char) : Bool :=
  cs.all fun c => isDigit c || ('A' ≤ c && c ≤ 'F') || c == '@'

/-- The part of a name before the first `.llvm.` and the part after it. -/
def splitAtCopyMark : List Char → Option (List Char × List Char)
  | [] => none
  | c :: r =>
    match c :: r with
    | '.' :: 'l' :: 'l' :: 'v' :: 'm' :: '.' :: rest => some ([], rest)
    | _ => (splitAtCopyMark r).map fun (a, b) => (c :: a, b)

/-- The name without the mark and number of a symbol that was copied between code units. -/
def withoutCopyMark (cs : List Char) : List Char :=
  match splitAtCopyMark cs with
  | some (before, number) => if isCopyNumber number then before else cs
  | none => cs

/-- The qualified name that a symbol of the first scheme stands for, and what follows it. -/
def qualified? (symbol : List Char) : Option (String × List Char) := do
  let inner ← afterMark? symbol
  if inner.any fun c => 0x80 ≤ c.toNat then none
  else
    let (ps, suffix) ← parts? (inner.length + 1) inner
    return ("::".intercalate (ps.map partText), suffix)

/-- The path after the mark of the second scheme. -/
def afterPathMark? : List Char → Option (List Char)
  | '_' :: 'R' :: c :: r => some (c :: r)
  | 'R' :: c :: r => some (c :: r)
  | '_' :: '_' :: 'R' :: c :: r => some (c :: r)
  | _ => none

/-- The name that a symbol stands for. -/
def demangle (symbol : String) : String :=
  let cs := withoutCopyMark symbol.toList
  match qualified? cs <|> (afterPathMark? cs).bind MangledPath.demangle? with
  | some (name, suffix) => if isSuffix suffix then name ++ String.ofList suffix else String.ofList cs
  | none => String.ofList cs

end DebugAdapter.Elf.MangledName
