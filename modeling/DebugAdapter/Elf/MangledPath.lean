import DebugAdapter.Text.Punycode
import DebugAdapter.Text.Numeral
import DebugAdapter.Text.Quoted
import DebugAdapter.Text.Utf8

/-!
# Mangled paths

A symbol of the second mangling scheme writes a path as a term with its operators in front: an
upper-case letter says what kind of path, type or constant follows, a lower-case letter is a basic
type, and names stand behind their lengths. A part that occurred before is written as its place in
the symbol.

Such a part is read again wherever it is referred to, at most 500 terms deep, so a fault in it
shows up only in the text: as a remark at its place, and as `?` for the rest of that part.
-/

namespace DebugAdapter.Elf.MangledPath

/-! ### Reading a symbol -/

/-- Why a term cannot be read. -/
inductive Fault where
  | malformed
  | tooDeep
  deriving Repr, DecidableEq

/-- The remark in place of the term. -/
def Fault.text : Fault → String
  | malformed => "\x7binvalid syntax\x7d"
  | tooDeep => "\x7brecursion limit reached\x7d"

/-- A place in a symbol, and the number of terms around it. -/
structure Cursor where
  index : Nat
  depth : Nat
  deriving Repr, DecidableEq, Inhabited

/-- A reader of a part of a symbol. -/
abbrev Reader := ReaderT (Array Char) (StateT Cursor (Except Fault))

/-- The terms that may stand in one another. -/
def maxDepth : Nat := 500

/-- Enters a term. -/
def enter : Reader Unit := do
  let cursor ← get
  if maxDepth ≤ cursor.depth then throw .tooDeep
  set { cursor with depth := cursor.depth + 1 }

/-- Moves the cursor over some characters. -/
def skip (n : Nat) : Reader Unit :=
  modify fun cursor => { cursor with index := cursor.index + n }

/-- The character at the cursor. -/
def peek? : Reader (Option Char) := do
  return (← read)[(← get).index]?

/-- Takes the next character. -/
def next : Reader Char := do
  match ← peek? with
  | some c => skip 1; return c
  | none => throw .malformed

/-- Takes the next character if it is `c`. -/
def take (c : Char) : Reader Bool := do
  if (← peek?) = some c then
    skip 1
    return true
  else return false

/-- The characters of a symbol from an index on, up to the first that fails a test. -/
def runAt (symbol : Array Char) (p : Char → Bool) : (fuel index : Nat) → List Char
  | 0, _ => []
  | fuel + 1, index =>
    match symbol[index]? with
    | some c => if p c then c :: runAt symbol p fuel (index + 1) else []
    | none => []

/-- Takes the characters up to the first that fails a test. -/
def takeRun (p : Char → Bool) : Reader (List Char) := do
  let symbol ← read
  let run := runAt symbol p symbol.size (← get).index
  skip run.length
  return run

/-- A decimal digit. -/
def isDigit (c : Char) : Bool := '0' ≤ c && c ≤ '9'

/-- A digit in base sixteen, in lower case. -/
def isHexDigit (c : Char) : Bool := isDigit c || ('a' ≤ c && c ≤ 'f')

/-- The value of a digit in base 62: decimal digits, small letters, capitals. -/
def digit62? (c : Char) : Option Nat :=
  if isDigit c then some (c.toNat - 48)
  else if 'a' ≤ c ∧ c ≤ 'z' then some (c.toNat - 87)
  else if 'A' ≤ c ∧ c ≤ 'Z' then some (c.toNat - 29)
  else none

/-- Takes hexadecimal digits and the underscore that ends them. -/
def hexDigits : Reader (List Char) := do
  let digits ← takeRun isHexDigit
  if ← take '_' then return digits else throw .malformed

/-- Takes a 64-bit number in base 62, written one less than it is; an underscore alone is zero. -/
def number : Reader Nat := do
  let digits ← takeRun fun c => (digit62? c).isSome
  unless ← take '_' do throw .malformed
  if digits.isEmpty then return 0
  let n := digits.foldl (fun n c => n * 62 + (digit62? c).getD 0) 0 + 1
  if n < wordLimit then return n else throw .malformed

/-- Takes a number behind a mark, written one less than it is; without the mark it is zero. -/
def numberAfter (mark : Char) : Reader Nat := do
  if ← take mark then
    let n := (← number) + 1
    if n < wordLimit then return n else throw .malformed
  else return 0

/-- Takes the number that tells apart things of one name. -/
def disambiguator : Reader Nat := numberAfter 's'

/-- Takes a name space: a special one has a capital. -/
def nameSpace : Reader (Option Char) := do
  let c ← next
  if 'A' ≤ c ∧ c ≤ 'Z' then return some c
  else if 'a' ≤ c ∧ c ≤ 'z' then return none
  else throw .malformed

/-- Takes a reference behind its mark: an earlier place of the symbol. -/
def reference : Reader Cursor := do
  let cursor ← get
  let index ← number
  if cursor.index ≤ index + 1 then throw .malformed
  if maxDepth ≤ cursor.depth then throw .tooDeep
  return ⟨index, cursor.depth + 1⟩

/-- A name: its basic characters, and the encoded distances of the others. -/
structure Name where
  basic : List Char
  distances : List Char
  deriving Repr, DecidableEq, Inhabited

namespace Name

/-- Whether a name has no characters. -/
def isEmpty (name : Name) : Bool := name.basic.isEmpty && name.distances.isEmpty

/-- A name as it is shown, in pieces; one that cannot be decoded is shown as it is written. -/
def pieces (name : Name) : List String :=
  if name.distances.isEmpty then [String.ofList name.basic]
  else match Text.Punycode.decode? 128 name.basic name.distances with
    | some cs => cs.map String.singleton
    | none =>
      ["punycode\x7b"]
        ++ (if name.basic.isEmpty then [] else [String.ofList name.basic, "-"])
        ++ [String.ofList name.distances, "\x7d"]

end Name

/-- Takes a name behind its length, with an underscore between them if the name would otherwise
extend the length. `u` marks one with distances, which follow its last underscore. -/
def name : Reader Name := do
  let encoded ← take 'u'
  let digits ← do
    if ← take '0' then pure [] else
      let digits ← takeRun isDigit
      if digits.isEmpty then throw .malformed else pure digits
  let length := (Text.digitsValue? 10 0 digits).getD 0
  let _ ← take '_'
  let symbol ← read
  let start := (← get).index
  if symbol.size < start + length then throw .malformed
  skip length
  let cs := (symbol.extract start (start + length)).toList
  if encoded then
    let distances := (cs.reverse.takeWhile (· ≠ '_')).reverse
    if distances.isEmpty then throw .malformed
    return ⟨cs.take (cs.length - distances.length - 1), distances⟩
  else return ⟨cs, []⟩

/-! ### Printing while reading -/

/-- What is printed so far (last piece first), the bytes that there is still room for, the number of
lifetimes that have a name, and where to read on. A silent printer reads without printing. -/
structure Printer where
  cursor : Except Fault Cursor
  written : List String
  room : Nat
  lifetimes : Nat
  silent : Bool

/-- Printing of a part of a symbol. It ends early only if there is no room. -/
abbrev Print := ReaderT (Array Char) (EStateM Unit Printer)

/-- Prints a piece. -/
def write (s : String) : Print Unit := do
  let p ← get
  unless p.silent do
    if s.utf8ByteSize ≤ p.room then
      set { p with written := s :: p.written, room := p.room - s.utf8ByteSize }
    else throw ()

/-- Prints pieces. -/
def writeAll (pieces : List String) : Print Unit :=
  pieces.forM write

/-- Whether there was a fault in the part that is read. -/
def isFaulty : Print Bool := do
  match (← get).cursor with
  | .ok _ => return false
  | .error _ => return true

/-- Notes a fault: the rest of the part cannot be read. -/
def fail (fault : Fault) : Print Unit := do
  write fault.text
  modify fun p => { p with cursor := .error fault }

/-- Reads on and hands over what was read; `?` stands for what a fault keeps from being read. -/
def reading {α β : Type} [Inhabited β] (reader : Reader α) (k : α → Print β) : Print β := do
  match (← get).cursor with
  | .error _ =>
    write "?"
    return default
  | .ok cursor =>
    match (reader (← read)).run cursor with
    | .ok (a, cursor) =>
      modify fun p => { p with cursor := .ok cursor }
      k a
    | .error fault =>
      fail fault
      return default

/-- Takes the next character if it is `c`, unless there was a fault. -/
def eat (c : Char) : Print Bool := do
  if ← isFaulty then return false else reading (take c) pure

/-- Leaves a term. -/
def leave : Print Unit :=
  modify fun p =>
    { p with cursor := p.cursor.map fun cursor => { cursor with depth := cursor.depth - 1 } }

/-- Reads without printing. -/
def silently (body : Print Unit) : Print Unit := do
  let silent := (← get).silent
  modify fun p => { p with silent := true }
  body
  modify fun p => { p with silent }

/-- Prints the part that a reference stands for. A silent printer need not look at it. -/
def referred {β : Type} [Inhabited β] (body : Print β) : Print β :=
  reading reference fun target => do
    let p ← get
    if p.silent then return default
    set { p with cursor := .ok target }
    let b ← body
    modify fun q => { q with cursor := p.cursor }
    return b

/-- Prints items up to the closing `E`, counting on from `count`. -/
def itemsOnto (separator : String) (item : Print Unit) : (fuel count : Nat) → Print Nat
  | 0, count => return count
  | fuel + 1, count => do
    if ← isFaulty then return count
    if ← eat 'E' then return count
    if 0 < count then write separator
    item
    itemsOnto separator item fuel (count + 1)

/-- Prints the items of a list; every one takes a character, which bounds their number. -/
def items (separator : String) (item : Print Unit) : Print Nat := do
  itemsOnto separator item ((← read).size + 1) 0

/-- Prints a lifetime by its number, counted from the innermost that is bound around it. -/
def lifetime (n : Nat) : Print Unit := do
  let p ← get
  unless p.silent do
    write "'"
    if n = 0 then write "_"
    else if p.lifetimes < n then fail .malformed
    else
      let k := p.lifetimes - n
      if k < 26 then write (String.singleton (Char.ofNat (97 + k)))
      else
        write "_"
        write (Text.decimal k)

/-- Prints the lifetime of a reference, if it has one with a name, and then the rest. -/
def afterLifetime (rest : Print Unit) : Print Unit := do
  if ← eat 'L' then
    reading number fun n => do
      if n ≠ 0 then
        lifetime n
        write " "
      rest
  else rest

/-- Prints the lifetimes that a term binds, and then the term. -/
def binding (body : Print Unit) : Print Unit :=
  reading (numberAfter 'G') fun n => do
    if (← get).silent then body
    else
      if 0 < n then
        write "for<"
        for i in [0:n] do
          if 0 < i then write ", "
          modify fun p => { p with lifetimes := p.lifetimes + 1 }
          lifetime 1
        write "> "
      body
      modify fun p => { p with lifetimes := p.lifetimes - n }

/-! ### Terms -/

/-- The types with a letter of their own. -/
def basicType? : Char → Option String
  | 'b' => some "bool"
  | 'c' => some "char"
  | 'e' => some "str"
  | 'u' => some "()"
  | 'a' => some "i8"
  | 's' => some "i16"
  | 'l' => some "i32"
  | 'x' => some "i64"
  | 'n' => some "i128"
  | 'i' => some "isize"
  | 'h' => some "u8"
  | 't' => some "u16"
  | 'm' => some "u32"
  | 'y' => some "u64"
  | 'o' => some "u128"
  | 'j' => some "usize"
  | 'f' => some "f32"
  | 'd' => some "f64"
  | 'z' => some "!"
  | 'p' => some "_"
  | 'v' => some "..."
  | _ => none

/-- The number that hexadecimal digits denote, if it is a machine word. -/
def word? (digits : List Char) : Option Nat :=
  if (digits.dropWhile (· = '0')).length ≤ 16 then Text.digitsValue? 16 0 digits else none

/-- The bytes that pairs of hexadecimal digits denote. -/
def bytes? : List Char → Option Bytes
  | [] => some []
  | [_] => none
  | a :: b :: r =>
    match Text.digitsValue? 16 0 [a, b], bytes? r with
    | some n, some bs => some (UInt8.ofNat n :: bs)
    | _, _ => none

/-- A character between quotes; the other kind of quote stands for itself. -/
def inQuotes (quote c : Char) : List Char :=
  if c = quote then ['\\', c] else if c = '"' then [c] else Text.escapeQuoted c

/-- Prints characters between quotes. -/
def writeQuoted (quote : Char) (cs : List Char) : Print Unit := do
  write (String.singleton quote)
  writeAll ((cs.flatMap (inQuotes quote)).map String.singleton)
  write (String.singleton quote)

/-- Prints an integer with its type. -/
def integer (type : Char) : Print Unit :=
  reading hexDigits fun digits => do
    match word? digits with
    | some n => write (Text.decimal n)
    | none =>
      write "0x"
      write (String.ofList digits)
    write ((basicType? type).getD "")

/-- Prints a text between quotes. -/
def textLiteral : Print Unit :=
  reading hexDigits fun digits =>
    match (bytes? digits).bind Text.Utf8.decode? with
    | some s => writeQuoted '"' s.toList
    | none => fail .malformed

/-- Prints the calling convention of a function, whose dashes are written as underscores. -/
def convention (cs : List Char) : Print Unit := do
  write "extern \""
  writeAll (((String.ofList cs).splitOn "_").intersperse "-")
  write "\" "

/-- Prints the types associated with a trait, within the generic arguments of its path. Every one
takes a character, which bounds their number. -/
def associated (type : Print Unit) (isOpen : Bool) : (count : Nat) → Print Unit
  | 0 => return ()
  | count + 1 => do
    if ← eat 'p' then
      write (if isOpen then ", " else "<")
      reading name fun name => do
        writeAll name.pieces
        write " = "
        type
        associated type true count
    else if isOpen then write ">"

mutual

/-- Prints a path; in a value, generic arguments follow `::`. `fuel` bounds the terms in one
another. -/
def path (inValue : Bool) : (fuel : Nat) → Print Unit
  | 0 => return ()
  | fuel + 1 =>
    reading enter fun _ => reading next fun tag =>
      match tag with
      | 'C' => reading disambiguator fun n => reading name fun name => do
        writeAll name.pieces
        if n ≠ 0 then
          write "["
          write (String.ofList (Text.natDigits 16 n))
          write "]"
        leave
      | 'N' => reading nameSpace fun space => do
        path inValue fuel
        if ← isFaulty then write "::"
        reading disambiguator fun n => reading name fun name => do
          match space with
          | some c =>
            write "::\x7b"
            write (if c = 'C' then "closure" else if c = 'S' then "shim" else String.singleton c)
            unless name.isEmpty do
              write ":"
              writeAll name.pieces
            write "#"
            write (Text.decimal n)
            write "\x7d"
          | none =>
            unless name.isEmpty do
              write "::"
              writeAll name.pieces
          leave
      | 'M' => reading disambiguator fun _ => do
        silently (path false fuel)
        write "<"
        type fuel
        write ">"
        leave
      | 'X' => reading disambiguator fun _ => do
        silently (path false fuel)
        write "<"
        type fuel
        write " as "
        path false fuel
        write ">"
        leave
      | 'Y' => do
        write "<"
        type fuel
        write " as "
        path false fuel
        write ">"
        leave
      | 'I' => do
        path inValue fuel
        if inValue then write "::"
        write "<"
        let _ ← items ", " (argument fuel)
        write ">"
        leave
      | 'B' => do
        referred (path inValue fuel)
        leave
      | _ => fail .malformed

/-- Prints a generic argument. -/
def argument : (fuel : Nat) → Print Unit
  | 0 => return ()
  | fuel + 1 => do
    if ← eat 'L' then reading number lifetime
    else if ← eat 'K' then constant false fuel
    else type fuel

/-- Prints a type. -/
def type : (fuel : Nat) → Print Unit
  | 0 => return ()
  | fuel + 1 =>
    reading next fun tag =>
      match basicType? tag with
      | some s => write s
      | none => reading enter fun _ => do
        match tag with
        | 'R' =>
          write "&"
          afterLifetime do
            type fuel
            leave
        | 'Q' =>
          write "&"
          afterLifetime do
            write "mut "
            type fuel
            leave
        | 'P' =>
          write "*"
          write "const "
          type fuel
          leave
        | 'O' =>
          write "*"
          write "mut "
          type fuel
          leave
        | 'A' =>
          write "["
          type fuel
          write "; "
          constant true fuel
          write "]"
          leave
        | 'S' =>
          write "["
          type fuel
          write "]"
          leave
        | 'T' =>
          write "("
          let count ← items ", " (type fuel)
          if count = 1 then write ","
          write ")"
          leave
        | 'F' =>
          binding (function fuel)
          leave
        | 'D' =>
          write "dyn "
          binding (do
            let _ ← items " + " (bound fuel))
          if ← eat 'L' then
            reading number fun n => do
              if n ≠ 0 then
                write " + "
                lifetime n
              leave
          else fail .malformed
        | 'B' =>
          referred (type fuel)
          leave
        | 'W' =>
          type fuel
          write " is "
          pattern fuel
          leave
        | _ =>
          modify fun p =>
            { p with cursor := p.cursor.map fun cursor => { cursor with index := cursor.index - 1 } }
          path false fuel
          leave

/-- Prints the signature of a function. -/
def function : (fuel : Nat) → Print Unit
  | 0 => return ()
  | fuel + 1 => do
    let isUnsafe ← eat 'U'
    let signature : Print Unit := do
      write "fn("
      let _ ← items ", " (type fuel)
      write ")"
      unless ← eat 'u' do
        write " -> "
        type fuel
    let marks : Print Unit := if isUnsafe then write "unsafe " else return ()
    if ← eat 'K' then
      if ← eat 'C' then
        marks
        convention ['C']
        signature
      else
        reading name fun name => do
          if name.basic.isEmpty || !name.distances.isEmpty then fail .malformed
          else
            marks
            convention name.basic
            signature
    else
      marks
      signature

/-- Prints a trait that a type is known by, with the types associated with it. -/
def bound : (fuel : Nat) → Print Unit
  | 0 => return ()
  | fuel + 1 => do
    associated (type fuel) (← openPath fuel) (← read).size

/-- Prints a path; whether its generic arguments are left open for more of them. -/
def openPath : (fuel : Nat) → Print Bool
  | 0 => return false
  | fuel + 1 => do
    if ← eat 'B' then referred (openPath fuel)
    else if ← eat 'I' then
      path false fuel
      write "<"
      let _ ← items ", " (argument fuel)
      return true
    else
      path false fuel
      return false

/-- Prints a pattern that restricts a type. -/
def pattern : (fuel : Nat) → Print Unit
  | 0 => return ()
  | fuel + 1 =>
    reading next fun tag => do
      match tag with
      | 'R' =>
        constant false fuel
        write "..="
        constant false fuel
      | 'O' =>
        reading enter fun _ => do
          let _ ← items " | " (pattern fuel)
          leave
      | 'N' => write "!null"
      | _ => fail .malformed

/-- Prints a constant. Outside of values, all but literals stand in braces. -/
def constant (inValue : Bool) : (fuel : Nat) → Print Unit
  | 0 => return ()
  | fuel + 1 =>
    let braced (body : Print Unit → Print Unit) : Print Unit :=
      if inValue then body (return ()) else do
        write "\x7b"
        body (write "\x7d")
    reading next fun tag => reading enter fun _ => do
      match tag with
      | 'p' =>
        write "_"
        leave
      | 'h' | 't' | 'm' | 'y' | 'o' | 'j' =>
        integer tag
        leave
      | 'a' | 's' | 'l' | 'x' | 'n' | 'i' =>
        if ← eat 'n' then write "-"
        integer tag
        leave
      | 'b' =>
        reading hexDigits fun digits => do
          match word? digits with
          | some 0 =>
            write "false"
            leave
          | some 1 =>
            write "true"
            leave
          | _ => fail .malformed
      | 'c' =>
        reading hexDigits fun digits => do
          let n := (word? digits).getD 0xD800
          if n.isValidChar then
            writeQuoted '\'' [Char.ofNat n]
            leave
          else fail .malformed
      | 'e' =>
        braced fun close => do
          write "*"
          textLiteral
          close
          leave
      | 'R' =>
        if ← eat 'e' then
          textLiteral
          leave
        else
          braced fun close => do
            write "&"
            constant true fuel
            close
            leave
      | 'Q' =>
        braced fun close => do
          write "&"
          write "mut "
          constant true fuel
          close
          leave
      | 'A' =>
        braced fun close => do
          write "["
          let _ ← items ", " (constant true fuel)
          write "]"
          close
          leave
      | 'T' =>
        braced fun close => do
          write "("
          let count ← items ", " (constant true fuel)
          if count = 1 then write ","
          write ")"
          close
          leave
      | 'V' =>
        braced fun close => do
          path true fuel
          reading next fun shape => do
            match shape with
            | 'U' =>
              close
              leave
            | 'T' =>
              write "("
              let _ ← items ", " (constant true fuel)
              write ")"
              close
              leave
            | 'S' =>
              write " \x7b "
              let _ ← items ", " (reading disambiguator fun _ => reading name fun name => do
                writeAll name.pieces
                write ": "
                constant true fuel)
              write " \x7d"
              close
              leave
            | _ => fail .malformed
      | 'B' =>
        referred (constant inValue fuel)
        leave
      | _ => fail .malformed

end

/-! ### Symbols -/

/-- More than the readers that can stand in one another: at most three of them to a term. -/
def enoughFuel : Nat := 4 * (maxDepth + 1)

/-- The room for a path, in bytes. -/
def maxSize : Nat := 1000000

/-- Reads a path without printing it: the place behind it. -/
def endOfPath? (symbol : Array Char) (cursor : Cursor) : Option Cursor :=
  match (path false enoughFuel).run symbol |>.run ⟨.ok cursor, [], 0, 0, true⟩ with
  | .ok _ p => p.cursor.toOption
  | .error _ p => p.cursor.toOption

/-- The text of the path that a symbol starts with, as far as there is room for it. -/
def text (symbol : Array Char) : String :=
  let join (p : Printer) := String.join p.written.reverse
  match (path true enoughFuel).run symbol |>.run ⟨.ok ⟨0, 0⟩, [], maxSize, 0, false⟩ with
  | .ok _ p => join p
  | .error _ p => join p ++ "\x7bsize limit reached\x7d"

/-- The path that a symbol stands for, after its mark, and what follows it. The path of the unit that
asked for a generic thing may stand behind the path; it is not shown. -/
def demangle? (cs : List Char) : Option (String × List Char) := do
  let isCapital (c : Char) : Bool := 'A' ≤ c && c ≤ 'Z'
  unless (cs.head?.map isCapital).getD false do none
  if cs.any fun c => 0x80 ≤ c.toNat then none
  let symbol := cs.toArray
  let after ← endOfPath? symbol ⟨0, 0⟩
  let isFollowed := (symbol[after.index]?.map isCapital).getD false
  let after ← if isFollowed then endOfPath? symbol after else some after
  return (text symbol, cs.drop after.index)

end DebugAdapter.Elf.MangledPath
