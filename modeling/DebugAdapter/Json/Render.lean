import DebugAdapter.Json.Basic
import DebugAdapter.Decimal.Shortest

/-!
# JSON text

The compact text of a value: no blanks, members in their stored order. In strings the quote, the
backslash and the control characters are escaped, all other characters stand for themselves, so a
rendered document never holds a line feed.
-/

namespace DebugAdapter.Json

/-- A character inside a string literal. -/
def escape (c : Char) : List Char :=
  if c = '"' then ['\\', '"']
  else if c = '\\' then ['\\', '\\']
  else if c = '\n' then ['\\', 'n']
  else if c = '\r' then ['\\', 'r']
  else if c = '\t' then ['\\', 't']
  else if c.toNat = 8 then ['\\', 'b']
  else if c.toNat = 12 then ['\\', 'f']
  else if c.toNat < 32 then
    ['\\', 'u', '0', '0', Nat.digitChar (c.toNat / 16), Nat.digitChar (c.toNat % 16)]
  else [c]

/-- A string literal. -/
def quote (s : String) : String :=
  "\"" ++ String.ofList (s.toList.flatMap escape) ++ "\""

/-- The text of a number. -/
def Number.text : Number → String
  | .integer i => Text.decimalInt i
  | .binary bits => Decimal.binary64Text bits

mutual

/-- The compact text of a value. -/
def render : Json → String
  | .null => "null"
  | .bool true => "true"
  | .bool false => "false"
  | .num n => n.text
  | .str s => quote s
  | .arr [] => "[]"
  | .arr (v :: r) => "[" ++ render v ++ renderItems r ++ "]"
  | .obj [] => "\x7b\x7d"
  | .obj ((n, v) :: r) => "\x7b" ++ quote n ++ ":" ++ render v ++ renderMembers r ++ "\x7d"

/-- The items after the first one, each after a comma. -/
def renderItems : List Json → String
  | [] => ""
  | v :: r => "," ++ render v ++ renderItems r

/-- The members after the first one, each after a comma. -/
def renderMembers : List (String × Json) → String
  | [] => ""
  | (n, v) :: r => "," ++ quote n ++ ":" ++ render v ++ renderMembers r

end

end DebugAdapter.Json
