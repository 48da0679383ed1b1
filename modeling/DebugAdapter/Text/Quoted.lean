import DebugAdapter.Text.Invisible

/-!
# Quoted texts

The quoted form of a text in listings of errors: in double quotes, with the quote, the backslash and
characters without a visible form escaped.
-/

namespace DebugAdapter.Text

/-- A character inside quotes. -/
def escapeQuoted (c : Char) : List Char :=
  if c = '"' then ['\\', '"']
  else if c = '\\' then ['\\', '\\']
  else if c = '\n' then ['\\', 'n']
  else if c = '\r' then ['\\', 'r']
  else if c = '\t' then ['\\', 't']
  else if c.toNat = 0 then ['\\', '0']
  else if isInvisible c then
    ['\\', 'u', '\x7b'] ++ Nat.toDigits 16 c.toNat ++ ['\x7d']
  else [c]

/-- A text in double quotes. -/
def quoted (s : String) : String :=
  "\"" ++ String.ofList (s.toList.flatMap escapeQuoted) ++ "\""

end DebugAdapter.Text
