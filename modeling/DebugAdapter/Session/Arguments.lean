import DebugAdapter.Bytes
import DebugAdapter.Json.Render
import DebugAdapter.Text.Quoted
import DebugAdapter.Text.Utf8
import DebugAdapter.Text.Words

/-!
# Arguments of commands

A command takes its arguments from the members of the request document. Each argument is a `Field`
with a name, a reader and perhaps a default. Of several faults the one is reported that comes first
by the names of the members; that a member is missing is reported last.
-/

namespace DebugAdapter.Session

/-- Why an argument is refused. -/
inductive ArgumentError where
  /-- A value of another type than the expected one. -/
  | wrongType (found : Json) (expected : String)
  /-- A value of the expected type that is out of range. -/
  | wrongValue (found : Json) (expected : String)
  /-- A value that is none of several alternatives, which have a common name. -/
  | noAlternative (name : String)
  | invalidAddress (text : String)
  | missing (name : String)

/-- How a value of a wrong type is shown: scalars with their value, others by their shape. -/
def foundText : Json → String
  | .null => "null"
  | .bool true => "boolean `true`"
  | .bool false => "boolean `false`"
  | .num (.integer i) => "integer `" ++ Text.decimalInt i ++ "`"
  | .num (.binary bits) => "floating point `" ++ Decimal.binary64Text bits ++ "`"
  | .str s => "string " ++ Text.quoted s
  | .arr _ => "sequence"
  | .obj _ => "map"

/-- The wording of a refused argument. -/
def ArgumentError.message : ArgumentError → String
  | wrongType found expected =>
    "invalid type: " ++ foundText found ++ ", expected " ++ expected
  | wrongValue found expected =>
    "invalid value: " ++ foundText found ++ ", expected " ++ expected
  | noAlternative name => "data did not match any variant of untagged enum " ++ name
  | invalidAddress text => "invalid address '" ++ text ++ "'"
  | missing name => "missing field `" ++ name ++ "`"

/-- Reads a value as an argument. -/
abbrev Reader (α : Type) := Json → Except ArgumentError α

namespace Reader

/-- A text. -/
def text : Reader String
  | .str s => .ok s
  | j => .error (.wrongType j "a string")

/-- A path. -/
def path : Reader String
  | .str s => .ok s
  | j => .error (.wrongType j "path string")

/-- A truth value. -/
def flag : Reader Bool
  | .bool b => .ok b
  | j => .error (.wrongType j "a boolean")

/-- A natural number below `limit`, of a type with the given name. -/
def natural (limit : Nat) (type : String) : Reader Nat
  | .num (.integer i) =>
    if 0 ≤ i ∧ i < limit then .ok i.toNat else .error (.wrongValue (.num (.integer i)) type)
  | j => .error (.wrongType j type)

/-- A number of 32 bits. -/
def natural32 : Reader Nat := natural halfLimit "u32"

/-- A number of 64 bits. -/
def natural64 : Reader Nat := natural wordLimit "u64"

/-- A length or an index. -/
def size : Reader Nat := natural wordLimit "usize"

/-- A signed number of 64 bits. -/
def signed64 : Reader Int
  | .num (.integer i) =>
    if -(wordSign : Int) ≤ i ∧ i < wordSign then .ok i else .error (.wrongValue (.num (.integer i)) "i64")
  | j => .error (.wrongType j "i64")

/-- Nothing for `null`, else a value. -/
def optional {α : Type} (r : Reader α) : Reader (Option α)
  | .null => .ok none
  | j => (r j).map some

/-- An address or register value: a number, or a numeral in a text. -/
def address : Reader UInt64
  | .num (.integer i) =>
    if 0 ≤ i ∧ i < wordLimit then .ok (UInt64.ofNat i.toNat) else .error (.noAlternative "Raw")
  | .str s =>
    match Text.readAddress? s with
    | some a => .ok a
    | none => .error (.invalidAddress s)
  | _ => .error (.noAlternative "Raw")

/-- The texts of a list that holds only texts. -/
def texts? : List Json → Option (List String)
  | [] => some []
  | .str s :: r => (texts? r).map (s :: ·)
  | _ :: _ => none

/-- Program arguments: a list of texts or a command line. -/
def programArguments : Reader (List String)
  | .arr items =>
    match texts? items with
    | some list => .ok list
    | none => .error (.noAlternative "ProgramArgs")
  | .str line => .ok (Text.splitCommandLine line)
  | _ => .error (.noAlternative "ProgramArgs")

/-- The bytes of a list that holds only bytes. -/
def bytes? : List Json → Option Bytes
  | [] => some []
  | .num (.integer i) :: r =>
    if 0 ≤ i ∧ i < 256 then (bytes? r).map (UInt8.ofNat i.toNat :: ·) else none
  | _ :: _ => none

/-- Data for the process: a list of bytes or a text. -/
def data : Reader Bytes
  | .arr items =>
    match bytes? items with
    | some list => .ok list
    | none => .error (.noAlternative "SendData")
  | .str s => .ok (Text.Utf8.encode s)
  | _ => .error (.noAlternative "SendData")

end Reader

/-- An argument of a command: its name, how it is read, and what it is when missing. -/
structure Field (α : Type) where
  name : String
  read : Reader α
  default? : Option α

/-- An argument that must be there. -/
def Field.required {α : Type} (name : String) (read : Reader α) : Field α :=
  ⟨name, read, none⟩

/-- An argument with a default. -/
def Field.withDefault {α : Type} (name : String) (read : Reader α) (default : α) : Field α :=
  ⟨name, read, some default⟩

/-- An argument that may be missing or `null`. -/
def Field.optional {α : Type} (name : String) (read : Reader α) : Field (Option α) :=
  ⟨name, read.optional, some none⟩

/-- The argument in a document. -/
def Field.get {α : Type} (f : Field α) (doc : Json.Members) : Except ArgumentError α :=
  match Json.lookup f.name doc with
  | some j => f.read j
  | none =>
    match f.default? with
    | some a => .ok a
    | none => .error (.missing f.name)

/-- A test of the member with a name. -/
structure Check where
  name : String
  test : Json → Except ArgumentError Unit

/-- The test that a field makes of its member. -/
def Field.check {α : Type} (f : Field α) : Check :=
  ⟨f.name, fun j => (f.read j).map fun _ => ()⟩

/-- Tests the members of a document in order; the first fault is reported. -/
def checkMembers (checks : List Check) : Json.Members → Except ArgumentError Unit
  | [] => .ok ()
  | (name, v) :: r =>
    match checks.find? (·.name == name) with
    | some c =>
      match c.test v with
      | .ok () => checkMembers checks r
      | .error e => .error e
    | none => checkMembers checks r

end DebugAdapter.Session
