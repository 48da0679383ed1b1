/-!
# Configuration documents

The data of a TOML document: tables of named items. How a table came about matters while a document
is read, because a table may be defined only once: `[name]` defines a table, `a.b = v` opens the
table `a` for more dotted keys, and an inline table is closed at once.
-/

namespace DebugAdapter.Toml

/-- How a table came about. -/
inductive Origin where
  /-- By its own header. -/
  | header
  /-- As the parent of a table with a header. -/
  | implied
  /-- By a dotted key. -/
  | dotted
  deriving Repr, DecidableEq

/-- An item of a document. Of reals and times only the presence counts. -/
inductive Item where
  | text (s : String)
  | integer (i : Int)
  | real
  | flag (b : Bool)
  | time
  | list (items : List Item)
  | inlineTable (entries : List (String × Item))
  | table (origin : Origin) (entries : List (String × Item))
  /-- The tables of an array of tables, last first. -/
  | tables (reversed : List (List (String × Item)))
  deriving Repr, Inhabited

/-- The entries of a table, in order of definition. -/
abbrev Entries := List (String × Item)

namespace Entries

/-- The item with a name. -/
def get? (name : String) (es : Entries) : Option Item :=
  es.lookup name

/-- Puts an item in the place of the one with its name, or at the end. -/
def put (name : String) (v : Item) : Entries → Entries
  | [] => [(name, v)]
  | (n, w) :: r => if n = name then (n, v) :: r else (n, w) :: put name v r

/-- Defines a new item; `none` if there is one with its name. -/
def define? (name : String) (v : Item) (es : Entries) : Option Entries :=
  if (es.get? name).isSome then none else some (es ++ [(name, v)])

end Entries

/-- Defines an item by a dotted key in a table. The tables on the way must be open for dotted keys.
-/
def defineDotted? (v : Item) : (path : List String) → (name : String) → Entries → Option Entries
  | [], name, es => es.define? name v
  | p :: path, name, es =>
    match es.get? p with
    | none => (defineDotted? v path name []).map fun sub => es ++ [(p, .table .dotted sub)]
    | some (.table .dotted sub) =>
      (defineDotted? v path name sub).map fun sub => es.put p (.table .dotted sub)
    | some _ => none

/-- Changes the table at a path of headers, making the tables on the way. -/
def updateAt? (f : Origin → Entries → Option Entries) :
    (path : List String) → Origin → Entries → Option Entries
  | [], origin, es => f origin es
  | p :: path, _, es =>
    match es.get? p with
    | none => (updateAt? f path .implied []).map fun sub => es ++ [(p, .table .implied sub)]
    | some (.table origin sub) =>
      (updateAt? f path origin sub).map fun sub => es.put p (.table origin sub)
    | some (.tables (last :: before)) =>
      (updateAt? f path .header last).map fun sub => es.put p (.tables (sub :: before))
    | some _ => none

/-- Opens the table of a header; a table that is defined already is refused. -/
def openTable? (path : List String) (name : String) : Entries → Option Entries :=
  updateAt? (fun _ es =>
    match es.get? name with
    | none => some (es ++ [(name, .table .header [])])
    | some (.table .implied sub) => some (es.put name (.table .header sub))
    | some _ => none) path .header

/-- Opens a new table of an array of tables. -/
def openArrayTable? (path : List String) (name : String) : Entries → Option Entries :=
  updateAt? (fun _ es =>
    match es.get? name with
    | none => some (es ++ [(name, .tables [[]])])
    | some (.tables ts) => some (es.put name (.tables ([] :: ts)))
    | some _ => none) path .header

end DebugAdapter.Toml
