/-!
# File paths

Paths are texts; two texts name the same path if their components agree. Repeated and trailing
slashes and the component `.` (except at the start of a relative path) have no effect; `..` stays
as it is.
-/

namespace DebugAdapter.Text.Path

/-- A component of a path. -/
inductive Component where
  | root
  | here
  | parent
  | normal (name : String)
  deriving Repr, DecidableEq

/-- The texts between slashes. -/
def pieces (cs : List Char) : List (List Char) :=
  cs.foldr
    (fun c acc =>
      if c = '/' then [] :: acc
      else match acc with
        | p :: r => (c :: p) :: r
        | [] => [[c]])
    [[]]

/-- Whether a path starts at the root. -/
def isAbsolute (path : String) : Bool :=
  path.toList.head? == some '/'

/-- The component that a text between slashes stands for, if any. -/
def componentOf (piece : List Char) : Option Component :=
  if piece.isEmpty || piece == ['.'] then none
  else if piece == ['.', '.'] then some .parent
  else some (.normal (String.ofList piece))

/-- The components of a path. -/
def components (path : String) : List Component :=
  let ps := pieces path.toList
  let body := ps.filterMap componentOf
  if isAbsolute path then .root :: body
  else if ps.head? == some ['.'] then .here :: body
  else body

/-- Whether two texts name the same path. -/
def same (a b : String) : Bool :=
  components a == components b

/-- The place of a kind of component in the order of paths. -/
def Component.rank : Component → Nat
  | .root => 0
  | .here => 1
  | .parent => 2
  | .normal _ => 3

/-- Whether a component comes before another one: names are ordered by their characters. -/
def Component.before : Component → Component → Bool
  | .normal a, .normal b => a < b
  | a, b => a.rank < b.rank

/-- Whether components come before others in the order of paths. -/
def componentsBefore : List Component → List Component → Bool
  | _, [] => false
  | [], _ :: _ => true
  | a :: r, b :: s => a.before b || (a == b && componentsBefore r s)

/-- Whether a path comes before another one, component by component. -/
def before (a b : String) : Bool :=
  componentsBefore (components a) (components b)

/-- The last component, if it is a name. -/
def fileName? (path : String) : Option String :=
  match (components path).getLast? with
  | some (.normal name) => some name
  | _ => none

/-- Drops slashes and components without effect from the end (given in reverse) of a path whose
first `keep` characters stay. -/
def dropTrailing (keep : Nat) : (fuel : Nat) → List Char → List Char
  | 0, r => r
  | fuel + 1, r =>
    if r.length ≤ keep then r
    else match r with
      | '/' :: t => dropTrailing keep fuel t
      | ['.'] => if keep = 0 then ['.'] else r
      | '.' :: '/' :: t => dropTrailing keep fuel ('/' :: t)
      | _ => r

/-- The part of a path before its last component, as written; `none` if there is no component but
the root. -/
def parent? (path : String) : Option String :=
  match (components path).getLast? with
  | none => none
  | some .root => none
  | some _ =>
    let keep := if isAbsolute path then 1 else 0
    let cs := path.toList
    let body := dropTrailing keep (cs.length + 1) cs.reverse
    let before := body.dropWhile (· ≠ '/')
    some (String.ofList (dropTrailing keep (cs.length + 1) before).reverse)

end DebugAdapter.Text.Path
