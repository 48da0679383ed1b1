import DebugAdapter.Bytes
import DebugAdapter.Linux.OsError
import DebugAdapter.Text.Path

/-!
# File trees

A small file system: files, symbolic links and directories by the names on the way to them from the
root, and a working directory where relative paths start. The directories on the way to a file are
there with it. A link is known by the path that it holds; opening it leads nowhere. There are no
permissions.

Main statements: `node?_put_self` (a file that was put in its place is there), `node?_remove_self`
(what was removed is there at most as a directory on the way to something else).
-/

namespace DebugAdapter.Linux

open Text.Path (Component)

/-- The names on the way from the root. -/
abbrev Place := List String

/-- What can be at a place. -/
inductive Node where
  | file (data : Bytes)
  | link (target : String)
  | directory
  deriving Repr, DecidableEq

/-- Files, links and directories, and the working directory. -/
structure FileTree where
  nodes : List (Place × Node)
  workingDirectory : Place
  deriving Repr, DecidableEq, Inhabited

namespace FileTree

/-- What is at a place. -/
def node? (t : FileTree) (place : Place) : Option Node :=
  match t.nodes.lookup place with
  | some n => some n
  | none =>
    if place.isEmpty || t.nodes.any (fun n => place.isPrefixOf n.1) then some .directory else none

/-- Removes the node at a place. -/
def remove (t : FileTree) (place : Place) : FileTree :=
  { t with nodes := t.nodes.filter (·.1 ≠ place) }

/-- Puts a node in its place. -/
def put (t : FileTree) (place : Place) (n : Node) : FileTree :=
  { t with nodes := (place, n) :: (t.remove place).nodes }

/-- The names in a directory that are directories themselves. -/
def subdirectories (t : FileTree) (place : Place) : List String :=
  let below := t.nodes.filterMap fun n =>
    if place.isPrefixOf n.1 then n.1[place.length]? else none
  below.filter fun name => t.node? (place ++ [name]) = some .directory

/-- The bytes that a path may have. -/
def maxPathLength : Nat := 4095

/-- The bytes that a name in a path may have. -/
def maxNameLength : Nat := 255

/-- Follows the components of a path; each but the last must lead to a directory. -/
def follow (t : FileTree) : Place → List Component → Except OsError Place
  | place, [] => .ok place
  | place, c :: r =>
    match t.node? place with
    | none | some (.link _) => .error .noEntry
    | some (.file _) => .error .notDirectory
    | some .directory =>
      match c with
      | .root => t.follow [] r
      | .here => t.follow place r
      | .parent => t.follow place.dropLast r
      | .normal name =>
        if maxNameLength < name.utf8ByteSize then .error .nameTooLong
        else t.follow (place ++ [name]) r

/-- The place that a path names, whether or not there is something. -/
def locate (t : FileTree) (path : String) : Except OsError Place :=
  if path.toList.contains (Char.ofNat 0) then .error .invalid
  else if path.isEmpty then .error .noEntry
  else if maxPathLength < path.utf8ByteSize then .error .nameTooLong
  else t.follow t.workingDirectory (Text.Path.components path)

/-- Whether a path can only name a directory. -/
def namesDirectory (path : String) : Bool :=
  path.endsWith "/" || path.endsWith "/."

/-- The contents of a file. -/
def read (t : FileTree) (path : String) : Except OsError Bytes := do
  let place ← t.locate path
  match t.node? place with
  | none | some (.link _) => throw .noEntry
  | some .directory => throw .isDirectory
  | some (.file data) => if namesDirectory path then throw .notDirectory else return data

/-- The path that a link holds. -/
def linkTarget? (t : FileTree) (path : String) : Option String :=
  match (t.locate path).toOption.bind t.node? with
  | some (.link target) => some target
  | _ => none

/-- Adds to a file, which is made if it is missing. -/
def append (t : FileTree) (path : String) (data : Bytes) : Except OsError FileTree := do
  let place ← t.locate path
  match t.node? place with
  | none => if namesDirectory path then throw .isDirectory else return t.put place (.file data)
  | some (.link _) => throw .noEntry
  | some .directory => throw .isDirectory
  | some (.file before) =>
    if namesDirectory path then throw .notDirectory
    else return t.put place (.file (before ++ data))

/-- The first of some directories that holds a file with a name, with the path to it. -/
def lookUp? (t : FileTree) (directories : List String) (name : String) : Option String :=
  (directories.map (· ++ "/" ++ name)).find? fun path => (t.read path).isOk

/-- A node that was put in its place is there. -/
theorem node?_put_self (t : FileTree) (place : Place) (n : Node) :
    (t.put place n).node? place = some n := by
  simp [node?, put]

/-- What was removed is there at most as a directory on the way to something else. -/
theorem node?_remove_self (t : FileTree) (place : Place) :
    (t.remove place).node? place = none ∨ (t.remove place).node? place = some .directory := by
  have h : (t.remove place).nodes.lookup place = none := by
    rw [List.lookup_eq_none_iff]
    intro p hp
    have hne : p.1 ≠ place := by simpa using (List.mem_filter.1 hp).2
    simpa using hne.symm
  simp only [node?, h]
  split <;> simp

end FileTree

end DebugAdapter.Linux
