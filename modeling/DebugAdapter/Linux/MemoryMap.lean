import DebugAdapter.Debuggee.Error
import DebugAdapter.Text.Path
import DebugAdapter.Text.Utf8
import DebugAdapter.Text.Words

/-!
# Memory maps

The file that lists the mappings of a process: a line for each with its address range, access
rights, offset, device, inode, and the path of the mapped file if there is one. The list ends at the
first blank line.
-/

namespace DebugAdapter.Linux

open Debuggee (DebugError)

/-- A mapping of a file. -/
structure Mapping where
  start : Nat
  stop : Nat
  path : String
  deriving Repr, DecidableEq

namespace Mapping

/-- The addresses of a mapping, written with a hyphen between them. -/
def range? (word : String) : Option (Nat × Nat) :=
  match (word.splitOn "-") with
  | start :: stop :: _ => do
    let start ← Text.readNatural? 16 wordLimit start.toList
    let stop ← Text.readNatural? 16 wordLimit stop.toList
    return (start, stop)
  | _ => none

/-- The mapping on a line, given by its words; the path may be empty. -/
def ofWords? : List String → Option Mapping
  | range :: _ :: offset :: _ :: inode :: path => do
    let (start, stop) ← range? range
    let _ ← Text.readNatural? 16 wordLimit offset.toList
    let _ ← Text.readNatural? 10 wordLimit inode.toList
    return ⟨start, stop, " ".intercalate path⟩
  | _ => none

/-- The mappings on lines up to the first blank one. -/
def ofLines : List String → Except DebugError (List Mapping)
  | [] => .ok []
  | line :: r =>
    match Text.blankWords line with
    | [] => .ok []
    | words =>
      match ofWords? words with
      | none => .error (.data .malformed)
      | some m => (ofLines r).map (m :: ·)

/-- The mappings in a memory map. -/
def ofText (text : String) : Except DebugError (List Mapping) :=
  ofLines (text.splitOn "\n")

/-- The mappings of files with an absolute path, in the memory map of a process. -/
def ofFile (file : Except OsError Bytes) : Except DebugError (List Mapping) := do
  match file with
  | .error e => throw (.io e)
  | .ok data =>
    match Text.Utf8.decode? data with
    | none => throw (.data .notText)
    | some text => return (← ofText text).filter fun m => Text.Path.isAbsolute m.path

end Mapping

end DebugAdapter.Linux
