import DebugAdapter.Engine.Traced
import DebugAdapter.Linux.ScriptedKernel
import DebugAdapter.Program.Host
import DebugAdapter.Server

/-!
# The program

The host of the operating system: files, environment, standard streams, and descriptors by their
entries below `/dev/fd`. Frames are read one at a time, and what a session wrote is handed on after
every turn, so the program can be talked to. Everything that is decided is decided elsewhere.
-/

namespace DebugAdapter.Program

open Engine (Traced.Engine)
open Linux (OsError ScriptedKernel)
open Session (Settings)
open Wire (Framing Outbox Sink Stream)

/-- The error number of a failed file operation. -/
def osErrorOf : IO.Error → OsError
  | .noFileOrDirectory .. => .noEntry
  | .inappropriateType .. => .isDirectory
  | .permissionDenied .. => .accessDenied
  | _ => .inputOutput

/-- Runs an operation on a file. -/
def attempting {α : Type} (op : IO α) : IO (Except OsError α) := do
  try
    return .ok (← op)
  catch e =>
    return .error (osErrorOf e)

/-- Bytes as they are read and written by the system. -/
def packed (bs : Bytes) : ByteArray := ⟨bs.toArray⟩

/-- Reads a number of bytes, or fewer if the stream ends. -/
partial def readExactly (input : IO.FS.Stream) (count : Nat) : IO Bytes := do
  if count = 0 then return []
  let chunk ← input.read (USize.ofNat (min count 65536))
  if chunk.isEmpty then return []
  return chunk.toList ++ (← readExactly input (count - chunk.size))

/-- Reads a line with its end, or the rest of the stream. -/
partial def readRawLine (input : IO.FS.Stream) (read : Array UInt8) : IO Bytes := do
  let chunk ← input.read 1
  match chunk.toList with
  | [] => return read.toList
  | b :: _ => if b == 10 then return (read.push b).toList else readRawLine input (read.push b)

/-- Reads the bytes of the next frame, or what there is of it. Blank lines are passed over. -/
partial def readNext (framing : Framing) (limit : Nat) (input : IO.FS.Stream) : IO Bytes := do
  match framing with
  | .binary =>
    let header ← readExactly input Framing.headerLength
    let length := Bytes.toNat header
    if header.length < Framing.headerLength || limit < length then return header
    return header ++ (← readExactly input length)
  | .line =>
    let line ← readRawLine input #[]
    if line.getLast? == some 10 && line.length ≤ limit && line.all Stream.isBlankByte then
      readNext framing limit input
    else return line

/-- The session of the program. -/
abbrev LiveSession := Session (Traced.Engine ScriptedKernel)

/-- Hands on what a session wrote. Once the output is broken nothing can be written any more. -/
def handOn (output : IO.FS.Stream) (log : Option IO.FS.Handle) (s : LiveSession) :
    IO LiveSession := do
  if let (some h, some text) := (log, s.outbox.trace) then
    h.putStr text
    h.flush
  let sink : Sink ← try
      output.write (packed s.outbox.sink.written)
      output.flush
      pure { s.outbox.sink with written := [] }
    catch _ => pure { s.outbox.sink with written := [], budget := some 0 }
  return { s with outbox := { s.outbox with sink, trace := s.outbox.trace.map fun _ => "" } }

/-- Takes turns until serving is over. -/
partial def converse (framing : Framing) (limit : Nat) (input output : IO.FS.Stream)
    (log : Option IO.FS.Handle) (s : LiveSession) : IO LiveSession := do
  let (rest, s) := Server.turn framing limit (.ofBytes (← readNext framing limit input)) s
  let s ← handOn output log s
  match rest with
  | some _ => converse framing limit input output log s
  | none => return s

/-- Serves a session. -/
def serveStreams (settings : Settings) (framing : Framing) (input output : IO.FS.Stream)
    (trace : Option String) : IO Unit := do
  let log ← trace.mapM fun path => IO.FS.Handle.mk path .append
  let outbox : Outbox := ⟨framing, .unlimited, trace.map fun _ => ""⟩
  let engine : Traced.Engine ScriptedKernel := ⟨.empty, []⟩
  let s ← handOn output log (Server.start (Session.start engine settings outbox))
  let s ← converse framing settings.transport.maxFrame input output log s
  let _ ← handOn output log ((Server.finish : Session.Action _ Unit).run s).2

/-- Opens an inherited descriptor that is not one of the standard ones. -/
def openDescriptor (mode : IO.FS.Mode) (n : Int) : IO (Option IO.FS.Stream) := do
  match ← attempting (IO.FS.Handle.mk ("/dev/fd/" ++ Text.decimalInt n) mode) with
  | .ok h => return some (.ofHandle h)
  | .error _ => return none

/-- The host of the operating system. -/
def systemHost (input output : IO.FS.Stream) : Host IO IO.FS.Stream IO.FS.Stream where
  environment name := IO.getEnv name
  readFile path := return (← attempting (IO.FS.readBinFile path)).map (·.toList)
  openLog path := return (← attempting (IO.FS.Handle.mk path .append)).map fun _ => ()
  standardInput := input
  standardOutput := output
  openInput n := if n = 0 then return some input else openDescriptor .read n
  openOutput n := if n = 1 then return some output else openDescriptor .append n
  print text := do
    output.putStr text
    output.flush
  complain text := IO.eprintln ("Error: " ++ text)
  serve := serveStreams

end DebugAdapter.Program

/-- Runs the program. -/
def main (args : List String) : IO UInt32 := do
  let host := DebugAdapter.Program.systemHost (← IO.getStdin) (← IO.getStdout)
  return UInt32.ofNat (← DebugAdapter.Program.run host args)
