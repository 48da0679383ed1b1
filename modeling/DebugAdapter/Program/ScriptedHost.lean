import DebugAdapter.Engine.Traced
import DebugAdapter.Linux.ScriptedKernel
import DebugAdapter.Program.Host
import DebugAdapter.Server

/-!
# Scripted hosts

A host whose surroundings are data: a file tree, environment variables, and all of standard input.
It has the three standard descriptors; input is a pipe that is only read from, and output and
complaints are pipes that are only written to. Sessions are served by a tracing engine over a machine
with these files and without processes.
-/

namespace DebugAdapter.Program

open Engine (Traced.Engine)
open Linux (FileTree OsError ScriptedKernel)
open Session (Settings)
open Wire (Framing Outbox Sink Stream)

/-- The surroundings of a program. -/
structure ScriptedHost where
  files : FileTree
  /-- The directories in which bare program names are looked up. -/
  searchPath : List String
  environment : List (String × String)
  input : Bytes
  /-- What was written to standard output. -/
  output : Bytes

namespace ScriptedHost

/-- The standard descriptors. -/
inductive Descriptor where
  | stdin
  | stdout
  | stderr
  deriving Repr, DecidableEq

/-- The descriptor with a number. -/
def Descriptor.ofNumber? (n : Int) : Option Descriptor :=
  if n = 0 then some .stdin
  else if n = 1 then some .stdout
  else if n = 2 then some .stderr
  else none

/-- What can be read from a descriptor. -/
def streamOf (h : ScriptedHost) : Descriptor → Stream
  | .stdin => .ofBytes h.input
  | .stdout | .stderr => ⟨[], some .badFile⟩

/-- What can be written to a descriptor. -/
def sinkOf : Descriptor → Sink
  | .stdin => { Sink.unlimited with budget := some 0 }
  | .stdout | .stderr => .unlimited

/-- The engine that serves sessions. -/
def engine (h : ScriptedHost) : Traced.Engine ScriptedKernel :=
  ⟨{ ScriptedKernel.empty with files := h.files, searchPath := h.searchPath }, []⟩

/-- Serves a session to the end of its input. -/
def serve (settings : Settings) (framing : Framing) (input output : Descriptor)
    (trace : Option String) (h : ScriptedHost) : ScriptedHost :=
  let outbox : Outbox := ⟨framing, sinkOf output, trace.map fun _ => ""⟩
  let s := (Server.run (h.streamOf input) (Session.start h.engine settings outbox)).2
  let text := Text.Utf8.encode (s.outbox.trace.getD "")
  let files := match trace with
    | none => h.files
    | some file => (h.files.append file text).toOption.getD h.files
  { h with
    files
    output := if output = .stdout then h.output ++ s.outbox.sink.written else h.output }

/-- The operations of a scripted host. -/
def host : Host (StateM ScriptedHost) Descriptor Descriptor where
  environment name := return (← get).environment.lookup name
  readFile path := return (← get).files.read path
  openLog path := do
    let h ← get
    match h.files.append path [] with
    | .ok files =>
      set { h with files }
      return .ok ()
    | .error e => return .error e
  standardInput := .stdin
  standardOutput := .stdout
  openInput n := return Descriptor.ofNumber? n
  openOutput n := return Descriptor.ofNumber? n
  print text := modify fun h => { h with output := h.output ++ Text.Utf8.encode text }
  complain _ := return ()
  serve settings framing input output trace := modify (serve settings framing input output trace)

end ScriptedHost

end DebugAdapter.Program
