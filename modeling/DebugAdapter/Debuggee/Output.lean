import DebugAdapter.Debuggee.Engine

/-!
# Output and input of a debuggee

What a process writes is kept until it is taken. A buffer holds a limited number of bytes; beyond
it the oldest ones are lost. Every chunk that arrives is announced by an event. What is sent to a
process is queued for it.

Main statements: `length_push_le` (a buffer stays within its limit), `push_bytes` (nothing is lost
within the limit) and `take_append` (taking splits the bytes).
-/

namespace DebugAdapter.Debuggee

/-- An output stream of a process. -/
inductive OutputStream where
  | stdout
  | stderr
  deriving Repr, DecidableEq

/-- The event that announces output. -/
def OutputStream.event : OutputStream → Event
  | stdout => .stdout
  | stderr => .stderr

/-- Output that was not taken yet. -/
structure OutputBuffer where
  bytes : Bytes
  deriving Repr, DecidableEq

namespace OutputBuffer

/-- A buffer without output. -/
def empty : OutputBuffer := ⟨[]⟩

/-- The most bytes that a buffer holds. -/
def limit : Nat := 4 * 1024 * 1024

/-- Adds output. -/
def push (b : OutputBuffer) (data : Bytes) : OutputBuffer :=
  let all := b.bytes ++ data
  ⟨all.drop (all.length - limit)⟩

/-- Takes at most `max` bytes, the oldest first. -/
def take (b : OutputBuffer) (max : Nat) : Bytes × OutputBuffer :=
  (b.bytes.take max, ⟨b.bytes.drop max⟩)

/-- A buffer stays within its limit. -/
theorem length_push_le (b : OutputBuffer) (data : Bytes) :
    (b.push data).bytes.length ≤ limit := by
  simp only [push, List.length_drop]
  omega

/-- Within the limit nothing is lost. -/
theorem push_bytes {b : OutputBuffer} {data : Bytes}
    (h : b.bytes.length + data.length ≤ limit) : (b.push data).bytes = b.bytes ++ data := by
  have h0 : b.bytes.length + data.length - limit = 0 := by omega
  simp [push, h0]

/-- Taking splits the bytes. -/
theorem take_append (b : OutputBuffer) (max : Nat) :
    (b.take max).1 ++ (b.take max).2.bytes = b.bytes :=
  List.take_append_drop max b.bytes

end OutputBuffer

/-- The output of a process that was not taken yet. -/
structure ProcessOutput where
  stdout : OutputBuffer
  stderr : OutputBuffer
  deriving Repr, DecidableEq

namespace ProcessOutput

/-- No output. -/
def empty : ProcessOutput := ⟨.empty, .empty⟩

/-- Adds output to a stream. -/
def push (o : ProcessOutput) (s : OutputStream) (data : Bytes) : ProcessOutput :=
  match s with
  | .stdout => { o with stdout := o.stdout.push data }
  | .stderr => { o with stderr := o.stderr.push data }

/-- Takes at most `max` bytes from a stream. -/
def take (o : ProcessOutput) (s : OutputStream) (max : Nat) : Bytes × ProcessOutput :=
  match s with
  | .stdout =>
    let (bs, stdout) := o.stdout.take max
    (bs, { o with stdout })
  | .stderr =>
    let (bs, stderr) := o.stderr.take max
    (bs, { o with stderr })

/-- Adds what a process wrote at once, and the events that announce it. Nothing written is no
news. -/
def receive (o : ProcessOutput) (s : OutputStream) (chunk : Bytes) : ProcessOutput × List Event :=
  if chunk.isEmpty then (o, []) else (o.push s chunk, [s.event])

end ProcessOutput

/-- What was sent to a process and waits to be read by it. -/
structure InputQueue where
  bytes : Bytes
  deriving Repr, DecidableEq

namespace InputQueue

/-- Nothing was sent. -/
def empty : InputQueue := ⟨[]⟩

/-- Sends data, however much is waiting, and counts it. -/
def send (q : InputQueue) (data : Bytes) : Nat × InputQueue :=
  (data.length, ⟨q.bytes ++ data⟩)

end InputQueue

/-- What a target publishes about its process. -/
structure Snapshot where
  state : ProcessState
  stop : Option StopInfo
  exit : Option Int
  pid : Option Nat
  deriving Repr, DecidableEq

namespace Snapshot

/-- There is no process yet. -/
def unloaded : Snapshot := ⟨.unloaded, none, none, none⟩

end Snapshot

end DebugAdapter.Debuggee
