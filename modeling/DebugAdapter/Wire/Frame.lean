import DebugAdapter.Bytes
import DebugAdapter.Text.Utf8
import DebugAdapter.Linux.OsError

/-!
# Frames

How payloads are cut out of a byte stream. In binary framing a payload follows its length (four
bytes, lowest first); in line framing it is one line, and lines of blanks are skipped. Written lines
carry the mark `OUTPUT: `.

A reader leaves the stream behind what it took, also when it refuses a frame: behind the header of
a frame that is too large, behind a line that is too long. A stream that ends within a frame ends
there for good.

Main statement: `readFrame_encode_binary`, the frame of a payload within the limit is read back and
the stream left behind it.
-/

namespace DebugAdapter.Wire

open Linux (OsError)

/-- Why a frame was not read or written. -/
inductive FrameError where
  /-- A frame of the given length is above the limit. -/
  | tooLarge (length limit : Nat)
  /-- A payload whose length does not fit the header. -/
  | unframable (length : Nat)
  /-- The stream or the sink failed. -/
  | io (e : OsError)
  deriving Repr, DecidableEq

/-- The wording of a frame error. -/
def FrameError.message : FrameError → String
  | tooLarge n limit =>
    "frame length " ++ Text.decimal n ++ " exceeds limit " ++ Text.decimal limit
  | unframable n => "payload of " ++ Text.decimal n ++ " bytes can't be framed"
  | io e => e.fileText

/-- How payloads are framed. -/
inductive Framing where
  | binary
  | line
  deriving Repr, DecidableEq

namespace Framing

/-- The name of a framing. -/
def name : Framing → String
  | binary => "Binary"
  | line => "Line"

/-- The mark before a written line: `OUTPUT: `. -/
def lineMark : Bytes :=
  [79, 85, 84, 80, 85, 84, 58, 32]

/-- The bytes of a length header. -/
def headerLength : Nat := 4

/-- The frame of a payload. -/
def encode (f : Framing) (payload : Bytes) : Except FrameError Bytes :=
  match f with
  | binary =>
    if payload.length < byteLimit headerLength then
      .ok (Bytes.littleEndian headerLength payload.length ++ payload)
    else .error (.unframable payload.length)
  | line => .ok (lineMark ++ payload ++ [10])

end Framing

/-- A byte stream: the bytes still to come, and the error it gives instead of its end, if any. -/
structure Stream where
  rest : Bytes
  failure : Option OsError
  deriving Repr, DecidableEq

/-- What a reader found. -/
inductive ReadResult where
  | payload (p : Bytes)
  | endOfStream
  | failed (e : FrameError)
  deriving Repr, DecidableEq

namespace Stream

/-- A stream that ends after the given bytes. -/
def ofBytes (bs : Bytes) : Stream :=
  ⟨bs, none⟩

/-- What a reader finds that runs into the end of the stream. -/
def atEnd (s : Stream) : ReadResult :=
  match s.failure with
  | none => .endOfStream
  | some e => .failed (.io e)

/-- The first `n` bytes, or `none` if there are fewer. -/
def splitAt? (n : Nat) (bs : Bytes) : Option (Bytes × Bytes) :=
  if n ≤ bs.length then some (bs.splitAt n) else none

/-- Reads a payload behind its length. -/
def readBinary (limit : Nat) (s : Stream) : ReadResult × Stream :=
  match splitAt? Framing.headerLength s.rest with
  | none => (s.atEnd, ⟨[], s.failure⟩)
  | some (header, rest) =>
    let n := Bytes.toNat header
    if limit < n then (.failed (.tooLarge n limit), ⟨rest, s.failure⟩)
    else match splitAt? n rest with
      | none => (s.atEnd, ⟨[], s.failure⟩)
      | some (payload, rest) => (.payload payload, ⟨rest, s.failure⟩)

/-- The blank bytes of a line. -/
def isBlankByte (b : UInt8) : Bool :=
  b == 32 || b == 9 || b == 10 || b == 12 || b == 13

/-- A line without the line feeds and carriage returns at its end. -/
def stripLineEnd (line : Bytes) : Bytes :=
  (line.reverse.dropWhile (fun b => b == 10 || b == 13)).reverse

/-- Reads the next line that is not blank; a step takes at least one byte, so the length of the
stream bounds their number. -/
def readLineWith (limit : Nat) : (fuel : Nat) → Stream → ReadResult × Stream
  | 0, s => (s.atEnd, s)
  | fuel + 1, s =>
    let body := s.rest.takeWhile (· != 10)
    match s.rest.dropWhile (· != 10) with
    | [] =>
      let last := stripLineEnd body
      match s.failure with
      | some e => (.failed (.io e), ⟨[], s.failure⟩)
      | none =>
        if body.isEmpty then (.endOfStream, ⟨[], s.failure⟩)
        else if limit < body.length then (.failed (.tooLarge body.length limit), ⟨[], s.failure⟩)
        else if last.all isBlankByte then (.endOfStream, ⟨[], s.failure⟩)
        else (.payload last, ⟨[], s.failure⟩)
    | _ :: rest =>
      let line := stripLineEnd body
      if limit < body.length + 1 then
        (.failed (.tooLarge (body.length + 1) limit), ⟨rest, s.failure⟩)
      else if line.all isBlankByte then readLineWith limit fuel ⟨rest, s.failure⟩
      else (.payload line, ⟨rest, s.failure⟩)

/-- Reads the next line that is not blank. -/
def readLine (limit : Nat) (s : Stream) : ReadResult × Stream :=
  readLineWith limit (s.rest.length + 1) s

/-- Reads the next payload of at most `limit` bytes. -/
def readFrame (f : Framing) (limit : Nat) (s : Stream) : ReadResult × Stream :=
  match f with
  | .binary => s.readBinary limit
  | .line => s.readLine limit

theorem splitAt?_append (a b : Bytes) : splitAt? a.length (a ++ b) = some (a, b) := by
  simp [splitAt?]

/-- The frame of a payload within the limit is read back, and the stream left behind it. -/
theorem readFrame_encode_binary {payload frame rest : Bytes} {limit : Nat}
    {failure : Option OsError} (h : Framing.encode .binary payload = .ok frame)
    (hl : payload.length ≤ limit) :
    readFrame .binary limit ⟨frame ++ rest, failure⟩ = (.payload payload, ⟨rest, failure⟩) := by
  simp only [Framing.encode] at h
  split at h
  · rename_i hlt
    cases h
    have h1 := splitAt?_append (Bytes.littleEndian Framing.headerLength payload.length)
      (payload ++ rest)
    rw [Bytes.length_littleEndian] at h1
    simp [readFrame, readBinary, h1, Bytes.toNat_littleEndian hlt, Nat.not_lt.2 hl,
      splitAt?_append]
  · cases h

end Stream

end DebugAdapter.Wire
