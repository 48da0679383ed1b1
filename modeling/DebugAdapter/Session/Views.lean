import DebugAdapter.Debuggee.Engine
import DebugAdapter.Debuggee.MemoryRows
import DebugAdapter.Json.Basic
import DebugAdapter.Wire.Response

/-!
# Data views

How memory, instructions, call stacks and modules are shown in replies.
-/

namespace DebugAdapter.Session

open Debuggee (Instruction MemoryRow Module Section StackFrame)
open Wire (Response)

/-- The document of a row of memory. -/
def memoryLine (row : MemoryRow) : Json :=
  Json.object [("address", .str (Text.hexWord row.address)), ("bytes", .str row.hexColumn),
    ("ascii", .str row.asciiColumn)]

/-- The rows of memory from `base` on, as documents. -/
def memoryLines (base : UInt64) (data : Bytes) : Json :=
  .arr ((Debuggee.memoryRows base data).map memoryLine)

/-- The document of an instruction. -/
def instructionLine (i : Instruction) : Json :=
  Json.object [("address", Json.ofWord i.address), ("bytes", .str i.bytes.hexSpaced),
    ("instruction", .str i.mnemonic), ("operands", .str i.operands)]

/-- The documents of instructions. -/
def instructionLines (is : List Instruction) : Json :=
  .arr (is.map instructionLine)

/-- The document of a frame of a call stack. -/
def frameLine (f : StackFrame) : Json :=
  Json.object [("pc", Json.ofWord f.pc), ("function", Json.ofString? f.function),
    ("filename", Json.ofString? f.module), ("uuid", Json.ofString? f.uuid)]

/-- The document of a section. -/
def sectionDocument (s : Section) : Json :=
  Json.object [("name", .str s.name), ("fileAddr", Json.ofWord s.fileAddress),
    ("loadAddr", Json.ofWord? s.loadAddress), ("byteSize", Json.ofWord s.byteSize),
    ("fileByteSize", Json.ofWord s.fileByteSize)]

/-- The document of a module. -/
def moduleDocument (m : Module) : Json :=
  Json.object [("uuid", Json.ofString? m.uuid), ("filename", Json.ofString? m.fileName),
    ("path", .str m.path), ("loadAddress", Json.ofWord m.loadAddress),
    ("slide", Json.ofWord? m.slide), ("sections", .arr (m.sections.map sectionDocument))]

/-- The section by which a reply shows where code was loaded: a mapped `.text`, else the first
mapped section. -/
def mappedSection? (m : Module) : Option Section :=
  match m.sections.find? (fun s => s.name == ".text" && s.loadAddress.isSome) with
  | some s => some s
  | none => m.sections.find? (·.loadAddress.isSome)

/-- Adds to a reply where the code of the main executable was loaded, if that can be told. -/
def withSlide (r : Response) (main : Module) : Response :=
  match mappedSection? main with
  | none => r
  | some s =>
    match s.loadAddress with
    | none => r
    | some load =>
      match Debuggee.checkedSub load s.fileAddress with
      | none => r
      | some slide =>
        ((((r.withMember "sectionName" (.str s.name)).withMember "fileAddr"
          (Json.ofWord s.fileAddress)).withMember "loadAddr" (Json.ofWord load)).withMember
          "aslrSlide" (Json.ofWord slide))

end DebugAdapter.Session
