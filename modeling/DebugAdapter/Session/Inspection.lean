import DebugAdapter.Session.Execution
import DebugAdapter.Session.Views

/-!
# Looking at a process

Commands that select a thread or frame, read and write registers and memory, show code and modules,
and pass raw commands to the engine.
-/

namespace DebugAdapter.Session

open Debuggee (DebugEngine Focus Inquiry Register)
open Wire (DataKind Response)

variable {ε : Type} [DebugEngine ε]

/-! ### Threads and frames -/

/-- The threads of the process. -/
def threads : Action ε Response := do
  let list ← request (← target) .threads "threads"
  return Response.ok.withMember "threads" (.arr (list.map fun th =>
    Json.object [("thread-id", Json.ofNat th.tid), ("state", .str th.reason.name)]))

/-- Selects a thread of the process and its innermost frame. -/
def selectThread (tid : Nat) : Action ε Response := do
  let list ← request (← target) .threads "threads"
  if list.any (·.tid == tid) then
    modifyActive fun a => { a with selectedThread := some tid, selectedFrame := 0 }
    return .ok
  else refuse (.noThread tid)

/-- The call stack of the current thread. -/
def callStack : Action ε Response := do
  let tid ← currentThread
  let frames ← request (← target) (.callStack tid) "unwind"
  return Response.ok.withMember "callstack" (.arr (frames.map frameLine))

/-- Selects a frame of the current thread. -/
def selectFrame (index : Nat) : Action ε Response := do
  let tid ← currentThread
  let frames ← request (← target) (.callStack tid) "unwind"
  if index < frames.length then
    modifyActive fun a => { a with selectedFrame := index }
    return .ok
  else refuse (.frameNotFound index)

/-! ### Registers and memory -/

/-- The registers of the selected frame. -/
def registers : Action ε Response := do
  let tid ← currentThread
  let a ← activeTarget
  let list ← request a.target (.registers tid a.selectedFrame) "read registers"
  return .view .registers (Json.object [("registers",
    Json.object (list.map fun r : Register => (r.name, Json.str (Text.hexWord r.value))))])

/-- Writes a register of the selected frame. -/
def setRegister (name : String) (value : UInt64) : Action ε Response := do
  let tid ← currentThread
  let a ← activeTarget
  match ← tryRequest a.target (.setRegister tid a.selectedFrame name value) with
  | .ok _ => return .ok
  | .error (.registerNotFound _) => refuse .registerNotFound
  | .error e => refuse (.engine "cannot set the register value" e)

/-- Shows a block of memory; its length is limited. -/
def readMemory (addr : UInt64) (length : Nat) : Action ε Response := do
  let limit := (← get).settings.transport.maxRead
  if limit < length then
    refuse (.badRequest ("readMemory: length " ++ Text.decimal length ++
      " is above the limit of " ++ Text.decimal limit ++ " bytes"))
  let data ← request (← target) (.readMemory addr length) "unable to read memory"
  return .view .memory (Json.object [("lines", memoryLines addr data)])

/-- Writes one byte. -/
def writeByte (addr : UInt64) (value : UInt8) : Action ε Response := do
  let written ← request (← target) (.writeMemory addr [value]) "unable to write process memory"
  return ((Response.ok.withMember "address" (Json.ofWord addr)).withMember "value"
    (Json.ofNat value.toNat)).withMember "written" (Json.ofNat written)

/-- Sends data to the standard input of the process. -/
def sendToApplication (data : Bytes) : Action ε Response := do
  let written ← request (← target) (.writeStdin data) "cannot send data to application"
  return Response.ok.withMember "written" (Json.ofNat written)

/-! ### Code -/

/-- Shows instructions from an address on. -/
def disassembly (addr : UInt64) (count : Nat) : Action ε Response := do
  let t ← match (← get).lifecycle with
    | .uninitialized => refuse .noTarget
    | .prepared _ => refuse .noProcess
    | .active a => pure a.target
  let list ← request t (.disassemble addr count) "disassembly failed"
  return .view .disassembly (Json.object [("lines", instructionLines list)])

/-- Shows instructions from the entry point of the main executable on. -/
def mainExecutableDisassembly (count : Nat) : Action ε Response := do
  let t ← target
  let entry ← request t .entryPoint "entry point"
  let list ← request t (.disassemble entry count) "disassembly failed"
  return .view .disassembly
    (Json.object [("entryPoint", Json.ofWord entry), ("lines", instructionLines list)])

/-- Shows the instructions that refer to an address. -/
def findStringReferences (addr : UInt64) : Action ε Response := do
  let t ← target
  unless (← get).capabilities.referenceScan do
    refuse (.unsupported "reference scanning")
  let list ← request t (.findReferences addr) "reference scan"
  return .view .references
    (Json.object [("stringAddress", Json.ofWord addr), ("references", instructionLines list)])

/-! ### Modules -/

/-- How many modules are loaded. -/
def moduleCount : Action ε Response := do
  let ms ← request (← target) .modules "modules"
  return Response.ok.withMember "count" (Json.ofNat ms.length)

/-- Shows the module with an index. -/
def moduleAtIndex (index : Int) : Action ε Response := do
  let ms ← request (← target) .modules "modules"
  let found := if 0 ≤ index then ms[index.toNat]? else none
  match found with
  | some m => return Response.ok.withMember "module" (moduleDocument m)
  | none => refuse .indexOutOfRange

/-- Shows the first module that a path or file name names. -/
def moduleForFile (file : String) : Action ε Response := do
  let ms ← request (← target) .modules "modules"
  match ms.find? (·.matchesFile file) with
  | some m => return Response.ok.withMember "module" (moduleDocument m)
  | none => refuse .moduleNotFound

/-! ### Raw commands -/

/-- The result of an action, without one if it is refused. -/
def attempt {α : Type} (x : Action ε α) : Action ε (Option α) :=
  tryCatch (some <$> x) fun f =>
    match f with
    | .refused _ => return none
    | .crashed text => throw (.crashed text)

/-- Runs an inquiry of the engine. -/
def runInquiry {α : Type} (i : Inquiry α) : Action ε α := do
  let s ← get
  match i.run s.engine with
  | (.ok a, engine) =>
    set { s with engine }
    return a
  | (.error text, engine) =>
    set { s with engine }
    throw (.crashed text)

/-- Passes a raw command to the engine and runs the inquiry it gives back. -/
def executeCommand (line : String) : Action ε Response := do
  let a ← activeTarget
  unless (← get).capabilities.rawCommands do
    refuse (.unsupported "raw engine commands")
  let focus : Focus := ⟨some a.target, ← attempt currentThread, a.selectedFrame⟩
  let result ← match ← perform (.rawCommand focus line) with
    | .ok inquiry => runInquiry inquiry
    | .error e => pure (.failure e.message)
  return ((Response.ok.withMember "output" (.str result.output)).withMember "error"
    (.str result.error)).withMember "succeeded" (.bool result.succeeded)

/-- Completes a raw command. -/
def completeCommand (line : String) (position : Nat) : Action ε Response := do
  let _ ← activeTarget
  unless (← get).capabilities.rawCommands do
    refuse (.unsupported "raw engine commands")
  let completions := match ← perform (.complete line position) with
    | .ok list => list
    | .error _ => []
  return Response.ok.withMember "completions" (.arr (completions.map Json.str))

end DebugAdapter.Session
