import DebugAdapter.Machine.Unwind
import DebugAdapter.Tracer.Stepping

/-!
# Looking at a stopped process

Memory, registers, call stacks, machine code and modules. Memory is shown without the patches of
breakpoints. Breakpoints can also be changed while the process runs: it is stopped for the change.
-/

namespace DebugAdapter.Tracer.Tracing

open Debuggee
open Linux
open Machine (Frame FrameLayout InstructionKind)

variable {κ : Type} [Kernel κ]

/-! ### Memory and code -/

/-- The most bytes of code that are read at once. -/
def maxCode : Nat := 64 * 1024

/-- Reads as many of `length` bytes as possible, without the patches. -/
def readCode (address : UInt64) (length : Nat) : Tracing κ Bytes := do
  let tid ← memoryThread
  let data ← ExceptT.lift (StateT.mk fun s =>
    let (data, kernel) := (Memory.readAvailable tid address length).run s.kernel
    (data, { s with kernel }))
  if data.isEmpty && 0 < length then throw (.memoryAccess address)
  return (← tracer).breakpoints.mask address data

/-- Reads as many of `length` bytes as possible. -/
def readMemory (address : UInt64) (length : Nat) : Tracing κ Bytes := do
  let _ ← stoppedProcess
  readCode address length

/-- Writes bytes. -/
def writeMemory (address : UInt64) (data : Bytes) : Tracing κ Nat := do
  let _ ← stoppedProcess
  patching (fun _ => .memoryAccess address) (Patching.rewrite (← memoryThread) address data)

/-- Disassembles at most `count` instructions. -/
def disassemble (address : UInt64) (count : Nat) : Tracing κ (List Instruction) := do
  let _ ← stoppedProcess
  if count = 0 then return []
  let code ← readCode address (min (count * Machine.maxLength) maxCode)
  return Machine.disassemble code address count

/-! ### Frames -/

/-- Reads a word of memory, if it can be read. -/
def readWord (address : UInt64) : Tracing κ (Option UInt64) := do
  match (← tracer).process.bind (·.memoryThread?) with
  | none => return none
  | some tid =>
    match ← attempt (.peek tid address) with
    | .ok w => return some w
    | .error _ => return none

/-- The innermost frame of a thread. -/
def topFrame (tid : Nat) : Tracing κ Frame := do
  let regs ← registersOf tid
  return ⟨regs.pc, regs.sp, regs.value .rbp⟩

/-- The kind of the instruction at an address, if there is one. -/
def kindAt (address : UInt64) : Tracing κ (InstructionKind × Nat) := do
  let code ← readCode address Machine.maxLength
  ofOutcome (Machine.classify code address)

/-- The function that an address belongs to: its name and its address. -/
def symbolize (address : UInt64) : Tracing κ (Option (String × UInt64)) := do
  onModules (ModuleRegistry.symbolize (← files) address)

/-- The layout of the frame of a function at a program counter. -/
def layoutAt (pc : UInt64) : Tracing κ FrameLayout := do
  let kind ← tryCatch (return (← kindAt pc).1) fun _ => return .other
  match kind with
  | .pushFramePointer | .ret => return .entry
  | .setFramePointer => return .bpPushed
  | .call | .other =>
    match ← symbolize pc with
    | some (_, start) => return if start = pc then .entry else .established
    | none => return .established

/-- The frames of a thread, innermost first. -/
def framesOf (tid : Nat) : Tracing κ (List Frame) := do
  let top ← topFrame tid
  let layout ← layoutAt top.pc
  Machine.unwind readWord layout top

/-- The text form of a frame. A return address may lie after the end of its function, so outer
frames are looked up by the byte before it. -/
def describeFrame (isInnermost : Bool) (frame : Frame) : Tracing κ StackFrame := do
  let function ← symbolize (if isInnermost then frame.pc else frame.pc - 1)
  let module := (← tracer).modules.moduleAt frame.pc
  return ⟨frame.pc, function.map (·.1), module.bind (·.fileName), module.bind (·.uuid)⟩

/-- The call stack of a thread. -/
def callStack (tid : Nat) : Tracing κ (List StackFrame) := do
  let tid ← stoppedThread tid
  if (← tracer).modules.modules.isEmpty then syncModules
  match ← framesOf tid with
  | [] => return []
  | top :: outer =>
    let innermost ← describeFrame true top
    let others ← outer.mapM (describeFrame false)
    return innermost :: others

/-! ### Threads and registers -/

/-- The threads, each with the reason if it reported the last stop. -/
def threads : Tracing κ (List ThreadInfo) := do
  let p ← process
  let stop := (← tracer).snapshot.stop
  return p.threadIds.map fun tid =>
    match stop with
    | some s => ⟨tid, if s.thread = tid then s.reason else .none⟩
    | none => ⟨tid, .none⟩

/-- The registers of a thread as they are in one of its frames. -/
def registers (tid frame : Nat) : Tracing κ (List Register) := do
  let tid ← stoppedThread tid
  let regs ← registersOf tid
  let regs ←
    if frame = 0 then pure regs
    else match (← framesOf tid)[frame]? with
      | some f => pure (((regs.set .rip f.pc).set .rsp f.sp).set .rbp f.bp)
      | none => throw (.frameNotFound frame)
  return regs.toList.map fun (r, v) => ⟨r.name, v⟩

/-- Writes a register of the innermost frame of a thread. -/
def setRegister (tid frame : Nat) (name : String) (value : UInt64) : Tracing κ Unit := do
  let tid ← stoppedThread tid
  if frame ≠ 0 then throw (.unsupported "register write in outer frames")
  match Machine.Register.ofName? name with
  | none => throw (.registerNotFound name)
  | some r =>
    let regs ← registersOf tid
    require .ptrace (.setRegisters tid (regs.set r value))

/-! ### Modules -/

/-- The modules. -/
def modules : Tracing κ (List Module) := do
  let _ ← process
  syncModules
  return (← tracer).modules.modules

/-- The module of the program. -/
def mainModule : Tracing κ (Option Module) := do
  let p ← process
  syncModules
  let modules := (← tracer).modules.modules
  return p.executable.bind fun path => modules.find? fun m => Text.Path.same m.path path

/-- The module of the program, which must be there. -/
def requireMainModule : Tracing κ Module := do
  match ← mainModule with
  | some m => return m
  | none => throw .noMainModule

/-- The address where the program starts. -/
def entryPoint : Tracing κ UInt64 := do
  let main ← requireMainModule
  match ← onModules (ModuleRegistry.image (← files) main.path) with
  | some image => return image.entry + main.slide.getD 0
  | none => throw .noMainModule

/-- The instructions of the program that refer to an address. -/
def findReferences (address : UInt64) : Tracing κ (List Instruction) := do
  let main ← requireMainModule
  let slide := main.slide.getD 0
  let files ← files
  let sections := fun (_ : Unit) => do
    let found ← Elf.codeSections (files main.path)
    return found.map fun (start, code) => (start + slide, code)
  let (found, references) := Machine.findReferences (← tracer).references
    (.new main.path slide address) sections
  modifyTracer fun t => { t with references }
  ofOutcome found

/-! ### Steps -/

/-- Steps a thread. -/
def step (tid : Nat) (kind : StepKind) : Tracing κ Unit := do
  let tid ← stoppedThread tid
  match kind with
  | .instruction => stepInstruction tid .trace
  | .over =>
    let pc ← pcOf tid
    match ← kindAt pc with
    | (.call, length) =>
      -- After the return the stack pointer is what it is before the call.
      let sp ← spOf tid
      runPlan ⟨tid, pc + UInt64.ofNat length, if sp = 0 then 0 else sp - 1⟩
    | _ => stepInstruction tid .planComplete
  | .out =>
    let top ← topFrame tid
    let layout ← layoutAt top.pc
    match ← (layout.caller readWord top).run with
    | some caller => runPlan ⟨tid, caller.pc, top.sp⟩
    | none => throw .returnAddressNotFound

/-! ### Breakpoints -/

/-- Works with all threads stopped; those of a process that ran go on after it. -/
def withAllStopped {α : Type} (work : Nat → Tracing κ α) : Tracing κ α := do
  let wasRunning := (← process).isRunning
  if wasRunning then stopAll
  let tid ← memoryThread
  let result ← outcome (work tid)
  if wasRunning then (← process).threadIds.forM continueThread
  ofOutcome result

/-- Sets a breakpoint. -/
def setBreakpoint (address : UInt64) : Tracing κ BreakpointInfo :=
  withAllStopped fun tid =>
    patching (fun _ => .memoryAccess address) (Patching.addUser tid address)

/-- Removes a breakpoint. -/
def removeBreakpoint (id : Nat) : Tracing κ Unit :=
  withAllStopped fun tid => do
    if !(← patching .ptrace (Patching.removeUser tid id)) then throw (.breakpointNotFound id)

/-- Removes every breakpoint. -/
def removeAllBreakpoints : Tracing κ Unit :=
  withAllStopped fun tid => patching .ptrace (Patching.removeAllUser tid)

/-! ### Input and output -/

/-- Sends data to the process. -/
def writeInput (data : Bytes) : Tracing κ Nat := do
  match (← process).input with
  | none => throw (.failure "process input is not connected")
  | some queue =>
    let (count, queue) := queue.send data
    modifyProcess fun p => { p with input := some queue }
    return count

/-- Takes output of the process. -/
def readOutput (stream : OutputStream) (max : Nat) : Tracing κ Bytes := do
  let (bs, output) := (← tracer).output.take stream max
  modifyTracer fun t => { t with output }
  return bs

end DebugAdapter.Tracer.Tracing
