import DebugAdapter.Debuggee.Engine
import DebugAdapter.Linux.OsError
import DebugAdapter.Linux.Signal
import DebugAdapter.Machine.Register

/-!
# The kernel

What a tracer needs from the operating system, as data: a `SystemCall` asks for something, and
`SystemCall.Answer` is the type of what it gives back. A kernel is anything that answers system
calls while its own state changes, so a statement over every `Kernel` holds whatever the answers
are. Files are read without an effect.

A tracer often waits for one status after the other. How many a kernel can still report is bounded
by `outstanding`; a kernel is `Lawful` if every status that it reports makes this number smaller
and no other call makes it larger.
-/

namespace DebugAdapter.Linux

open Debuggee (LaunchInfo)
open Machine (RegisterFile)

/-- What happened to a traced thread. -/
inductive WaitStatus where
  | stopped (tid : Nat) (signal : Signal)
  /-- A stop that announces an event, by the number of the event. -/
  | event (tid : Nat) (event : Nat)
  | exited (tid : Nat) (code : Int)
  | signaled (tid : Nat) (signal : Signal)
  | continued (tid : Nat)
  deriving Repr, DecidableEq

namespace WaitStatus

/-- The number of the event of a new thread. -/
def cloneEvent : Nat := 3

/-- The number of the event of a new program image. -/
def execEvent : Nat := 4

/-- The number of the event of a thread that is about to exit. -/
def exitEvent : Nat := 6

/-- A status as a wait tells it: of an exit code only the low eight bits. -/
def asTold : WaitStatus → WaitStatus
  | exited tid code => exited tid (code % 256)
  | s => s

end WaitStatus

/-- A request to the kernel. -/
inductive SystemCall where
  /-- Read a word of memory. -/
  | peek (tid : Nat) (addr : UInt64)
  /-- Write a word of memory. -/
  | poke (tid : Nat) (addr word : UInt64)
  /-- Let a thread run, with a signal. -/
  | resume (tid : Nat) (signal : Option Signal)
  /-- Let a thread execute one instruction, with a signal. -/
  | step (tid : Nat) (signal : Option Signal)
  /-- Let a thread run untraced, with a signal. -/
  | detach (tid : Nat) (signal : Option Signal)
  | getRegisters (tid : Nat)
  | setRegisters (tid : Nat) (regs : RegisterFile)
  /-- The cause of the signal that stopped a thread. -/
  | signalCode (tid : Nat)
  /-- The number that comes with an event. -/
  | eventMessage (tid : Nat)
  | setOptions (tid : Nat) (mask : Nat)
  | attach (tid : Nat)
  /-- Send a signal to a process. -/
  | kill (pid : Nat) (signal : Signal)
  /-- Send a signal to a thread. -/
  | killThread (pid tid : Nat) (signal : Signal)
  /-- Start a program that is traced from its first instruction on. -/
  | spawn (program : String) (info : LaunchInfo)
  /-- Wait for a thread, or for any. -/
  | wait (tid : Option Nat)
  /-- Look whether something happened to any thread. -/
  | poll

/-- What the kernel gives back for a system call. -/
abbrev SystemCall.Answer : SystemCall → Type
  | peek .. => UInt64
  | getRegisters _ => RegisterFile
  | signalCode _ => Int
  | eventMessage _ => Nat
  | spawn .. => Nat
  | wait _ => WaitStatus
  | poll => Option WaitStatus
  | _ => Unit

/-- What the system knows about a process: its program and its threads. -/
structure ProcessEntry where
  executable : Option String
  threads : List Nat
  deriving Repr, DecidableEq

/-- A kernel with state `κ`. -/
class Kernel (κ : Type) where
  /-- Answers a system call. -/
  perform : (c : SystemCall) → κ → Except OsError c.Answer × κ
  /-- The contents of a file. -/
  file : κ → (path : String) → Except OsError Bytes
  /-- Where a symbolic link points to. -/
  linkTarget? : κ → (path : String) → Option String
  /-- The entry of a process in the process table. -/
  process? : κ → (pid : Nat) → Option ProcessEntry
  /-- The program that a bare name stands for. -/
  lookUp? : κ → (name : String) → Option String
  /-- A bound on the statuses still to be reported. -/
  outstanding : κ → Nat

/-- Every status that the kernel reports makes the number of outstanding ones smaller, and no call
makes it larger. -/
class Kernel.Lawful (κ : Type) [Kernel κ] : Prop where
  outstanding_perform_le : ∀ (c : SystemCall) (k : κ),
    Kernel.outstanding (Kernel.perform c k).2 ≤ Kernel.outstanding k
  outstanding_wait_lt : ∀ (tid : Option Nat) (k : κ) (s : WaitStatus),
    (Kernel.perform (.wait tid) k).1 = .ok s →
      Kernel.outstanding (Kernel.perform (.wait tid) k).2 < Kernel.outstanding k
  outstanding_poll_lt : ∀ (k : κ) (s : WaitStatus),
    (Kernel.perform .poll k).1 = .ok (some s) →
      Kernel.outstanding (Kernel.perform .poll k).2 < Kernel.outstanding k

/-- System calls in a row, up to the first that fails. -/
abbrev Calls (κ : Type) := ExceptT OsError (StateM κ)

/-- Makes a system call. -/
def call {κ : Type} [Kernel κ] (c : SystemCall) : Calls κ c.Answer :=
  ExceptT.mk (StateT.mk fun k => Kernel.perform c k)

end DebugAdapter.Linux
