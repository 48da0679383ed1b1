import DebugAdapter.Linux.ScriptedKernel
import DebugAdapter.Script.Debuggee

/-!
# Kernels in scripts

How a scripted kernel is written: its memory, threads and files, the statuses that waits report, and
the calls that fail. A later part of a script adds to the kernel: it overwrites memory, replaces
threads and files, and queues statuses and failures behind those that are there. `logDocument` is
the written form of the log.
-/

namespace DebugAdapter.Script

open Linux
open Machine (Register)

/-- Pieces of memory: addresses with the bytes there. -/
def memory (j : Json) : List (UInt64 × Bytes) :=
  j.items.map (pair Json.asWord Json.asBytes)

/-- Registers by their names, with their values. -/
def registers (j : Json) : List (Register × UInt64) :=
  j.members.filterMap fun (name, v) => (Register.ofName? name).map (·, v.asWord)

/-- A thread. -/
def thread (j : Json) : ScriptedThread where
  tid := j.nat "tid"
  regs := (registers (j.member "regs")).foldl (fun regs (r, v) => regs.set r v) .zero
  signalCode := j.int "si_code"
  message := j.nat "msg"
  running := j.flag "running" false

/-- A signal, by its name or its number. -/
def signal : Json → Signal
  | .str name => (Signal.ofName? name).getD .kill
  | j => (Signal.ofNumber? j.asNat).getD .kill

/-- What a wait reports about a thread. -/
def waitOutcome (tid : Nat) (j : Json) : Except OsError WaitStatus :=
  if j.has "errno" then .error (osError (j.member "errno"))
  else if j.has "exited" then .ok (.exited tid (j.int "exited"))
  else if j.has "signaled" then .ok (.signaled tid (signal (j.member "signaled")))
  else if j.has "ptrace_event" then .ok (.event tid (j.nat "ptrace_event"))
  else if j.has "continued" then .ok (.continued tid)
  else .ok (.stopped tid (signal (j.member "stopped")))

/-- A status that a wait will report. -/
def queuedStatus (j : Json) : QueuedStatus where
  tid := j.nat "tid"
  outcome := waitOutcome (j.nat "tid") j
  isAsync := j.flag "async" false
  isGated := j.flag "gate" false
  memory := memory (j.member "mem")
  registers := registers (j.member "regs")
  signalCode := j.int? "si_code"
  message := j.nat? "msg"

/-- The calls that can fail, by their names. -/
def callKinds : List (String × CallKind) :=
  [("peek", .peek), ("poke", .poke), ("cont", .resume), ("step", .step),
    ("getregs", .getRegisters), ("setregs", .setRegisters), ("attach", .attach),
    ("detach", .detach), ("setoptions", .setOptions), ("geteventmsg", .eventMessage),
    ("getsiginfo", .signalCode), ("kill", .kill), ("tgkill", .killThread), ("fork", .spawn)]

/-- A failure of a call. -/
def failure? (j : Json) : Option Failure :=
  (callKinds.lookup (j.text "call")).map fun kind =>
    ⟨kind, j.nat? "tid", j.nat "skip", osError (j.member "errno")⟩

/-- The place that a path from the root names. -/
def placeOf (path : String) : Place :=
  (Text.Path.components path).filterMap fun
    | .normal name => some name
    | _ => none

/-- Puts a file or a link in its place; `null` removes it. -/
def putFile (files : FileTree) (path : String) (j : Json) : FileTree :=
  let place := placeOf path
  match j with
  | .null => files.remove place
  | j => files.put place (match j.text? "link" with
      | some target => .link target
      | none => .file j.asBytes)

/-- Adds a part of a script to a kernel. -/
def extendKernel (j : Json) (k : ScriptedKernel) : ScriptedKernel :=
  let threads := (j.list "threads").map thread
  let files := (j.list "files").map (pair Json.asText id)
  { k with
    memory := (memory (j.member "mem")).foldl
      (fun m (addr, bs) => ScriptedKernel.mapBytes m addr bs) k.memory
    threads := threads.foldl (fun ts t => ts.filter (·.tid ≠ t.tid) ++ [t]) k.threads
    files := files.foldl (fun fs (path, j) => putFile fs path j) k.files
    spawnedPid := (j.nat? "fork_pid").or k.spawnedPid
    queue := k.queue ++ (j.list "wait").map queuedStatus
    failures := k.failures ++ (j.list "fail").filterMap failure? }

/-- The kernel of a script, on top of some files. -/
def kernel (j : Json) (files : FileTree) (searchPath : List String) : ScriptedKernel :=
  extendKernel j { ScriptedKernel.empty with files, searchPath, spawnedPid := some 100 }

/-! ### The log -/

/-- A word in hexadecimal. -/
def wordDocument (w : UInt64) : Json := .str (Text.hexNumber w.toNat)

/-- The number of a signal, zero without one. -/
def signalDocument (s : Option Signal) : Json := .ofNat ((s.map (·.number)).getD 0)

/-- The thread that a status is about, and what happened to it. -/
def statusDocument : WaitStatus → List Json
  | .stopped tid s => [.ofNat tid, .arr [.str "stopped", .ofNat s.number]]
  | .event tid n => [.ofNat tid, .arr [.str "event", .ofNat n]]
  | .exited tid code => [.ofNat tid, .arr [.str "exited", .ofInt code]]
  | .signaled tid s => [.ofNat tid, .arr [.str "signaled", .ofNat s.number]]
  | .continued tid => [.ofNat tid, .arr [.str "continued"]]

/-- A call with its arguments. -/
def callDocument : SystemCall → List Json
  | .poke tid addr word => [.str "poke", .ofNat tid, wordDocument addr, wordDocument word]
  | .resume tid s => [.str "cont", .ofNat tid, signalDocument s]
  | .step tid s => [.str "step", .ofNat tid, signalDocument s]
  | .detach tid s => [.str "detach", .ofNat tid, signalDocument s]
  | .setRegisters tid _ => [.str "setregs", .ofNat tid]
  | .setOptions tid mask => [.str "setoptions", .ofNat tid, .str (Text.hexNumber mask)]
  | .attach tid => [.str "attach", .ofNat tid]
  | .kill pid s => [.str "kill", .ofNat pid, .ofNat s.number]
  | .killThread pid tid s => [.str "tgkill", .ofNat pid, .ofNat tid, .ofNat s.number]
  | .spawn .. => [.str "fork"]
  | .peek .. | .getRegisters _ | .signalCode _ | .eventMessage _ | .wait _ | .poll => []

/-- An entry of the log. A wait for any thread asks for minus one. -/
def logEntryDocument : LogEntry → Json
  | .called c none => .arr (callDocument c)
  | .called c (some e) => .arr (callDocument c ++ [.str e.name])
  | .changedRegisters tid changes =>
    let changes := changes.map fun (r, v) => Json.arr [.str r.name, wordDocument v]
    .arr [.str "setregs", .ofNat tid, .arr changes]
  | .reported asked outcome =>
    let asked := (asked.map Json.ofNat).getD (.ofInt (-1))
    .arr ([.str "wait", asked] ++ match outcome with
      | .ok s => statusDocument s
      | .error e => [.str e.name])

/-- The log of a kernel, in order. -/
def logDocument (k : ScriptedKernel) : Json :=
  .arr (k.log.reverse.map logEntryDocument)

end DebugAdapter.Script
