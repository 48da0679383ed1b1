import DebugAdapter.Linux.FileTree
import DebugAdapter.Linux.Kernel
import Std.Data.HashMap

/-!
# Scripted kernels

A kernel that answers from a script: a memory, a table of threads, files, a queue of statuses that
waits will report, and a list of failures. It keeps a log of the calls that act on a process and of
the statuses that it reported.

Main statement: `ScriptedKernel.lawful`, every reported status shortens the queue.
-/

namespace DebugAdapter.Linux

open Debuggee (LaunchInfo)
open Machine (Register RegisterFile)

/-- The calls that a script can let fail. -/
inductive CallKind where
  | peek | poke | resume | step | getRegisters | setRegisters | attach | detach | setOptions
  | eventMessage | signalCode | kill | killThread | spawn
  deriving Repr, DecidableEq

/-- A scripted failure: the first call of a kind, to a thread if one is given, fails after a number
of calls that succeed. -/
structure Failure where
  kind : CallKind
  tid : Option Nat
  skip : Nat
  error : OsError
  deriving Repr, DecidableEq

/-- Takes the failure that is due for a call, if there is one. The first failure that fits decides;
while it still skips calls, they succeed. -/
def takeFailure (kind : CallKind) (tid : Nat) : List Failure → Option OsError × List Failure
  | [] => (none, [])
  | f :: r =>
    if f.kind = kind ∧ (f.tid = none ∨ f.tid = some tid) then
      if f.skip = 0 then (some f.error, r) else (none, { f with skip := f.skip - 1 } :: r)
    else
      let (e, rest) := takeFailure kind tid r
      (e, f :: rest)

/-- A thread of a script. -/
structure ScriptedThread where
  tid : Nat
  regs : RegisterFile
  /-- The cause of its last signal. -/
  signalCode : Int
  /-- The number that came with its last event. -/
  message : Nat
  running : Bool

/-- A status that a wait will report. -/
structure QueuedStatus where
  tid : Nat
  outcome : Except OsError WaitStatus
  /-- Only a look without waiting sees it. -/
  isAsync : Bool
  /-- Invisible until a signal is sent to its thread. -/
  isGated : Bool
  /-- What changes when it is reported. -/
  memory : List (UInt64 × Bytes)
  registers : List (Register × UInt64)
  signalCode : Option Int
  message : Option Nat

/-- An entry of the log. -/
inductive LogEntry where
  | called (c : SystemCall) (error : Option OsError)
  | changedRegisters (tid : Nat) (changes : List (Register × UInt64))
  | reported (asked : Option Nat) (outcome : Except OsError WaitStatus)

/-- A kernel that answers from a script. -/
structure ScriptedKernel where
  memory : Std.HashMap UInt64 UInt8
  threads : List ScriptedThread
  files : FileTree
  queue : List QueuedStatus
  failures : List Failure
  /-- The thread of the next program that is started; without one no file may be executed. -/
  spawnedPid : Option Nat
  /-- The directories in which bare program names are looked up. -/
  searchPath : List String
  /-- Last entry first. -/
  log : List LogEntry

namespace ScriptedKernel

/-- A kernel without anything. -/
def empty : ScriptedKernel := ⟨∅, [], ⟨[], []⟩, [], [], none, [], []⟩

instance : Inhabited ScriptedKernel := ⟨empty⟩

/-- Adds an entry to the log. -/
def note (k : ScriptedKernel) (entry : LogEntry) : ScriptedKernel :=
  { k with log := entry :: k.log }

/-! ### Memory and threads -/

/-- Maps bytes at an address; addresses wrap. -/
def mapBytes (m : Std.HashMap UInt64 UInt8) (addr : UInt64) :
    Bytes → Std.HashMap UInt64 UInt8
  | [] => m
  | b :: r => mapBytes (m.insert addr b) (addr + 1) r

/-- The bytes at an address, if all are mapped. -/
def bytesAt? (m : Std.HashMap UInt64 UInt8) (addr : UInt64) : (count : Nat) → Option Bytes
  | 0 => some []
  | count + 1 => do
    let b ← m[addr]?
    let rest ← bytesAt? m (addr + 1) count
    return b :: rest

/-- The word at an address, if it is mapped. -/
def wordAt? (k : ScriptedKernel) (addr : UInt64) : Option UInt64 :=
  (bytesAt? k.memory addr 8).map Bytes.toWord

/-- Writes a word. -/
def storeWord (k : ScriptedKernel) (addr word : UInt64) : ScriptedKernel :=
  { k with memory := mapBytes k.memory addr (Bytes.ofWord word) }

/-- The thread with a number. -/
def thread? (k : ScriptedKernel) (tid : Nat) : Option ScriptedThread :=
  k.threads.find? (·.tid == tid)

/-- Changes a thread. -/
def modifyThread (k : ScriptedKernel) (tid : Nat) (f : ScriptedThread → ScriptedThread) :
    ScriptedKernel :=
  { k with threads := k.threads.map fun t => if t.tid = tid then f t else t }

/-- Removes a thread. -/
def removeThread (k : ScriptedKernel) (tid : Nat) : ScriptedKernel :=
  { k with threads := k.threads.filter (·.tid ≠ tid) }

/-- Whether a thread runs or is not known. -/
def mayReport (k : ScriptedKernel) (tid : Nat) : Bool :=
  match k.thread? tid with
  | some t => t.running
  | none => true

/-! ### Calls that act on a process -/

/-- Answers a call on a thread: it fails as scripted, or if the thread does not exist. -/
def onThread {α : Type} (k : ScriptedKernel) (kind : CallKind) (tid : Nat)
    (f : ScriptedThread → ScriptedKernel → Except OsError α × ScriptedKernel) :
    Except OsError α × ScriptedKernel :=
  match takeFailure kind tid k.failures with
  | (some e, failures) => (.error e, { k with failures })
  | (none, failures) =>
    let k := { k with failures }
    match k.thread? tid with
    | some t => f t k
    | none => (.error .noProcess, k)

/-- Answers a call that is not on a thread of the script: it fails as scripted. -/
def scripted {α : Type} (k : ScriptedKernel) (kind : CallKind) (tid : Nat)
    (f : ScriptedKernel → Except OsError α × ScriptedKernel) :
    Except OsError α × ScriptedKernel :=
  match takeFailure kind tid k.failures with
  | (some e, failures) => (.error e, { k with failures })
  | (none, failures) => f { k with failures }

/-- Adds a call and its error to the log. -/
def logged {α : Type} (c : SystemCall) (r : Except OsError α × ScriptedKernel) :
    Except OsError α × ScriptedKernel :=
  match r with
  | (.ok a, k) => (.ok a, k.note (.called c none))
  | (.error e, k) => (.error e, k.note (.called c (some e)))

/-- Why a file that may not be executed is not started, in a directory if one is given. -/
def startFailure (k : ScriptedKernel) (directory : Option String) : OsError :=
  match directory with
  | none => .accessDenied
  | some path =>
    match k.files.locate path with
    | .error e => e
    | .ok place =>
      match k.files.node? place with
      | some .directory => .accessDenied
      | some (.file _) => .notDirectory
      | some (.link _) | none => .noEntry

/-- Starts a program. -/
def spawn (k : ScriptedKernel) (info : LaunchInfo) : Except OsError Nat × ScriptedKernel :=
  match k.spawnedPid with
  | some pid => (.ok pid, k)
  | none => (.error (k.startFailure info.cwd), k)

/-- Makes the gated statuses of a thread visible. -/
def openGates (k : ScriptedKernel) (tid : Nat) : ScriptedKernel :=
  { k with queue := k.queue.map fun s => if s.tid = tid then { s with isGated := false } else s }

/-! ### Waiting -/

/-- Takes the first element with a property from a list. -/
def takeFirst {α : Type} (p : α → Bool) : List α → Option (α × List α)
  | [] => none
  | a :: r => if p a then some (a, r) else (takeFirst p r).map fun (x, rest) => (x, a :: rest)

theorem length_of_takeFirst {α : Type} {p : α → Bool} {xs : List α} {x : α} {rest : List α}
    (h : takeFirst p xs = some (x, rest)) : xs.length = rest.length + 1 := by
  induction xs generalizing rest with
  | nil => simp [takeFirst] at h
  | cons a r ih =>
    simp only [takeFirst] at h
    split at h
    · simp only [Option.some.injEq, Prod.mk.injEq] at h
      simp [h.2]
    · simp only [Option.map_eq_some_iff, Prod.exists, Prod.mk.injEq] at h
      obtain ⟨y, ys, hy, rfl, rfl⟩ := h
      simp [ih hy]

/-- Changes memory and a thread, which does not run any more. -/
def apply (k : ScriptedKernel) (s : QueuedStatus) : ScriptedKernel :=
  let k := { k with memory := s.memory.foldl (fun m (addr, bs) => mapBytes m addr bs) k.memory }
  k.modifyThread s.tid fun t =>
    { t with
      regs := s.registers.foldl (fun regs (r, v) => regs.set r v) t.regs
      signalCode := s.signalCode.getD t.signalCode
      message := s.message.getD t.message
      running := false }

/-- What a status changes when it is reported. The thread that it is about does not run, or exists
no more. A wait that fails changes nothing. -/
def report (k : ScriptedKernel) (s : QueuedStatus) : ScriptedKernel :=
  match s.outcome with
  | .error _ => k
  | .ok (.exited tid _) | .ok (.signaled tid _) => (k.apply s).removeThread tid
  | .ok _ => k.apply s

/-- Takes the first status in the queue that a wait sees. -/
def takeStatus (k : ScriptedKernel) (sees : QueuedStatus → Bool) :
    Option (QueuedStatus × ScriptedKernel) :=
  match takeFirst (fun s => !s.isGated && sees s) k.queue with
  | some (s, queue) => some (s, { k with queue }.report s)
  | none => none

/-- Waits for a thread, or for any. Without a status there is nothing to wait for. -/
def wait (k : ScriptedKernel) (tid : Option Nat) : Except OsError WaitStatus × ScriptedKernel :=
  match k.takeStatus fun s => !s.isAsync && (tid = none || tid = some s.tid) with
  | some (s, k) => (s.outcome.map WaitStatus.asTold, k.note (.reported tid s.outcome))
  | none => (.error .noChild, k.note (.reported tid (.error .noChild)))

/-- Looks for a status without waiting. -/
def poll (k : ScriptedKernel) : Except OsError (Option WaitStatus) × ScriptedKernel :=
  match k.takeStatus fun s => s.isAsync && k.mayReport s.tid with
  | some (s, k) =>
    (s.outcome.map (some ∘ WaitStatus.asTold), k.note (.reported none s.outcome))
  | none => (.ok none, k)

/-! ### The kernel -/

/-- Answers a system call. -/
def perform (c : SystemCall) (k : ScriptedKernel) : Except OsError c.Answer × ScriptedKernel :=
  match c with
  | .peek tid addr =>
    k.onThread .peek tid fun _ k =>
      match k.wordAt? addr with
      | some w => (.ok w, k)
      | none => (.error .inputOutput, k)
  | .poke tid addr word =>
    logged (.poke tid addr word) <| k.onThread .poke tid fun _ k =>
      match k.wordAt? addr with
      | some _ => (.ok (), k.storeWord addr word)
      | none => (.error .inputOutput, k)
  | .resume tid signal =>
    logged (.resume tid signal) <| k.onThread .resume tid fun _ k =>
      (.ok (), k.modifyThread tid fun t => { t with running := true })
  | .step tid signal =>
    logged (.step tid signal) <| k.onThread .step tid fun _ k =>
      (.ok (), k.modifyThread tid fun t => { t with running := true })
  | .detach tid signal =>
    logged (.detach tid signal) <| k.onThread .detach tid fun _ k => (.ok (), k.removeThread tid)
  | .getRegisters tid => k.onThread .getRegisters tid fun t k => (.ok t.regs, k)
  | .setRegisters tid regs =>
    match k.onThread .setRegisters tid fun t k =>
        (.ok (regs.changesFrom t.regs), k.modifyThread tid fun t => { t with regs }) with
    | (.ok changes, k) => (.ok (), k.note (.changedRegisters tid changes))
    | (.error e, k) => (.error e, k.note (.called (.setRegisters tid regs) (some e)))
  | .signalCode tid => k.onThread .signalCode tid fun t k => (.ok t.signalCode, k)
  | .eventMessage tid => k.onThread .eventMessage tid fun t k => (.ok t.message, k)
  | .setOptions tid mask =>
    logged (.setOptions tid mask) <| k.onThread .setOptions tid fun _ k => (.ok (), k)
  | .attach tid => logged (.attach tid) <| k.onThread .attach tid fun _ k => (.ok (), k)
  | .kill pid signal =>
    logged (.kill pid signal) <| k.onThread .kill pid fun _ k => (.ok (), k.openGates pid)
  | .killThread pid tid signal =>
    logged (.killThread pid tid signal) <| k.onThread .killThread tid fun _ k =>
      (.ok (), k.openGates tid)
  | .spawn program info =>
    logged (.spawn program info) <| k.scripted .spawn 0 fun k => k.spawn info
  | .wait tid => k.wait tid
  | .poll => k.poll

/-- The threads that have a directory below that of their process. -/
def threadsOf (k : ScriptedKernel) (pid : Nat) : List Nat :=
  (k.files.subdirectories ["proc", Text.decimal pid, "task"]).filterMap fun name =>
    Text.readNatural? 10 wordLimit name.toList

/-- The entry of a process: it exists if its status file does. -/
def process? (k : ScriptedKernel) (pid : Nat) : Option ProcessEntry :=
  let directory := "/proc/" ++ Text.decimal pid
  if (k.files.read (directory ++ "/stat")).isOk then
    some ⟨k.files.linkTarget? (directory ++ "/exe"), k.threadsOf pid⟩
  else none

instance : Kernel ScriptedKernel where
  perform := perform
  file k path := k.files.read path
  linkTarget? k path := k.files.linkTarget? path
  process? := process?
  lookUp? k name := k.files.lookUp? k.searchPath name
  outstanding k := k.queue.length

/-! ### The queue -/

theorem length_queue_report (k : ScriptedKernel) (s : QueuedStatus) :
    (k.report s).queue = k.queue := by
  unfold report
  split <;> rfl

theorem length_queue_takeStatus {k k' : ScriptedKernel} {sees : QueuedStatus → Bool}
    {s : QueuedStatus} (h : k.takeStatus sees = some (s, k')) :
    k.queue.length = k'.queue.length + 1 := by
  unfold takeStatus at h
  split at h
  · rename_i x queue hx
    simp only [Option.some.injEq, Prod.mk.injEq] at h
    rw [← h.2, length_queue_report]
    exact length_of_takeFirst hx
  · simp at h

theorem queue_logged {α : Type} (c : SystemCall) (r : Except OsError α × ScriptedKernel) :
    (logged c r).2.queue = r.2.queue := by
  obtain ⟨a | a, k⟩ := r <;> rfl

theorem length_queue_onThread {α : Type} (k : ScriptedKernel) (kind : CallKind) (tid : Nat)
    (f : ScriptedThread → ScriptedKernel → Except OsError α × ScriptedKernel)
    (hf : ∀ t k, (f t k).2.queue.length = k.queue.length) :
    (k.onThread kind tid f).2.queue.length = k.queue.length := by
  unfold onThread
  split
  · rfl
  · dsimp only
    split
    · exact hf _ _
    · rfl

theorem length_queue_setRegisters (k : ScriptedKernel) (tid : Nat) (regs : RegisterFile) :
    (perform (.setRegisters tid regs) k).2.queue.length ≤ k.queue.length := by
  have h := length_queue_onThread k .setRegisters tid
    (fun t k => ((.ok (regs.changesFrom t.regs) : Except OsError _),
      k.modifyThread tid fun t => { t with regs })) (fun _ _ => rfl)
  simp only [perform]
  split
  · rename_i hr
    rw [hr] at h
    dsimp only at h
    simp only [note]
    omega
  · rename_i hr
    rw [hr] at h
    dsimp only at h
    simp only [note]
    omega

theorem length_queue_wait (k : ScriptedKernel) (tid : Option Nat) :
    (k.wait tid).2.queue.length + (if (k.wait tid).1.isOk then 1 else 0) ≤ k.queue.length := by
  unfold wait
  split
  · rename_i h
    have := length_queue_takeStatus h
    simp only [note]
    split <;> omega
  · simp [note, Except.isOk, Except.toBool]

theorem length_queue_poll (k : ScriptedKernel) : k.poll.2.queue.length ≤ k.queue.length := by
  unfold poll
  split
  · rename_i h
    have := length_queue_takeStatus h
    simp only [note]
    omega
  · simp

theorem length_queue_poll_lt {k : ScriptedKernel} {s : WaitStatus} (h : k.poll.1 = .ok (some s)) :
    k.poll.2.queue.length < k.queue.length := by
  unfold poll at h ⊢
  split at h
  · rename_i hs
    have := length_queue_takeStatus hs
    simp only [note]
    omega
  · simp at h

theorem length_queue_perform (c : SystemCall) (k : ScriptedKernel) :
    (perform c k).2.queue.length ≤ k.queue.length := by
  cases c with
  | wait tid => exact Nat.le_of_add_right_le (length_queue_wait k tid)
  | poll => exact length_queue_poll k
  | setRegisters tid regs => exact length_queue_setRegisters k tid regs
  | spawn program info =>
    rw [perform, queue_logged, scripted]
    split
    · simp
    · rw [spawn]
      split <;> simp
  | peek tid addr =>
    rw [perform]
    refine Nat.le_of_eq (length_queue_onThread k _ tid _ ?_)
    intro t k
    split <;> rfl
  | poke tid addr word =>
    rw [perform, queue_logged]
    refine Nat.le_of_eq (length_queue_onThread k _ tid _ ?_)
    intro t k
    split <;> simp [storeWord]
  | getRegisters tid | signalCode tid | eventMessage tid =>
    rw [perform]
    refine Nat.le_of_eq (length_queue_onThread k _ tid _ ?_)
    intro t k
    rfl
  | setOptions tid mask | attach tid =>
    rw [perform, queue_logged]
    refine Nat.le_of_eq (length_queue_onThread k _ tid _ ?_)
    intro t k
    rfl
  | resume tid signal | step tid signal | detach tid signal =>
    rw [perform, queue_logged]
    refine Nat.le_of_eq (length_queue_onThread k _ tid _ ?_)
    intro t k
    rfl
  | kill tid signal =>
    rw [perform, queue_logged]
    refine Nat.le_of_eq (length_queue_onThread k _ tid _ ?_)
    intro t k
    simp [openGates]
  | killThread pid tid signal =>
    rw [perform, queue_logged]
    refine Nat.le_of_eq (length_queue_onThread k _ tid _ ?_)
    intro t k
    simp [openGates]

/-- Every status that a scripted kernel reports leaves its queue. -/
theorem lawful : Kernel.Lawful ScriptedKernel where
  outstanding_perform_le c k := length_queue_perform c k
  outstanding_wait_lt tid k s h := by
    have hw := length_queue_wait k tid
    have h : (k.wait tid).1 = .ok s := h
    simp only [h, Except.isOk, Except.toBool, if_true] at hw
    exact hw
  outstanding_poll_lt _ _ h := length_queue_poll_lt h

instance : Kernel.Lawful ScriptedKernel := lawful

end ScriptedKernel

end DebugAdapter.Linux
