import DebugAdapter.Debuggee.Engine
import DebugAdapter.Debuggee.MemoryRows
import DebugAdapter.Text.Words

/-!
# The inspection console

Interprets raw commands that look at a target: its registers, memory, code, threads, call stack,
modules and state. The output is text, one entry a line.
-/

namespace DebugAdapter.Console

open Debuggee (CommandOutput Focus Handle Inquiry Query Request)

/-- The commands of the console. -/
inductive Command where
  | help | registers | memory | disassemble | threads | backtrace | modules | state
  deriving Repr, DecidableEq

namespace Command

/-- All commands, in the order of the help text. -/
def all : List Command :=
  [help, registers, memory, disassemble, threads, backtrace, modules, state]

/-- The name of a command. -/
def name : Command → String
  | help => "help"
  | registers => "registers"
  | memory => "memory"
  | disassemble => "disassemble"
  | threads => "threads"
  | backtrace => "backtrace"
  | modules => "modules"
  | state => "state"

/-- The line of a command in the help text. -/
def usage : Command → String
  | help => "help                        -- list commands"
  | registers => "registers                   -- registers of a selected frame"
  | memory => "memory <addr> <len>         -- hex dump of process memory"
  | disassemble => "disassemble <addr> [count]  -- disassemble instructions"
  | threads => "threads                     -- list process threads"
  | backtrace => "backtrace                   -- call stack of a selected thread"
  | modules => "modules                     -- list loaded images"
  | state => "state                       -- process state"

/-- The command with a name. -/
def ofName? (s : String) : Option Command :=
  all.find? (·.name == s)

end Command

/-- Work on a target that gives a result, or is refused with a text. -/
abbrev Action (α : Type) := ExceptT String Inquiry α

/-- Instructions shown without a count. -/
def defaultCount : Nat := 16

/-- The most bytes of memory that one command shows. -/
def maxDump : Nat := 4096

/-- Refuses a command. -/
def refuse {α : Type} (text : String) : Action α :=
  throw text

/-- Refuses an argument. -/
def refuseArgument {α : Type} (text : String) : Action α :=
  refuse ("invalid argument: " ++ text)

/-- A number argument: hexadecimal after `0x` or `0X`, decimal otherwise. -/
def number (word : String) : Action UInt64 :=
  match Text.readWord? word.toList with
  | some n => return n
  | none => refuseArgument word

/-- The target that commands refer to. -/
def target (focus : Focus) : Action Handle :=
  match focus.target with
  | some t => return t
  | none => refuse "no process"

/-- One entry a line. -/
def lines (entries : List String) : String :=
  String.intercalate "\n" entries

/-- A text at the right end of a column. -/
def alignRight (width : Nat) (s : String) : String :=
  String.ofList (List.replicate (width - s.length) ' ') ++ s

/-- Asks a target; an error refuses the command. -/
def request (t : Handle) (r : Request) : Action r.Answer :=
  ExceptT.mk (.request t r fun answer => .done (answer.mapError (·.message)))

/-- Reads what a target publishes. -/
def observe (t : Handle) (q : Query) : Action q.Answer :=
  ExceptT.mk (.query t q fun answer => .done (.ok answer))

/-- The selected thread, or the thread of the last stop. -/
def selectedThread (focus : Focus) : Action Nat := do
  let t ← target focus
  match focus.thread with
  | some tid => return tid
  | none =>
    match ← observe t .stopInfo with
    | some stop => return stop.thread
    | none => refuse "no thread selected"

/-- The output of a command with its arguments. -/
def runCommand (focus : Focus) (cmd : Command) (args : List String) : Action String := do
  match cmd with
  | .help => return lines (Command.all.map Command.usage)
  | .state =>
    let t ← target focus
    let state ← observe t .state
    let pid ← observe t .processId
    let stop ← observe t .stopInfo
    let exit ← observe t .exitStatus
    return state.name
      ++ (match pid with
        | some p => " pid=" ++ Text.decimal p
        | none => "")
      ++ (match stop with
        | some s =>
          " thread=" ++ Text.decimal s.thread ++ " pc=" ++ Text.hexWord s.pc ++ " reason=" ++
            s.reason.name
        | none => "")
      ++ (match exit with
        | some code => " exit=" ++ Text.decimalInt code
        | none => "")
  | .registers =>
    let tid ← selectedThread focus
    let rs ← request (← target focus) (.registers tid focus.frame)
    return lines (rs.map fun r => alignRight 8 r.name ++ " = " ++ Text.hexWord r.value)
  | .memory =>
    match args with
    | [addr, len] =>
      let addr ← number addr
      let len ← number len
      let data ← request (← target focus) (.readMemory addr (min len.toNat maxDump))
      return lines ((Debuggee.memoryRows addr data).map fun row =>
        Text.hexWord row.address ++ ": " ++ row.hexColumn)
    | _ => refuseArgument "usage: memory <addr> <len>"
  | .disassemble =>
    let (addr, count) ← match args with
      | [addr] => do
        let addr ← number addr
        pure (addr, defaultCount)
      | [addr, count] => do
        let addr ← number addr
        let count ← number count
        pure (addr, count.toNat)
      | _ => refuseArgument "usage: disassemble <addr> [count]"
    let is ← request (← target focus) (.disassemble addr count)
    return lines (is.map fun i => Text.trimEnd
      (Text.hexWord i.address ++ ": " ++ i.mnemonic ++ " " ++ i.operands))
  | .threads =>
    let t ← target focus
    let stop ← observe t .stopInfo
    let ths ← request t .threads
    return lines (ths.map fun th =>
      (if stop.map (·.thread) == some th.tid then "*" else " ") ++ " thread " ++
        Text.decimal th.tid ++ " (" ++ th.reason.name ++ ")")
  | .backtrace =>
    let tid ← selectedThread focus
    let frames ← request (← target focus) (.callStack tid)
    return lines (frames.zipIdx.map fun (f, num) =>
      "#" ++ Text.decimal num ++ " " ++ Text.hexWord f.pc ++ " " ++ f.function.getD "??" ++
        " (" ++ f.module.getD "??" ++ ")")
  | .modules =>
    let ms ← request (← target focus) .modules
    return lines (ms.map fun m =>
      Text.hexWord m.loadAddress ++ "-" ++ Text.hexWord (m.loadAddress + m.size) ++ " " ++ m.path ++
        " " ++ m.uuid.getD "-")

/-- The output of a line; a blank line has none. -/
def run (focus : Focus) (line : String) : Action String := do
  match Text.blankWords line with
  | [] => return ""
  | name :: args =>
    match Command.ofName? name with
    | some cmd => runCommand focus cmd args
    | none => refuse ("unknown command: " ++ name)

/-- Interprets a line. -/
def execute (focus : Focus) (line : String) : Inquiry CommandOutput := do
  match ← (run focus line).run with
  | .ok output => return .success output
  | .error text => return .failure text

/-- The names of commands that begin with what stands before a byte position, in alphabetical order.
Arguments are never completed. -/
def complete (line : String) (position : Nat) : List String :=
  let before := (Text.beforePosition line position).toList.dropWhile Text.isBlank
  if before.any Text.isBlank then []
  else
    ((Command.all.map Command.name).filter (fun n => before.isPrefixOf n.toList)).mergeSort
      (fun a b => a ≤ b)

end DebugAdapter.Console
