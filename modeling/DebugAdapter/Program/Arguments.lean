import DebugAdapter.Session.Settings
import DebugAdapter.Text.Numeral
import DebugAdapter.Wire.Frame

/-!
# Command line arguments

The program takes options with a value, switches, and up to two positional arguments: the numbers of
two inherited descriptors. Arguments are read from left to right, and the first fault or the first
request for a text ends the reading. A lone `--` makes everything behind it positional. An option
or switch is given at most once.

Main statement: `Arguments.settle_empty` (without options the settings stay as they are).
-/

namespace DebugAdapter.Program

open Session (Settings)
open Wire (Framing)

/-- Why the arguments are refused. -/
inductive UsageError where
  | unknown (argument : String)
  | missingValue (option : String)
  | unexpectedValue (switch : String)
  | repeated (option : String)
  | invalidNumber (text : String)
  deriving Repr, DecidableEq

/-- The wording of a usage error. -/
def UsageError.message : UsageError → String
  | unknown a => "unexpected argument '" ++ a ++ "' found"
  | missingValue o => "a value is required for '" ++ o ++ "' but none was supplied"
  | unexpectedValue s => "unexpected value for '" ++ s ++ "' found"
  | repeated o => "the argument '" ++ o ++ "' cannot be used multiple times"
  | invalidNumber t => "invalid value '" ++ t ++ "' for a descriptor"

/-- The arguments of a run that serves a session. -/
structure Arguments where
  /-- The configuration file. -/
  config : Option String
  logLevel : Option String
  logFile : Option String
  traceWire : Bool
  /-- The descriptor to read commands from. -/
  input : Option Int
  /-- The descriptor to write messages to. -/
  output : Option Int
  deriving Repr, DecidableEq

/-- What the arguments ask for. -/
inductive Invocation where
  | serve (a : Arguments)
  | showVersion
  | showHelp
  deriving Repr, DecidableEq

/-- The name and the version of the program. -/
def versionText : String := "bs-bridge 0.1.0\n"

/-- A short description of the arguments. -/
def helpText : String :=
  "Usage: bs-bridge [OPTIONS] [INPUT_FD] [OUTPUT_FD]\n\n" ++
  "Arguments:\n" ++
  "  [INPUT_FD]   Inherited descriptor to read commands from\n" ++
  "  [OUTPUT_FD]  Inherited descriptor to write replies and notifications to\n\n" ++
  "Options:\n" ++
  "      --config <CONFIG>        Path to a configuration file\n" ++
  "      --log-level <LOG_LEVEL>  Log filter directives\n" ++
  "      --log-file <LOG_FILE>    Write logs into a file instead of stderr\n" ++
  "      --trace-wire             Trace wire messages into the log file\n" ++
  "  -h, --help                   Print help\n" ++
  "  -V, --version                Print version\n"

/-- Reads the number of a descriptor: a decimal numeral with an optional sign, of 32 bits. -/
def readDescriptor? (text : String) : Option Int :=
  match text.toList with
  | '-' :: '+' :: _ => none
  | '-' :: digits => (Text.readNatural? 10 (halfSign + 1) digits).map fun n => -(n : Int)
  | cs => (Text.readNatural? 10 halfSign cs).map fun n => (n : Int)

namespace Arguments

/-- No arguments. -/
def empty : Arguments := ⟨none, none, none, false, none, none⟩

/-- Adds a positional argument. -/
def addPositional (a : Arguments) (text : String) : Except UsageError Arguments :=
  if a.input.isSome && a.output.isSome then .error (.unknown text)
  else match readDescriptor? text with
    | none => .error (.invalidNumber text)
    | some n => .ok (if a.input.isSome then { a with output := some n } else { a with input := some n })

/-- The names of the options with a value. -/
def valueOptions : List String := ["config", "log-level", "log-file"]

/-- Adds the value of an option. Paths must not be empty. -/
def addOption (a : Arguments) (name value : String) : Except UsageError Arguments :=
  let given := match name with
    | "config" => a.config
    | "log-level" => a.logLevel
    | _ => a.logFile
  if given.isSome then .error (.repeated name)
  else match name with
    | "log-level" => .ok { a with logLevel := some value }
    | _ =>
      if value.isEmpty then .error (.missingValue name)
      else if name = "config" then .ok { a with config := some value }
      else .ok { a with logFile := some value }

/-- Turns the switch on. -/
def addTraceWire (a : Arguments) : Except UsageError Arguments :=
  if a.traceWire then .error (.repeated "trace-wire") else .ok { a with traceWire := true }

/-- The settings of a configuration under these arguments, which win over it. -/
def settle (a : Arguments) (s : Settings) : Settings :=
  { s with log := ⟨a.logLevel <|> s.log.level, a.logFile <|> s.log.file,
      s.log.traceWire || a.traceWire⟩ }

@[simp] theorem settle_empty (s : Settings) : empty.settle s = s := by
  simp [empty, settle]

/-- How commands and messages are exchanged. -/
inductive Connection where
  /-- Lines over standard input and output. -/
  | standard
  /-- Binary frames over two descriptors. -/
  | descriptors (input output : Int)
  deriving Repr, DecidableEq

/-- The connection that the arguments ask for: two descriptors or none. -/
def connection? (a : Arguments) : Option Connection :=
  match a.input, a.output with
  | some input, some output => some (.descriptors input output)
  | none, none => some .standard
  | _, _ => none

/-- The framing of a connection. -/
def Connection.framing : Connection → Framing
  | standard => .line
  | descriptors .. => .binary

end Arguments

namespace Invocation

/-- Whether an argument looks like an option or a switch. A lone dash does not. -/
def isOption (argument : String) : Bool :=
  match argument.toList with
  | '-' :: _ :: _ => true
  | _ => false

/-- An argument behind two dashes: its name, and the value behind an equals sign. -/
def splitLong (cs : List Char) : String × Option String :=
  let name := String.ofList (cs.takeWhile (· ≠ '='))
  match cs.dropWhile (· ≠ '=') with
  | [] => (name, none)
  | _ :: value => (name, some (String.ofList value))

/-- A switch by its name: a text that is asked for, or a change of the arguments. -/
def switch (a : Arguments) (name : String) : Except UsageError (Invocation ⊕ Arguments) :=
  match name with
  | "version" => .ok (.inl .showVersion)
  | "help" => .ok (.inl .showHelp)
  | "trace-wire" => a.addTraceWire.map .inr
  | _ => .error (.unknown name)

/-- The texts that single letters behind a dash ask for; the first letter decides. -/
def letters (cs : List Char) : Except UsageError Invocation :=
  match cs with
  | 'V' :: _ => .ok .showVersion
  | 'h' :: _ => .ok .showHelp
  | _ => .error (.unknown (String.ofList ('-' :: cs)))

/-- Reads arguments after those read so far; `positional` is set behind `--`. -/
def readFrom (positional : Bool) (a : Arguments) : List String → Except UsageError Invocation
  | [] => .ok (.serve a)
  | argument :: rest =>
    if positional || !isOption argument then do
      readFrom positional (← a.addPositional argument) rest
    else match argument.toList with
      | ['-', '-'] => readFrom true a rest
      | '-' :: '-' :: long =>
        match splitLong long with
        | (name, some value) =>
          if Arguments.valueOptions.contains name then do
            readFrom positional (← a.addOption name value) rest
          else if name = "trace-wire" ∨ name = "version" ∨ name = "help" then
            .error (.unexpectedValue name)
          else .error (.unknown argument)
        | (name, none) =>
          if Arguments.valueOptions.contains name then
            match rest with
            | value :: rest =>
              if isOption value then .error (.missingValue name)
              else do readFrom positional (← a.addOption name value) rest
            | [] => .error (.missingValue name)
          else do
            match ← switch a name with
            | .inl text => return text
            | .inr a => readFrom positional a rest
      | _ :: cs => letters cs
      | [] => .error (.unknown argument)

/-- Reads the arguments. The configuration file may also be named by the environment. -/
def read (environmentConfig : Option String) (arguments : List String) :
    Except UsageError Invocation := do
  match ← readFrom false .empty arguments with
  | .serve a =>
    match a.config, environmentConfig with
    | none, some path => return .serve (← a.addOption "config" path)
    | _, _ => return .serve a
  | text => return text

end Invocation

end DebugAdapter.Program
