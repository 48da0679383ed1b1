import DebugAdapter.Debuggee.Engine

/-!
# Errors of a session

Why a command was refused. Every error belongs to one of four classes: the request was malformed or
named something that does not exist, the command is not valid in the current state, the engine
failed, or there is no such command.
-/

namespace DebugAdapter.Session

open Debuggee (DebugError)

/-- The class of an error. -/
inductive ErrorClass where
  | badRequest
  | invalidState
  | engineFailure
  | unknownCommand
  deriving Repr, DecidableEq

/-- The name of a class of errors. -/
def ErrorClass.name : ErrorClass → String
  | badRequest => "BadRequest"
  | invalidState => "InvalidState"
  | engineFailure => "EngineFailure"
  | unknownCommand => "UnknownCommand"

/-- Why a command was refused. -/
inductive SessionError where
  | decode (text : String)
  | badRequest (text : String)
  | unknownCommand (name : String)
  | noProcess
  | noTarget
  | alreadyExists
  | notPrepared
  | noThreadSelected
  | unsupported (feature : String)
  | noThread (tid : Nat)
  | frameNotFound (index : Nat)
  | indexOutOfRange
  | moduleNotFound
  | registerNotFound
  | targetCreationFailed (e : DebugError)
  | launchFailed (e : DebugError)
  | attachFailed (e : DebugError)
  | connectFailed (e : DebugError)
  | engine (operation : String) (e : DebugError)
  | internal (text : String)
  deriving Repr, Inhabited

namespace SessionError

/-- The wording of an error. -/
def message : SessionError → String
  | decode text => "cannot decode JSON: " ++ text
  | badRequest text => "bad request: " ++ text
  | unknownCommand name => "unknown command '" ++ name ++ "'"
  | noProcess => "no process"
  | noTarget => "no target"
  | alreadyExists => "process already exists"
  | notPrepared => "no executable prepared"
  | noThreadSelected => "no thread selected"
  | unsupported feature => feature ++ " is not supported"
  | noThread tid => "no thread " ++ Text.decimal tid
  | frameNotFound index => "frame number " ++ Text.decimal index ++ " not found"
  | indexOutOfRange => "index out of range"
  | moduleNotFound => "can't find module"
  | registerNotFound => "register not found"
  | targetCreationFailed e => "cannot build target: " ++ e.message
  | launchFailed e => "cannot create process: " ++ e.message
  | attachFailed e => "cannot attach to process: " ++ e.message
  | connectFailed e => "cannot connect to remote: " ++ e.message
  | engine operation e => operation ++ ": " ++ e.message
  | internal text => "internal error: " ++ text

/-- The class of an error. -/
def errorClass : SessionError → ErrorClass
  | decode _ | badRequest _ | noThread _ | frameNotFound _ | indexOutOfRange | moduleNotFound
  | registerNotFound => .badRequest
  | unknownCommand _ => .unknownCommand
  | noProcess | noTarget | alreadyExists | notPrepared | noThreadSelected | unsupported _ =>
    .invalidState
  | targetCreationFailed _ | launchFailed _ | attachFailed _ | connectFailed _ | engine ..
  | internal _ => .engineFailure

/-- The engine error behind an error, if any. -/
def cause? : SessionError → Option DebugError
  | targetCreationFailed e | launchFailed e | attachFailed e | connectFailed e | engine _ e =>
    some e
  | _ => none

end SessionError

end DebugAdapter.Session
