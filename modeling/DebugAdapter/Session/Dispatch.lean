import DebugAdapter.Json.Parse
import DebugAdapter.Session.Command

/-!
# Answering requests

Turns a payload into exactly one reply. A payload that is no JSON object, a missing or unknown
command, malformed arguments, an error of the session or the engine, and a breakdown of the engine
all give an error reply; the `id` of the request is copied into the reply whenever the payload is an
object with one.
-/

namespace DebugAdapter.Session

open Debuggee (DebugEngine)
open Wire (Response)

/-- What a payload asks for: the `id` to copy, and the command with its document or why there is
none. -/
structure RequestDocument where
  id : Option Json
  command : Except SessionError (String × Json.Members)

/-- Reads a payload as a request document. -/
def RequestDocument.read (payload : Bytes) : RequestDocument :=
  match Json.parse payload with
  | .error e => ⟨none, .error (.decode (e.message payload))⟩
  | .ok (.obj doc) =>
    { id := Json.lookup "id" doc
      command :=
        match Json.lookup "command" doc with
        | some (.str name) => .ok (name, doc)
        | _ => .error (.badRequest "missing command field") }
  | .ok _ => ⟨none, .error (.decode "expected a JSON object")⟩

/-- The command that a request document asks for. -/
def RequestDocument.command? (r : RequestDocument) : Except SessionError Command :=
  match r.command with
  | .error e => .error e
  | .ok (name, doc) => Command.read name doc

variable {ε : Type} [DebugEngine ε]

/-- What a breakdown of the engine says that left no message. -/
def silentCrash : String := "command handler panicked"

/-- The reply to a command, without an id, and the session after it. -/
def reply (c : Command) (s : Session ε) : Response × Session ε :=
  match (execute c).run s with
  | (.ok response, s) => (response, s)
  | (.error (.refused e), s) => (.error e.message, s)
  | (.error (.crashed text), s) =>
    (.error (SessionError.internal (text.getD silentCrash)).message, s)

/-- The reply to a payload, and the session after it. -/
def handleFrame (payload : Bytes) (s : Session ε) : Response × Session ε :=
  let r := RequestDocument.read payload
  match r.command? with
  | .error e => ((Response.error e.message).withId r.id, s)
  | .ok c =>
    let (response, s) := reply c s
    (response.withId r.id, s)

end DebugAdapter.Session
