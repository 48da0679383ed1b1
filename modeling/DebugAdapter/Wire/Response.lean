import DebugAdapter.Json.Render

/-!
# Replies

The reply to a command has one of two shapes: a status document, which carries `status` and perhaps
a message and further members in order of their names, or a data view, which carries `type` and
`payload`. Either may carry the `id` of the request as its last member.
-/

namespace DebugAdapter.Wire

/-- The kinds of data views. -/
inductive DataKind where
  | memory | registers | disassembly | references | other
  deriving Repr, DecidableEq

/-- The name of a kind of data view. -/
def DataKind.name : DataKind → String
  | memory => "memory"
  | registers => "registers"
  | disassembly => "disassembly"
  | references => "references"
  | other => "other"

/-- The reply to a command. -/
inductive Response where
  /-- A status document. -/
  | status (isOk : Bool) (message : Option String) (extra : Json.Members) (id : Option Json)
  /-- A data view. -/
  | data (kind : DataKind) (payload : Json) (id : Option Json)

namespace Response

/-- The reply of a command that succeeded. -/
def ok : Response := .status true none [] none

/-- The reply of a command that succeeded, with a message. -/
def okMessage (message : String) : Response := .status true (some message) [] none

/-- The reply of a command that failed. -/
def error (message : String) : Response := .status false (some message) [] none

/-- A data view without an id. -/
def view (kind : DataKind) (payload : Json) : Response := .data kind payload none

/-- Adds a member to a status document; data views stay as they are. -/
def withMember (r : Response) (name : String) (v : Json) : Response :=
  match r with
  | .status isOk message extra id => .status isOk message (Json.insert name v extra) id
  | .data .. => r

/-- Sets the id of the request. -/
def withId (r : Response) (id : Option Json) : Response :=
  match r with
  | .status isOk message extra _ => .status isOk message extra id
  | .data kind payload _ => .data kind payload id

/-- Whether the reply reports success. -/
def isOk : Response → Bool
  | .status isOk .. => isOk
  | .data .. => true

/-- The member for an id that is present. -/
def idMember (id : Option Json) : Json.Members :=
  match id with
  | some v => [("id", v)]
  | none => []

/-- The members of the document, in order. -/
def members : Response → Json.Members
  | .status isOk message extra id =>
    ("status", .str (if isOk then "ok" else "error")) ::
      ((match message with
        | some m => [("message", Json.str m)]
        | none => []) ++ extra ++ idMember id)
  | .data kind payload id =>
    ("type", .str kind.name) :: ("payload", payload) :: idMember id

/-- The document of a reply. -/
def document (r : Response) : Json :=
  .obj r.members

/-- The text of a reply. -/
def render (r : Response) : String :=
  r.document.render

end Response

end DebugAdapter.Wire
