import DebugAdapter.Proofs.CommandNames
import DebugAdapter.Proofs.SessionOutcomes

/-!
# The shape of replies

Every payload gets one document. Its members have names of their own, it is either a status document
or a data view, it carries the `id` of the request, and only five commands give data views. What the
commands add to a status document never stands under a name that the document has anyway; this is
shown of each command, whatever the engine answers (`yields_execute`).
-/

namespace DebugAdapter

open Debuggee
open Operation

namespace Wire.Response

/-- The names that are no data of a command.
-/
def reserved : List String := ["status", "message", "id", "type"]

/-- A status document of success with data of a command, in order of their names. -/
def Plain : Response → Prop
  | .status isOk message extra id => isOk = true ∧ message = none ∧ id = none ∧
      Json.Sorted extra ∧ ∀ m ∈ extra, m.1 ∉ reserved
  | .data .. => False

theorem plain_ok : Plain ok :=
  ⟨rfl, rfl, rfl, .nil, by intro m hm; cases hm⟩

theorem Plain.withMember {r : Response} (h : r.Plain) {name : String} (hname : name ∉ reserved)
    (v : Json) : (r.withMember name v).Plain := by
  cases r with
  | data kind payload id => exact h
  | status isOk message extra id =>
    obtain ⟨hok, hmessage, hid, hsorted, hextra⟩ := h
    refine ⟨hok, hmessage, hid, Json.sorted_insert hsorted, fun m hm => ?_⟩
    rcases Json.mem_insert hm with rfl | hm
    · exact hname
    · exact hextra m hm

/-- Data in order of their names have names of their own. -/
theorem nodup_of_sorted {ms : Json.Members} (h : Json.Sorted ms) : (ms.map Prod.fst).Nodup := by
  refine List.pairwise_map.mpr (h.imp fun {a b} hlt heq => ?_)
  rw [heq] at hlt
  exact absurd hlt (String.lt_irrefl _)

theorem mem_idMember {id : Option Json} {m : String × Json} :
    m ∈ idMember id ↔ ∃ v, id = some v ∧ m = ("id", v) := by
  cases id with
  | none => simp [idMember]
  | some w => simp [idMember]

/-- The document of a reply with an id: a status document of success, an error, or a data view. -/
inductive Document (id : Option Json) : Json.Members → Prop
  | success {extra : Json.Members} (hsorted : Json.Sorted extra)
      (hextra : ∀ m ∈ extra, m.1 ∉ reserved) :
      Document id (("status", .str "ok") :: (extra ++ idMember id))
  | failure (message : String) :
      Document id (("status", .str "error") :: ("message", .str message) :: idMember id)
  | view (kind : DataKind) (payload : Json) :
      Document id (("type", .str kind.name) :: ("payload", payload) :: idMember id)

theorem Plain.document {r : Response} (h : r.Plain) (id : Option Json) :
    Document id (r.withId id).members := by
  cases r with
  | data kind payload id' => exact h.elim
  | status isOk message extra id' =>
    obtain ⟨rfl, rfl, -, hsorted, hextra⟩ := h
    exact .success hsorted hextra

theorem Plain.type_not_mem {r : Response} (h : r.Plain) (id : Option Json) (v : Json) :
    ("type", v) ∉ (r.withId id).members := by
  cases r with
  | data kind payload id' => exact h.elim
  | status isOk message extra id' =>
    obtain ⟨rfl, rfl, -, -, hextra⟩ := h
    have htype : ("type", v) ∉ extra := fun hm => hextra _ hm (by simp [reserved])
    simp [withId, members, mem_idMember, htype]

theorem Plain.error_not_mem {r : Response} (h : r.Plain) (id : Option Json) :
    ("status", .str "error") ∉ (r.withId id).members := by
  cases r with
  | data kind payload id' => exact h.elim
  | status isOk message extra id' =>
    obtain ⟨rfl, rfl, -, -, hextra⟩ := h
    have hstatus : ("status", Json.str "error") ∉ extra := fun hm =>
      hextra _ hm (by simp [reserved])
    simp [withId, members, mem_idMember, hstatus]

variable {id : Option Json} {ms : Json.Members}

/-- No two members share a name. -/
theorem Document.nodup (h : Document id ms) : (ms.map Prod.fst).Nodup := by
  cases h with
  | @success extra hsorted hextra =>
    have hstatus : ∀ v, ("status", v) ∉ extra := fun v hm => hextra _ hm (by simp [reserved])
    have hid : ∀ v, ("id", v) ∉ extra := fun v hm => hextra _ hm (by simp [reserved])
    have hsplit := nodup_of_sorted hsorted
    cases id with
    | none => simpa [idMember, hsplit] using hstatus
    | some v => simpa [idMember, List.nodup_append, hsplit] using ⟨hstatus, fun a v h => by
        rintro rfl
        exact hid v h⟩
  | failure message => cases id <;> simp [idMember]
  | view kind payload => cases id <;> simp [idMember]

/-- The document has a status or a type, not both. -/
theorem Document.status_iff (h : Document id ms) :
    "status" ∈ ms.map Prod.fst ↔ "type" ∉ ms.map Prod.fst := by
  cases h with
  | @success extra hsorted hextra =>
    have htype : ∀ v, ("type", v) ∉ extra := fun v hm => hextra _ hm (by simp [reserved])
    cases id with
    | none => simpa [idMember] using htype
    | some v => simpa [idMember] using htype
  | failure message => cases id <;> simp [idMember]
  | view kind payload => cases id <;> simp [idMember]

/-- The id of the document is that of the request, if it has one. -/
theorem Document.id_iff (h : Document id ms) (v : Json) : ("id", v) ∈ ms ↔ id = some v := by
  cases h with
  | @success extra hsorted hextra =>
    have hid : ("id", v) ∉ extra := fun hm => hextra _ hm (by simp [reserved])
    simp [mem_idMember, hid]
  | failure message => simp [mem_idMember]
  | view kind payload => simp [mem_idMember]

end Wire.Response

namespace Session

open Wire (DataKind Response)

variable {ε : Type} {α β : Type}

/-! ### What actions give -/

/-- Every result of an action has a property. -/
def Yields (P : α → Prop) (m : Action ε α) : Prop :=
  ∀ s : Session ε, Ends m s fun r _ => ∀ a, r = .ok a → P a

section Rules

variable {P : α → Prop}

theorem Yields.pure {a : α} (h : P a) : Yields P (Pure.pure a : Action ε α) := by
  rintro s b ⟨⟩
  exact h

theorem yields_refuse (e : SessionError) : Yields P (refuse e : Action ε α) := by
  rintro s b ⟨⟩

/-- What comes first does not matter. -/
theorem Yields.bind {m : Action ε β} {f : β → Action ε α} (h : ∀ b, Yields P (f b)) :
    Yields P (m >>= f) := by
  intro s
  -- The first part may fail, but then there is no result.
  have hany : Ends m s fun _ _ => True := trivial
  refine hany.bind (fun b s' _ => h b s') ?_
  rintro e s' - a ⟨⟩

end Rules

/-- The kind of the data view that a command gives. -/
def Command.view? : Command → Option DataKind
  | .registers => some .registers
  | .readMemory .. => some .memory
  | .disassembly .. | .mainExecutableDisassembly _ => some .disassembly
  | .findStringReferences _ => some .references
  | _ => none

/-- The replies to a command that succeeds. -/
def Shaped (c : Command) (r : Response) : Prop :=
  match c.view? with
  | some kind => ∃ payload, r = .view kind payload
  | none => r.Plain

theorem isOk_of_shaped {c : Command} {r : Response} (h : Shaped c r) : r.isOk = true := by
  rw [Shaped] at h
  split at h
  · obtain ⟨payload, rfl⟩ := h
    rfl
  · cases r with
    | status isOk message extra id => exact h.1
    | data kind payload id => rfl

open Wire.Response (plain_ok)

theorem plain_withSlide {r : Response} (h : r.Plain) (main : Module) :
    (withSlide r main).Plain := by
  rw [withSlide]
  split
  · exact h
  · split
    · exact h
    · split
      · exact h
      · exact (((h.withMember (by decide) _).withMember (by decide) _).withMember
          (by decide) _).withMember (by decide) _

/-- A reply without data. -/
theorem yields_ok : Yields Response.Plain (pure .ok : Action ε Response) :=
  .pure plain_ok

variable [DebugEngine ε]

/-! ### What commands give -/

theorem yields_launch : Yields Response.Plain (launch : Action ε Response) := by
  intro s
  rw [ends_launch]
  refine Yields.bind (fun t => ?_) s
  rw [resumeLaunched]
  split
  · exact .bind fun pid => .pure (plain_ok.withMember (by decide) _)
  · refine .bind fun answer => ?_
    split
    · exact .bind fun _ => .pure (plain_ok.withMember (by decide) _)
    · exact .bind fun _ => .bind fun _ => .bind fun _ => .pure (plain_ok.withMember (by decide) _)

theorem yields_attach (pid : Nat) (executable : Option String) (is64 : Bool) :
    Yields Response.Plain (attach pid executable is64 : Action ε Response) := by
  have hreply : (Response.ok.withMember "pid" (Json.ofNat pid)).Plain :=
    plain_ok.withMember (by decide) _
  refine .bind fun _ => .bind fun t => .bind fun _ => .bind fun _ => .bind fun answer => ?_
  split
  · exact .pure (plain_withSlide hreply _)
  · exact .pure hreply

theorem yields_connectRemote (is64 : Bool) (url plugin : String) (file : Option String) :
    Yields Response.Plain (connectRemote is64 url plugin file : Action ε Response) := by
  refine .bind fun _ => .bind fun s => ?_
  split
  · exact .bind fun _ => .bind fun _ => .bind fun _ => .pure plain_ok
  · exact .bind fun _ => .bind fun _ => .bind fun _ => .bind fun _ => .pure plain_ok

theorem yields_processState : Yields Response.Plain (processState : Action ε Response) := by
  have hreply : ∀ state : ProcessState, ((Response.ok.withMember "state"
      (Json.ofNat state.code)).withMember "state-string" (.str state.name)).Plain := fun state =>
    (plain_ok.withMember (by decide) _).withMember (by decide) _
  refine .bind fun t => .bind fun state => .bind fun exit => ?_
  split
  · exact .pure ((hreply state).withMember (by decide) _)
  · exact .pure (hreply state)

theorem yields_step (kind : StepKind) : Yields Response.Plain (step kind : Action ε Response) :=
  .bind fun _ => .pure (((plain_ok.withMember (by decide) _).withMember (by decide) _).withMember
    (by decide) _)

theorem yields_stepUntilUserCode :
    Yields Response.Plain (stepUntilUserCode : Action ε Response) := by
  have hreply : ∀ (main : Module) (h : Hops), Yields Response.Plain
      (pure ((((Response.ok.withMember "reached" (.bool (main.contains h.pc))).withMember "threadId"
        (Json.ofNat h.thread)).withMember "pc" (Json.ofWord h.pc)).withMember "hops"
        (Json.ofNat h.hops)) : Action ε Response) := fun main h =>
    .pure ((((plain_ok.withMember (by decide) _).withMember (by decide) _).withMember
      (by decide) _).withMember (by decide) _)
  refine .bind fun t => .bind fun main => ?_
  cases main with
  | none =>
    exact .bind fun main => .bind fun _ => .bind fun _ => .bind fun _ => .bind (hreply main)
  | some m =>
    exact .bind fun main => .bind fun _ => .bind fun _ => .bind fun _ => .bind (hreply main)

theorem yields_selectThread (tid : Nat) :
    Yields Response.Plain (selectThread tid : Action ε Response) := by
  refine .bind fun t => .bind fun list => ?_
  split
  · exact .bind fun _ => yields_ok
  · exact yields_refuse _

theorem yields_selectFrame (index : Nat) :
    Yields Response.Plain (selectFrame index : Action ε Response) := by
  refine .bind fun tid => .bind fun t => .bind fun frames => ?_
  split
  · exact .bind fun _ => yields_ok
  · exact yields_refuse _

theorem yields_setRegister (name : String) (value : UInt64) :
    Yields Response.Plain (setRegister name value : Action ε Response) := by
  refine .bind fun tid => .bind fun a => .bind fun answer => ?_
  split
  · exact yields_ok
  · exact yields_refuse _
  · exact yields_refuse _

theorem yields_setBreakpoint (addr : UInt64) :
    Yields Response.Plain (setBreakpoint addr : Action ε Response) := by
  refine .bind fun t => ?_
  split
  · exact .bind fun _ => .bind fun _ =>
      .pure ((plain_ok.withMember (by decide) _).withMember (by decide) _)
  · exact .bind fun _ => .pure ((plain_ok.withMember (by decide) _).withMember (by decide) _)

theorem yields_removeBreakpoint (id : Nat) :
    Yields Response.Plain (removeBreakpoint id : Action ε Response) := by
  refine .bind fun t => .bind fun s => ?_
  dsimp only
  split
  · exact yields_refuse _
  · split
    · exact .bind fun _ => .bind fun _ => yields_ok
    · exact .bind fun _ => yields_ok

theorem yields_removeAllBreakpoints :
    Yields Response.Plain (removeAllBreakpoints : Action ε Response) := by
  refine .bind fun t => ?_
  split
  · exact .bind fun _ => .bind fun _ => yields_ok
  · exact .bind fun _ => yields_ok

theorem yields_moduleAtIndex (index : Int) :
    Yields Response.Plain (moduleAtIndex index : Action ε Response) := by
  refine .bind fun t => .bind fun ms => ?_
  dsimp only
  split
  · exact .pure (plain_ok.withMember (by decide) _)
  · exact yields_refuse _

theorem yields_moduleForFile (file : String) :
    Yields Response.Plain (moduleForFile file : Action ε Response) := by
  refine .bind fun t => .bind fun ms => ?_
  split
  · exact .pure (plain_ok.withMember (by decide) _)
  · exact yields_refuse _

theorem yields_executeCommand (line : String) :
    Yields Response.Plain (executeCommand line : Action ε Response) := by
  have hreply : ∀ output : CommandOutput, Yields Response.Plain
      (pure (((Response.ok.withMember "output" (.str output.output)).withMember "error"
        (.str output.error)).withMember "succeeded" (.bool output.succeeded)) :
          Action ε Response) :=
    fun output => .pure (((plain_ok.withMember (by decide) _).withMember (by decide) _).withMember
      (by decide) _)
  refine .bind fun a => .bind fun s => ?_
  split
  · refine .bind fun thread => .bind fun answer => ?_
    split
    · exact .bind hreply
    · exact .bind hreply
  · refine .bind fun _ => .bind fun thread => .bind fun answer => ?_
    split
    · exact .bind hreply
    · exact .bind hreply

theorem yields_completeCommand (line : String) (position : Nat) :
    Yields Response.Plain (completeCommand line position : Action ε Response) := by
  refine .bind fun a => .bind fun s => ?_
  split
  · exact .bind fun _ => .pure (plain_ok.withMember (by decide) _)
  · exact .bind fun _ => .bind fun _ => .pure (plain_ok.withMember (by decide) _)

theorem yields_readMemory (addr : UInt64) (length : Nat) :
    Yields (Shaped (.readMemory addr length)) (readMemory addr length : Action ε Response) := by
  refine .bind fun s => ?_
  dsimp only
  split
  · exact .bind fun _ => .bind fun _ => .bind fun _ => .pure ⟨_, rfl⟩
  · exact .bind fun _ => .bind fun _ => .pure ⟨_, rfl⟩

theorem yields_disassembly (addr : UInt64) (count : Nat) :
    Yields (Shaped (.disassembly addr count)) (disassembly addr count : Action ε Response) := by
  refine .bind fun s => ?_
  dsimp only
  split
  all_goals exact .bind fun _ => .bind fun _ => .pure ⟨_, rfl⟩

theorem yields_findStringReferences (addr : UInt64) :
    Yields (Shaped (.findStringReferences addr))
      (findStringReferences addr : Action ε Response) := by
  refine .bind fun t => .bind fun s => ?_
  dsimp only
  split
  · exact .bind fun _ => .pure ⟨_, rfl⟩
  · exact .bind fun _ => .bind fun _ => .pure ⟨_, rfl⟩

/-- Whatever the engine answers, a command that succeeds gives data under names of its own, or the
data view that is its. -/
theorem yields_execute (c : Command) : Yields (Shaped c) (execute c : Action ε Response) := by
  cases c with
  | ping => exact yields_ok
  | prepare executable => exact .bind fun _ => .bind fun _ => yields_ok
  | launch => exact yields_launch
  | attach pid executable is64 => exact yields_attach pid executable is64
  | connectRemote is64 url plugin file => exact yields_connectRemote is64 url plugin file
  | detach => exact .bind fun _ => .bind fun _ => .bind fun _ => .bind fun _ => yields_ok
  | deleteProcess =>
    exact .bind fun _ => .bind fun _ => .bind fun _ => .bind fun _ => yields_ok
  | hasProcess => exact .bind fun _ => yields_ok
  | processState => exact yields_processState
  | resume => exact .bind fun _ => .bind fun _ => .bind fun _ => .bind fun _ => yields_ok
  | kill => exact .bind fun _ => .bind fun _ => .bind fun _ => yields_ok
  | interrupt => exact .bind fun _ => .bind fun _ => .bind fun _ => yields_ok
  | forceStopAndReport =>
    exact .bind fun _ => .bind fun _ => .bind fun _ => .bind fun _ => .bind fun _ => .bind fun _ =>
      .bind fun _ => .bind fun _ => yields_ok
  | step kind => exact yields_step kind
  | stepUntilUserCode => exact yields_stepUntilUserCode
  | threads => exact .bind fun _ => .bind fun _ => .pure (plain_ok.withMember (by decide) _)
  | selectThread tid => exact yields_selectThread tid
  | callStack =>
    exact .bind fun _ => .bind fun _ => .bind fun _ => .pure (plain_ok.withMember (by decide) _)
  | selectFrame index => exact yields_selectFrame index
  | registers => exact .bind fun _ => .bind fun _ => .bind fun _ => .pure ⟨_, rfl⟩
  | setRegister name value => exact yields_setRegister name value
  | readMemory addr length => exact yields_readMemory addr length
  | writeByte addr value =>
    exact .bind fun _ => .bind fun _ => .pure (((plain_ok.withMember (by decide) _).withMember
      (by decide) _).withMember (by decide) _)
  | sendToApplication data =>
    exact .bind fun _ => .bind fun _ => .pure (plain_ok.withMember (by decide) _)
  | setBreakpoint addr => exact yields_setBreakpoint addr
  | removeBreakpoint id => exact yields_removeBreakpoint id
  | removeAllBreakpoints => exact yields_removeAllBreakpoints
  | disassembly addr count => exact yields_disassembly addr count
  | mainExecutableDisassembly count =>
    exact .bind fun _ => .bind fun _ => .bind fun _ => .pure ⟨_, rfl⟩
  | findStringReferences addr => exact yields_findStringReferences addr
  | moduleCount => exact .bind fun _ => .bind fun _ => .pure (plain_ok.withMember (by decide) _)
  | moduleAtIndex index => exact yields_moduleAtIndex index
  | moduleForFile file => exact yields_moduleForFile file
  | executeCommand line => exact yields_executeCommand line
  | completeCommand line position => exact yields_completeCommand line position

/-! ### Payloads and their replies -/

/-- What a payload leads to: why it is not understood or its command failed, or the reply of its
command; and the session then. -/
def outcome (payload : Bytes) (s : Session ε) : Except Failure Response × Session ε :=
  match (RequestDocument.read payload).command? with
  | .error e => (.error (.refused e), s)
  | .ok c => (execute c).run s

theorem handleFrame_eq (payload : Bytes) (s : Session ε) : handleFrame payload s =
    ((replyTo (outcome payload s).1).withId (requestId? payload), (outcome payload s).2) := by
  rw [handleFrame, outcome, id_read]
  dsimp only
  rcases (RequestDocument.read payload).command? with e | c
  · rfl
  · dsimp only
    rw [reply_eq]
    rfl

/-- A failure gives an error document with a message. -/
theorem members_of_error (f : Failure) (id : Option Json) :
    ∃ message, ((replyTo (.error f)).withId id).members =
      ("status", .str "error") :: ("message", .str message) :: Response.idMember id := by
  cases f with
  | refused e => exact ⟨_, rfl⟩
  | crashed text => exact ⟨_, rfl⟩

/-- What a payload that succeeds asked for. -/
theorem command_of_outcome {payload : Bytes} {s : Session ε} {response : Response}
    (h : (outcome payload s).1 = .ok response) :
    ∃ c name, commandName? payload = some name ∧ c.Named name ∧ Shaped c response := by
  rw [outcome] at h
  split at h
  · cases h
  · rename_i c hcommand
    obtain ⟨name, hname, hnamed⟩ := named_of_command? hcommand
    exact ⟨c, name, hname, hnamed, yields_execute c s response h⟩

/-- The document of a payload's reply. -/
theorem document_of_payload (payload : Bytes) (s : Session ε) :
    Response.Document (requestId? payload) (handleFrame payload s).1.members := by
  rw [handleFrame_eq]
  rcases houtcome : (outcome payload s).1 with f | response
  · obtain ⟨message, hmembers⟩ := members_of_error f (requestId? payload)
    rw [hmembers]
    exact .failure message
  · obtain ⟨c, name, -, -, hshape⟩ := command_of_outcome houtcome
    rw [Shaped] at hshape
    rcases hview : c.view? with _ | kind
    · rw [hview] at hshape
      exact Response.Plain.document hshape _
    · rw [hview] at hshape
      obtain ⟨view, rfl⟩ := hshape
      exact .view kind view

/-- The names of the commands that give data views. -/
def viewNames : List String :=
  ["getRegisters", "readMemory", "disassembly", "getMainExecutableDisassembly",
    "findStringReferences"]

theorem mem_viewNames {c : Command} {name : String} (hname : c.Named name)
    (hview : c.view? ≠ none) : name ∈ viewNames := by
  cases c
  all_goals first
    | exact absurd rfl hview
    | simp_all [Command.Named, Command.names, viewNames]

/-- No data view is taken for a notification. -/
theorem kind_ne_name (kind : DataKind) (n : Wire.Notification) : n.kind ≠ kind.name := by
  cases n <;> cases kind <;> simp [Wire.Notification.kind, DataKind.name]

/-- A data view comes from one of the commands that give them, which has succeeded. -/
theorem viewed_of_type {payload : Bytes} {s : Session ε} {v : Json}
    (h : ("type", v) ∈ (handleFrame payload s).1.members) :
    (∃ name ∈ viewNames, commandName? payload = some name) ∧
      (∃ response, (outcome payload s).1 = .ok response) ∧
      ∃ kind : DataKind, v = .str kind.name := by
  rw [handleFrame_eq] at h
  rcases houtcome : (outcome payload s).1 with f | response
  · rw [houtcome] at h
    obtain ⟨message, hmembers⟩ := members_of_error f (requestId? payload)
    rw [hmembers] at h
    simp [Response.mem_idMember] at h
  · rw [houtcome] at h
    obtain ⟨c, name, hpayload, hname, hshape⟩ := command_of_outcome houtcome
    rw [Shaped] at hshape
    rcases hview : c.view? with _ | kind
    · rw [hview] at hshape
      exact absurd h (Response.Plain.type_not_mem hshape _ v)
    · rw [hview] at hshape
      obtain ⟨view, rfl⟩ := hshape
      refine ⟨⟨name, mem_viewNames hname ?_, hpayload⟩, ⟨_, rfl⟩, kind, ?_⟩
      · rw [hview]
        rintro ⟨⟩
      · simpa [replyTo, Response.view, Response.withId, Response.members, Response.mem_idMember]
          using h

/-- No success is reported as an error. -/
theorem error_not_mem {payload : Bytes} {s : Session ε} {response : Response}
    (h : (outcome payload s).1 = .ok response) :
    ("status", .str "error") ∉ (handleFrame payload s).1.members := by
  obtain ⟨c, name, -, -, hshape⟩ := command_of_outcome h
  rw [handleFrame_eq, h]
  rw [Shaped] at hshape
  rcases hview : c.view? with _ | kind
  · rw [hview] at hshape
    exact Response.Plain.error_not_mem hshape _
  · rw [hview] at hshape
    obtain ⟨view, rfl⟩ := hshape
    simp [replyTo, Response.view, Response.withId, Response.members, Response.mem_idMember]

/-- **Every payload gets one reply of a fixed shape**, in every session, whatever the engine
answers, and also if the payload is not understood, its command fails or the engine breaks down in
it. No two members share a name; there is a status or a type, not both; the id is that of the
request, if it has one; a type comes from a command that gives a data view and succeeded, and is no
kind of notification; and every failure is an error with a message, no success is one. -/
theorem reply_shape (payload : Bytes) (s : Session ε) :
    let members := (handleFrame payload s).1.members
    (members.map Prod.fst).Nodup ∧
    ("status" ∈ members.map Prod.fst ↔ "type" ∉ members.map Prod.fst) ∧
    (∀ v, ("id", v) ∈ members ↔
      ∃ doc, Json.parse payload = .ok (.obj doc) ∧ Json.lookup "id" doc = some v) ∧
    (∀ v, ("type", v) ∈ members →
      (∃ name ∈ viewNames, commandName? payload = some name) ∧
      (∃ response, (outcome payload s).1 = .ok response) ∧
      ∃ kind : DataKind, v = .str kind.name ∧ ∀ n : Wire.Notification, n.kind ≠ kind.name) ∧
    (∀ f, (outcome payload s).1 = .error f → ∃ message, members =
      ("status", .str "error") :: ("message", .str message) ::
        Response.idMember (requestId? payload)) ∧
    (∀ response, (outcome payload s).1 = .ok response → ("status", .str "error") ∉ members) := by
  have hdocument := document_of_payload payload s
  refine ⟨hdocument.nodup, hdocument.status_iff, fun v => ?_, fun v hv => ?_, fun f hf => ?_,
    fun response h => error_not_mem h⟩
  · rw [hdocument.id_iff v]
    exact requestId?_eq_some
  · obtain ⟨hname, hok, kind, hkind⟩ := viewed_of_type hv
    exact ⟨hname, hok, kind, hkind, kind_ne_name kind⟩
  · rw [handleFrame_eq, hf]
    exact members_of_error f _

end Session

end DebugAdapter
