import DebugAdapter.Session.Dispatch

/-!
# The names of commands

A command that was read from a request document has one of the names that the protocol has for it
(`named_of_read`). So what is known of a command by its name is known of every payload with that
name, whatever its arguments are.
-/

namespace DebugAdapter.Session

variable {ε α β : Type} {P : α → Prop}

/-! ### What a reader gives -/

/-- A result, if there is one, has a property. -/
def Gives (P : α → Prop) (x : Except ε α) : Prop := ∀ a, x = .ok a → P a

theorem gives_ok {a : α} (h : P a) : Gives P (.ok a : Except ε α) := by
  rintro b ⟨⟩
  exact h

theorem gives_error (e : ε) : Gives P (.error e) := by
  rintro a ⟨⟩

/-- What comes first does not matter. -/
theorem gives_bind {x : Except ε β} {f : β → Except ε α} (h : ∀ b, Gives P (f b)) :
    Gives P (x >>= f) := by
  cases x with
  | error e => exact gives_error e
  | ok b => exact h b

theorem gives_map {x : Except ε β} {f : β → α} (h : ∀ b, P (f b)) : Gives P (f <$> x) := by
  cases x with
  | error e => exact gives_error e
  | ok b => exact gives_ok (h b)

theorem gives_withArguments {doc : Json.Members} {checks : List Check}
    {build : Except ArgumentError α} (h : Gives P build) :
    Gives P (withArguments doc checks build) :=
  gives_bind fun _ => h

/-! ### Names -/

/-- The names of a command in the protocol. -/
def Command.names : Command → List String
  | .ping => ["ping"]
  | .prepare _ => ["prepareExecutable"]
  | .launch => ["createProcess", "launch"]
  | .attach .. => ["attachToProcess"]
  | .connectRemote .. => ["connectRemote"]
  | .detach => ["detach"]
  | .deleteProcess => ["deleteProcess"]
  | .hasProcess => ["hasProcess"]
  | .processState => ["getProcessState"]
  | .resume => ["continueExecution"]
  | .kill => ["stopExecution"]
  | .interrupt => ["breakExecution"]
  | .forceStopAndReport => ["forceStopAndReport"]
  | .step _ => ["stepInstruction", "stepOver", "stepOut"]
  | .stepUntilUserCode => ["stepUntilUserCode"]
  | .threads => ["getThreadIDList"]
  | .selectThread _ => ["selectThreadID"]
  | .callStack => ["getCallstack"]
  | .selectFrame _ => ["selectFrame"]
  | .registers => ["getRegisters"]
  | .setRegister .. => ["setRegister"]
  | .readMemory .. => ["readMemory"]
  | .writeByte .. => ["writeByte"]
  | .sendToApplication _ => ["sendToApplication"]
  | .setBreakpoint _ => ["setBreakpointAtVirtualAddress"]
  | .removeBreakpoint _ => ["removeBreakpoint"]
  | .removeAllBreakpoints => ["removeAllBreakpoints"]
  | .disassembly .. => ["disassembly"]
  | .mainExecutableDisassembly _ => ["getMainExecutableDisassembly"]
  | .findStringReferences _ => ["findStringReferences"]
  | .moduleCount => ["moduleCount"]
  | .moduleAtIndex _ => ["moduleAtIndex"]
  | .moduleForFile _ => ["moduleForFile"]
  | .executeCommand _ => ["executeCommand"]
  | .completeCommand .. => ["completeCommand"]

/-- A command has a name. -/
def Command.Named (name : String) (c : Command) : Prop := name ∈ c.names

section Readers

variable {p : Command → Prop}

theorem gives_readOne {f : Field α} {build : α → Command} (h : ∀ a, p (build a))
    (doc : Json.Members) : Gives p (readOne doc f build) :=
  gives_withArguments (gives_map h)

theorem gives_readTwo {f : Field α} {g : Field β} {build : α → β → Command}
    (h : ∀ a b, p (build a b)) (doc : Json.Members) : Gives p (readTwo doc f g build) :=
  gives_withArguments (gives_bind fun a => gives_bind fun b => gives_ok (h a b))

theorem gives_readAttach (h : ∀ pid executable is64, p (.attach pid executable is64))
    (doc : Json.Members) : Gives p (readAttach doc) :=
  gives_withArguments (gives_bind fun _ => gives_bind fun _ => gives_bind fun _ =>
    gives_ok (h _ _ _))

theorem gives_readConnect (h : ∀ is64 url plugin file, p (.connectRemote is64 url plugin file))
    (doc : Json.Members) : Gives p (readConnect doc) :=
  gives_withArguments (gives_bind fun _ => gives_bind fun _ => gives_bind fun _ =>
    gives_bind fun _ => gives_ok (h _ _ _ _))

theorem gives_readWriteByte (h : ∀ addr value, p (.writeByte addr value)) (name : String)
    (doc : Json.Members) : Gives p (readWriteByte name doc) := by
  rw [readWriteByte]
  split
  · exact gives_error _
  · split
    · exact gives_ok (h _ _)
    · exact gives_error _

end Readers

/-- Each reader of the table gives commands of its name. -/
theorem gives_commandTable {entry : String × (Json.Members → CommandRead)}
    (h : entry ∈ commandTable) (doc : Json.Members) :
    Gives (Command.Named entry.1) (entry.2 doc) := by
  simp only [commandTable, List.mem_cons, List.not_mem_nil, or_false] at h
  rcases h with rfl | rfl | rfl | rfl | rfl | rfl | rfl | rfl | rfl | rfl | rfl | rfl | rfl | rfl |
    rfl | rfl | rfl | rfl | rfl | rfl | rfl | rfl | rfl | rfl | rfl | rfl | rfl | rfl | rfl | rfl |
    rfl | rfl | rfl | rfl | rfl | rfl | rfl
  all_goals first
    | exact gives_ok (by simp [Command.Named, Command.names])
    | exact gives_readOne (fun _ => by simp [Command.Named, Command.names]) doc
    | exact gives_readTwo (fun _ _ => by simp [Command.Named, Command.names]) doc
    | exact gives_map fun _ => by simp [Command.Named, Command.names]
    | exact gives_readAttach (fun _ _ _ => by simp [Command.Named, Command.names]) doc
    | exact gives_readConnect (fun _ _ _ _ => by simp [Command.Named, Command.names]) doc

/-- A command has the name that it was read by, whatever its arguments are. -/
theorem named_of_read {name : String} {doc : Json.Members} {c : Command}
    (h : Command.read name doc = .ok c) : c.Named name := by
  rw [Command.read] at h
  split at h
  · rename_i hname
    rw [hname] at h ⊢
    exact gives_readWriteByte (fun _ _ => by simp [Command.Named, Command.names]) _ doc c h
  · split at h
    · cases h
    · rename_i read hlookup
      obtain ⟨before, after, htable, -⟩ := List.lookup_eq_some_iff.mp hlookup
      have hmem : (name, read) ∈ commandTable := by
        rw [htable]
        exact List.mem_append_right _ List.mem_cons_self
      split at h
      · rename_i c' hread
        cases h
        exact gives_commandTable hmem doc c hread
      · cases h

/-! ### Payloads -/

/-- The name that a payload gives for its command, if it is a document with one. -/
def commandName? (payload : Bytes) : Option String :=
  match Json.parse payload with
  | .ok (.obj doc) =>
    match Json.lookup "command" doc with
    | some (.str name) => some name
    | _ => none
  | _ => none

/-- The id that a payload gives for its reply, if it is a document with one. -/
def requestId? (payload : Bytes) : Option Json :=
  match Json.parse payload with
  | .ok (.obj doc) => Json.lookup "id" doc
  | _ => none

theorem id_read (payload : Bytes) : (RequestDocument.read payload).id = requestId? payload := by
  rw [RequestDocument.read, requestId?]
  rcases Json.parse payload with e | j
  · rfl
  · cases j <;> rfl

theorem requestId?_eq_some {payload : Bytes} {v : Json} : requestId? payload = some v ↔
    ∃ doc, Json.parse payload = .ok (.obj doc) ∧ Json.lookup "id" doc = some v := by
  rw [requestId?]
  rcases Json.parse payload with e | j
  · simp
  · cases j <;> simp

/-- The command of a payload has the name that the payload gives. -/
theorem named_of_command? {payload : Bytes} {c : Command}
    (h : (RequestDocument.read payload).command? = .ok c) :
    ∃ name, commandName? payload = some name ∧ c.Named name := by
  rw [RequestDocument.command?, RequestDocument.read] at h
  rw [commandName?]
  rcases hparse : Json.parse payload with e | j
  · rw [hparse] at h
    cases h
  · rw [hparse] at h
    cases j with
    | obj doc =>
      dsimp only at h ⊢
      rcases hlookup : Json.lookup "command" doc with _ | v
      · rw [hlookup] at h
        cases h
      · rw [hlookup] at h
        cases v with
        | str name => exact ⟨name, rfl, named_of_read h⟩
        | _ => cases h
    | _ => cases h

end DebugAdapter.Session
