import DebugAdapter.Console
import DebugAdapter.Proofs.CommandNames
import DebugAdapter.Proofs.Numerals

/-!
# Addresses as arguments

Commands take addresses and register values as numbers or as numerals in texts. Either way an argument
writes one number (`WritesNumber`), and the commands get it if it fits into a word. Nothing else of how
it is written matters to them, and what writes no word is refused as a bad request. The console reads the
same numerals.

Main statement: `addressArguments_spec`.
-/

namespace DebugAdapter.Session

/-! ### Values -/

/-- A value writes a number: it is the number, or a text that denotes it. -/
inductive WritesNumber : Json → (n : Nat) → Prop
  | number (n : Nat) : WritesNumber (Json.ofNat n) n
  | text {s : String} {n : Nat} : Text.Denotes s n → WritesNumber (.str s) n

/-- A value that writes no number of 64 bits. -/
def NoWord (j : Json) : Prop := ∀ n, WritesNumber j n → wordLimit ≤ n

section Values

variable {j : Json} {w : UInt64} {n m : Nat}

/-- The reader of addresses gives the numbers of words that are written. -/
theorem address_eq_ok_iff : Reader.address j = .ok w ↔ WritesNumber j w.toNat := by
  constructor
  · intro h
    unfold Reader.address at h
    split at h
    · split_ifs at h with hi
      cases h
      rename_i i _
      obtain ⟨n, rfl⟩ := Int.eq_ofNat_of_zero_le hi.1
      have hn : n < wordLimit := by omega
      rw [Int.toNat_natCast, UInt64.toNat_ofNat_of_lt' hn]
      exact .number n
    · split at h
      · rename_i a ha
        cases h
        exact .text (Text.readAddress?_eq_some_iff.mp ha)
      · cases h
    · cases h
  · intro h
    generalize hn : w.toNat = n at h
    cases h with
    | number n =>
      subst hn
      have hw : w.toNat < 0x10000000000000000 := w.toNat_lt
      simpa [Reader.address, Json.ofNat] using hw
    | text hs =>
      subst hn
      simp [Reader.address, Text.readAddress?_eq_some_iff.mpr hs]

theorem WritesNumber.unique (hn : WritesNumber j n) (hm : WritesNumber j m) : n = m := by
  cases hn with
  | number n =>
    cases hm
    rfl
  | text hn =>
    cases hm with
    | text hm => exact hn.unique hm

theorem WritesNumber.address (h : WritesNumber j n) (hn : n < wordLimit) :
    Reader.address j = .ok (UInt64.ofNat n) := by
  rw [address_eq_ok_iff, UInt64.toNat_ofNat_of_lt' hn]
  exact h

theorem noWord_iff : NoWord j ↔ ∃ e, Reader.address j = .error e := by
  rcases h : Reader.address j with e | w
  · refine iff_of_true (fun n hn => ?_) ⟨e, rfl⟩
    by_contra hlt
    rw [hn.address (Nat.not_le.mp hlt)] at h
    cases h
  · refine iff_of_false (fun hno => ?_) (by rintro ⟨e, ⟨⟩⟩)
    exact Nat.not_le.mpr w.toNat_lt (hno _ (address_eq_ok_iff.mp h))

/-- A number that does not fit into a word. -/
theorem WritesNumber.noWord (h : WritesNumber j n) (hn : wordLimit ≤ n) : NoWord j :=
  fun _ hm => h.unique hm ▸ hn

theorem noWord_integer {i : Int} (h : i < 0 ∨ wordLimit ≤ i) : NoWord (.num (.integer i)) := by
  intro n hn
  cases hn
  omega

theorem noWord_binary (bits : UInt64) : NoWord (.num (.binary bits)) := nofun

theorem noWord_minus {s : String} (h : '-' ∈ s.toList) : NoWord (.str s) := by
  intro n hn
  cases hn with
  | text hs => exact absurd h hs.not_mem_minus

/-- What is left of a numeral without its digits. -/
def noDigits : List (List Char) :=
  [[], ['+'], ['0', 'x'], ['0', 'X'], ['0', 'x', '+'], ['0', 'X', '+']]

theorem noWord_noDigits {s : String} (h : Text.trimBlanks s.toList ∈ noDigits) : NoWord (.str s) := by
  have hnone : ∀ cs ∈ noDigits, Text.readWord? cs = none := by decide
  intro n hn
  cases hn with
  | text hs => exact Text.readAddress?_eq_none_iff.mp (hnone _ h) n hs

/-- The ways to write a number that are offered to clients: the number itself, its decimal digits, and
its hexadecimal digits in either case behind their mark, with any number of zeros before them. -/
inductive Written (n : Nat) : Json → Prop
  | number : Written n (Json.ofNat n)
  | decimal (zeros : Nat) :
      Written n (.str (String.ofList (List.replicate zeros '0' ++ Text.natDigits 10 n)))
  | hex {x : Char} {cs : List Char} (zeros : Nat) : x = 'x' ∨ x = 'X' →
      Text.Recased (Text.natDigits 16 n) cs →
      Written n (.str (String.ofList ('0' :: x :: (List.replicate zeros '0' ++ cs))))

theorem Written.writesNumber (h : Written n j) : WritesNumber j n := by
  cases h with
  | number => exact .number n
  | decimal zeros =>
    refine .text (Text.denotes_of_numeral ?_)
    rw [String.toList_ofList]
    exact Text.numeral_decimal n zeros
  | hex zeros hx hcs =>
    refine .text (Text.denotes_of_numeral ?_)
    rw [String.toList_ofList]
    exact Text.numeral_hex hx zeros hcs

end Values

/-! ### Documents -/

/-- A member is stated in another way: with the same value or, if it is the given one, with another value
for the same word. -/
def Restated (member : String) (m m' : String × Json) : Prop :=
  m.1 = m'.1 ∧ (m.2 = m'.2 ∨
    m.1 = member ∧ ∃ w : UInt64, WritesNumber m.2 w.toNat ∧ WritesNumber m'.2 w.toNat)

/-- What is done with the value of a member with a name is the same however it is stated. -/
def Indifferent {α : Type} (member name : String) (read : Json → α) : Prop :=
  ∀ m m' : String × Json, Restated member m m' → m.1 = name → read m.2 = read m'.2

section Documents

variable {α β : Type} {member name : String} {doc doc' : Json.Members} {j : Json}
  {f : Field α} {g : Field β} {checks : List Check}

theorem indifferent_of_ne {read : Json → α} (h : name ≠ member) : Indifferent member name read := by
  rintro m m' ⟨-, hvalue | ⟨hm, -⟩⟩ hname
  · rw [hvalue]
  · exact absurd (hname.symm.trans hm) h

theorem indifferent_address : Indifferent member name Reader.address := by
  rintro m m' ⟨-, hvalue | ⟨-, w, h, h'⟩⟩ -
  · rw [hvalue]
  · rw [address_eq_ok_iff.mpr h, address_eq_ok_iff.mpr h']

theorem get_cons (n : String) (v : Json) (r : Json.Members) :
    f.get ((n, v) :: r) = if n = f.name then f.read v else f.get r := by
  rw [Field.get, Json.lookup]
  split_ifs <;> rfl

theorem get_restated (hdoc : List.Forall₂ (Restated member) doc doc')
    (hf : Indifferent member f.name f.read) : f.get doc = f.get doc' := by
  induction hdoc with
  | nil => rfl
  | @cons m m' _ _ hm _ ih =>
    obtain ⟨n, v⟩ := m
    obtain ⟨n', v'⟩ := m'
    have hname : n = n' := hm.1
    subst hname
    rw [get_cons, get_cons, ih]
    split_ifs with hn
    · exact hf _ _ hm hn
    · rfl

theorem get_address_restated (hdoc : List.Forall₂ (Restated member) doc doc') :
    (Field.required member Reader.address).get doc = (Field.required member Reader.address).get doc' :=
  get_restated hdoc indifferent_address

theorem checkMembers_restated (hdoc : List.Forall₂ (Restated member) doc doc')
    (hchecks : ∀ c ∈ checks, Indifferent member c.name c.test) :
    checkMembers checks doc = checkMembers checks doc' := by
  induction hdoc with
  | nil => rfl
  | @cons m m' _ _ hm _ ih =>
    obtain ⟨n, v⟩ := m
    obtain ⟨n', v'⟩ := m'
    have hname : n = n' := hm.1
    subst hname
    rw [checkMembers, checkMembers, ih]
    generalize hfind : checks.find? _ = found
    rcases found with _ | c
    · rfl
    · have hc : c.name = n := by simpa using List.find?_some hfind
      have htest := hchecks c (List.mem_of_find?_eq_some hfind) _ _ hm hc.symm
      simp only [htest]

theorem indifferent_check (hf : Indifferent member f.name f.read) :
    Indifferent member f.check.name f.check.test := by
  intro m m' hm hname
  simp only [Field.check, hf m m' hm hname]

/-- A document in which the value of a checked member is refused. -/
theorem checkMembers_refused (hmem : (member, j) ∈ doc) {c : Check}
    (hc : checks.find? (·.name == member) = some c) (hj : ∃ e, c.test j = .error e) :
    ∃ e, checkMembers checks doc = .error e := by
  induction doc with
  | nil => cases hmem
  | cons m r ih =>
    obtain ⟨n, v⟩ := m
    rw [checkMembers]
    rcases List.mem_cons.mp hmem with heq | hmem
    · cases heq
      obtain ⟨e, he⟩ := hj
      rw [hc]
      exact ⟨e, by simp only [he]⟩
    · split
      · split
        · exact ih hmem
        · exact ⟨_, rfl⟩
      · exact ih hmem

end Documents

/-! ### Readers of documents -/

/-- A reader of documents takes a member as an address. It makes no difference how the address is
stated, what it gives has the address of the member, and a member that is none is refused. -/
structure TakesAddress {ε α : Type} (member : String) (refusal : ε → Prop)
    (address? : α → Option UInt64) (read : Json.Members → Except ε α) : Prop where
  restated : ∀ {doc doc' : Json.Members}, List.Forall₂ (Restated member) doc doc' →
    read doc = read doc'
  given : ∀ {doc : Json.Members} {a : α}, read doc = .ok a → ∃ j w,
    Json.lookup member doc = some j ∧ Reader.address j = .ok w ∧ address? a = some w
  refused : ∀ {doc : Json.Members} {j : Json}, (member, j) ∈ doc →
    (∃ e, Reader.address j = .error e) → ∃ e, refusal e ∧ read doc = .error e

section Readers

variable {ε ε' α β : Type} {member : String} {refusal : ε → Prop} {refusal' : ε' → Prop}
  {address? : α → Option UInt64} {address?' : β → Option UInt64} {doc : Json.Members}
  {read : Json.Members → Except ε α}

/-- What is made of the outcome of a reader afterwards. -/
theorem TakesAddress.andThen (h : TakesAddress member refusal address? read)
    (next : Except ε α → Except ε' β)
    (hok : ∀ {a b}, next (.ok a) = .ok b → address?' b = address? a)
    (herror : ∀ e, refusal e → ∃ e', refusal' e' ∧ next (.error e) = .error e')
    (hfailed : ∀ e b, next (.error e) ≠ .ok b) :
    TakesAddress member refusal' address?' fun doc => next (read doc) where
  restated hdoc := by rw [h.restated hdoc]
  given := by
    intro doc b hb
    rcases hread : read doc with e | a
    · rw [hread] at hb
      exact absurd hb (hfailed e b)
    · rw [hread] at hb
      rw [hok hb]
      exact h.given hread
  refused := by
    intro doc j hmem hj
    obtain ⟨e, he, hread⟩ := h.refused hmem hj
    rw [hread]
    exact herror e he

/-- What succeeds in two parts succeeds in each of them. -/
theorem exists_of_bind_eq_ok {x : Except ε α} {f : α → Except ε β} {b : β} (h : x >>= f = .ok b) :
    ∃ a, x = .ok a ∧ f a = .ok b := by
  rcases x with e | a
  · cases h
  · exact ⟨a, rfl, h⟩

theorem required_get_eq_ok {name : String} {r : Reader α} {a : α}
    (h : (Field.required name r).get doc = .ok a) : ∃ j, Json.lookup name doc = some j ∧ r j = .ok a := by
  rw [Field.get] at h
  split at h
  · exact ⟨_, by assumption, h⟩
  · cases h

/-- A reader that tests the members first takes a member as an address if it is tested as one. -/
theorem takes_withArguments {checks : List Check}
    {build : Json.Members → Except ArgumentError α} (hchecks : ∀ c ∈ checks,
      Indifferent member c.name c.test)
    (hfind : checks.find? (·.name == member) = some (Field.required member Reader.address).check)
    (hbuild : ∀ {doc doc' : Json.Members}, List.Forall₂ (Restated member) doc doc' →
      build doc = build doc')
    (hgiven : ∀ {doc : Json.Members} {a : α}, build doc = .ok a →
      ∃ w, (Field.required member Reader.address).get doc = .ok w ∧ address? a = some w) :
    TakesAddress member (fun _ => True) address? fun doc => withArguments doc checks (build doc) where
  restated hdoc := by
    rw [withArguments, withArguments, checkMembers_restated hdoc hchecks, hbuild hdoc]
  given := by
    intro doc a ha
    obtain ⟨_, -, ha⟩ := exists_of_bind_eq_ok ha
    obtain ⟨w, hw, haddress⟩ := hgiven ha
    obtain ⟨j, hj, hread⟩ := required_get_eq_ok hw
    exact ⟨j, w, hj, hread, haddress⟩
  refused := by
    intro doc j hmem ⟨e, he⟩
    have htest : (Field.required member Reader.address).check.test j = .error e :=
      congrArg (Except.map fun _ => ()) he
    obtain ⟨e', he'⟩ := checkMembers_refused hmem hfind ⟨e, htest⟩
    refine ⟨e', trivial, ?_⟩
    rw [withArguments, he']
    rfl

theorem takes_readOne {build : UInt64 → Command} {address? : Command → Option UInt64}
    (h : ∀ w, address? (build w) = some w) : TakesAddress member (fun _ => True) address?
      fun doc => readOne doc (.required member .address) build := by
  refine takes_withArguments ?_ ?_ ?_ ?_
  · exact List.forall_mem_singleton.mpr (indifferent_check indifferent_address)
  · exact List.find?_cons_of_pos (beq_self_eq_true member)
  · intro doc doc' hdoc
    rw [get_address_restated hdoc]
  · intro doc c hc
    rcases hget : (Field.required member Reader.address).get doc with e | w
    · rw [hget] at hc
      cases hc
    · rw [hget] at hc
      cases hc
      exact ⟨w, rfl, h w⟩

/-- A reader of two members, of which the first one is an address. -/
theorem takes_first {g : Field β} (hg : g.name ≠ member) {build : UInt64 → β → α}
    (h : ∀ w b, address? (build w b) = some w) : TakesAddress member (fun _ => True) address?
      fun doc => withArguments doc [(Field.required member .address).check, g.check] do
        let w ← (Field.required member .address).get doc
        let b ← g.get doc
        return build w b := by
  refine takes_withArguments ?_ ?_ ?_ ?_
  · exact List.forall_mem_cons.mpr ⟨indifferent_check indifferent_address,
      List.forall_mem_singleton.mpr (indifferent_check (indifferent_of_ne hg))⟩
  · exact List.find?_cons_of_pos (beq_self_eq_true member)
  · intro doc doc' hdoc
    rw [get_address_restated hdoc, get_restated hdoc (indifferent_of_ne hg)]
  · intro doc a ha
    obtain ⟨w, hw, ha⟩ := exists_of_bind_eq_ok ha
    obtain ⟨b, -, hbuild⟩ := exists_of_bind_eq_ok ha
    cases hbuild
    exact ⟨w, hw, h w b⟩

/-- A reader of two members, of which the second one is an address. -/
theorem takes_second {f : Field β} (hf : f.name ≠ member) {build : β → UInt64 → α}
    (h : ∀ b w, address? (build b w) = some w) : TakesAddress member (fun _ => True) address?
      fun doc => withArguments doc [f.check, (Field.required member .address).check] do
        let b ← f.get doc
        let w ← (Field.required member .address).get doc
        return build b w := by
  refine takes_withArguments ?_ ?_ ?_ ?_
  · exact List.forall_mem_cons.mpr ⟨indifferent_check (indifferent_of_ne hf),
      List.forall_mem_singleton.mpr (indifferent_check indifferent_address)⟩
  · rw [List.find?_cons_of_neg (by simpa [Field.check] using hf)]
    exact List.find?_cons_of_pos (beq_self_eq_true member)
  · intro doc doc' hdoc
    rw [get_address_restated hdoc, get_restated hdoc (indifferent_of_ne hf)]
  · intro doc a ha
    obtain ⟨b, -, ha⟩ := exists_of_bind_eq_ok ha
    obtain ⟨w, hw, hbuild⟩ := exists_of_bind_eq_ok ha
    cases hbuild
    exact ⟨w, hw, h b w⟩

end Readers

/-! ### Commands -/

/-- The address that a command has, or its register value. -/
def Command.address? : Command → Option UInt64
  | .setRegister _ value => some value
  | .readMemory addr _ => some addr
  | .writeByte addr _ => some addr
  | .setBreakpoint addr => some addr
  | .disassembly addr _ => some addr
  | .findStringReferences addr => some addr
  | _ => none

/-- The commands that have an address, each with the member that it is read from. -/
def addressMembers : List (String × String) :=
  [("setRegister", "value"), ("readMemory", "address"), ("writeByte", "address"),
    ("setBreakpointAtVirtualAddress", "address"), ("disassembly", "address"),
    ("findStringReferences", "stringAddress")]

/-- An error is that of a bad request. -/
def IsBadRequest (e : SessionError) : Prop := ∃ text, e = .badRequest text

/-- The outcome of reading the arguments of a command, with faults reported as those of a bad request. -/
def reported {α : Type} (name : String) (outcome : Except ArgumentError α) : Except SessionError α :=
  outcome.mapError fun e => .badRequest (name ++ ": " ++ e.message)

theorem takes_table {name member : String} {read : Json.Members → CommandRead}
    (hname : name ≠ "writeByte") (hlookup : commandTable.lookup name = some read)
    (h : TakesAddress member (fun _ => True) Command.address? read) :
    TakesAddress member IsBadRequest Command.address? (Command.read name) := by
  have hread : Command.read name = fun doc => reported name (read doc) := by
    funext doc
    rw [Command.read, if_neg hname, hlookup]
    dsimp only
    rcases read doc with e | c <;> rfl
  rw [hread]
  refine h.andThen (reported name) ?_ ?_ ?_
  · rintro c _ ⟨⟩
    rfl
  · exact fun e _ => ⟨_, ⟨_, rfl⟩, rfl⟩
  · rintro e c ⟨⟩

/-- The arguments of `writeByte` as they are read: an address and a number. -/
def writeByteArguments (doc : Json.Members) : Except ArgumentError (UInt64 × Nat) :=
  let value : Field Nat := .required "value" .natural64
  withArguments doc [(Field.required "address" .address).check, value.check] do
    let addr ← (Field.required "address" .address).get doc
    let value ← value.get doc
    return (addr, value)

/-- The arguments of `writeByte` make a command if the number is a byte. -/
def writeByteCommand (arguments : UInt64 × Nat) : Except SessionError Command :=
  if arguments.2 < 256 then .ok (.writeByte arguments.1 (UInt8.ofNat arguments.2))
  else .error (.badRequest ("writeByte: value " ++ Text.decimal arguments.2 ++ " is not a byte"))

theorem read_writeByte (doc : Json.Members) :
    Command.read "writeByte" doc = reported "writeByte" (writeByteArguments doc) >>= writeByteCommand := by
  rw [Command.read, if_pos rfl]
  unfold readWriteByte
  extract_lets value read
  have hread : writeByteArguments doc = read := rfl
  rw [hread]
  clear_value read
  rcases read with e | ⟨addr, value⟩ <;> rfl

theorem takes_writeByte :
    TakesAddress "address" IsBadRequest Command.address? (Command.read "writeByte") := by
  have htakes : TakesAddress "address" (fun _ => True) (fun p : UInt64 × Nat => some p.1)
    writeByteArguments := takes_first (by decide) fun _ _ => rfl
  rw [funext read_writeByte]
  refine htakes.andThen (fun outcome => reported "writeByte" outcome >>= writeByteCommand)
    ?_ ?_ ?_
  · intro arguments c hc
    have hc : writeByteCommand arguments = .ok c := hc
    rw [writeByteCommand] at hc
    split_ifs at hc
    cases hc
    rfl
  · exact fun e _ => ⟨_, ⟨_, rfl⟩, rfl⟩
  · rintro e c ⟨⟩

theorem takes_addressMembers {name member : String} (h : (name, member) ∈ addressMembers) :
    TakesAddress member IsBadRequest Command.address? (Command.read name) := by
  simp only [addressMembers, List.mem_cons, Prod.mk.injEq, List.not_mem_nil, or_false] at h
  rcases h with ⟨rfl, rfl⟩ | ⟨rfl, rfl⟩ | ⟨rfl, rfl⟩ | ⟨rfl, rfl⟩ | ⟨rfl, rfl⟩ | ⟨rfl, rfl⟩
  · exact takes_table (by decide) rfl (takes_second (by decide) fun _ _ => rfl)
  · exact takes_table (by decide) rfl (takes_first (by decide) fun _ _ => rfl)
  · exact takes_writeByte
  · exact takes_table (by decide) rfl (takes_readOne fun _ => rfl)
  · exact takes_table (by decide) rfl (takes_first (by decide) fun _ _ => rfl)
  · exact takes_table (by decide) rfl (takes_readOne fun _ => rfl)

/-- Only these commands have an address. -/
theorem mem_addressMembers_of_read {name : String} {doc : Json.Members} {c : Command} {w : UInt64}
    (h : Command.read name doc = .ok c) (hw : c.address? = some w) :
    ∃ member, (name, member) ∈ addressMembers := by
  have hnamed : name ∈ c.names := named_of_read h
  rw [Command.address?.eq_def] at hw
  split at hw
  all_goals
    first
      | cases hw; done
      | simp only [Command.names, List.mem_singleton] at hnamed
        subst hnamed
        simp [addressMembers]

/-- On words without blanks, the console reads the same numerals with the same values. -/
theorem console_number {word : String} (h : ∀ c ∈ word.toList, Text.isBlank c = false) :
    Console.number word = match Text.readAddress? word with
      | some n => pure n
      | none => Console.refuseArgument word := by
  have htrim : Text.trimBlanks word.toList = word.toList := by
    have hnone : Text.Blanks [] := nofun
    simpa using Text.trimBlanks_append hnone hnone h
  have hread : Text.readAddress? word = Text.readWord? word.toList := by rw [Text.readAddress?, htrim]
  rw [hread]
  rfl

/-- **Arguments for addresses write one number.** The text of an argument is read as a word exactly if,
without the blanks around it, it is a numeral of this word: digits after an optional plus sign, which are
hexadecimal behind their mark and decimal otherwise. An argument writes no more than one number, and all
the ways to write a number are read as this number. What is negative, has no digits or does not fit into a
word is refused. This holds for all commands that have an address or a register value: they get the number
of the argument, how else it is written makes no difference, and what is no word is a bad request. On
words without blanks, the console takes the same texts for the same numbers. -/
theorem addressArguments_spec :
    (∀ (s : String) (w : UInt64), Text.readAddress? s = some w ↔ Text.Denotes s w.toNat) ∧
    (∀ (j : Json) (w : UInt64), Reader.address j = .ok w ↔ WritesNumber j w.toNat) ∧
    (∀ (j : Json) (n m : Nat), WritesNumber j n → WritesNumber j m → n = m) ∧
    (∀ (j : Json) (n : Nat), Written n j →
      (n < wordLimit → Reader.address j = .ok (UInt64.ofNat n)) ∧ (wordLimit ≤ n → NoWord j)) ∧
    (∀ i : Int, i < 0 ∨ wordLimit ≤ i → NoWord (.num (.integer i))) ∧
    (∀ s : String, '-' ∈ s.toList ∨ Text.trimBlanks s.toList ∈ noDigits ∨
      (∃ n, Text.Denotes s n ∧ wordLimit ≤ n) → NoWord (.str s)) ∧
    (∀ name member : String, (name, member) ∈ addressMembers →
      (∀ (doc : Json.Members) (c : Command), Command.read name doc = .ok c → ∃ j w,
        Json.lookup member doc = some j ∧ WritesNumber j w.toNat ∧ c.address? = some w) ∧
      (∀ doc doc' : Json.Members, List.Forall₂ (Restated member) doc doc' →
        Command.read name doc = Command.read name doc') ∧
      (∀ (doc : Json.Members) (j : Json), (member, j) ∈ doc → NoWord j →
        ∃ text, Command.read name doc = .error (.badRequest text))) ∧
    (∀ (name : String) (doc : Json.Members) (c : Command) (w : UInt64),
      Command.read name doc = .ok c → c.address? = some w →
        ∃ member, (name, member) ∈ addressMembers) ∧
    (∀ word : String, (∀ c ∈ word.toList, Text.isBlank c = false) →
      Console.number word = match Text.readAddress? word with
        | some n => pure n
        | none => Console.refuseArgument word) := by
  refine ⟨fun s w => Text.readAddress?_eq_some_iff, fun j w => address_eq_ok_iff,
    fun j n m hn hm => hn.unique hm, fun j n h => ?_, fun i h => noWord_integer h, fun s h => ?_,
    fun name member h => ?_, fun name doc c w h hw => mem_addressMembers_of_read h hw,
    fun word h => console_number h⟩
  · exact ⟨h.writesNumber.address, h.writesNumber.noWord⟩
  · rcases h with hminus | hdigits | ⟨n, hn, hle⟩
    · exact noWord_minus hminus
    · exact noWord_noDigits hdigits
    · exact WritesNumber.noWord (.text hn) hle
  · have htakes := takes_addressMembers h
    refine ⟨fun doc c hc => ?_, fun doc doc' hdoc => htakes.restated hdoc, fun doc j hmem hj => ?_⟩
    · obtain ⟨j, w, hlookup, hread, hw⟩ := htakes.given hc
      exact ⟨j, w, hlookup, address_eq_ok_iff.mp hread, hw⟩
    · obtain ⟨_, ⟨text, rfl⟩, hread⟩ := htakes.refused hmem (noWord_iff.mp hj)
      exact ⟨text, hread⟩

end DebugAdapter.Session
