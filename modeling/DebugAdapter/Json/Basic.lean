import DebugAdapter.Text.Numeral

/-!
# JSON values

The value type of every document on the wire. An object is a list of members in increasing order
of their names, each name once; `insert` keeps that order, and of two members with one name the
later wins. Numbers are integers or binary64 values (given by their bits), as two numerals that
look alike but differ in kind (`1` and `1.0`) are told apart when they are printed.

Main statement: `sorted_insert`, insertion keeps the names strictly increasing.
-/

namespace DebugAdapter

/-- A JSON number. -/
inductive Json.Number where
  /-- An integer; the reader gives only those of 64 bits, signed or unsigned. -/
  | integer (i : Int)
  /-- A finite binary64 value, as its bits. -/
  | binary (bits : UInt64)
  deriving Repr, DecidableEq

/-- A JSON value. -/
inductive Json where
  | null
  | bool (b : Bool)
  | num (n : Json.Number)
  | str (s : String)
  | arr (items : List Json)
  | obj (members : List (String × Json))
  deriving Repr, Inhabited

namespace Json

/-- The members of an object. -/
abbrev Members := List (String × Json)

/-- Puts a member at its place among members in order of their names. -/
def insert (name : String) (v : Json) : Members → Members
  | [] => [(name, v)]
  | (n, w) :: r =>
    if name < n then (name, v) :: (n, w) :: r
    else if name = n then (name, v) :: r
    else (n, w) :: insert name v r

/-- The object with the given members; of two with one name the later wins. -/
def object (ms : Members) : Json :=
  .obj (ms.foldl (fun acc m => insert m.1 m.2 acc) [])

/-- The value of the first member with the given name. -/
def lookup (name : String) : Members → Option Json
  | [] => none
  | (n, v) :: r => if n = name then some v else lookup name r

/-- The member of an object, `none` for other values. -/
def get? (j : Json) (name : String) : Option Json :=
  match j with
  | .obj ms => lookup name ms
  | _ => none

theorem mem_insert {name : String} {v : Json} {ms : Members} {m : String × Json}
    (h : m ∈ insert name v ms) : m = (name, v) ∨ m ∈ ms := by
  induction ms with
  | nil => simpa [insert] using h
  | cons x r ih =>
    obtain ⟨n, w⟩ := x
    unfold insert at h
    split at h
    · simpa using h
    · split at h
      · rcases List.mem_cons.1 h with h | h <;> simp [h]
      · rcases List.mem_cons.1 h with h | h
        · simp [h]
        · rcases ih h with h | h <;> simp [h]

/-- Member names in strictly increasing order. -/
def Sorted (ms : Members) : Prop :=
  ms.Pairwise (fun a b => a.1 < b.1)

theorem sorted_insert {name : String} {v : Json} {ms : Members} (h : Sorted ms) :
    Sorted (insert name v ms) := by
  induction ms with
  | nil => simp [Sorted, insert]
  | cons x r ih =>
    obtain ⟨n, w⟩ := x
    have hr : Sorted r := (List.pairwise_cons.1 h).2
    have hx : ∀ m ∈ r, n < m.1 := (List.pairwise_cons.1 h).1
    unfold insert
    split
    · rename_i hlt
      refine List.pairwise_cons.2 ⟨?_, h⟩
      intro m hm
      rcases List.mem_cons.1 hm with rfl | hm
      · exact hlt
      · exact String.lt_trans hlt (hx m hm)
    · split
      · rename_i heq
        subst heq
        exact List.pairwise_cons.2 ⟨hx, hr⟩
      · rename_i hnlt hne
        refine List.pairwise_cons.2 ⟨?_, ih hr⟩
        intro m hm
        rcases mem_insert hm with rfl | hm
        · rcases Std.lt_trichotomy n name with h | h | h
          · exact h
          · exact absurd h.symm hne
          · exact absurd h hnlt
        · exact hx m hm

/-- A natural number as a value. -/
def ofNat (n : Nat) : Json :=
  .num (.integer n)

/-- An integer as a value. -/
def ofInt (i : Int) : Json :=
  .num (.integer i)

/-- A machine word as a value. -/
def ofWord (w : UInt64) : Json :=
  ofNat w.toNat

/-- A text as a value. -/
def ofString? : Option String → Json
  | some s => .str s
  | none => .null

/-- A word as a value, `null` if there is none. -/
def ofWord? : Option UInt64 → Json
  | some w => ofWord w
  | none => .null

end Json

end DebugAdapter
