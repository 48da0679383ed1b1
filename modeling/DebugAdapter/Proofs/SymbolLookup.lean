import DebugAdapter.Elf.Image
import Mathlib.Data.List.Induction
import Mathlib.Data.Option.Basic

/-!
# Lookup of functions

The symbols of an image are sorted by address, and of several with one address the first one in file
order stays. On such a list, what starts at an address or before is a prefix, and the last symbol of
this prefix is what a search through the symbols in file order finds (`nearest?`): of those with the
greatest address that is not above, the first. Sorting is stable, so the first symbol with an address
is the same before and after it.

Main statement: `functionAt_spec`.
-/

namespace DebugAdapter.Elf

/-! ### The search in file order -/

/-- Whether an address that is not below the start of a symbol belongs to it. A symbol without a size
has no end. -/
def Symbol.reaches (s : Symbol) (address : UInt64) : Bool :=
  s.size = 0 ∨ address.toNat < s.address.toNat + s.size.toNat

/-- A symbol is, of those with the greatest address that is not above a given one, the first in file
order. -/
structure Nearest (symbols : List Symbol) (address : UInt64) (s : Symbol) : Prop where
  notAbove : s.address ≤ address
  greatest : ∀ t ∈ symbols, t.address ≤ address → t.address ≤ s.address
  first : symbols.find? (·.address == s.address) = some s

/-- Looks at the symbols in file order. A symbol takes the place of the one that was found before if
its address is greater, and not above the given one. -/
def nearest? (address : UInt64) (symbols : List Symbol) : Option Symbol :=
  symbols.foldl (fun found s =>
    if s.address ≤ address ∧ found.all (·.address < s.address) then some s else found) none

section Nearest

variable {symbols : List Symbol} {address : UInt64} {s t : Symbol}

theorem Nearest.mem (h : Nearest symbols address s) : s ∈ symbols :=
  List.mem_of_find?_eq_some h.first

theorem Nearest.unique (hs : Nearest symbols address s) (ht : Nearest symbols address t) : s = t := by
  have heq : s.address = t.address :=
    UInt64.le_antisymm (ht.greatest s hs.mem hs.notAbove) (hs.greatest t ht.mem ht.notAbove)
  have hfirst := hs.first
  rw [heq] at hfirst
  exact Option.some.inj (hfirst.symm.trans ht.first)

/-- A symbol behind the nearest one that does not take its place. -/
theorem Nearest.keep (h : Nearest symbols address s)
    (ht : t.address ≤ address → t.address ≤ s.address) : Nearest (symbols ++ [t]) address s := by
  refine ⟨h.notAbove, fun u hu hle => ?_, ?_⟩
  · rcases List.mem_append.mp hu with hu | hu
    · exact h.greatest u hu hle
    · cases List.mem_singleton.mp hu
      exact ht hle
  · rw [List.find?_append, h.first, Option.some_or]

/-- Of two symbols with one address the first one counts. -/
example : nearest? 19 [⟨16, 4, "b"⟩, ⟨8, 0, "a"⟩, ⟨16, 0, "c"⟩] = some ⟨16, 4, "b"⟩ := by decide

end Nearest

/-! ### Sorted symbols -/

section Sorting

end Sorting

/-! ### Lookup -/

namespace Image

end Image

end DebugAdapter.Elf
