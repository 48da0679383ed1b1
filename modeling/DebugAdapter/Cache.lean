/-!
# Caches

A cache keeps values by key up to a capacity. When it is full, the value that was not used for the
longest time gives way.

Main statements: `find?_insert` (what was inserted is found) and `length_insert_le` (a cache stays
within its capacity).
-/

namespace DebugAdapter

/-- A cache with at most `capacity` values. -/
structure Cache (α β : Type) where
  capacity : Nat
  /-- The values by key, the last used one first. -/
  entries : List (α × β)

namespace Cache

variable {α β : Type} [DecidableEq α]

/-- A cache without values. -/
def empty (capacity : Nat) : Cache α β := ⟨capacity, []⟩

/-- The value of a key, and the cache after its use. -/
def find? (c : Cache α β) (key : α) : Option (β × Cache α β) :=
  (c.entries.find? (·.1 = key)).map fun e =>
    (e.2, { c with entries := e :: c.entries.filter (·.1 ≠ key) })

/-- Whether there is a value for a key. -/
def contains (c : Cache α β) (key : α) : Bool :=
  c.entries.any (·.1 = key)

/-- Adds the value of a key. -/
def insert (c : Cache α β) (key : α) (value : β) : Cache α β :=
  { c with entries := ((key, value) :: c.entries.filter (·.1 ≠ key)).take c.capacity }

/-- What was inserted is found. -/
theorem find?_insert (c : Cache α β) (key : α) (value : β) (h : 0 < c.capacity) :
    ((c.insert key value).find? key).map (·.1) = some value := by
  obtain ⟨n, hn⟩ : ∃ n, c.capacity = n + 1 := ⟨c.capacity - 1, by omega⟩
  simp [insert, find?, hn]

/-- A cache stays within its capacity. -/
theorem length_insert_le (c : Cache α β) (key : α) (value : β) :
    (c.insert key value).entries.length ≤ c.capacity := by
  simp only [insert, List.length_take]
  omega

end Cache

end DebugAdapter
