import DebugAdapter.Cache

/-!
# Recently used keys

Each use of a cache puts its key in front of the others, and what falls behind the capacity is lost. So
the keys of a cache are the last used ones (`Holds`). Whatever was used before, a value is lost only
after as many other keys were used as there is room for (`Stays`).

Main statements: `Holds.find?`, `Holds.insert`, `Stays.find?` and `Stays.insert`.
-/

namespace DebugAdapter.Cache

variable {α β : Type} [DecidableEq α]

/-- Keys by their last use, which comes first; so do the uses. -/
def recent : (uses : List α) → List α
  | [] => []
  | key :: uses => key :: (recent uses).filter (· ≠ key)

theorem nodup_recent (uses : List α) : (recent uses).Nodup := by
  induction uses with
  | nil => exact List.nodup_nil
  | cons key uses ih =>
    refine List.nodup_cons.mpr ⟨fun h => ?_, ih.sublist List.filter_sublist⟩
    exact of_decide_eq_true (List.mem_filter.mp h).2 rfl

/-- What is left of the first keys without one of them are the first ones of what is left. -/
theorem take_filter_take_succ {keys : List α} (h : keys.Nodup) (key : α) (n : Nat) :
    ((keys.take (n + 1)).filter (· ≠ key)).take n = (keys.filter (· ≠ key)).take n := by
  induction keys generalizing n with
  | nil => rfl
  | cons first keys ih =>
    obtain ⟨hfirst, hkeys⟩ := List.nodup_cons.mp h
    rw [List.take_succ_cons]
    by_cases hkey : first = key
    · subst hkey
      have hall : ∀ k ∈ keys, decide (k ≠ first) = true := fun k hk =>
        decide_eq_true (ne_of_mem_of_not_mem hk hfirst)
      have hsome : ∀ k ∈ keys.take n, decide (k ≠ first) = true := fun k hk =>
        hall k (List.mem_of_mem_take hk)
      rw [List.filter_cons_of_neg (by simp), List.filter_cons_of_neg (by simp),
        List.filter_eq_self.mpr hall, List.filter_eq_self.mpr hsome, List.take_take, Nat.min_self]
    · rw [List.filter_cons_of_pos (by simpa using hkey), List.filter_cons_of_pos (by simpa using hkey)]
      cases n with
      | zero => rfl
      | succ n => rw [List.take_succ_cons, List.take_succ_cons, ih hkeys]

/-- A key that is put in front makes at most one of the first keys give way. -/
theorem take_cons_filter_take {keys : List α} (h : keys.Nodup) (key : α) (n : Nat) :
    (key :: (keys.take n).filter (· ≠ key)).take n = (key :: keys.filter (· ≠ key)).take n := by
  cases n with
  | zero => rfl
  | succ n => rw [List.take_succ_cons, List.take_succ_cons, take_filter_take_succ h]

/-- The uses of other keys do not bring a key back. -/
theorem mem_take_recent_of_append {key : α} {n : Nat} {after before : List α} (hafter : key ∉ after)
    (h : key ∈ (recent (after ++ before)).take n) : key ∈ (recent before).take n := by
  induction after generalizing n with
  | nil => exact h
  | cons used after ih =>
    obtain ⟨hused, hafter⟩ := not_or.mp (mt List.mem_cons.mpr hafter)
    cases n with
    | zero => cases h
    | succ n =>
      rw [List.cons_append, recent, List.take_succ_cons] at h
      rw [← take_filter_take_succ (nodup_recent _)] at h
      exact ih hafter (List.mem_filter.mp
        (List.mem_of_mem_take ((List.mem_cons.mp h).resolve_left hused))).1

/-! ### The keys of a cache -/

/-- The keys of a cache are those that were used last, as many as it has room for. -/
def Holds (c : Cache α β) (uses : List α) : Prop :=
  c.entries.map (·.1) = (recent uses).take c.capacity

variable {c : Cache α β} {uses : List α} {key : α}

theorem holds_empty (capacity : Nat) : (empty capacity : Cache α β).Holds [] :=
  List.take_nil.symm

theorem contains_iff : c.contains key = true ↔ key ∈ c.entries.map (·.1) := by
  simp [contains, List.mem_map]

theorem Holds.contains_iff (h : c.Holds uses) :
    c.contains key = true ↔ key ∈ (recent uses).take c.capacity := by
  rw [Cache.contains_iff, h]

theorem find?_eq_none_iff : c.find? key = none ↔ c.contains key = false := by
  simp [find?, contains]

/-- What is found is a value of the cache, and is put in front. -/
theorem exists_of_find? {value : β} {next : Cache α β} (h : c.find? key = some (value, next)) :
    (key, value) ∈ c.entries ∧
      next = { c with entries := (key, value) :: c.entries.filter (·.1 ≠ key) } := by
  obtain ⟨e, he, hnext⟩ := Option.map_eq_some_iff.mp h
  have hkey : e.1 = key := by simpa using List.find?_some he
  cases hnext
  subst hkey
  exact ⟨List.mem_of_find?_eq_some he, rfl⟩

theorem map_filter_ne (entries : List (α × β)) (key : α) :
    (entries.filter (·.1 ≠ key)).map (·.1) = (entries.map (·.1)).filter (· ≠ key) := by
  rw [List.filter_map]
  rfl

theorem Holds.find? (h : c.Holds uses) {value : β} {next : Cache α β}
    (hfind : c.find? key = some (value, next)) : next.Holds (key :: uses) := by
  obtain ⟨hmem, rfl⟩ := exists_of_find? hfind
  have hkey : key ∈ (recent uses).take c.capacity :=
    h ▸ List.mem_map.mpr ⟨_, hmem, rfl⟩
  have hroom : (key :: ((recent uses).take c.capacity).filter (· ≠ key)).length ≤ c.capacity :=
    Nat.le_trans (List.length_filter_lt_length_iff_exists.mpr ⟨key, hkey, by simp⟩)
      (List.length_take_le ..)
  show key :: (c.entries.filter (·.1 ≠ key)).map (·.1) = _
  rw [map_filter_ne, h, ← List.take_of_length_le hroom, take_cons_filter_take (nodup_recent _)]
  rfl

theorem Holds.insert (h : c.Holds uses) (value : β) : (c.insert key value).Holds (key :: uses) := by
  show (((key, value) :: c.entries.filter (·.1 ≠ key)).take c.capacity).map (·.1) = _
  rw [List.map_take, List.map_cons, map_filter_ne, h, take_cons_filter_take (nodup_recent _)]
  rfl

/-! ### Values that stay -/

/-- A cache gives a value for a key, and at most `depth` other keys were used after it. -/
structure Stays (c : Cache α β) (key : α) (value : β) (depth : Nat) : Prop where
  split : ∃ newer older, c.entries = newer ++ (key, value) :: older ∧ newer.length ≤ depth ∧
    ∀ e ∈ newer, e.1 ≠ key

variable {value : β} {depth : Nat}

/-- What stays is found. -/
theorem Stays.exists_find? (h : c.Stays key value depth) :
    ∃ next, c.find? key = some (value, next) := by
  obtain ⟨newer, older, hentries, -, hnewer⟩ := h.split
  have hskip : newer.find? (·.1 = key) = none :=
    List.find?_eq_none.mpr fun e he => by simpa using hnewer e he
  have hfound : c.entries.find? (·.1 = key) = some (key, value) := by
    rw [hentries, List.find?_append, hskip, Option.none_or]
    exact List.find?_cons_of_pos (decide_eq_true rfl)
  rw [Cache.find?, hfound]
  exact ⟨_, rfl⟩

omit [DecidableEq α] in
theorem Stays.mono (h : c.Stays key value depth) {more : Nat} (hmore : depth ≤ more) :
    c.Stays key value more := by
  obtain ⟨newer, older, hentries, hdepth, hnewer⟩ := h.split
  exact ⟨newer, older, hentries, Nat.le_trans hdepth hmore, hnewer⟩

theorem stays_of_find? {next : Cache α β} (h : c.find? key = some (value, next)) :
    next.Stays key value 0 := by
  obtain ⟨-, rfl⟩ := exists_of_find? h
  exact ⟨[], _, rfl, Nat.le_refl 0, nofun⟩

omit [DecidableEq α] in
/-- What stays is not lost with what is further back. -/
theorem Stays.take (h : c.Stays key value depth) {n : Nat} (hn : depth < n) :
    ({ c with entries := c.entries.take n } : Cache α β).Stays key value depth := by
  obtain ⟨newer, older, hentries, hdepth, hnewer⟩ := h.split
  obtain ⟨m, rfl⟩ := Nat.exists_eq_add_of_le (Nat.lt_of_le_of_lt hdepth hn)
  refine ⟨newer, older.take m, ?_, hdepth, hnewer⟩
  show c.entries.take (newer.length + 1 + m) = _
  rw [hentries, Nat.add_assoc, List.take_length_add_append, Nat.add_comm 1, List.take_succ_cons]

/-- The use of another key leaves what stays one place further back. -/
theorem Stays.push (h : c.Stays key value depth) {other : α} (hother : other ≠ key) (used : β) :
    ({ c with entries := (other, used) :: c.entries.filter (·.1 ≠ other) } : Cache α β).Stays key value
      (depth + 1) := by
  obtain ⟨newer, older, hentries, hdepth, hnewer⟩ := h.split
  refine ⟨(other, used) :: newer.filter (·.1 ≠ other), older.filter (·.1 ≠ other), ?_,
    Nat.succ_le_succ (Nat.le_trans (List.length_filter_le ..) hdepth),
    List.forall_mem_cons.mpr ⟨hother, fun e he => hnewer e (List.mem_filter.mp he).1⟩⟩
  have hkept : (older.cons (key, value)).filter (·.1 ≠ other) =
      (key, value) :: older.filter (·.1 ≠ other) :=
    List.filter_cons_of_pos (decide_eq_true hother.symm)
  show (other, used) :: c.entries.filter (·.1 ≠ other) = _
  rw [hentries, List.filter_append, hkept]
  rfl

theorem Stays.find? (h : c.Stays key value depth) {other : α} (hother : other ≠ key) {used : β}
    {next : Cache α β} (hfind : c.find? other = some (used, next)) :
    next.Stays key value (depth + 1) := by
  obtain ⟨-, rfl⟩ := exists_of_find? hfind
  exact h.push hother used

theorem Stays.insert (h : c.Stays key value depth) {other : α} (hother : other ≠ key) (used : β)
    (hdepth : depth + 1 < c.capacity) : (c.insert other used).Stays key value (depth + 1) :=
  (h.push hother used).take hdepth

theorem stays_insert (c : Cache α β) (key : α) (value : β) (h : 0 < c.capacity) :
    (c.insert key value).Stays key value 0 :=
  Stays.take (c := { c with entries := (key, value) :: c.entries.filter (·.1 ≠ key) })
    ⟨[], _, rfl, Nat.le_refl 0, nofun⟩ h

end DebugAdapter.Cache
