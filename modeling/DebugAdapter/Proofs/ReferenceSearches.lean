import DebugAdapter.Machine.References
import DebugAdapter.Proofs.RecentUse
import Mathlib.Data.List.Forall2

/-!
# Searches for references

Searches for references that are made one after another share a cache. Each of them finds what a scan
of the sections finds, or fails as asking for the sections or decoding them does; and the sections are
asked for once, by a search whose key is not one of the last 32 that were found. How instructions are
decoded is a parameter.

Main statement: `searchAll_spec`.
-/

namespace DebugAdapter.Machine

open Debuggee (DebugError Instruction)
open Text.Path (Component)

/-! ### Scans -/

/-- An instruction refers to an address: by a displacement from the next instruction, or as an
immediate. -/
inductive Refers (target : UInt64) (i : Located) : Prop
  | relative {w : Option Width} {index : Option (Index × Nat)} {displacement : Int} :
      .memory w .rip index displacement ∈ i.decoded.operands →
      (i.address.toNat + i.bytes.length + displacement) % wordLimit = target.toNat → Refers target i
  | immediate : .immediate target ∈ i.decoded.operands → Refers target i

theorem toNat_add_ofInt (a : UInt64) (n : Int) :
    ((a + UInt64.ofInt n).toNat : Int) = (a.toNat + n) % wordLimit := by
  rw [UInt64.toNat_add, UInt64.ofInt, UInt64.toNat_ofNat', wordLimit]
  omega

theorem Located.next_add_eq_iff {i : Located} {displacement : Int} {target : UInt64} :
    i.next + UInt64.ofInt displacement = target ↔
      (i.address.toNat + i.bytes.length + displacement) % wordLimit = target.toNat := by
  rw [← UInt64.toNat_inj, ← Int.natCast_inj, toNat_add_ofInt, Located.next, UInt64.toNat_add,
    UInt64.toNat_ofNat', wordLimit]
  constructor <;> intro h <;> omega

/-- The check of an instruction says whether it refers to an address. -/
theorem Located.refersTo_iff {i : Located} {target : UInt64} :
    i.refersTo target = true ↔ Refers target i := by
  simp only [Located.refersTo, List.any_eq_true]
  constructor
  · rintro ⟨operand, hmem, h⟩
    unfold Operand.refersTo at h
    split at h
    · cases eq_of_beq h
      exact .immediate hmem
    · exact .relative hmem (next_add_eq_iff.mp (eq_of_beq h))
    · cases h
  · rintro (⟨hmem, h⟩ | hmem)
    · exact ⟨_, hmem, beq_iff_eq.mpr (next_add_eq_iff.mpr h)⟩
    · exact ⟨_, hmem, beq_iff_eq.mpr rfl⟩

instance (target : UInt64) (i : Located) : Decidable (Refers target i) :=
  decidable_of_iff _ Located.refersTo_iff

/-- What is found in sections of code: of the instructions of all sections, in order, those that refer
to the address. -/
def Finds (decode : Decoder) (target : UInt64) (sections : List (UInt64 × Bytes))
    (found : List Instruction) : Prop :=
  ∃ decoded : List (List Located),
    List.Forall₂ (fun s instructions => decode s.2 s.1 = .ok instructions) sections decoded ∧
    found = (decoded.flatten.filter fun i => Refers target i).map (·.toInstruction)

/-- The first section of code that cannot be decoded fails with an error. -/
def Undecodable (decode : Decoder) (sections : List (UInt64 × Bytes)) (e : DebugError) : Prop :=
  ∃ before address code after, sections = before ++ (address, code) :: after ∧
    (∀ s ∈ before, ∃ instructions, decode s.2 s.1 = .ok instructions) ∧ decode code address = .error e

theorem referencesIn_eq (target : UInt64) (instructions : List Located) :
    referencesIn target instructions =
      (instructions.filter fun i => Refers target i).map (·.toInstruction) := by
  rw [referencesIn]
  congr 2
  funext i
  exact Bool.eq_iff_iff.mpr (Located.refersTo_iff.trans decide_eq_true_iff.symm)

variable {decode : Decoder} {target : UInt64} {sections : List (UInt64 × Bytes)}

theorem scan_cons_of_error {address : UInt64} {code : Bytes} {e : DebugError}
    (h : decode code address = .error e) :
    scan decode target ((address, code) :: sections) = .error e := by
  rw [scan, h]
  rfl

theorem scan_cons_of_ok {address : UInt64} {code : Bytes} {instructions : List Located}
    (h : decode code address = .ok instructions) :
    scan decode target ((address, code) :: sections) =
      (scan decode target sections).map (referencesIn target instructions ++ ·) := by
  rw [scan, h]
  cases scan decode target sections <;> rfl

/-- A scan succeeds exactly with what is to be found. -/
theorem scan_eq_ok_iff {found : List Instruction} :
    scan decode target sections = .ok found ↔ Finds decode target sections found := by
  induction sections generalizing found with
  | nil =>
    constructor
    · rintro ⟨⟩
      exact ⟨[], .nil, rfl⟩
    · rintro ⟨_, ⟨⟩, rfl⟩
      rfl
  | cons s sections ih =>
    obtain ⟨address, code⟩ := s
    constructor
    · intro h
      cases hdecode : decode code address with
      | error e => cases (scan_cons_of_error hdecode).symm.trans h
      | ok instructions =>
        rw [scan_cons_of_ok hdecode] at h
        rcases hscan : scan decode target sections with e | rest <;> rw [hscan] at h <;> cases h
        obtain ⟨decoded, hdecoded, rfl⟩ := ih.mp hscan
        refine ⟨instructions :: decoded, .cons hdecode hdecoded, ?_⟩
        rw [referencesIn_eq, List.flatten_cons, List.filter_append, List.map_append]
    · rintro ⟨_, hdecoded, rfl⟩
      cases hdecoded with
      | cons hdecode hdecoded =>
        rw [scan_cons_of_ok hdecode, ih.mpr ⟨_, hdecoded, rfl⟩, referencesIn_eq, List.flatten_cons,
          List.filter_append, List.map_append]
        rfl

/-- A scan fails exactly as the first section does that cannot be decoded. -/
theorem scan_eq_error_iff {e : DebugError} :
    scan decode target sections = .error e ↔ Undecodable decode sections e := by
  induction sections with
  | nil =>
    refine iff_of_false nofun ?_
    rintro ⟨before, address, code, after, h, -⟩
    exact List.append_ne_nil_of_right_ne_nil before (List.cons_ne_nil _ _) h.symm
  | cons s sections ih =>
    obtain ⟨address, code⟩ := s
    constructor
    · intro h
      cases hdecode : decode code address with
      | error e' =>
        cases (scan_cons_of_error hdecode).symm.trans h
        exact ⟨[], address, code, sections, rfl, nofun, hdecode⟩
      | ok instructions =>
        rw [scan_cons_of_ok hdecode] at h
        rcases hscan : scan decode target sections with e | rest <;> rw [hscan] at h <;> cases h
        obtain ⟨before, a, c, after, rfl, hbefore, hfails⟩ := ih.mp hscan
        exact ⟨(address, code) :: before, a, c, after, rfl,
          List.forall_mem_cons.mpr ⟨⟨instructions, hdecode⟩, hbefore⟩, hfails⟩
    · rintro ⟨_ | ⟨_, before⟩, a, c, after, hsections, hbefore, hfails⟩
      · cases hsections
        exact scan_cons_of_error hfails
      · cases hsections
        obtain ⟨⟨instructions, hdecode⟩, hbefore⟩ := List.forall_mem_cons.mp hbefore
        rw [scan_cons_of_ok hdecode, ih.mpr ⟨before, a, c, after, rfl, hbefore, hfails⟩]
        rfl

/-! ### Searches in a row -/

/-- A search for references: its key, and what the sections are if they are asked for. -/
structure Search where
  key : ReferenceKey
  sections : Except DebugError (List (UInt64 × Bytes))

/-- A search that was made. -/
structure Searched where
  search : Search
  /-- Whether its key was in the cache. -/
  cached : Bool
  /-- How often the sections were asked for. -/
  asked : Nat
  result : Except DebugError (List Instruction)

/-- Makes a search; the requests for the sections are counted. -/
def Search.make (decode : Decoder) (q : Search) (cache : ReferenceCache) :
    Searched × ReferenceCache :=
  let sections : Unit → StateM Nat (Except DebugError (List (UInt64 × Bytes))) := fun _ => do
    modify (· + 1)
    return q.sections
  let ((result, next), asked) := ((searchWith decode cache q.key sections).run 0).run
  (⟨q, cache.contains q.key, asked, result⟩, next)

/-- The search of a tracer is made with its own decoder. -/
theorem make_sweeping (q : Search) (cache : ReferenceCache) :
    findReferences cache q.key (fun _ => q.sections) =
      ((q.make .sweeping cache).1.result, (q.make .sweeping cache).2) := by
  rcases hfind : cache.find? q.key with _ | ⟨found, next⟩
  · rw [findReferences, Search.make, searchWith_miss _ _ hfind, searchWith_miss _ _ hfind]
    rfl
  · rw [findReferences, Search.make, searchWith_hit _ _ hfind, searchWith_hit _ _ hfind]
    rfl

/-- Makes searches one after another. -/
def searchAll (decode : Decoder) (cache : ReferenceCache) : List Search → List Searched
  | [] => []
  | q :: searches =>
    let (made, next) := q.make decode cache
    made :: searchAll decode next searches

/-- The keys of the searches that found what they looked for, the last one first. -/
def keysFound (made : List Searched) : List ReferenceKey :=
  (made.filterMap fun m => m.result.toOption.map fun _ => m.search.key).reverse

/-- A search does what it should: it finds what is in the sections that it should be given, and asks
for them once if its key was not in the cache; only then it fails, as the request or decoding fails. -/
structure Faithful (decode : Decoder) (yield : List Component → UInt64 → List (UInt64 × Bytes))
    (m : Searched) : Prop where
  found : ∀ {found : List Instruction}, m.result = .ok found →
    Finds decode m.search.key.target (yield m.search.key.image m.search.key.slide) found
  asked : m.asked = if m.cached then 0 else 1
  failed : ∀ {e : DebugError}, m.result = .error e ↔ m.cached = false ∧
    (m.search.sections = .error e ∨
      ∃ sections, m.search.sections = .ok sections ∧ Undecodable decode sections e)

/-- What becomes of a search: it was in the cache, or its sections are scanned. -/
inductive Makes (decode : Decoder) (q : Search) (cache : ReferenceCache) :
    Searched → ReferenceCache → Prop
  | hit {found : List Instruction} {next : ReferenceCache} :
      cache.find? q.key = some (found, next) → Makes decode q cache ⟨q, true, 0, .ok found⟩ next
  | found {found : List Instruction} : cache.find? q.key = none →
      q.sections >>= scan decode q.key.target = .ok found →
      Makes decode q cache ⟨q, false, 1, .ok found⟩ (cache.insert q.key found)
  | failed {e : DebugError} : cache.find? q.key = none →
      q.sections >>= scan decode q.key.target = .error e →
      Makes decode q cache ⟨q, false, 1, .error e⟩ cache

theorem make_makes (decode : Decoder) (q : Search) (cache : ReferenceCache) :
    Makes decode q cache (q.make decode cache).1 (q.make decode cache).2 := by
  rcases hfind : cache.find? q.key with _ | ⟨found, next⟩
  · have hmake : q.make decode cache =
        (⟨q, false, 1, (cache.keep q.key (q.sections >>= scan decode q.key.target)).1⟩,
          (cache.keep q.key (q.sections >>= scan decode q.key.target)).2) := by
      rw [Search.make, searchWith_miss _ _ hfind, Cache.find?_eq_none_iff.mp hfind]
      rfl
    rw [hmake]
    cases hscan : q.sections >>= scan decode q.key.target with
    | error e => exact .failed hfind hscan
    | ok found => exact .found hfind hscan
  · have hcached : cache.contains q.key = true := by
      refine (Bool.not_eq_false _).mp fun h => ?_
      cases hfind.symm.trans (Cache.find?_eq_none_iff.mpr h)
    have hmake : q.make decode cache = (⟨q, true, 0, .ok found⟩, next) := by
      rw [Search.make, searchWith_hit _ _ hfind, hcached]
      rfl
    rw [hmake]
    exact .hit hfind

/-- What a cache remembers after the keys that were found: the last 32 of them with what a scan finds. -/
structure Remembers (decode : Decoder) (yield : List Component → UInt64 → List (UInt64 × Bytes))
    (cache : ReferenceCache) (uses : List ReferenceKey) : Prop where
  capacity : cache.capacity = 32
  holds : cache.Holds uses
  scanned : ∀ e ∈ cache.entries, scan decode e.1.target (yield e.1.image e.1.slide) = .ok e.2

variable {yield : List Component → UInt64 → List (UInt64 × Bytes)} {q : Search} {m : Searched}
  {cache next : ReferenceCache} {uses : List ReferenceKey}

theorem remembers_empty (decode : Decoder) (yield : List Component → UInt64 → List (UInt64 × Bytes)) :
    Remembers decode yield .empty [] :=
  ⟨rfl, Cache.holds_empty 32, nofun⟩

theorem keysFound_append (before after : List Searched) :
    keysFound (before ++ after) = keysFound after ++ keysFound before := by
  simp only [keysFound, List.filterMap_append, List.reverse_append]

theorem mem_keysFound {key : ReferenceKey} {made : List Searched} (h : key ∈ keysFound made) :
    ∃ m ∈ made, m.search.key = key := by
  obtain ⟨m, hm, hkey⟩ := List.mem_filterMap.mp (List.mem_reverse.mp h)
  obtain ⟨_, -, hkey⟩ := Option.map_eq_some_iff.mp hkey
  exact ⟨m, hm, hkey⟩

theorem Remembers.contains_iff (h : Remembers decode yield cache uses) {key : ReferenceKey} :
    cache.contains key = true ↔ key ∈ (Cache.recent uses).take 32 :=
  h.capacity ▸ h.holds.contains_iff

theorem bind_scan_eq_error_iff {sections : Except DebugError (List (UInt64 × Bytes))}
    {e : DebugError} : sections >>= scan decode target = .error e ↔
      sections = .error e ∨ ∃ code, sections = .ok code ∧ Undecodable decode code e := by
  cases sections with
  | error e' => simp [bind, Except.bind]
  | ok code => simpa [bind, Except.bind] using scan_eq_error_iff

/-- A search leaves a cache that remembers, and is faithful to what it should be given. -/
theorem Makes.remembers (h : Makes decode q cache m next) (hcache : Remembers decode yield cache uses)
    (hyield : ∀ sections, q.sections = .ok sections → sections = yield q.key.image q.key.slide) :
    Remembers decode yield next (keysFound [m] ++ uses) ∧ m.search = q ∧ Faithful decode yield m ∧
      (m.cached = true ↔ q.key ∈ (Cache.recent uses).take 32) := by
  rw [← hcache.contains_iff]
  cases h with
  | @hit found next hfind =>
    obtain ⟨hmem, hnext⟩ := Cache.exists_of_find? hfind
    refine ⟨⟨hnext ▸ hcache.capacity, hcache.holds.find? hfind, ?_⟩, rfl, ⟨?_, rfl, ?_⟩, ?_⟩
    · subst hnext
      exact List.forall_mem_cons.mpr ⟨hcache.scanned _ hmem, fun e he =>
        hcache.scanned e (List.mem_of_mem_filter he)⟩
    · rintro _ ⟨⟩
      exact scan_eq_ok_iff.mp (hcache.scanned _ hmem)
    · exact iff_of_false nofun fun h => nomatch h.1
    · exact iff_of_true rfl (Cache.contains_iff.mpr (List.mem_map.mpr ⟨_, hmem, rfl⟩))
  | @found found hfind hscan =>
    obtain ⟨sections, hsections, hfound⟩ :
        ∃ sections, q.sections = .ok sections ∧ scan decode q.key.target sections = .ok found := by
      cases hsections : q.sections with
      | error e => cases hsections ▸ hscan
      | ok sections => exact ⟨sections, rfl, by rw [hsections] at hscan; exact hscan⟩
    cases hyield sections hsections
    refine ⟨⟨hcache.capacity, hcache.holds.insert found, fun e he => ?_⟩, rfl, ⟨?_, rfl, ?_⟩, ?_⟩
    · rcases List.mem_cons.mp (List.mem_of_mem_take he) with rfl | he
      · exact hfound
      · exact hcache.scanned e (List.mem_of_mem_filter he)
    · rintro _ ⟨⟩
      exact scan_eq_ok_iff.mp hfound
    · refine iff_of_false nofun fun h => ?_
      cases hscan.symm.trans (bind_scan_eq_error_iff.mpr h.2)
    · exact iff_of_false nofun (Bool.eq_false_iff.mp (Cache.find?_eq_none_iff.mp hfind))
  | @failed e hfind hscan =>
    refine ⟨hcache, rfl, ⟨nofun, rfl, fun {e'} => ?_⟩, ?_⟩
    · rw [← bind_scan_eq_error_iff, hscan]
      exact ⟨fun h => ⟨rfl, h⟩, fun h => h.2⟩
    · exact iff_of_false nofun (Bool.eq_false_iff.mp (Cache.find?_eq_none_iff.mp hfind))

theorem searchAll_cons (decode : Decoder) (cache : ReferenceCache) (q : Search)
    (searches : List Search) : searchAll decode cache (q :: searches) =
      (q.make decode cache).1 :: searchAll decode (q.make decode cache).2 searches :=
  rfl

/-- Searches in a row are faithful, and a key is in the cache if it is one of the last 32 found. -/
theorem searchAll_faithful {searches : List Search} : ∀ {cache : ReferenceCache}
    {uses : List ReferenceKey}, Remembers decode yield cache uses →
    (∀ q ∈ searches, ∀ sections, q.sections = .ok sections → sections = yield q.key.image q.key.slide) →
    (searchAll decode cache searches).map (·.search) = searches ∧
      (∀ m ∈ searchAll decode cache searches, Faithful decode yield m) ∧
      ∀ before m after, searchAll decode cache searches = before ++ m :: after →
        (m.cached = true ↔ m.search.key ∈ (Cache.recent (keysFound before ++ uses)).take 32) := by
  induction searches with
  | nil =>
    intro cache uses _ _
    refine ⟨rfl, nofun, fun before m after h => ?_⟩
    exact absurd h.symm (List.append_ne_nil_of_right_ne_nil before (List.cons_ne_nil _ _))
  | cons q searches ih =>
    intro cache uses hcache hyield
    obtain ⟨hfirst, hrest⟩ := List.forall_mem_cons.mp hyield
    have hmakes := make_makes decode q cache
    rw [searchAll_cons]
    generalize (q.make decode cache).1 = m, (q.make decode cache).2 = next at hmakes ⊢
    obtain ⟨hnext, rfl, hfaithful, hcached⟩ := hmakes.remembers hcache hfirst
    obtain ⟨hsearches, hall, hlater⟩ := ih hnext hrest
    refine ⟨congrArg _ hsearches, List.forall_mem_cons.mpr ⟨hfaithful, hall⟩, ?_⟩
    rintro (_ | ⟨first, before⟩) m' after h
    · cases h
      exact hcached
    · obtain ⟨rfl, hafter⟩ := List.cons.inj h
      rw [hlater before m' after hafter, ← List.append_assoc, ← keysFound_append]
      rfl

/-- **Searches with a cache find what scans find.** Let searches for references be made in any order,
however many of them and whatever their keys, and let the sections that are given depend on the image and
its slide only. Then each result is what a scan of these sections finds; a search fails exactly if its key
is not in the cache and it is not given sections or cannot decode them, with this error; the sections are
asked for once if the key is not in the cache, and otherwise not at all. In the cache are the last 32 keys
that were found. So a failure is not remembered: the next search with its key asks for the sections. -/
theorem searchAll_spec (decode : Decoder) (yield : List Component → UInt64 → List (UInt64 × Bytes))
    (searches : List Search) (hyield : ∀ q ∈ searches, ∀ sections, q.sections = .ok sections →
      sections = yield q.key.image q.key.slide) :
    let made := searchAll decode .empty searches
    made.map (·.search) = searches ∧ (∀ m ∈ made, Faithful decode yield m) ∧
    (∀ before m after, made = before ++ m :: after →
      (m.cached = true ↔ m.search.key ∈ (Cache.recent (keysFound before)).take 32)) ∧
    ∀ before m between m' after e, made = before ++ m :: (between ++ m' :: after) →
      m.result = .error e → m'.search.key = m.search.key →
      (∀ n ∈ between, n.search.key ≠ m.search.key) → m'.cached = false ∧ m'.asked = 1 := by
  intro made
  obtain ⟨hsearches, hfaithful, hcached⟩ :=
    searchAll_faithful (remembers_empty decode yield) hyield
  simp only [List.append_nil] at hcached
  refine ⟨hsearches, hfaithful, hcached, fun before m between m' after e hmade he hkey hbetween => ?_⟩
  have hm : m ∈ made := by simp [hmade]
  have hm' : m' ∈ made := by simp [hmade]
  have huncached : m'.cached = false := by
    refine Bool.eq_false_iff.mpr fun h => ?_
    have hsplit : made = (before ++ m :: between) ++ m' :: after := by simp [hmade]
    have hrecent := (hcached _ _ _ hsplit).mp h
    have hnone : keysFound [m] = [] := by simp [keysFound, he, Except.toOption]
    rw [← List.singleton_append, keysFound_append, keysFound_append, hnone, List.append_nil, hkey]
      at hrecent
    have hother : m.search.key ∉ keysFound between := fun h =>
      let ⟨n, hn, hnkey⟩ := mem_keysFound h
      hbetween n hn hnkey
    have hbefore := (hcached _ _ _ hmade).mpr (Cache.mem_take_recent_of_append hother hrecent)
    cases hbefore.symm.trans ((hfaithful m hm).failed.mp he).1
  exact ⟨huncached, by rw [(hfaithful m' hm').asked, huncached]; rfl⟩

/-! ### A program that is searched three times -/

/-- A function that loads an address and passes it, once relative to the next instruction and once as an
immediate. -/
def loader : List (UInt64 × Bytes) :=
  [(0x1000, [0x55, 0x48, 0x89, 0xE5, 0x48, 0x8D, 0x3D, 0xF5, 0x0F, 0x00, 0x00, 0xBE, 0x00, 0x20, 0x00,
    0x00, 0xE8, 0x00, 0x00, 0x00, 0x00, 0xC3])]

/-- Three searches for one address, of which the first and the last one are not given sections. -/
def threeSearches : List Search :=
  let key := ⟨[.root, .normal "bin", .normal "loader"], 0, 0x2000⟩
  [⟨key, .error .noMainModule⟩, ⟨key, .ok loader⟩, ⟨key, .error .noMainModule⟩]

/-- The first search fails, the second one asks again, and the last one finds the same without asking. -/
theorem searchAll_threeSearches :
    (∀ q ∈ threeSearches, ∀ sections, q.sections = .ok sections → sections = loader) ∧
    (∀ m ∈ searchAll .sweeping .empty threeSearches, Faithful .sweeping (fun _ _ => loader) m) ∧
    (searchAll .sweeping .empty threeSearches).map
        (fun m => (m.asked, m.result.toOption.map (·.map (·.address)))) =
      [(1, none), (1, some [0x1004, 0x100B]), (0, some [0x1004, 0x100B])] := by
  have hyield : ∀ q ∈ threeSearches, ∀ sections, q.sections = .ok sections → sections = loader := by
    simp [threeSearches]
  exact ⟨hyield, (searchAll_spec .sweeping (fun _ _ => loader) threeSearches hyield).2.1, rfl⟩

end DebugAdapter.Machine
