/-
  Entries of datamaps, written and read.

  A write goes by hashes, so what it does is told best by the value in the slot of a key:
  the one that a write under the key would go over. What is in the slot of a key is
  found under it. The converse holds too, unless the table has one entry, under a NaN,
  and is asked for a NaN with other bits.
-/
import Mathlib
import StoryScript.Proofs.Data.Keys

namespace StoryScript.DataMap

variable {α : Type}

/-! ## Slots -/

/-- The value that a write under a key goes over. -/
def slot? (m : DataMap α) (key : Key) : Option α :=
  (m.entries.find? (·.1.alike key)).map (·.2)

theorem get?_eq_slot? {m : DataMap α} (h : m.size ≠ 1) (key : Key) : m.get? key = m.slot? key := by
  simp only [get?, slot?, Key.meets, if_neg h]

/-- A slot is taken if a name has the hash. -/
theorem isSome_slot? (m : DataMap α) (key : Key) :
    (m.slot? key).isSome = m.keys.any (·.alike key) := by
  rw [slot?, Option.isSome_map, any_keys, List.isSome_find?]

theorem size_eq_length_keys (m : DataMap α) : m.size = m.keys.length := by
  rw [size, keys, List.length_map]

theorem eq_singleton_of_size {m : DataMap α} (h : m.size = 1) : ∃ entry, m.entries = [entry] :=
  List.length_eq_one_iff.1 h

/-- What is in a slot is found. -/
theorem get?_of_slot? {m : DataMap α} {key : Key} {value : α} (h : m.slot? key = some value) :
    m.get? key = some value := by
  by_cases hsize : m.size = 1
  · obtain ⟨entry, hentries⟩ := eq_singleton_of_size hsize
    simp only [slot?, hentries, Option.map_eq_some_iff] at h
    obtain ⟨found, hfind, rfl⟩ := h
    obtain rfl := List.mem_singleton.1 (List.mem_of_find?_eq_some hfind)
    have hmeets : found.1.meets m.size key = true := Key.meets_of_alike (List.find?_some hfind :)
    simp [get?, hentries, hmeets]
  · rw [get?_eq_slot? hsize, h]

/-- Keys with one hash have one slot. -/
theorem slot?_congr (m : DataMap α) {key other : Key} (h : key.alike other = true) :
    m.slot? key = m.slot? other := by
  simp only [slot?, Key.alike_congr_right h]

/-- Keys that a datamap takes for one lead to the same entry. -/
theorem get?_congr (m : DataMap α) {key other : Key} (h : key.meets m.size other = true) :
    m.get? key = m.get? other := by
  simp only [get?, Key.meets_congr_right h]

theorem find?_of_mem {entries : List (Key × α)}
    (distinct : entries.Pairwise fun a b => a.1.alike b.1 = false) {entry : Key × α}
    (hentry : entry ∈ entries) : entries.find? (·.1.alike entry.1) = some entry := by
  induction entries with
  | nil => cases hentry
  | cons first rest ih =>
    obtain ⟨hfirst, hrest⟩ := List.pairwise_cons.1 distinct
    rcases List.mem_cons.1 hentry with rfl | hmem
    · rw [List.find?_cons_of_pos (by exact Key.alike_self _)]
    · -- the first entry has another key
      rw [List.find?_cons_of_neg (by simp [hfirst entry hmem])]
      exact ih hrest hmem

/-- Each entry of a datamap whose keys differ is in the slot of its key. -/
theorem slot?_of_mem {m : DataMap α}
    (distinct : m.entries.Pairwise fun a b => a.1.alike b.1 = false) {entry : Key × α}
    (hentry : entry ∈ m.entries) : m.slot? entry.1 = some entry.2 := by
  rw [slot?, find?_of_mem distinct hentry, Option.map_some]

/-- An entry stands in a slot of a datamap whose keys differ if its key has the hash. -/
theorem slot?_eq_some_iff {m : DataMap α} {key : Key} {value : α}
    (distinct : m.entries.Pairwise fun a b => a.1.alike b.1 = false) :
    m.slot? key = some value ↔
      ∃ entry ∈ m.entries, key.alike entry.1 = true ∧ entry.2 = value := by
  constructor
  · intro h
    obtain ⟨entry, hfind, rfl⟩ := Option.map_eq_some_iff.1 h
    have hkey := List.find?_some hfind
    exact ⟨entry, List.mem_of_find?_eq_some hfind, Key.alike_symm hkey, rfl⟩
  · rintro ⟨entry, hmem, hkey, rfl⟩
    rw [slot?_congr m hkey, slot?_of_mem distinct hmem]

/-- The entry under a key of a datamap whose keys differ. -/
theorem get?_of_mem {m : DataMap α}
    (distinct : m.entries.Pairwise fun a b => a.1.alike b.1 = false) {entry : Key × α}
    (hentry : entry ∈ m.entries) : m.get? entry.1 = some entry.2 :=
  get?_of_slot? (slot?_of_mem distinct hentry)

/-- An entry stands in a datamap whose keys differ if an entry does whose key is taken for its own. -/
theorem get?_eq_some_iff {m : DataMap α} {key : Key} {value : α}
    (distinct : m.entries.Pairwise fun a b => a.1.alike b.1 = false) :
    m.get? key = some value ↔
      ∃ entry ∈ m.entries, key.meets m.size entry.1 = true ∧ entry.2 = value := by
  constructor
  · intro h
    obtain ⟨entry, hfind, rfl⟩ := Option.map_eq_some_iff.1 h
    have hkey := List.find?_some hfind
    exact ⟨entry, List.mem_of_find?_eq_some hfind, Key.meets_symm hkey, rfl⟩
  · rintro ⟨entry, hmem, hkey, rfl⟩
    rw [get?_congr m hkey, get?_of_mem distinct hmem]

/-- A key under which something is found has the hash of a name, unless it doubles the only one. -/
theorem any_alike_or_doubles {m : DataMap α} {key : Key} (h : m.contains key = true) :
    m.keys.any (·.alike key) = true ∨ key.Doubles m.keys := by
  rw [or_iff_not_imp_left]
  intro hhash
  rw [Bool.not_eq_true, any_keys] at hhash
  by_cases hsize : m.size = 1
  · obtain ⟨entry, hentries⟩ := eq_singleton_of_size hsize
    have hnames : m.keys = [entry.1] := by rw [keys, hentries, List.map_singleton]
    rw [hentries, List.any_cons, List.any_nil, Bool.or_false] at hhash
    rw [contains, hentries, List.any_cons, List.any_nil, Bool.or_false] at h
    rw [hnames]
    exact Key.doubles_singleton (Key.beq_of_meets h) hhash
  · -- a table of another size is searched by hashes
    rw [contains] at h
    simp only [Key.meets, if_neg hsize] at h
    rw [h] at hhash
    exact absurd hhash Bool.noConfusion

/-- What doubles the only name is found under it. -/
theorem contains_of_doubles {m : DataMap α} {key : Key} (h : key.Doubles m.keys) :
    m.contains key = true := by
  obtain ⟨name, hnames, hname, hkey, -⟩ := h
  have hsize : m.size = 1 := by rw [size_eq_length_keys, hnames, List.length_singleton]
  rw [contains, ← any_keys m (·.meets m.size key), hnames, List.any_cons, List.any_nil,
    Bool.or_false, Key.meets, if_pos hsize]
  exact Key.beq_of_isNaN hname hkey

/-- Writing under a key that doubles the only name adds an entry. -/
theorem insert_of_doubles {m : DataMap α} {key : Key} (h : key.Doubles m.keys) (value : α) :
    m.insert key value = { m with entries := m.entries ++ [(key, value)] } := by
  have hhash := h.any_alike
  rw [any_keys] at hhash
  rw [insert, insertEntry_eq, hhash, if_neg Bool.false_ne_true]

/-- Writing what was found changes nothing, unless the key doubles the only name. -/
theorem insert_of_get? {m : DataMap α} {key : Key} {value : α} (h : m.get? key = some value)
    (hkey : ¬key.Doubles m.keys) : m.insert key value = m := by
  have hcontains : m.contains key = true := by rw [contains_eq_isSome_get?, h, Option.isSome_some]
  have hhash := (any_alike_or_doubles hcontains).resolve_right hkey
  rw [any_keys] at hhash
  -- the entry that is found is the one that is written over
  have hsome : (m.entries.find? (·.1.alike key)).isSome = true := by
    rw [List.find?_isSome]
    exact List.any_eq_true.1 hhash
  obtain ⟨found, hfind⟩ := Option.isSome_iff_exists.1 hsome
  have hslot : m.slot? key = some found.2 := by rw [slot?, hfind, Option.map_some]
  obtain rfl : found.2 = value := Option.some.inj ((get?_of_slot? hslot).symm.trans h)
  rw [insert, insertEntry_eq, if_pos hhash, replaceEntry_find? (·.alike key) hfind]

/-! ## One entry written -/

theorem find?_insertEntry_self (key : Key) (value : α) (entries : List (Key × α)) :
    ((insertEntry key value entries).find? (·.1.alike key)).map (·.2) = some value := by
  induction entries with
  | nil => simp [insertEntry, Key.alike_self]
  | cons entry rest ih => cases h : entry.1.alike key <;> simp [insertEntry, h, ih]

theorem find?_insertEntry_other {key : Key} {test : Key → Bool}
    (htest : ∀ name, name.alike key = true → test name = false) (value : α)
    (entries : List (Key × α)) :
    (insertEntry key value entries).find? (test ·.1) = entries.find? (test ·.1) := by
  induction entries with
  | nil => simp [insertEntry, htest key (Key.alike_self key)]
  | cons entry rest ih =>
    cases h : entry.1.alike key with
    | true => simp [insertEntry, h, htest entry.1 h]
    | false => cases ht : test entry.1 <;> simp [insertEntry, h, ht, ih]

/-- What was written is in its slot. -/
theorem slot?_insert_self (m : DataMap α) (key : Key) (value : α) :
    (m.insert key value).slot? key = some value :=
  find?_insertEntry_self key value m.entries

/-- Other slots have what they had before. -/
theorem slot?_insert_other {m : DataMap α} {key other : Key} (value : α)
    (h : other.alike key = false) : (m.insert key value).slot? other = m.slot? other := by
  have htest (name : Key) (hname : name.alike key = true) : name.alike other = false := by
    rw [Key.alike_comm, Key.alike_congr_right hname, h]
  rw [slot?, slot?, insert, find?_insertEntry_other htest]

/-- What was written is found. -/
theorem get?_insert_self (m : DataMap α) (key : Key) (value : α) :
    (m.insert key value).get? key = some value :=
  get?_of_slot? (slot?_insert_self m key value)

/-- Under other keys there is what was there before. Only a NaN may be lost to sight, when a
datamap gets its second entry and from then on is searched by hashes. -/
theorem get?_insert_other {m : DataMap α} {key other : Key} (value : α)
    (h : (other == key) = false)
    (hnan : other.isNaN = true → m.size = 1 → (m.insert key value).size = 1) :
    (m.insert key value).get? other = m.get? other := by
  have hkeep {size : Nat} (name : Key) (hname : name.alike key = true) :
      name.meets size other = false := by
    refine Bool.eq_false_iff.2 fun hmeets => ?_
    rw [BEq.trans (BEq.symm (Key.beq_of_meets hmeets)) (Key.beq_of_alike hname)] at h
    exact Bool.noConfusion h
  have hfind (size : Nat) : (m.insert key value).entries.find? (·.1.meets size other) =
      m.entries.find? (·.1.meets size other) := find?_insertEntry_other hkeep value m.entries
  rw [get?, hfind, get?]
  by_cases hempty : m.entries = []
  · rw [hempty]
    rfl
  -- the search goes on by the same comparison
  suffices htest : ∀ name : Key,
      name.meets (m.insert key value).size other = name.meets m.size other by
    simp only [htest]
  intro name
  cases hn : other.isNaN with
  | false => rw [Key.meets_eq_beq hn, Key.meets_eq_beq hn]
  | true =>
    have hpos : m.size ≠ 0 := fun hz => hempty (List.length_eq_zero_iff.1 hz)
    have hle : m.size ≤ (m.insert key value).size := by
      rw [size_eq_length_keys, size_eq_length_keys, keys_insert]
      split <;> simp
    have hiff : (m.insert key value).size = 1 ↔ m.size = 1 :=
      ⟨fun h1 => by omega, hnan hn⟩
    simp only [Key.meets, hiff]

/-- After writing entries whose keys differ, each is in its slot, and other slots have what they had
before. -/
theorem slot?_insertMany {m : DataMap α} {entries : List (Key × α)}
    (distinct : entries.Pairwise fun a b => a.1.alike b.1 = false) (key : Key) :
    (m.insertMany entries).slot? key =
      ((entries.find? (·.1.alike key)).map (·.2)).or (m.slot? key) := by
  induction entries generalizing m with
  | nil => rfl
  | cons entry rest ih =>
    obtain ⟨hfirst, hrest⟩ := List.pairwise_cons.1 distinct
    have hstep : (m.insertMany (entry :: rest)).slot? key =
        ((rest.find? (·.1.alike key)).map (·.2)).or ((m.insert entry.1 entry.2).slot? key) := ih hrest
    rw [hstep]
    cases hkey : entry.1.alike key with
    | true =>
      -- no later entry has the key
      have hlater : rest.find? (·.1.alike key) = none := by
        refine List.find?_eq_none.2 fun other hother => ?_
        rw [← Key.alike_congr_right hkey, Key.alike_comm, hfirst other hother]
        exact Bool.false_ne_true
      rw [hlater, ← slot?_congr _ hkey, slot?_insert_self]
      simp [hkey]
    | false =>
      rw [slot?_insert_other _ ((Key.alike_comm _ _).trans hkey)]
      simp [hkey]

/-- A map written over another has its entries, and in other slots those of the other. -/
theorem slot?_merge {m n : DataMap α}
    (distinct : n.entries.Pairwise fun a b => a.1.alike b.1 = false) (key : Key) :
    (m.merge n).slot? key = (n.slot? key).or (m.slot? key) :=
  slot?_insertMany distinct key

/-- After writing entries whose keys differ, the keys that are new come last, in their order. -/
theorem keys_insertMany {m : DataMap α} {entries : List (Key × α)}
    (distinct : entries.Pairwise fun a b => a.1.alike b.1 = false) :
    (m.insertMany entries).keys =
      m.keys ++ (entries.map (·.1)).filter fun key => !m.keys.any (·.alike key) := by
  induction entries generalizing m with
  | nil => simp [insertMany]
  | cons entry rest ih =>
    obtain ⟨hfirst, hrest⟩ := List.pairwise_cons.1 distinct
    -- the entry just written has none of the keys still to come
    have hkept : (rest.map (·.1)).filter (fun key => !(m.insert entry.1 entry.2).keys.any (·.alike key)) =
        (rest.map (·.1)).filter fun key => !m.keys.any (·.alike key) := by
      refine List.filter_congr fun key hkey => ?_
      obtain ⟨other, hother, rfl⟩ := List.mem_map.1 hkey
      rw [keys_insert]
      split
      · rfl
      · simp [hfirst other hother]
    have hstep : (m.insertMany (entry :: rest)).keys = (m.insert entry.1 entry.2).keys ++
        (rest.map (·.1)).filter fun key => !(m.insert entry.1 entry.2).keys.any (·.alike key) :=
      ih hrest
    rw [hstep, hkept, keys_insert, List.map_cons]
    cases hnew : m.keys.any (·.alike entry.1) <;> simp [hnew]

/-- Writing keeps the keys different. -/
theorem distinct_insert {m : DataMap α}
    (distinct : m.entries.Pairwise fun a b => a.1.alike b.1 = false) (key : Key) (value : α) :
    (m.insert key value).entries.Pairwise fun a b => a.1.alike b.1 = false := by
  have hkeys : m.keys.Pairwise fun a b => a.alike b = false := List.pairwise_map.2 distinct
  suffices h : (m.insert key value).keys.Pairwise fun a b => a.alike b = false from
    List.pairwise_map.1 h
  rw [keys_insert]
  split
  · exact hkeys
  · rename_i hnew
    refine List.pairwise_append.2 ⟨hkeys, List.pairwise_singleton _ _, fun a ha b hb => ?_⟩
    obtain rfl := List.mem_singleton.1 hb
    exact Bool.eq_false_iff.2 fun h => hnew (List.any_eq_true.2 ⟨a, ha, h⟩)

/-- Writing adds no other value. -/
theorem mem_insertEntry {key : Key} {value : α} {entry : Key × α} {entries : List (Key × α)}
    (h : entry ∈ insertEntry key value entries) : entry ∈ entries ∨ entry.2 = value := by
  induction entries with
  | nil => simp_all [insertEntry]
  | cons first rest ih =>
    rw [insertEntry] at h
    split at h
    · rcases List.mem_cons.1 h with rfl | hrest
      · exact .inr rfl
      · exact .inl (List.mem_cons_of_mem first hrest)
    · rcases List.mem_cons.1 h with rfl | hrest
      · exact .inl List.mem_cons_self
      · exact (ih hrest).imp_left (List.mem_cons_of_mem first)

theorem getElem?_insertEntry {key : Key} {entry : Key × α} {entries : List (Key × α)} {i : Nat}
    (value : α) (h : entries[i]? = some entry) (hkey : entry.1.alike key = false) :
    (insertEntry key value entries)[i]? = some entry := by
  induction entries generalizing i with
  | nil => simp at h
  | cons first rest ih =>
    rw [insertEntry]
    cases i with
    | zero =>
      obtain rfl : first = entry := by simpa using h
      simp [hkey]
    | succ i =>
      rw [List.getElem?_cons_succ] at h
      split
      · simpa using h
      · simpa using ih h

/-! ## One value changed -/

theorem find?_replaceEntry_other {test test' : Key → Bool}
    (htest : ∀ name, test name = true → test' name = false) (value : α)
    (entries : List (Key × α)) :
    (replaceEntry test value entries).find? (test' ·.1) = entries.find? (test' ·.1) := by
  induction entries with
  | nil => rfl
  | cons entry rest ih =>
    cases h : test entry.1 with
    | true => simp [replaceEntry, h, htest entry.1 h]
    | false => cases ht : test' entry.1 <;> simp [replaceEntry, h, ht, ih]

/-- Under other keys there is what was there before. -/
theorem get?_replace_other {m : DataMap α} {key other : Key} (value : α)
    (h : other.meets m.size key = false) : (m.replace key value).get? other = m.get? other := by
  have htest (name : Key) (hname : name.meets m.size key = true) :
      name.meets m.size other = false := by
    refine Bool.eq_false_iff.2 fun hmeets => ?_
    rw [Key.meets_trans (Key.meets_symm hmeets) hname] at h
    exact Bool.noConfusion h
  have hfind : (m.replace key value).entries.find? (·.1.meets m.size other) =
      m.entries.find? (·.1.meets m.size other) := find?_replaceEntry_other htest value m.entries
  rw [get?, size_replace, hfind, get?]

theorem getElem?_replaceEntry {test : Key → Bool} {entry : Key × α} {entries : List (Key × α)}
    {i : Nat} (value : α) (h : entries[i]? = some entry) (hkey : test entry.1 = false) :
    (replaceEntry test value entries)[i]? = some entry := by
  induction entries generalizing i with
  | nil => simp at h
  | cons first rest ih =>
    rw [replaceEntry]
    cases i with
    | zero =>
      obtain rfl : first = entry := by simpa using h
      simp [hkey]
    | succ i =>
      rw [List.getElem?_cons_succ] at h
      split
      · simpa using h
      · simpa using ih h

/-! ## All but one entry -/

/-- Two datamaps that agree in all but what one key leads to. The key may be new in the second, and
then it comes last. -/
structure AgreeBut (name : Key) (m m' : DataMap α) : Prop where
  isSealed : m'.isSealed = m.isSealed
  keys : m'.keys = m.keys ∨ m'.keys = m.keys ++ [name]
  entries : ∀ (i : Nat) (entry : Key × α), m.entries[i]? = some entry → entry.1.meets m.size name = false →
    m'.entries[i]? = some entry
  get? : ∀ key, (key == name) = false → (key.isNaN = true → m.size = 1 → m'.size = 1) →
    m'.get? key = m.get? key

theorem agreeBut_insert (m : DataMap α) (name : Key) (value : α) :
    m.AgreeBut name (m.insert name value) where
  isSealed := rfl
  keys := by
    rw [keys_insert]
    split
    · exact .inl rfl
    · exact .inr rfl
  entries i entry hentry hname := by
    refine getElem?_insertEntry value hentry (Bool.eq_false_iff.2 fun halike => ?_)
    rw [Key.meets_of_alike halike] at hname
    exact Bool.noConfusion hname
  get? _ hkey hnan := get?_insert_other value hkey hnan

theorem agreeBut_replace (m : DataMap α) (name : Key) (value : α) :
    m.AgreeBut name (m.replace name value) where
  isSealed := rfl
  keys := .inl (keys_replace m name value)
  entries _ _ hentry hname := getElem?_replaceEntry value hentry hname
  get? key hkey _ := by
    refine get?_replace_other value (Bool.eq_false_iff.2 fun hmeets => ?_)
    rw [Key.beq_of_meets hmeets] at hkey
    exact Bool.noConfusion hkey

end StoryScript.DataMap
