/-
  Datamaps: entries under distinct keys, in the order in which the keys were added.

  The entries stand in a hash table. A key that is written is looked up by its hash
  first and then by equality. A key that is read, changed or removed is looked up in the
  same way, but for a table with a single entry: no hash is computed there, and the two
  keys are compared by equality alone. The two ways disagree on a NaN whose bits are not
  those of the only key, which is another NaN.

  Writing to a key that is there keeps its place and its spelling. A sealed map is
  one that takes no new keys; the operations here do not look at the seal, which is
  for those who write on behalf of a script.
-/
import StoryScript.Key

namespace StoryScript

/-- Whether a table with a number of entries takes two keys for one when it looks a key up. -/
def Key.meets (size : Nat) (a b : Key) : Bool :=
  if size = 1 then a == b else a.alike b

/-- Entries in order, and whether the map is sealed. -/
structure DataMap (α : Type) where
  entries : List (Key × α) := []
  isSealed : Bool := false

namespace DataMap

variable {α : Type}

/-- The number of entries. -/
def size (m : DataMap α) : Nat :=
  m.entries.length

/-- The value under a key. -/
def get? (m : DataMap α) (key : Key) : Option α :=
  (m.entries.find? (·.1.meets m.size key)).map (·.2)

/-- Whether a key is there. -/
def contains (m : DataMap α) (key : Key) : Bool :=
  m.entries.any (·.1.meets m.size key)

/-- Writes one entry of a list: over the old value if the key is there, at the end otherwise. -/
def insertEntry (key : Key) (value : α) : List (Key × α) → List (Key × α)
  | [] => [(key, value)]
  | entry :: rest =>
    if entry.1.alike key then (entry.1, value) :: rest else entry :: insertEntry key value rest

/-- Writes one entry. -/
def insert (m : DataMap α) (key : Key) (value : α) : DataMap α :=
  { m with entries := insertEntry key value m.entries }

/-- Writes over the value of the first entry of a list whose key passes a test. -/
def replaceEntry (test : Key → Bool) (value : α) : List (Key × α) → List (Key × α)
  | [] => []
  | entry :: rest =>
    if test entry.1 then (entry.1, value) :: rest else entry :: replaceEntry test value rest

/-- Changes the value under a key, if it is there. -/
def replace (m : DataMap α) (key : Key) (value : α) : DataMap α :=
  { m with entries := replaceEntry (·.meets m.size key) value m.entries }

/-- Removes an entry; the others keep their order. -/
def erase (m : DataMap α) (key : Key) : DataMap α :=
  { m with entries := m.entries.eraseP (·.1.meets m.size key) }

/-- Writes entries one by one. -/
def insertMany (m : DataMap α) (entries : List (Key × α)) : DataMap α :=
  entries.foldl (fun m entry => m.insert entry.1 entry.2) m

/-- The unsealed map that results from writing entries one by one. -/
def ofList (entries : List (Key × α)) : DataMap α :=
  insertMany {} entries

/-- The same entries, sealed. -/
def sealed (m : DataMap α) : DataMap α :=
  { m with isSealed := true }

/-- Every entry of `n` written over `m`. -/
def merge (m n : DataMap α) : DataMap α :=
  m.insertMany n.entries

/-- The keys in order. -/
def keys (m : DataMap α) : List Key :=
  m.entries.map (·.1)

@[simp] theorem isSealed_insert (m : DataMap α) (key : Key) (value : α) :
    (m.insert key value).isSealed = m.isSealed := rfl

@[simp] theorem isSealed_replace (m : DataMap α) (key : Key) (value : α) :
    (m.replace key value).isSealed = m.isSealed := rfl

@[simp] theorem isSealed_erase (m : DataMap α) (key : Key) :
    (m.erase key).isSealed = m.isSealed := rfl

@[simp] theorem isSealed_sealed (m : DataMap α) : m.sealed.isSealed = true := rfl

@[simp] theorem entries_sealed (m : DataMap α) : m.sealed.entries = m.entries := rfl

@[simp] theorem isSealed_insertMany (m : DataMap α) (entries : List (Key × α)) :
    (m.insertMany entries).isSealed = m.isSealed := by
  induction entries generalizing m with
  | nil => rfl
  | cons entry rest ih => simpa [insertMany] using ih (m.insert entry.1 entry.2)

/-- Writing over a map keeps its seal. -/
@[simp] theorem isSealed_merge (m n : DataMap α) : (m.merge n).isSealed = m.isSealed :=
  isSealed_insertMany m n.entries

theorem contains_eq_isSome_get? (m : DataMap α) (key : Key) :
    m.contains key = (m.get? key).isSome := by
  simp only [contains, get?, Option.isSome_map]
  induction m.entries with
  | nil => rfl
  | cons entry rest ih => cases h : entry.1.meets m.size key <;> simp [h, ih]

/-! ### Changing the value of an entry -/

theorem map_fst_replaceEntry (test : Key → Bool) (value : α) (entries : List (Key × α)) :
    (replaceEntry test value entries).map (·.1) = entries.map (·.1) := by
  induction entries with
  | nil => rfl
  | cons entry rest ih => cases h : test entry.1 <;> simp [replaceEntry, h, ih]

@[simp] theorem keys_replace (m : DataMap α) (key : Key) (value : α) :
    (m.replace key value).keys = m.keys :=
  map_fst_replaceEntry _ value m.entries

@[simp] theorem size_replace (m : DataMap α) (key : Key) (value : α) :
    (m.replace key value).size = m.size := by
  simpa [keys, size] using congrArg List.length (keys_replace m key value)

theorem find?_replaceEntry (test : Key → Bool) {old : Key × α} {entries : List (Key × α)}
    (value : α) (h : entries.find? (test ·.1) = some old) :
    (replaceEntry test value entries).find? (test ·.1) = some (old.1, value) := by
  induction entries with
  | nil => simp at h
  | cons entry rest ih => cases hk : test entry.1 <;> simp_all [replaceEntry]

/-- A value that is written over another is there. -/
theorem get?_replace_of_get? {m : DataMap α} {key : Key} {old : α} (value : α)
    (h : m.get? key = some old) : (m.replace key value).get? key = some value := by
  simp only [get?, Option.map_eq_some_iff] at h
  obtain ⟨entry, hfind, -⟩ := h
  have hfound : (m.replace key value).entries.find? (·.1.meets m.size key) = some (entry.1, value) :=
    find?_replaceEntry (·.meets m.size key) value hfind
  rw [get?, size_replace, hfound, Option.map_some]

theorem replaceEntry_find? (test : Key → Bool) {entry : Key × α} {entries : List (Key × α)}
    (h : entries.find? (test ·.1) = some entry) : replaceEntry test entry.2 entries = entries := by
  induction entries with
  | nil => simp at h
  | cons first rest ih => cases hk : test first.1 <;> simp_all [replaceEntry]

/-- Writing over a value with itself changes nothing. -/
theorem replace_of_get? {m : DataMap α} {key : Key} {value : α} (h : m.get? key = some value) :
    m.replace key value = m := by
  simp only [get?, Option.map_eq_some_iff] at h
  obtain ⟨entry, hfind, rfl⟩ := h
  rw [replace, replaceEntry_find? (·.meets m.size key) hfind]

/-! ### Writing an entry -/

/-- A write goes over the entry with the hash of the key, or comes last. -/
theorem insertEntry_eq (key : Key) (value : α) (entries : List (Key × α)) :
    insertEntry key value entries =
      if entries.any (·.1.alike key) then replaceEntry (·.alike key) value entries
      else entries ++ [(key, value)] := by
  induction entries with
  | nil => rfl
  | cons entry rest ih =>
    cases h : entry.1.alike key
    · simp only [insertEntry, replaceEntry, h, List.any_cons, Bool.false_or, Bool.false_eq_true,
        if_false, ih]
      split <;> rfl
    · simp [insertEntry, replaceEntry, h]

theorem any_keys (m : DataMap α) (test : Key → Bool) :
    m.keys.any test = m.entries.any (test ·.1) :=
  List.any_map

/-- Writing to a key whose hash is there changes no key; otherwise the key comes last. -/
theorem keys_insert (m : DataMap α) (key : Key) (value : α) :
    (m.insert key value).keys =
      if m.keys.any (·.alike key) then m.keys else m.keys ++ [key] := by
  rw [any_keys, keys, insert, insertEntry_eq]
  split
  · exact map_fst_replaceEntry _ value m.entries
  · simp [keys]

end DataMap

end StoryScript
