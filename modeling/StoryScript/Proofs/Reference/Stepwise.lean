/-
  Properties, one step at a time.

  A reference turns each key as written into the key to look up, against the value that the keys
  before it lead to, and it walks from its start again each time. Reading a property does both for
  one key. Extending a reference by a key and reading it is therefore reading the property of
  what the reference reads as (`get_extend`), and along a chain of keys the two ways agree at
  every step.

  An error on the way is the result of both. They part only at reserved names, which are refused
  before anyone looks at what they are asked of: a read then loses the error it was given, and so
  does the extension of a reference to an error that is stored somewhere. Deleting loses it always.
-/
import Mathlib
import StoryScript.Reference
import StoryScript.Value.Equality

namespace StoryScript

open ScriptError

/-- Whether a key is a name that scripts may not use. -/
def Key.isReserved (key : Key) : Bool :=
  key.name?.any fun name => "__".toList.isPrefixOf name.toList

/-! ## Errors as objects -/

namespace Value

/-- An error has no properties but itself, and reserved names are refused first. -/
theorem lookupKey_error (e : ScriptError) (key : Key) :
    (error e).lookupKey key = .error (if key.isReserved then reservedName else e) := by
  unfold lookupKey Key.isReserved
  split <;> rfl

theorem get_error (e : ScriptError) (key : Key) :
    (error e).get key = .error (if key.isReserved then reservedName else e) := by
  rw [get, lookupKey_error]
  rfl

/-- An error stays the same along a chain of keys. -/
theorem foldl_get_error (e : ScriptError) {keys : List Key}
    (h : ∀ key ∈ keys, key.isReserved = false) : keys.foldl get (error e) = error e := by
  induction keys with
  | nil => rfl
  | cons key keys ih =>
    obtain ⟨hkey, hkeys⟩ := List.forall_mem_cons.1 h
    rw [List.foldl_cons, get_error, hkey]
    exact ih hkeys

end Value

/-! ## One more key -/

/-- The last of several keys is looked up in what those before it lead to. -/
theorem Context.follow_append (c : Context) (base : Place Value) {keys : List Key} (h : keys ≠ [])
    (key : Key) : c.follow base (keys ++ [key]) = c.follow base keys >>= (·.lookup key) := by
  obtain ⟨first, rest, rfl⟩ := List.exists_cons_of_ne_nil h
  rw [List.cons_append, follow, follow]
  cases c.start base first with
  | error e => rfl
  | ok v =>
    exact List.foldlM_append.trans (bind_congr fun w => List.foldlM_cons.trans (bind_pure _))

namespace Reference

variable {r : Reference Value} {c : Context}

/-- There is no property of what a reference does not lead to. -/
theorem extend_of_resolve_error {e : ScriptError} (h : r.resolve c = .error e) (key : Key) :
    r.extend c key = .error e := by
  rw [extend, h]
  rfl

theorem extend_of_resolve {v : Value} (h : r.resolve c = .ok v) (key : Key) :
    r.extend c key =
      (v.lookupKey key).map fun key => { r with path := r.keys, property := key } := by
  rw [extend, h]
  rfl

theorem resolve_extended (r : Reference Value) (c : Context) (key : Key) :
    resolve { r with path := r.keys, property := key } c = r.resolve c >>= (·.lookup key) :=
  c.follow_append r.base (by simp [keys]) key

/-- A reference extended by a key reads as the property of what it read as before. -/
theorem get_extend (r : Reference Value) (c : Context) {key : Key} (h : key.isReserved = false) :
    Value.ofExcept ((·.get c) <$> r.extend c key) = (r.get c).get key := by
  cases hr : r.resolve c with
  | error e =>
    have hget : r.get c = .error e := by rw [get, hr]; rfl
    rw [extend_of_resolve_error hr, hget, Value.get_error, h]
    rfl
  | ok v =>
    have hget : r.get c = v := by rw [get, hr]; rfl
    rw [extend_of_resolve hr, hget, Value.get]
    cases v.lookupKey key with
    | error e => rfl
    | ok key' =>
      show get { r with path := r.keys, property := key' } c = _
      rw [get, resolve_extended, hr]
      rfl

/-- A reference extended along a chain of keys reads as the property of the property, and so on, of
what it read as before. -/
theorem get_foldlM_extend (r : Reference Value) (c : Context) {keys : List Key}
    (h : ∀ key ∈ keys, key.isReserved = false) :
    Value.ofExcept ((·.get c) <$> keys.foldlM (fun r key => r.extend c key) r) =
      keys.foldl Value.get (r.get c) := by
  induction keys generalizing r with
  | nil => rfl
  | cons key keys ih =>
    obtain ⟨hkey, hkeys⟩ := List.forall_mem_cons.1 h
    rw [List.foldlM_cons, List.foldl_cons, ← get_extend r c hkey]
    cases r.extend c key with
    | error e =>
      -- nothing comes after the first failure, and reads keep the error
      exact (Value.foldl_get_error e hkeys).symm
    | ok r' => exact ih r' hkeys

/-- A reference to a property of a value reads as the property. -/
theorem get_property (v : Value) (c : Context) (key : Key) :
    get { base := .of v, path := [], property := key } c = Value.ofExcept (v.lookup key) := by
  rw [get, resolve]
  show Value.ofExcept (v.lookup key >>= pure) = _
  rw [bind_pure]

end Reference

/-! ## Chains of keys -/

/-- References agree with access step by step: the reference along a chain of keys from a value,
read in the context in which it was made, gives what reading one property after the other gives,
with the same error if it fails. The keys are any but the reserved ones, and there is at least
one. -/
theorem get_create_eq_foldl (c : Context) (v : Value) (chain : List Key) (hchain : chain ≠ [])
    (hkeys : ∀ key ∈ chain, key.isReserved = false) :
    Value.ofExcept ((·.get c) <$> Reference.create c (.of v) chain) = chain.foldl Value.get v := by
  obtain ⟨first, rest, rfl⟩ := List.exists_cons_of_ne_nil hchain
  obtain ⟨-, hrest⟩ := List.forall_mem_cons.1 hkeys
  rw [List.foldl_cons, Value.get, Reference.create]
  cases hfirst : v.lookupKey first with
  | error e => exact (Value.foldl_get_error e hrest).symm
  | ok key =>
    exact (Reference.get_foldlM_extend _ c hrest).trans
      (congrArg (rest.foldl Value.get) (Reference.get_property v c key))

/-- An error as a script may have stored it. -/
def ScriptError.lost : ScriptError where
  kind := .range
  message := "lost"

/-- An array with a datamap and an error in it. -/
def Value.hoard : Value :=
  .array [.map (.ofList [(.string "name", .string "gem")]), .error lost]

/-- Three keys lead to a character inside the datamap, and a key after the error leads to the
error. -/
theorem get_create_eq_foldl_hoard :
    (∀ key ∈ [Key.string "1st", .string "name", .string "2ndlast"], key.isReserved = false) ∧
    (Value.ofExcept ((·.get {}) <$> Reference.create {} (.of .hoard)
      [.string "1st", .string "name", .string "2ndlast"])).same (.string "e") = true ∧
    (∀ key ∈ [Key.string "last", .string "name"], key.isReserved = false) ∧
    (Value.ofExcept ((·.get {}) <$> Reference.create {} (.of .hoard)
      [.string "last", .string "name"])).same (.error lost) = true := by
  have hgem : ∀ key ∈ [Key.string "1st", .string "name", .string "2ndlast"],
      key.isReserved = false := by decide
  have hlost : ∀ key ∈ [Key.string "last", .string "name"], key.isReserved = false := by decide
  refine ⟨hgem, ?_, hlost, ?_⟩
  · rw [get_create_eq_foldl {} .hoard _ (by simp) hgem]
    decide +kernel
  · rw [get_create_eq_foldl {} .hoard _ (by simp) hlost]
    decide +kernel

/-! ## Errors -/

/-- What becomes of an error that a property operation is given. Reading a property of it gives the
error itself, unless the name is reserved. Extending a reference that reads as the error fails with
it, unless the reference leads to an error that is stored there and the name is reserved. Deleting
from it fails with an error of its own. -/
theorem property_of_error (e : ScriptError) (key : Key) :
    (Value.error e).get key = .error (if key.isReserved then reservedName else e) ∧
    (Value.error e).delete key = .error (cannotDelete (.error e) key) ∧
    ∀ (r : Reference Value) (c : Context), r.get c = .error e →
      r.extend c key =
        .error (if key.isReserved && (r.resolve c).isOk then reservedName else e) := by
  refine ⟨Value.get_error e key, by cases key <;> rfl, ?_⟩
  intro r c hget
  rw [Reference.get] at hget
  cases hr : r.resolve c with
  | error e' =>
    rw [hr] at hget
    obtain rfl : e' = e := Value.error.inj hget
    rw [Reference.extend_of_resolve_error hr]
    simp [Except.isOk, Except.toBool]
  | ok v =>
    rw [hr] at hget
    obtain rfl : v = .error e := hget
    rw [Reference.extend_of_resolve hr, Value.lookupKey_error]
    simp [Except.isOk, Except.toBool, Except.map]

namespace Reference

/-- A story with an error in it. -/
def troubled : Context :=
  { story := .ofList [(.string "e", .error lost)] }

/-- The variable that holds the error. -/
def trouble : Reference Value :=
  { base := .story, path := [], property := .string "e" }

end Reference

open Reference in
/-- An error is not always handed on: a reserved name hides it from a read and from the extension of
a reference to it, and a deletion reports another error in its place. -/
theorem not_property_of_error_lost :
    (Value.error lost).get (.string "__a") ≠ .error lost ∧
    (Value.error lost).delete (.string "a") ≠ .error lost ∧
    trouble.get troubled = .error lost ∧
    trouble.extend troubled (.string "__a") ≠ .error lost := by
  have hreserved : reservedName ≠ lost := by decide
  have hdelete : cannotDelete (.error lost) (.string "a") ≠ lost := by decide
  refine ⟨?_, ?_, rfl, ?_⟩
  · intro h
    exact hreserved (Value.error.inj h)
  · intro h
    exact hdelete (Except.error.inj h)
  · intro h
    exact hreserved (Except.error.inj h)

open Reference in
/-- Any other name is a property that the error answers for itself. -/
theorem property_of_error_trouble :
    trouble.get troubled = .error lost ∧
    (Value.error lost).get (.string "a") = .error lost ∧
    trouble.extend troubled (.string "a") = .error lost ∧
    trouble.extend troubled (.string "__a") = .error reservedName := by
  have hget : trouble.get troubled = .error lost := rfl
  refine ⟨hget, (property_of_error lost (.string "a")).1, ?_, ?_⟩
  · exact (property_of_error lost (.string "a")).2.2 trouble troubled hget
  · exact (property_of_error lost (.string "__a")).2.2 trouble troubled hget

end StoryScript
