/-
  Properties of values: reading, writing and deleting them.

  A key as a script writes it is first turned into the key to look up. For sequences
  that is an index: positions count from 1 or from the end, ordinals such as `2nd` and
  `3rdlast` are positions too, and the index counts from 0 with negative numbers
  counting from the end.
-/
import StoryScript.Change
import StoryScript.Decimal.Exact
import StoryScript.Decimal.Reader
import StoryScript.Text.Blank
import StoryScript.Value.Failure

namespace StoryScript

open ScriptError

/-! ## Ordinals -/

/-- The text before an ending, if the text has that ending. -/
def withoutEnding? (ending cs : List Char) : Option (List Char) :=
  if ending.isSuffixOf cs then some (cs.take (cs.length - ending.length)) else none

/-- The endings of ordinals. -/
def ordinalEndings : List (List Char) :=
  [['s', 't'], ['n', 'd'], ['r', 'd'], ['t', 'h']]

/-- The number of an ordinal such as `22nd`. The ending need not fit the number. -/
def ordinal? (cs : List Char) : Option Float :=
  match ordinalEndings.findSome? (withoutEnding? · cs) with
  | some digits =>
    if digits.isEmpty || !digits.all Char.isDigit then none
    else some (Decimal.ofDecimal (Decimal.digitsValue digits) 0)
  | none => none

/-- The index in a sequence of the given length that a number denotes: from the start, or from
the end if it is negative. It may lie beyond the end. -/
def index? (n : Number) (length : Nat) : Option Nat :=
  match Decimal.whole? n.float with
  | some i =>
    let place := if i < 0 then length + i else i
    if 0 ≤ place then some place.toNat else none
  | none => none

namespace Value

/-! ## From the key as written to the key to look up -/

/-- The index of a position, which counts from 1 or, if negative, from the end. -/
def indexOfPosition (object : Value) (position : Number) : Except ScriptError Key :=
  if (Decimal.whole? position.float).isNone then .error (notWhole position)
  else if position == 0 then .error (positionZero object)
  else .ok (.number (if 0 < position.float then position - 1 else position))

/-- The index, or `length`, that a name denotes in a sequence. -/
def indexOfName (object : Value) (name : String) : Except ScriptError Key :=
  let lower := Text.lower name
  if lower = "length" then .ok (.string lower)
  else if lower = "last" then .ok (.number (.ofFloat (-1)))
  else
    let fromEnd? := (withoutEnding? "last".toList lower.toList).map (Text.dropEndWhile (· == '-'))
    match ordinal? (fromEnd?.getD lower.toList) with
    | some n =>
      if 0 < n && fromEnd?.isSome then .ok (.number (.ofFloat (-n)))
      else indexOfPosition object (.ofFloat n)
    | none => .error (notPosition object name)

/-- The key to look up for a key as written. -/
def lookupKey (object : Value) (key : Key) : Except ScriptError Key :=
  if (key.name?.any fun name => "__".toList.isPrefixOf name.toList) then .error reservedName
  else
    match object, key with
    | error e, _ => .error e
    | array _, .number n | string _, .number n => indexOfPosition object n
    | array _, .string name | string _, .string name => indexOfName object name
    | map _, key => .ok key
    | set _, .string "length" => .ok (.string "length")
    | set _, _ => .error datasetProperty
    | colour c, .string name =>
      if (c.channel? name).isSome then .ok key else .error (colourProperty key)
    | colour _, key => .error (colourProperty key)
    | v, _ => .error (noProperties v)

/-! ## Access under a key to look up -/

/-- Reads. -/
def lookup (object : Value) (key : Key) : Except ScriptError Value :=
  match object, key with
  | error e, _ => .error e
  | array items, .number n =>
    match (index? n items.length).bind (items[·]?) with
    | some v => .ok v
    | none => .error (nothingInArray items.length n)
  | string s, .number n =>
    match (index? n s.toList.length).bind (s.toList[·]?) with
    | some c => .ok (string (String.singleton c))
    | none => .error (nothingInString s.toList.length n)
  | array items, .string "length" => .ok (number (.ofNat items.length))
  | string s, .string "length" => .ok (number (.ofNat s.toList.length))
  | set s, .string "length" => .ok (number (.ofNat s.items.length))
  | map m, key =>
    match m.get? key with
    | some v => .ok v
    | none => .error (noSuchName key)
  | colour c, .string name =>
    match c.channel? name with
    | some n => .ok (number (.ofNat n.toNat))
    | none => .error (colourProperty key)
  | v, key => .error (cannotGet v key)

/-- Reads under a key as written. -/
def get (object : Value) (key : Key) : Value :=
  ofExcept (object.lookupKey key >>= object.lookup)

/-- Writes into a sequence at an index; one past the end appends. -/
def putAt {α : Type} (items : List α) (n : Number) (a : α) : Option (List α) :=
  match index? n items.length with
  | some i =>
    if i < items.length then some (items.set i a)
    else if i = items.length then some (items ++ [a])
    else none
  | none => none

/-- The character of a string that has one only. -/
def character? : Value → Option Char
  | string s =>
    match s.toList with
    | [c] => some c
    | _ => none
  | _ => none

/-- Writes. -/
def put (object : Value) (key : Key) (v : Value) : Except ScriptError Value :=
  match object, key with
  | array items, .number n =>
    match putAt items n v with
    | some items => .ok (array items)
    | none => .error (cannotPutInArray items.length n)
  | string s, .number n =>
    match v.character? with
    | some c =>
      match putAt s.toList n c with
      | some cs => .ok (string (String.ofList cs))
      | none => .error (cannotPutInString s.toList.length n)
    | none => .error (notSingleCharacter v)
  | array _, .string name | string _, .string name =>
    if name = "length" then .error (fixedLength object)
    else .error (notWritablePosition object name)
  | map m, key =>
    if m.isSealed && !m.contains key then .error (sealedAgainstNew key)
    else .ok (map (m.insert key v))
  | v, _ => .error (cannotModify v)

/-- Deletes. -/
def delete (object : Value) (key : Key) : Except ScriptError Value :=
  match object, key with
  | array items, .number n =>
    match index? n items.length with
    | some i =>
      if i < items.length then .ok (array (items.eraseIdx i))
      else .error (nothingToDelete items.length n)
    | none => .error (nothingToDelete items.length n)
  | map m, key => if m.isSealed then .error (sealedAgainstDelete key) else .ok (map (m.erase key))
  | v, key => .error (cannotDelete v key)

/-! ## Changes inside a value -/

/-- The value inside an array or a datamap that a key leads to. -/
def findChild (key : Key) (object : Value) : Except ScriptError Value :=
  match object, key with
  | array items, .number n =>
    match (index? n items.length).bind (items[·]?) with
    | some v => .ok v
    | none => .error (nothingToChange items.length n)
  | map m, key =>
    match m.get? key with
    | some v => .ok v
    | none => .error (noSuchName key)
  | v, _ => .error (cannotChangeInside v)

/-- Writes over the value that a key leads to, if there is one. -/
def replaceChild (key : Key) (object v : Value) : Value :=
  match object, key with
  | array items, .number n =>
    match index? n items.length with
    | some i => array (items.set i v)
    | none => array items
  | map m, key => map (m.replace key v)
  | object, _ => object

/-- A child is an item of an array or an entry of a datamap. -/
theorem findChild_eq_ok {key : Key} {object v : Value} (h : findChild key object = .ok v) :
    (∃ items n i, object = array items ∧ key = .number n ∧ index? n items.length = some i ∧
      items[i]? = some v) ∨
    ∃ m, object = map m ∧ m.get? key = some v := by
  cases object <;> cases key <;> simp only [findChild] at h
  case array.number items n =>
    split at h
    · rename_i w hw
      obtain ⟨i, hi, hitem⟩ := Option.bind_eq_some_iff.1 hw
      simp only [Except.ok.injEq] at h
      exact .inl ⟨items, n, i, rfl, rfl, hi, h ▸ hitem⟩
    · simp at h
  case map.string m _ | map.number m _ =>
    split at h
    · rename_i w hw
      simp only [Except.ok.injEq] at h
      exact .inr ⟨m, rfl, h ▸ hw⟩
    · simp at h
  all_goals simp at h

theorem replaceChild_findChild {key : Key} {object v : Value} (h : findChild key object = .ok v) :
    replaceChild key object v = object := by
  rcases findChild_eq_ok h with ⟨items, n, i, rfl, rfl, hi, hitem⟩ | ⟨m, rfl, hentry⟩
  · obtain ⟨hlt, rfl⟩ := List.getElem?_eq_some_iff.1 hitem
    simp [replaceChild, hi]
  · simp [replaceChild, DataMap.replace_of_get? hentry]

theorem findChild_replaceChild {key : Key} {object v : Value} (w : Value)
    (h : findChild key object = .ok v) : findChild key (replaceChild key object w) = .ok w := by
  rcases findChild_eq_ok h with ⟨items, n, i, rfl, rfl, hi, hitem⟩ | ⟨m, rfl, hentry⟩
  · obtain ⟨hlt, -⟩ := List.getElem?_eq_some_iff.1 hitem
    simp [replaceChild, findChild, hi, hlt]
  · simp [replaceChild, findChild, DataMap.get?_replace_of_get? w hentry]

/-- The value that a key leads to, as a part of the value it is in. -/
def child (key : Key) : Part Value Value where
  find := findChild key
  replace := replaceChild key
  replace_find := replaceChild_findChild
  find_replace := findChild_replaceChild

/-- Changes the value at the end of a path of keys. -/
def changeAt (change : Change Value) : List Key → Change Value
  | [] => change
  | key :: keys => Change.inside (child key) (changeAt change keys)

end Value

end StoryScript
