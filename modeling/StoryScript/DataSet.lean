/-
  Datasets: values of which no two are equal.
-/
import StoryScript.Value.Equality

namespace StoryScript.DataSet

/-- Whether the set has a value equal to the given one. -/
def contains (s : DataSet Value) (v : Value) : Bool :=
  s.items.any (·.same v)

/-- Adds a value at the end, unless the set has one equal to it. -/
def insert (s : DataSet Value) (v : Value) : DataSet Value :=
  if s.contains v then s else ⟨s.items ++ [v]⟩

/-- Removes whatever equals a value. -/
def erase (s : DataSet Value) (v : Value) : DataSet Value :=
  ⟨s.items.filter fun w => !w.same v⟩

/-- The set of the values of a list. -/
def ofList (items : List Value) : DataSet Value :=
  items.foldl insert {}

/-- The values of either set, those of the first one first. -/
def union (s t : DataSet Value) : DataSet Value :=
  ofList (s.items ++ t.items)

/-- The values of the first set that the second one does not have. -/
def diff (s t : DataSet Value) : DataSet Value :=
  ofList (s.items.filter fun v => !t.contains v)

/-- The number of values. -/
def size (s : DataSet Value) : Nat :=
  s.items.length

/-- Values that differ from each other are added in their order, but for those that the set has. -/
theorem foldl_insert_of_distinct {s : DataSet Value} {items : List Value}
    (h : items.Pairwise fun a b => a.same b = false) :
    items.foldl insert s = ⟨s.items ++ items.filter fun v => !s.contains v⟩ := by
  induction items generalizing s with
  | nil => simp
  | cons v rest ih =>
    obtain ⟨hfirst, hrest⟩ := List.pairwise_cons.1 h
    cases hv : s.contains v with
    | true => simp [insert, hv, ih hrest]
    | false =>
      -- what the set has gained is not equal to any value still to come
      have hkept : (rest.filter fun w => !(DataSet.contains ⟨s.items ++ [v]⟩ w)) =
          rest.filter fun w => !s.contains w := by
        refine List.filter_congr fun w hw => ?_
        simp [contains, hfirst w hw]
      simp [insert, hv, ih hrest, hkept]

/-- The set of values that differ from each other has all of them, in their order. -/
theorem ofList_of_distinct {items : List Value} (h : items.Pairwise fun a b => a.same b = false) :
    ofList items = ⟨items⟩ := by
  simp [ofList, foldl_insert_of_distinct h, contains]

end StoryScript.DataSet
