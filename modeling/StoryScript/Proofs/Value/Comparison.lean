/-
  What the comparison of two values comes to, kind by kind.

  The comparison goes by recursion on the value on one side and remembers which side that
  is. Nothing depends on the choice: reading the two values the other way round with the
  sides exchanged gives the same answer. With that, equality of collections can be stated
  by equality of their contents alone.
-/
import Mathlib
import StoryScript.Value.Equality

namespace StoryScript.Value

/-! ## The loops over contents -/

theorem sameEntries_eq (entries : List (Key × Value)) (m : DataMap Value) :
    sameEntries entries m =
      entries.all fun entry => (m.get? entry.1).any (sameIn false entry.2 ·) := by
  induction entries with
  | nil => rfl
  | cons entry rest ih =>
    show ((m.get? entry.1).any (sameIn false entry.2 ·) && sameEntries rest m) = _
    rw [ih, List.all_cons]

theorem sameUnder_eq (entries : List (Key × Value)) (test : Key → Bool) (v : Value) :
    sameUnder entries test v =
      ((entries.find? (test ·.1)).map (·.2)).any (sameIn true · v) := by
  induction entries with
  | nil => rfl
  | cons entry rest ih =>
    show (if test entry.1 then sameIn true entry.2 v else sameUnder rest test v) = _
    cases h : test entry.1 <;> simp [h, ih]

theorem sameMembers_eq (values items : List Value) :
    sameMembers values items = values.all fun v => items.any (sameIn true v ·) := by
  induction values with
  | nil => rfl
  | cons v rest ih =>
    show (items.any (sameIn true v ·) && sameMembers rest items) = _
    rw [ih, List.all_cons]

theorem sameMember_eq (items : List Value) (v : Value) :
    sameMember items v = items.any (sameIn false · v) := by
  induction items with
  | nil => rfl
  | cons member rest ih =>
    show (sameIn false member v || sameMember rest v) = _
    rw [ih, List.any_cons]

/-! ## The sides exchanged -/

/-- A value that may be compared from either side. -/
def IsReversible (a : Value) : Prop :=
  ∀ (swapped : Bool) (b : Value), sameIn swapped a b = sameIn (!swapped) b a

theorem inOrder_not {α : Type} (swapped : Bool) (test : α → α → Bool) (a b : α) :
    inOrder swapped test a b = inOrder (!swapped) test b a := by
  cases swapped <;> rfl

theorem sameAll_not {items : List Value} (h : ∀ v ∈ items, v.IsReversible) (swapped : Bool)
    (items' : List Value) : sameAll swapped items items' = sameAll (!swapped) items' items := by
  induction items generalizing items' with
  | nil => cases items' <;> rfl
  | cons v rest ih =>
    cases items' with
    | nil => rfl
    | cons w rest' =>
      simp only [List.forall_mem_cons] at h
      rw [sameAll, sameAll, h.1, ih h.2]

theorem sameCalls_not {calls : List (ChangerCall Value)}
    (h : ∀ call ∈ calls, ∀ v ∈ call.params, v.IsReversible) (swapped : Bool)
    (calls' : List (ChangerCall Value)) :
    sameCalls swapped calls calls' = sameCalls (!swapped) calls' calls := by
  induction calls generalizing calls' with
  | nil => cases calls' <;> rfl
  | cons call rest ih =>
    cases calls' with
    | nil => rfl
    | cons call' rest' =>
      simp only [List.forall_mem_cons] at h
      rw [sameCalls, sameCalls, sameAll_not h.1, ih h.2, inOrder_not]

theorem isReversible_array {items : List Value} (h : ∀ v ∈ items, v.IsReversible) :
    (array items).IsReversible := by
  intro swapped b
  cases b with
  | array items' => exact sameAll_not h swapped items'
  | _ => rfl

theorem isReversible_changer {calls : List (ChangerCall Value)}
    (h : ∀ call ∈ calls, ∀ v ∈ call.params, v.IsReversible) : (changer calls).IsReversible := by
  intro swapped b
  cases b with
  | changer calls' => exact sameCalls_not h swapped calls'
  | _ => rfl

theorem isReversible_set {items : List Value} (h : ∀ v ∈ items, v.IsReversible) :
    (set ⟨items⟩).IsReversible := by
  intro swapped b
  cases b with
  | set t =>
    obtain ⟨items'⟩ := t
    rw [sameIn, sameIn, inOrder_not]
    congr 1
    rw [Bool.eq_iff_iff]
    cases swapped with
    | false =>
      simp only [Bool.not_false, if_true, Bool.false_eq_true, if_false, sameMembers_eq,
        sameMember_eq, List.all_eq_true, List.any_eq_true]
      refine forall₂_congr fun v hv => exists_congr fun w => and_congr_right fun _ => ?_
      rw [h v hv true w, Bool.not_true]
    | true =>
      simp only [Bool.not_true, if_true, Bool.false_eq_true, if_false, sameMembers_eq,
        sameMember_eq, List.all_eq_true, List.any_eq_true]
      refine forall₂_congr fun w _ => exists_congr fun v => and_congr_right fun hv => ?_
      rw [h v hv false w, Bool.not_false]
  | _ => rfl

theorem isReversible_map {entries : List (Key × Value)} {isSealed : Bool}
    (h : ∀ entry ∈ entries, entry.2.IsReversible) : (map ⟨entries, isSealed⟩).IsReversible := by
  intro swapped b
  cases b with
  | map n =>
    obtain ⟨entries', isSealed'⟩ := n
    rw [sameIn, sameIn, inOrder_not]
    congr 1
    rw [Bool.eq_iff_iff]
    cases swapped with
    | false =>
      simp only [Bool.not_false, if_true, Bool.false_eq_true, if_false, sameEntries_eq,
        sameUnder_eq, List.all_eq_true, Option.any_eq_true]
      refine forall₂_congr fun entry hentry => exists_congr fun w => and_congr_right fun _ => ?_
      rw [h entry hentry false w, Bool.not_false]
    | true =>
      simp only [Bool.not_true, if_true, Bool.false_eq_true, if_false, sameEntries_eq,
        sameUnder_eq, List.all_eq_true, Option.any_eq_true]
      refine forall₂_congr fun entry _ => exists_congr fun v => and_congr_right fun hv => ?_
      obtain ⟨found, hfind, rfl⟩ := Option.map_eq_some_iff.1 hv
      rw [h found (List.mem_of_find?_eq_some hfind) true entry.2, Bool.not_true]
  | _ => rfl

mutual

/-- Every value may be compared from either side. -/
theorem isReversible : (a : Value) → a.IsReversible
  | number _ | string _ | boolean _ | colour _ | lambda _ | hooks _ | ref _ | assignment _
  | error _ => fun swapped b => by cases b <;> first | rfl | exact inOrder_not swapped _ _ _
  | array items => isReversible_array (isReversible_items items)
  | map ⟨entries, _⟩ => isReversible_map (isReversible_entries entries)
  | set ⟨items⟩ => isReversible_set (isReversible_items items)
  | changer calls => isReversible_changer (isReversible_calls calls)

theorem isReversible_items : (items : List Value) → ∀ v ∈ items, v.IsReversible
  | [] => by simp
  | v :: rest => List.forall_mem_cons.2 ⟨isReversible v, isReversible_items rest⟩

theorem isReversible_entries : (entries : List (Key × Value)) →
    ∀ entry ∈ entries, entry.2.IsReversible
  | [] => by simp
  | (_, v) :: rest => List.forall_mem_cons.2 ⟨isReversible v, isReversible_entries rest⟩

theorem isReversible_calls : (calls : List (ChangerCall Value)) →
    ∀ call ∈ calls, ∀ v ∈ call.params, v.IsReversible
  | [] => by simp
  | ⟨_, params⟩ :: rest =>
    List.forall_mem_cons.2 ⟨isReversible_items params, isReversible_calls rest⟩

end

theorem sameIn_true (a b : Value) : sameIn true a b = b.same a :=
  isReversible a true b

/-! ## Equality of simple values -/

@[simp] theorem same_number (a b : Number) : (number a).same (number b) = (a == b) :=
  rfl

@[simp] theorem same_string (a b : String) : (string a).same (string b) = (a == b) :=
  rfl

@[simp] theorem same_boolean (a b : Bool) : (boolean a).same (boolean b) = (a == b) :=
  rfl

@[simp] theorem same_colour (a b : Colour) : (colour a).same (colour b) = (a == b) :=
  rfl

@[simp] theorem same_lambda (a b : Lambda) : (lambda a).same (lambda b) = a.same b :=
  rfl

@[simp] theorem same_hooks (a b : HookSet) : (hooks a).same (hooks b) = (a.name == b.name) :=
  rfl

@[simp] theorem same_error (a b : ScriptError) : (error a).same (error b) = (a == b) :=
  rfl

/-! ## Equality of collections -/

theorem sameAll_iff {items items' : List Value} :
    sameAll false items items' = true ↔ List.Forall₂ (fun a b => a.same b = true) items items' := by
  induction items generalizing items' with
  | nil => cases items' <;> simp [sameAll]
  | cons v rest ih => cases items' <;> simp [sameAll, ih, same]

/-- Arrays are equal if they have equal values in the same places. -/
theorem same_array_iff {items items' : List Value} : (array items).same (array items') = true ↔
    List.Forall₂ (fun a b => a.same b = true) items items' :=
  sameAll_iff

/-- Datamaps are equal if they have the same size and under each key of the first one the second
one has an equal value. -/
theorem same_map_iff {m n : DataMap Value} : (map m).same (map n) = true ↔
    m.size = n.size ∧ ∀ entry ∈ m.entries, ∃ v, n.get? entry.1 = some v ∧ entry.2.same v = true := by
  rw [same, sameIn, Bool.and_eq_true]
  simp [inOrder, sameEntries_eq, Option.any_eq_true, DataMap.size, same]

/-- Datasets are equal if they have the same size and the second one has a member that is equal to
each member of the first one. -/
theorem same_set_iff {s t : DataSet Value} : (set s).same (set t) = true ↔
    s.items.length = t.items.length ∧ ∀ v ∈ s.items, ∃ w ∈ t.items, w.same v = true := by
  rw [same, sameIn, Bool.and_eq_true]
  simp [inOrder, sameMembers_eq, sameIn_true]

/-- Whether two commands have the same name and equal arguments. -/
def SameCall (c c' : ChangerCall Value) : Prop :=
  c.name = c'.name ∧ List.Forall₂ (fun a b => a.same b = true) c.params c'.params

/-- Changers are equal if they have the same commands in the same order. -/
theorem same_changer_iff {calls calls' : List (ChangerCall Value)} :
    (changer calls).same (changer calls') = true ↔ List.Forall₂ SameCall calls calls' := by
  rw [same, sameIn]
  induction calls generalizing calls' with
  | nil => cases calls' <;> simp [sameCalls]
  | cons call rest ih => cases calls' <;> simp [sameCalls, ih, SameCall, sameAll_iff, inOrder]

end StoryScript.Value
