/-
  Plain data.

  Data is what a literal can denote: finite numbers, strings, booleans and colours, in
  any nesting of arrays, datamaps and datasets. Equality of values is reflexive on data,
  and it does not see the signs of zeros, wherever they stand.
-/
import Mathlib
import StoryScript.DataSet
import StoryScript.Proofs.Data.Entries
import StoryScript.Proofs.Value.Comparison

namespace StoryScript

/-- A key that can be written in a literal. -/
def Key.IsData : Key → Prop
  | string _ => True
  | number n => n.float.isFinite = true

/-- Plain data. The keys of a datamap differ, and so do the values of a dataset. -/
inductive Value.IsData : Value → Prop where
  | number {n : Number} (finite : n.float.isFinite = true) : IsData (.number n)
  | string (s : String) : IsData (.string s)
  | boolean (b : Bool) : IsData (.boolean b)
  | colour (c : Colour) : IsData (.colour c)
  | array {items : List Value} (data : ∀ v ∈ items, IsData v) : IsData (.array items)
  | map {entries : List (Key × Value)} {isSealed : Bool}
      (distinct : entries.Pairwise fun a b => (a.1 == b.1) = false)
      (keys : ∀ entry ∈ entries, entry.1.IsData) (data : ∀ entry ∈ entries, IsData entry.2) :
      IsData (.map ⟨entries, isSealed⟩)
  | set {items : List Value} (distinct : items.Pairwise fun a b => a.same b = false)
      (data : ∀ v ∈ items, IsData v) : IsData (.set ⟨items⟩)

/-! ## Equality on data -/

namespace Value

/-- Data is equal to itself. -/
theorem IsData.same_self {v : Value} (h : v.IsData) : v.same v = true := by
  induction h with
  | @number n finite => exact Decimal.beq_self_of_isFinite finite
  | string s => exact beq_self_eq_true s
  | boolean b => exact beq_self_eq_true b
  | colour c => exact beq_self_eq_true c
  | array _ ih => exact same_array_iff.2 (List.forall₂_same.2 ih)
  | @map entries isSealed distinct keys data ih =>
    have hslots : entries.Pairwise fun a b => a.1.alike b.1 = false :=
      distinct.imp fun hab => Bool.eq_false_iff.2 fun h => by simp [Key.beq_of_alike h] at hab
    exact same_map_iff.2 ⟨rfl, fun entry hentry =>
      ⟨entry.2, DataMap.get?_of_mem hslots hentry, ih entry hentry⟩⟩
  | @set items distinct data ih =>
    exact same_set_iff.2 ⟨rfl, fun v hv => ⟨v, hv, ih v hv⟩⟩

end Value

/-! ## Zeros without a sign -/

namespace Key

/-- The key with a zero's sign dropped. -/
def plain : Key → Key
  | string name => string name
  | number n => number n.plain

theorem beq_plain (a b : Key) : (a.plain == b.plain) = (a == b) := by
  cases a with
  | string name => cases b <;> rfl
  | number x =>
    cases b with
    | string name => rfl
    | number y =>
      show (x.plain == y.plain || (x.plain.float.isNaN && y.plain.float.isNaN)) = (x == y || _)
      rw [Number.beq_plain, Number.float_plain, Number.float_plain, Decimal.isNaN_plain,
        Decimal.isNaN_plain]

/-- A hash does not see the sign of a zero. -/
theorem hashed_plain (a : Key) : a.plain.hashed = a.hashed := by
  cases a with
  | string name => rfl
  | number n =>
    show Sum.inr (n.plain + 0).bits = Sum.inr (n + 0).bits
    rw [Number.plain]
    split
    · rename_i hzero
      rw [Number.add_zero_eq_of_beq hzero]
    · rfl

theorem meets_plain (size : Nat) (a b : Key) : a.plain.meets size b.plain = a.meets size b := by
  simp only [meets, alike, beq_plain, hashed_plain]

@[simp] theorem plain_plain (key : Key) : key.plain.plain = key.plain := by
  cases key <;> simp [plain]

end Key

namespace Value

mutual

/-- The value with the signs of its zeros dropped, and its datamaps unsealed. -/
def plain : Value → Value
  | number n => number n.plain
  | array items => array (plainAll items)
  | map ⟨entries, _⟩ => map ⟨plainEntries entries, false⟩
  | set ⟨items⟩ => set ⟨plainAll items⟩
  | v => v

/-- The same for values in a row. -/
def plainAll : List Value → List Value
  | [] => []
  | v :: rest => plain v :: plainAll rest

/-- The same for the keys and values of entries. -/
def plainEntries : List (Key × Value) → List (Key × Value)
  | [] => []
  | (key, v) :: rest => (key.plain, plain v) :: plainEntries rest

end

theorem plainAll_eq (items : List Value) : plainAll items = items.map plain := by
  induction items with
  | nil => rw [plainAll, List.map_nil]
  | cons v rest ih => rw [plainAll, ih, List.map_cons]

theorem plainEntries_eq (entries : List (Key × Value)) :
    plainEntries entries = entries.map fun entry => (entry.1.plain, entry.2.plain) := by
  induction entries with
  | nil => rw [plainEntries, List.map_nil]
  | cons entry rest ih => rw [plainEntries, ih, List.map_cons]

theorem get?_plainEntries (entries : List (Key × Value)) (isSealed isSealed' : Bool) (key : Key) :
    DataMap.get? ⟨plainEntries entries, isSealed⟩ key.plain =
      (DataMap.get? ⟨entries, isSealed'⟩ key).map plain := by
  simp only [DataMap.get?, DataMap.size, plainEntries_eq, List.find?_map, Option.map_map,
    List.length_map]
  refine congrArg _ (congrArg (List.find? · entries) (funext fun entry => ?_))
  exact Key.meets_plain _ entry.1 key

/-- A value in which equality does not see the signs of zeros. -/
def IsBlind (a : Value) : Prop :=
  ∀ b : Value, (a.plain.same b.plain = true ↔ a.same b = true) ∧
    (b.plain.same a.plain = true ↔ b.same a = true)

theorem forall₂_plain {items items' : List Value}
    (h : ∀ v ∈ items, ∀ w ∈ items', (v.plain.same w.plain = true ↔ v.same w = true)) :
    List.Forall₂ (fun a b => a.same b = true) (plainAll items) (plainAll items') ↔
      List.Forall₂ (fun a b => a.same b = true) items items' := by
  rw [plainAll_eq, plainAll_eq, List.forall₂_map_left_iff, List.forall₂_map_right_iff]
  induction items generalizing items' with
  | nil => cases items' <;> simp
  | cons v rest ih =>
    cases items' with
    | nil => simp
    | cons w rest' =>
      simp only [List.forall_mem_cons] at h
      rw [List.forall₂_cons, List.forall₂_cons, h.1.1, ih fun v hv => (h.2 v hv).2]

theorem isBlind_array {items : List Value} (h : ∀ v ∈ items, v.IsBlind) :
    (array items).IsBlind := by
  intro b
  cases b with
  | array items' =>
    simp only [plain, same_array_iff]
    exact ⟨forall₂_plain fun v hv w _ => (h v hv w).1, forall₂_plain fun w _ v hv => (h v hv w).2⟩
  | _ => exact ⟨Iff.rfl, Iff.rfl⟩

theorem isBlind_set {items : List Value} (h : ∀ v ∈ items, v.IsBlind) :
    (set ⟨items⟩).IsBlind := by
  intro b
  cases b with
  | set t =>
    obtain ⟨items'⟩ := t
    simp only [plain, same_set_iff, plainAll_eq, List.length_map, List.mem_map,
      exists_exists_and_eq_and, forall_exists_index, and_imp, forall_apply_eq_imp_iff₂]
    constructor
    · refine and_congr_right fun _ => forall₂_congr fun v hv => exists_congr fun w => ?_
      rw [(h v hv w).2]
    · refine and_congr_right fun _ => forall₂_congr fun w _ => exists_congr fun v => ?_
      exact and_congr_right fun hv => by rw [(h v hv w).1]
  | _ => exact ⟨Iff.rfl, Iff.rfl⟩

theorem isBlind_map {entries : List (Key × Value)} {isSealed : Bool}
    (h : ∀ entry ∈ entries, entry.2.IsBlind) : (map ⟨entries, isSealed⟩).IsBlind := by
  intro b
  cases b with
  | map n =>
    obtain ⟨entries', isSealed'⟩ := n
    have hget := get?_plainEntries entries' false isSealed'
    have hget' := get?_plainEntries entries false isSealed
    simp only [plain, same_map_iff, DataMap.size]
    constructor
    · simp only [plainEntries_eq, List.length_map, List.forall_mem_map] at hget ⊢
      simp only [hget, Option.map_eq_some_iff, exists_exists_and_eq_and]
      refine and_congr_right fun _ => forall₂_congr fun entry hentry => exists_congr fun w => ?_
      rw [(h entry hentry w).1]
    · simp only [plainEntries_eq, List.length_map, List.forall_mem_map] at hget' ⊢
      simp only [hget', Option.map_eq_some_iff, exists_exists_and_eq_and]
      refine and_congr_right fun _ => forall₂_congr fun entry _ => exists_congr fun v => ?_
      refine and_congr_right fun hv => ?_
      obtain ⟨found, hfind, rfl⟩ := Option.map_eq_some_iff.1 hv
      rw [(h found (List.mem_of_find?_eq_some hfind) entry.2).2]
  | _ => exact ⟨Iff.rfl, Iff.rfl⟩

mutual

theorem isBlind : (a : Value) → a.IsBlind
  | number x => fun b => by
    cases b with
    | number y =>
      exact ⟨Bool.eq_iff_iff.1 (x.beq_plain y), Bool.eq_iff_iff.1 (y.beq_plain x)⟩
    | _ => exact ⟨Iff.rfl, Iff.rfl⟩
  | string _ | boolean _ | colour _ | changer _ | lambda _ | hooks _ | ref _ | assignment _
  | error _ => fun b => by cases b <;> exact ⟨Iff.rfl, Iff.rfl⟩
  | array items => isBlind_array (isBlind_items items)
  | map ⟨entries, _⟩ => isBlind_map (isBlind_entries entries)
  | set ⟨items⟩ => isBlind_set (isBlind_items items)

theorem isBlind_items : (items : List Value) → ∀ v ∈ items, v.IsBlind
  | [] => by simp
  | v :: rest => List.forall_mem_cons.2 ⟨isBlind v, isBlind_items rest⟩

theorem isBlind_entries : (entries : List (Key × Value)) → ∀ entry ∈ entries, entry.2.IsBlind
  | [] => by simp
  | (_, v) :: rest => List.forall_mem_cons.2 ⟨isBlind v, isBlind_entries rest⟩

end

/-- Equality does not see the signs of zeros. -/
theorem same_plain (a b : Value) : a.plain.same b.plain = a.same b :=
  Bool.eq_iff_iff.2 (isBlind a b).1

mutual

theorem plain_plain : (v : Value) → v.plain.plain = v.plain
  | number n => by rw [plain, plain, Number.plain_plain]
  | array items => by rw [plain, plain, plainAll_plainAll items]
  | map ⟨entries, _⟩ => by rw [plain, plain, plainEntries_plainEntries entries]
  | set ⟨items⟩ => by rw [plain, plain, plainAll_plainAll items]
  | string _ | boolean _ | colour _ | changer _ | lambda _ | hooks _ | ref _ | assignment _
  | error _ => rfl

theorem plainAll_plainAll : (items : List Value) → plainAll (plainAll items) = plainAll items
  | [] => rfl
  | v :: rest => by rw [plainAll, plainAll, plain_plain v, plainAll_plainAll rest]

theorem plainEntries_plainEntries : (entries : List (Key × Value)) →
    plainEntries (plainEntries entries) = plainEntries entries
  | [] => rfl
  | (key, v) :: rest => by
    rw [plainEntries, plainEntries, Key.plain_plain, plain_plain v, plainEntries_plainEntries rest]

end

/-- Data is equal to what is left of it without the signs of zeros. -/
theorem IsData.same_plain_self {v : Value} (h : v.IsData) : v.plain.same v = true := by
  rw [← same_plain, plain_plain, same_plain]
  exact h.same_self

end Value

end StoryScript
