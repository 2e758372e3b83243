/-
  Datasets are sets.

  A dataset is a list of values of which no two are equal, and a value is in it if it is equal to
  one of them. Adding a value looks for an equal one first and keeps the older of the two. So the
  laws of sets rest on equality being symmetric and transitive among the values that come up, which
  are those whose collections are well-formed. They hold beside values such as NaN, which a dataset
  can hold any number of times and never contains.
-/
import Mathlib
import StoryScript.Proofs.Value.Sameness
import StoryScript.Value.Operation

namespace StoryScript

/-! ## Equal values -/

namespace Value

variable {u v w : Value}

theorem same_comm (hv : v.WellFormed) (hw : w.WellFormed) : v.same w = w.same v :=
  Bool.eq_iff_iff.2 (hv.coherent.symm hw)

/-- Equal values are equal to the same values. -/
theorem same_congr_right (hu : u.WellFormed) (hv : v.WellFormed) (hw : w.WellFormed)
    (h : v.same w = true) : u.same v = u.same w := by
  refine Bool.eq_iff_iff.2 ⟨fun huv => ?_, fun huw => ?_⟩
  · exact hu.coherent.first hv hw huv h
  · exact hu.coherent.first hw hv huw ((hv.coherent.symm hw).1 h)

end Value

namespace DataSet

variable {s t : DataSet Value} {v w : Value}

theorem contains_iff : s.contains v = true ↔ ∃ w ∈ s.items, w.same v = true :=
  List.any_eq_true

/-- A dataset that contains a value contains every value equal to it. -/
theorem contains_congr (hs : (Value.set s).WellFormed) (hv : v.WellFormed) (hw : w.WellFormed)
    (h : v.same w = true) : s.contains v = s.contains w := by
  refine Bool.eq_iff_iff.2 (contains_iff.trans (Iff.trans ?_ contains_iff.symm))
  refine exists_congr fun u => and_congr_right fun hu => ?_
  rw [Value.same_congr_right (hs.of_set.2 u hu) hv hw h]

/-! ## No two values are equal -/

theorem wellFormed_insert (hs : (Value.set s).WellFormed) (hv : v.WellFormed) :
    (Value.set (s.insert v)).WellFormed := by
  unfold insert
  split
  · exact hs
  · rename_i hnew
    obtain ⟨hdistinct, hmembers⟩ := hs.of_set
    refine .set (List.pairwise_append.2 ⟨hdistinct, List.pairwise_singleton _ _, ?_⟩) ?_
    · intro w hw u hu
      obtain rfl := List.mem_singleton.1 hu
      exact Bool.eq_false_iff.2 fun h => hnew (contains_iff.2 ⟨w, hw, h⟩)
    · exact List.forall_mem_append.2 ⟨hmembers, List.forall_mem_singleton.2 hv⟩

theorem wellFormed_foldl_insert {items : List Value} (hs : (Value.set s).WellFormed)
    (hitems : ∀ v ∈ items, v.WellFormed) : (Value.set (items.foldl insert s)).WellFormed := by
  induction items generalizing s with
  | nil => exact hs
  | cons v rest ih =>
    obtain ⟨hv, hrest⟩ := List.forall_mem_cons.1 hitems
    exact ih (wellFormed_insert hs hv) hrest

theorem wellFormed_empty : (Value.set {}).WellFormed :=
  .set .nil (by simp)

theorem wellFormed_ofList {items : List Value} (h : ∀ v ∈ items, v.WellFormed) :
    (Value.set (ofList items)).WellFormed :=
  wellFormed_foldl_insert wellFormed_empty h

/-- What is left of a dataset is one. -/
theorem wellFormed_filter (hs : (Value.set s).WellFormed) (p : Value → Bool) :
    (Value.set ⟨s.items.filter p⟩).WellFormed :=
  .set (hs.of_set.1.filter p) fun v hv => hs.of_set.2 v (List.mem_of_mem_filter hv)

theorem wellFormed_erase (hs : (Value.set s).WellFormed) (v : Value) :
    (Value.set (s.erase v)).WellFormed :=
  wellFormed_filter hs _

theorem wellFormed_union (hs : (Value.set s).WellFormed) (ht : (Value.set t).WellFormed) :
    (Value.set (s.union t)).WellFormed :=
  wellFormed_ofList (List.forall_mem_append.2 ⟨hs.of_set.2, ht.of_set.2⟩)

theorem wellFormed_diff (hs : (Value.set s).WellFormed) (t : DataSet Value) :
    (Value.set (s.diff t)).WellFormed :=
  wellFormed_ofList fun v hv => hs.of_set.2 v (List.mem_of_mem_filter hv)

/-! ## Which values are left, in which order -/

/-- A union has the values of the first dataset, and then those of the second that the first does
not contain. -/
theorem items_union (hs : (Value.set s).WellFormed) (ht : (Value.set t).WellFormed) :
    (s.union t).items = s.items ++ t.items.filter fun v => !s.contains v := by
  have hfirst : s.items.foldl insert {} = s := ofList_of_distinct hs.of_set.1
  rw [union, ofList, List.foldl_append, hfirst, foldl_insert_of_distinct ht.of_set.1]

/-- A difference has those values of the first dataset that the second does not contain. -/
theorem items_diff (hs : (Value.set s).WellFormed) (t : DataSet Value) :
    (s.diff t).items = s.items.filter fun v => !t.contains v := by
  rw [diff, ofList_of_distinct (hs.of_set.1.filter _)]

/-! ## What the results contain -/

/-- Whether a value is among those that a test lets through, if the test lets through all of several
equal values or none. -/
theorem contains_filter {p : Value → Bool} (hp : ∀ u ∈ s.items, u.same v = true → p u = p v) :
    contains ⟨s.items.filter p⟩ v = (s.contains v && p v) := by
  refine Bool.eq_iff_iff.2 ?_
  rw [Bool.and_eq_true, contains_iff, contains_iff]
  constructor
  · rintro ⟨u, hu, huv⟩
    obtain ⟨hmem, hpu⟩ := List.mem_filter.1 hu
    exact ⟨⟨u, hmem, huv⟩, hp u hmem huv ▸ hpu⟩
  · rintro ⟨⟨u, hu, huv⟩, hpv⟩
    exact ⟨u, List.mem_filter.2 ⟨hu, (hp u hu huv).trans hpv⟩, huv⟩

theorem contains_union (hs : (Value.set s).WellFormed) (ht : (Value.set t).WellFormed)
    (hv : v.WellFormed) : (s.union t).contains v = (s.contains v || t.contains v) := by
  have hkept : contains ⟨t.items.filter fun u => !s.contains u⟩ v =
      (t.contains v && !s.contains v) := by
    refine contains_filter fun u hu huv => ?_
    rw [contains_congr hs (ht.of_set.2 u hu) hv huv]
  calc (s.union t).contains v
      = (s.contains v || contains ⟨t.items.filter fun u => !s.contains u⟩ v) := by
        rw [contains, items_union hs ht, List.any_append]
        rfl
    _ = (s.contains v || t.contains v) := by
        rw [hkept]
        cases s.contains v <;> simp

theorem contains_diff (hs : (Value.set s).WellFormed) (ht : (Value.set t).WellFormed)
    (hv : v.WellFormed) : (s.diff t).contains v = (s.contains v && !t.contains v) := by
  rw [contains, items_diff hs t]
  refine contains_filter fun u hu huv => ?_
  rw [contains_congr ht (hs.of_set.2 u hu) hv huv]

theorem contains_erase (hs : (Value.set s).WellFormed) (hv : v.WellFormed) (hw : w.WellFormed) :
    (s.erase v).contains w = (s.contains w && !w.same v) := by
  refine contains_filter fun u hu huw => ?_
  have hformed := hs.of_set.2 u hu
  rw [Value.same_comm hformed hv, Value.same_congr_right hv hformed hw huw, Value.same_comm hv hw]

/-! ## Datasets that come about -/

/-- The datasets that come about by the operations on datasets, one after the other. -/
inductive Built : DataSet Value → Prop where
  | ofList {items : List Value} (members : ∀ v ∈ items, v.WellFormed) : Built (ofList items)
  | insert {s : DataSet Value} (built : Built s) {v : Value} (formed : v.WellFormed) :
      Built (s.insert v)
  | erase {s : DataSet Value} (built : Built s) (v : Value) : Built (s.erase v)
  | sum {s t u : DataSet Value} (left : Built s) (right : Built t)
      (result : BinaryOp.add.apply (.set s) (.set t) = .set u) : Built u
  | difference {s t u : DataSet Value} (left : Built s) (right : Built t)
      (result : BinaryOp.subtract.apply (.set s) (.set t) = .set u) : Built u

theorem add_set (s t : DataSet Value) :
    BinaryOp.add.apply (.set s) (.set t) = .set (s.union t) := rfl

theorem subtract_set (s t : DataSet Value) :
    BinaryOp.subtract.apply (.set s) (.set t) = .set (s.diff t) := rfl

theorem Built.wellFormed (h : Built s) : (Value.set s).WellFormed := by
  induction h with
  | ofList members => exact wellFormed_ofList members
  | insert _ formed ih => exact wellFormed_insert ih formed
  | erase _ v ih => exact wellFormed_erase ih v
  | sum _ _ result ihs iht =>
    rw [add_set] at result
    exact result ▸ wellFormed_union ihs iht
  | @difference s t u _ _ result ihs _ =>
    rw [subtract_set] at result
    exact result ▸ wellFormed_diff ihs t

/-- The datasets that come about are all those that are well-formed: each is the dataset of its own
values. -/
theorem built_iff : Built s ↔ (Value.set s).WellFormed := by
  refine ⟨Built.wellFormed, fun h => ?_⟩
  have hself : ofList s.items = s := ofList_of_distinct h.of_set.1
  exact hself ▸ Built.ofList h.of_set.2

end DataSet

/-- Datasets stay sets and obey the laws of sets. No two values of a dataset are equal, whatever
operations it comes about by. A sum contains what either dataset contains; it has the values of the
first, and then those of the second that are new, in their order. A difference contains what the
first dataset contains and the second does not, and it has the values of the first that are left, in
their order. Removing a value leaves everything that is not equal to it, in its order. -/
theorem dataSet_laws :
    (∀ s : DataSet Value, s.Built →
      s.items.Pairwise fun v w => v.same w = false ∧ w.same v = false) ∧
    ∀ s t : DataSet Value, s.Built → t.Built →
      (∃ u, BinaryOp.add.apply (.set s) (.set t) = .set u ∧
        u.items = s.items ++ (t.items.filter fun v => !s.contains v) ∧
        ∀ v, v.WellFormed → u.contains v = (s.contains v || t.contains v)) ∧
      (∃ u, BinaryOp.subtract.apply (.set s) (.set t) = .set u ∧
        u.items = (s.items.filter fun v => !t.contains v) ∧
        ∀ v, v.WellFormed → u.contains v = (s.contains v && !t.contains v)) ∧
      ∀ v, v.WellFormed → (s.erase v).items.Sublist s.items ∧
        ∀ w, w.WellFormed → (s.erase v).contains w = (s.contains w && !w.same v) := by
  refine ⟨fun s hs => ?_, fun s t hs ht => ?_⟩
  · obtain ⟨hdistinct, hmembers⟩ := (DataSet.built_iff.1 hs).of_set
    refine hdistinct.imp_of_mem fun {v w} hv hw hvw => ⟨hvw, ?_⟩
    rw [Value.same_comm (hmembers w hw) (hmembers v hv), hvw]
  · rw [DataSet.built_iff] at hs ht
    refine ⟨?_, ?_, fun v hv => ?_⟩
    · exact ⟨s.union t, s.add_set t, DataSet.items_union hs ht,
        fun v hv => DataSet.contains_union hs ht hv⟩
    · exact ⟨s.diff t, s.subtract_set t, DataSet.items_diff hs t,
        fun v hv => DataSet.contains_diff hs ht hv⟩
    · exact ⟨List.filter_sublist, fun w hw => DataSet.contains_erase hs hv hw⟩

namespace DataSet

/-- A dataset of two letters. -/
def letters (first second : String) : Value :=
  .set ⟨[.string first, .string second]⟩

/-- A dataset with NaN in it, twice. -/
def withNaN : DataSet Value :=
  ofList [letters "x" "y", .number (.ofFloat (0 / 0)), .number (.ofFloat (0 / 0))]

/-- A dataset with a value equal to the first one of `withNaN`. -/
def withWord : DataSet Value :=
  ofList [letters "y" "x", .string "z"]

theorem wellFormed_letters {first second : String} (h : first ≠ second) :
    (letters first second).WellFormed := by
  refine .set (List.pairwise_pair.2 ?_) (by simp [Value.WellFormed.string])
  simpa using h

end DataSet

open DataSet in
/-- The letters are in both datasets, though in another order: the sum contains them, and the
difference does not. NaN is in the first dataset twice, which does not contain it. -/
theorem dataSet_laws_letters :
    (withNaN.Built ∧ withWord.Built ∧ (letters "y" "x").WellFormed ∧
      (Value.number (.ofFloat (0 / 0))).WellFormed) ∧
    (∃ u, BinaryOp.add.apply (.set withNaN) (.set withWord) = .set u ∧
      u.contains (letters "y" "x") = true) ∧
    (∃ u, BinaryOp.subtract.apply (.set withNaN) (.set withWord) = .set u ∧
      u.contains (letters "y" "x") = false) ∧
    (withNaN.items.length = 3 ∧ withNaN.contains (.number (0 / 0)) = false) ∧
    (withNaN.erase (letters "y" "x")).contains (letters "x" "y") = false := by
  have hxy : (letters "x" "y").WellFormed := wellFormed_letters (by decide)
  have hyx : (letters "y" "x").WellFormed := wellFormed_letters (by decide)
  have hnan : (Value.number (.ofFloat (0 / 0))).WellFormed := .number _
  have hleft : withNaN.Built := .ofList (by simp [hxy, hnan])
  have hright : withWord.Built := .ofList (by simp [hyx, Value.WellFormed.string])
  obtain ⟨⟨u, hu, -, hsum⟩, ⟨w, hw, -, hdiff⟩, herase⟩ :=
    dataSet_laws.2 withNaN withWord hleft hright
  refine ⟨⟨hleft, hright, hyx, hnan⟩, ⟨u, hu, ?_⟩, ⟨w, hw, ?_⟩, ⟨?_, ?_⟩, ?_⟩
  · rw [hsum _ hyx]
    decide +kernel
  · rw [hdiff _ hyx]
    decide +kernel
  · decide +kernel
  · decide +kernel
  · rw [(herase _ hyx).2 _ hxy]
    decide +kernel

end StoryScript
