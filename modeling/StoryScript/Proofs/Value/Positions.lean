/-
  Positions in sequences.

  A position is written as a number, as an ordinal, or as an ordinal from the end. All of
  them come down to an index: the key is first turned into a number that counts from 0 or
  from the end, and that number is then placed in the sequence (`index?`). `Leads` and
  `Strays` say where a key ends up, and reading and deleting follow from them alone.
-/
import Mathlib
import StoryScript.Eval
import StoryScript.Proofs.Decimal.Whole
import StoryScript.Proofs.Literal.FirstMatch

namespace StoryScript

open Decimal

/-! ## Placing a number in a sequence -/

section

variable {n : Number} {x : Float} {length : ℕ}

theorem index?_of_whole {j : ℤ} (h : whole? n.float = some j) :
    index? n length = if 0 ≤ j then some j.toNat
      else if 0 ≤ length + j then some (length + j).toNat else none := by
  simp only [index?, h]
  by_cases hneg : j < 0
  · simp only [if_pos hneg, if_neg (show ¬ 0 ≤ j by omega)]
  · simp only [if_neg hneg, if_pos (show 0 ≤ j by omega)]

theorem index?_of_value {i : ℕ} (h : value? n.float = some (i : ℚ)) : index? n length = some i := by
  have hwhole : whole? n.float = some (i : ℤ) := whole?_eq_some_iff.2 (by exact_mod_cast h)
  rw [index?_of_whole hwhole, if_pos (by omega), Int.toNat_natCast]

theorem index?_of_value_neg {k : ℕ} (hpos : 0 < k) (h : value? n.float = some (-(k : ℚ))) :
    index? n length = if k ≤ length then some (length - k) else none := by
  have hwhole : whole? n.float = some (-k : ℤ) := whole?_eq_some_iff.2 (by exact_mod_cast h)
  rw [index?_of_whole hwhole, if_neg (by omega)]
  by_cases hk : k ≤ length
  · rw [if_pos hk, if_pos (by omega)]
    congr 1
    omega
  · rw [if_neg hk, if_neg (by omega)]

theorem le_of_index? (h : IsLarge n.float) {i : ℕ} (hi : index? n length = some i) :
    2 ^ 53 ≤ i := by
  cases hwhole : whole? n.float with
  | none => simp [index?, hwhole] at hi
  | some j =>
    have hle : 2 ^ 53 ≤ j := by exact_mod_cast h.le (whole?_eq_some_iff.1 hwhole)
    rw [index?_of_whole hwhole, if_pos (by omega), Option.some.injEq] at hi
    omega

/-- A number that lies before every sequence has no place in one that can be counted. -/
theorem index?_neg_of_isLarge (h : IsLarge x) (hlength : length < 2 ^ 53) :
    index? (.ofFloat (-x)) length = none := by
  cases hwhole : whole? (Number.ofFloat (-x)).float with
  | none => simp only [index?, hwhole]
  | some j =>
    have hvalue := whole?_eq_some_iff.1 hwhole
    rw [Number.float_ofFloat, value?_neg, Option.map_eq_some_iff] at hvalue
    obtain ⟨q, hq, hneg⟩ := hvalue
    have hle : (2 : ℚ) ^ 53 ≤ (-j : ℤ) := by
      push_cast
      linarith [h.le hq]
    have hle' : 2 ^ 53 ≤ -j := by exact_mod_cast hle
    rw [index?_of_whole hwhole, if_neg (by omega), if_neg (by omega)]

/-- The number is `k`, as far as numbers can tell. -/
def Counts (x : Float) (k : ℕ) : Prop :=
  value? x = some (k : ℚ) ∨ 2 ^ 53 < k ∧ IsLarge x

theorem counts_ofDecimal (k : ℕ) : Counts (ofDecimal k 0) k := by
  rcases le_or_gt k (2 ^ 53) with hk | hk
  · exact .inl (value?_ofDecimal hk)
  · exact .inr ⟨hk, isLarge_ofDecimal hk.le⟩

theorem Counts.index?_neg {k : ℕ} (h : Counts x k) (hpos : 0 < k) (hlength : length < 2 ^ 53) :
    index? (.ofFloat (-x)) length = if k ≤ length then some (length - k) else none := by
  rcases h with hvalue | ⟨hk, hlarge⟩
  · exact index?_of_value_neg hpos (by rw [Number.float_ofFloat, value?_neg, hvalue]; rfl)
  · rw [index?_neg_of_isLarge hlarge hlength, if_neg (by omega)]

theorem Counts.pos_iff {k : ℕ} (h : Counts x k) : 0 < x ↔ 0 < k := by
  rcases h with hvalue | ⟨hk, hlarge⟩
  · rw [zero_lt_iff hvalue, Nat.cast_pos]
  · exact ⟨fun _ => by omega, fun _ => hlarge.pos⟩

end

namespace Value

/-! ## Keys and where they lead -/

/-- Arrays and strings. -/
inductive IsSequence : Value → Prop where
  | array (items : List Value) : IsSequence (array items)
  | string (s : String) : IsSequence (string s)

/-- The key is looked up at this index. -/
def Leads (v : Value) (key : Key) (i : ℕ) : Prop :=
  ∃ n, v.lookupKey key = .ok (.number n) ∧ index? n v.elements.length = some i

/-- The key is refused for its range, or it is looked up where there is nothing. -/
def Strays (v : Value) (key : Key) : Prop :=
  (∃ e, v.lookupKey key = .error e ∧ e.kind = .range) ∨
    ∃ n, v.lookupKey key = .ok (.number n) ∧
      ∀ i, index? n v.elements.length = some i → v.elements.length ≤ i

variable {v : Value} {key : Key} {i k : ℕ}

theorem lookup_of_some (hv : v.IsSequence) {n : Number} {w : Value}
    (h : (index? n v.elements.length).bind (v.elements[·]?) = some w) :
    v.lookup (.number n) = .ok w := by
  cases hv with
  | array items =>
    simp only [elements] at h
    simp [lookup, h]
  | string s =>
    simp only [elements, List.length_map, List.getElem?_map] at h
    obtain ⟨i, hi, hitem⟩ := Option.bind_eq_some_iff.1 h
    obtain ⟨c, hc, rfl⟩ := Option.map_eq_some_iff.1 hitem
    simp [lookup, hi, hc]

theorem lookup_of_none (hv : v.IsSequence) {n : Number}
    (h : (index? n v.elements.length).bind (v.elements[·]?) = none) :
    ∃ e, v.lookup (.number n) = .error e ∧ e.kind = .range := by
  cases hv with
  | array items =>
    simp only [elements] at h
    exact ⟨ScriptError.nothingInArray items.length n, by simp only [lookup, h], rfl⟩
  | string s =>
    have hnone : (index? n s.toList.length).bind (s.toList[·]?) = none := by
      simpa [elements, Option.bind_eq_none_iff] using h
    exact ⟨ScriptError.nothingInString s.toList.length n, by simp only [lookup, hnone], rfl⟩

theorem get_of_leads (hv : v.IsSequence) (h : v.Leads key i) (hi : i < v.elements.length) :
    v.elements[i]? = some (v.get key) := by
  obtain ⟨n, hkey, hindex⟩ := h
  have hlookup := lookup_of_some hv (show (index? n v.elements.length).bind (v.elements[·]?) = _ by
    rw [hindex, Option.bind_some, List.getElem?_eq_getElem hi])
  rw [List.getElem?_eq_getElem hi, get, hkey]
  exact congrArg some (congrArg ofExcept hlookup).symm

theorem get_of_strays (hv : v.IsSequence) (h : v.Strays key) :
    ∃ e, v.get key = .error e ∧ e.kind = .range := by
  rcases h with ⟨e, hkey, he⟩ | ⟨n, hkey, hindex⟩
  · exact ⟨e, by rw [get, hkey]; rfl, he⟩
  · obtain ⟨e, hlookup, he⟩ := lookup_of_none hv (show
        (index? n v.elements.length).bind (v.elements[·]?) = none by
      rw [Option.bind_eq_none_iff]
      exact fun i hi => List.getElem?_eq_none (hindex i hi))
    refine ⟨e, ?_, he⟩
    rw [get, hkey]
    exact congrArg ofExcept hlookup

theorem delete_of_leads {items : List Value} (h : (array items).Leads key i)
    (hi : i < items.length) :
    ∃ compiled, (array items).lookupKey key = .ok compiled ∧
      (array items).delete compiled = .ok (array (items.take i ++ items.drop (i + 1))) := by
  obtain ⟨n, hkey, hindex⟩ := h
  refine ⟨_, hkey, ?_⟩
  simp only [elements] at hindex
  simp [delete, hindex, hi, List.eraseIdx_eq_take_drop_succ]

/-- The key stands for the `k`-th element by some count, which is the one at index `i`: it is read
and deleted there, and outside of the sequence there is nothing to read. -/
structure Denotes (v : Value) (key : Key) (k i : ℕ) : Prop where
  read : 0 < k → k ≤ v.elements.length → v.elements[i]? = some (v.get key)
  outside : k = 0 ∨ v.elements.length < k → ∃ e, v.get key = .error e ∧ e.kind = .range
  deleted : ∀ items, v = array items → 0 < k → k ≤ items.length →
    ∃ compiled, v.lookupKey key = .ok compiled ∧
      v.delete compiled = .ok (array (items.take i ++ items.drop (i + 1)))

theorem denotes_of_leads (hv : v.IsSequence)
    (hleads : 0 < k → k ≤ v.elements.length → i < v.elements.length ∧ v.Leads key i)
    (hstrays : k = 0 ∨ v.elements.length < k → v.Strays key) : v.Denotes key k i where
  read hpos hk := get_of_leads hv (hleads hpos hk).2 (hleads hpos hk).1
  outside hk := get_of_strays hv (hstrays hk)
  deleted := by
    rintro items rfl hpos hk
    exact delete_of_leads (hleads hpos hk).2 (hleads hpos hk).1

/-! ## Numbers as positions -/

theorem lookupKey_number (hv : v.IsSequence) (x : Number) :
    v.lookupKey (.number x) = v.indexOfPosition x := by
  cases hv <;> rfl

section

variable {x : Number}

theorem indexOfPosition_zero (h : value? x.float = some 0) :
    v.indexOfPosition x = .error (ScriptError.positionZero v) := by
  have hwhole : whole? x.float = some 0 := whole?_eq_some_iff.2 (by exact_mod_cast h)
  rw [indexOfPosition, hwhole, Number.beq_eq, Number.float_zero, beq_zero_iff.2 h]
  rfl

theorem indexOfPosition_pos (h : value? x.float = some (k : ℚ)) (hpos : 0 < k) :
    v.indexOfPosition x = .ok (.number (x - 1)) := by
  have hwhole : whole? x.float = some (k : ℤ) := whole?_eq_some_iff.2 (by exact_mod_cast h)
  have hne : (x.float == 0) = false := by
    rw [Bool.eq_false_iff, ne_eq, beq_zero_iff, h, Option.some.injEq]
    exact_mod_cast hpos.ne'
  have hlt : 0 < x.float := (zero_lt_iff h).2 (by exact_mod_cast hpos)
  rw [indexOfPosition, hwhole, Number.beq_eq, Number.float_zero, hne, if_pos hlt]
  rfl

theorem indexOfPosition_neg (h : value? x.float = some (-(k : ℚ))) (hpos : 0 < k) :
    v.indexOfPosition x = .ok (.number x) := by
  have hpos' : (0 : ℚ) < k := by exact_mod_cast hpos
  have hwhole : whole? x.float = some (-k : ℤ) := whole?_eq_some_iff.2 (by exact_mod_cast h)
  have hne : (x.float == 0) = false := by
    rw [Bool.eq_false_iff, ne_eq, beq_zero_iff, h, Option.some.injEq, neg_eq_zero]
    exact hpos'.ne'
  have hlt : ¬ 0 < x.float := by
    rw [zero_lt_iff h]
    linarith
  rw [indexOfPosition, hwhole, Number.beq_eq, Number.float_zero, hne, if_neg hlt]
  rfl

/-- The index that stands before a position. -/
theorem index?_sub_one {length : ℕ} (h : value? x.float = some (k : ℚ)) (hpos : 0 < k)
    (hk : k ≤ 2 ^ 53) : index? (x - 1) length = some (k - 1) := by
  refine index?_of_value ?_
  rw [Number.float_sub, Number.float_one]
  exact value?_sub_one h hpos hk

/-- A position beyond the end strays, whether or not its predecessor is exact. -/
theorem strays_of_value (hlength : v.elements.length < 2 ^ 53)
    (hkey : v.lookupKey key = v.indexOfPosition x) (h : value? x.float = some (k : ℚ))
    (hk : v.elements.length < k) : v.Strays key := by
  have hpos : 0 < k := by omega
  refine .inr ⟨x - 1, hkey.trans (indexOfPosition_pos h hpos), fun i hi => ?_⟩
  rcases le_or_gt k (2 ^ 53) with hsmall | hlarge
  · rw [index?_sub_one h hpos hsmall, Option.some.injEq] at hi
    omega
  · have hlarge' : IsLarge (x - 1).float := by
      rw [Number.float_sub, Number.float_one]
      exact isLarge_sub_one h hlarge
    have := le_of_index? hlarge' hi
    omega

theorem strays_of_isLarge (hlength : v.elements.length < 2 ^ 53)
    (hkey : v.lookupKey key = v.indexOfPosition x) (h : IsLarge x.float) : v.Strays key := by
  cases hwhole : whole? x.float with
  | none =>
    refine .inl ⟨ScriptError.notWhole x, hkey.trans ?_, rfl⟩
    rw [indexOfPosition, hwhole]
    rfl
  | some j =>
    have hvalue := whole?_eq_some_iff.1 hwhole
    have hle : 2 ^ 53 ≤ j := by exact_mod_cast h.le hvalue
    obtain ⟨k, rfl⟩ := Int.eq_ofNat_of_zero_le (show 0 ≤ j by omega)
    exact strays_of_value hlength hkey (by exact_mod_cast hvalue) (by omega)

end

/-! ## Counting from the start and from the end -/

section

variable {x : Number} (hv : v.IsSequence)
include hv

/-- A key that stands for a position from the start. -/
theorem denotes_fromStart (hlength : v.elements.length < 2 ^ 53)
    (hkey : v.lookupKey key = v.indexOfPosition x) (hx : Counts x.float k) :
    v.Denotes key k (k - 1) := by
  refine denotes_of_leads hv (fun hpos hk => ⟨by omega, ?_⟩) ?_
  · have hvalue := hx.resolve_right (by omega)
    exact ⟨x - 1, hkey.trans (indexOfPosition_pos hvalue hpos),
      index?_sub_one hvalue hpos (by omega)⟩
  · rintro (rfl | hk)
    · have hvalue := hx.resolve_right (by omega)
      exact .inl ⟨_, hkey.trans (indexOfPosition_zero (by exact_mod_cast hvalue)), rfl⟩
    · rcases hx with hvalue | ⟨-, hlarge⟩
      · exact strays_of_value hlength hkey hvalue hk
      · exact strays_of_isLarge hlength hkey hlarge

/-- A key that stands for a position from the end. -/
theorem denotes_fromEnd (hzero : k = 0 → v.lookupKey key = .error (ScriptError.positionZero v))
    (hkey : 0 < k → v.lookupKey key = .ok (.number x))
    (hindex : 0 < k → index? x v.elements.length =
      if k ≤ v.elements.length then some (v.elements.length - k) else none) :
    v.Denotes key k (v.elements.length - k) := by
  refine denotes_of_leads hv (fun hpos hk => ⟨by omega, x, hkey hpos, ?_⟩) ?_
  · rw [hindex hpos, if_pos hk]
  · rintro (hk | hk)
    · exact .inl ⟨_, hzero hk, rfl⟩
    · refine .inr ⟨x, hkey (by omega), fun i hi => ?_⟩
      rw [hindex (by omega), if_neg (by omega)] at hi
      exact absurd hi (Option.some_ne_none _).symm

end

/-! ## Ordinals -/

section

variable {digits ending : List Char}

theorem withoutEnding?_append (stem : List Char) {tail tail' : List Char}
    (h : tail.length = tail'.length) :
    withoutEnding? tail (stem ++ tail') = if tail = tail' then some stem else none := by
  have hsuffix : tail.isSuffixOf (stem ++ tail') = true ↔ tail = tail' := by
    rw [List.isSuffixOf_iff_suffix, List.suffix_iff_eq_drop]
    simp [h]
  by_cases heq : tail = tail'
  · rw [withoutEnding?, if_pos (hsuffix.2 heq), if_pos heq]
    simp [h]
  · rw [withoutEnding?, if_neg (mt hsuffix.1 heq), if_neg heq]

theorem ordinal?_append (hne : digits ≠ []) (hdigits : digits.all Char.isDigit = true)
    (hending : ending ∈ ordinalEndings) :
    ordinal? (digits ++ ending) = some (ofDecimal (digitsValue digits) 0) := by
  have hfind : ordinalEndings.findSome? (withoutEnding? · (digits ++ ending)) = some digits := by
    simp only [ordinalEndings, List.mem_cons, List.not_mem_nil, or_false] at hending
    rcases hending with rfl | rfl | rfl | rfl <;>
      simp [ordinalEndings, withoutEnding?_append]
  have hguard : (digits.isEmpty || !digits.all Char.isDigit) = false := by
    rw [hdigits, Bool.not_true, Bool.or_false, List.isEmpty_eq_false_iff]
    exact hne
  rw [ordinal?, hfind]
  simp only [hguard]
  rfl

/-- An ordinal does not end with `last`: there are digits before its ending. -/
theorem withoutEnding?_last (hdigits : digits.all Char.isDigit = true)
    (hending : ending ∈ ordinalEndings) :
    withoutEnding? "last".toList (digits ++ ending) = none := by
  have hlength : ending.length = 2 := by
    simp only [ordinalEndings, List.mem_cons, List.not_mem_nil, or_false] at hending
    rcases hending with rfl | rfl | rfl | rfl <;> rfl
  rw [withoutEnding?, if_neg]
  rw [List.isSuffixOf_iff_suffix]
  rintro ⟨front, hfront⟩
  have hsplit : (front ++ ['l', 'a']) ++ ['s', 't'] = digits ++ ending := by
    rw [← hfront]
    simp
  obtain ⟨hfront', -⟩ := List.append_inj' hsplit hlength.symm
  have hmem : 'a' ∈ digits := by
    rw [← hfront']
    simp
  exact absurd (List.all_eq_true.1 hdigits 'a' hmem) (by decide)

theorem dropEndWhile_ending (hending : ending ∈ ordinalEndings) {dashes : List Char}
    (hdashes : dashes.all (· == '-') = true) :
    Text.dropEndWhile (· == '-') (digits ++ ending ++ dashes) = digits ++ ending := by
  have hdrop : (dashes.reverse ++ (digits ++ ending).reverse).dropWhile (· == '-') =
      (digits ++ ending).reverse := by
    rw [List.dropWhile_append_of_pos (by simpa using hdashes)]
    simp only [ordinalEndings, List.mem_cons, List.not_mem_nil, or_false] at hending
    rcases hending with rfl | rfl | rfl | rfl <;> simp
  rw [Text.dropEndWhile, List.reverse_append, hdrop, List.reverse_reverse]

theorem map_toLower_digits (hdigits : digits.all Char.isDigit = true) :
    digits.map Char.toLower = digits := by
  have hlower : ∀ c ∈ digits, c.toLower = id c := by
    intro c hc
    have hdigit : c.isDigit = true := List.all_eq_true.1 hdigits c hc
    exact beq_iff_eq.1 (@Rule.of_isDigit (fun c => c.toLower == c) rfl _ hdigit)
  rw [List.map_congr_left hlower, List.map_id]

/-- A name that starts with a digit is neither reserved nor a word of its own. -/
theorem lookupKey_of_digits (hv : v.IsSequence) {name : String} (tail : List Char) {n : Float}
    (fromEnd? : Option (List Char)) (hne : digits ≠ []) (hdigits : digits.all Char.isDigit = true)
    (hname : name.toList = digits ++ tail) (htail : tail.map Char.toLower = tail)
    (hfromEnd : (withoutEnding? "last".toList (digits ++ tail)).map (Text.dropEndWhile (· == '-')) =
      fromEnd?) (hordinal : ordinal? (fromEnd?.getD (digits ++ tail)) = some n) :
    v.lookupKey (.string name) =
      if 0 < n && fromEnd?.isSome then .ok (.number (.ofFloat (-n)))
      else v.indexOfPosition (.ofFloat n) := by
  have hlower : Text.lower name = name := by
    rw [Text.lower, hname, List.map_append, map_toLower_digits hdigits, htail, ← hname,
      String.ofList_toList]
  obtain ⟨d, ds, rfl⟩ := List.exists_cons_of_ne_nil hne
  have hd : d.isDigit = true := List.all_eq_true.1 hdigits d (List.mem_cons_self ..)
  have hword : ∀ word : String, word.toList.head?.any Char.isDigit = false → name ≠ word := by
    rintro word hword rfl
    rw [hname] at hword
    simp [hd] at hword
  have hreserved : "__".toList.isPrefixOf name.toList = false := by
    have hne : '_' ≠ d := by
      rintro rfl
      exact absurd hd (by decide)
    rw [hname]
    simp [List.isPrefixOf, hne]
  have hindex : v.indexOfName name =
      if 0 < n && fromEnd?.isSome then .ok (.number (.ofFloat (-n)))
      else v.indexOfPosition (.ofFloat n) := by
    simp only [indexOfName, hlower]
    rw [if_neg (hword _ (by decide)), if_neg (hword _ (by decide)), hname, hfromEnd, hordinal]
  rw [← hindex]
  cases hv <;>
    simp only [lookupKey, Key.name?, Option.any_some, hreserved, Bool.false_eq_true, if_false]

end

/-! ## Spellings -/

/-- The keys for the `k`-th element. -/
inductive FromStart (k : ℕ) : Key → Prop where
  | number {x : Number} (h : whole? x.float = some (k : ℤ)) : FromStart k (.number x)
  | ordinal {ending : String} (h : ending ∈ ["st", "nd", "rd", "th"]) :
      FromStart k (.string (toString k ++ ending))

/-- The keys for the `k`-th element from the end. -/
inductive FromEnd (k : ℕ) : Key → Prop where
  | number {x : Number} (h : whole? x.float = some (-(k : ℤ))) : FromEnd k (.number x)
  | ordinal {ending : String} (h : ending ∈ ["st", "nd", "rd", "th"]) :
      FromEnd k (.string (toString k ++ ending ++ "last"))
  | dashed {ending : String} (h : ending ∈ ["st", "nd", "rd", "th"]) :
      FromEnd k (.string (toString k ++ ending ++ "-last"))
  | last (h : k = 1) : FromEnd k (.string "last")

section

variable (hv : v.IsSequence) {ending : String} (h : ending ∈ ["st", "nd", "rd", "th"])
include h

theorem toList_mem_ordinalEndings : ending.toList ∈ ordinalEndings := by
  simp only [List.mem_cons, List.not_mem_nil, or_false] at h
  rcases h with rfl | rfl | rfl | rfl <;> decide

theorem map_toLower_ending : ending.toList.map Char.toLower = ending.toList := by
  simp only [List.mem_cons, List.not_mem_nil, or_false] at h
  rcases h with rfl | rfl | rfl | rfl <;> decide

omit h in
theorem toList_toString (k : ℕ) : (toString k).toList = Nat.toDigits 10 k :=
  String.toList_ofList

theorem ordinal?_toDigits (k : ℕ) :
    ordinal? (Nat.toDigits 10 k ++ ending.toList) = some (ofDecimal k 0) := by
  have hvalue : digitsValue (Nat.toDigits 10 k) = k := Nat.ofDigitChars_ten_toDigits
  rw [ordinal?_append Nat.toDigits_ne_nil (all_isDigit_toDigits k) (toList_mem_ordinalEndings h),
    hvalue]

include hv

theorem lookupKey_ordinal (k : ℕ) :
    v.lookupKey (.string (toString k ++ ending)) =
      v.indexOfPosition (.ofFloat (ofDecimal k 0)) := by
  have hnone := withoutEnding?_last (all_isDigit_toDigits k) (toList_mem_ordinalEndings h)
  have htext : (toString k ++ ending).toList = Nat.toDigits 10 k ++ ending.toList := by
    rw [String.toList_append, toList_toString]
  rw [lookupKey_of_digits hv ending.toList none Nat.toDigits_ne_nil (all_isDigit_toDigits k) htext
    (map_toLower_ending h) (by rw [hnone]; rfl) (ordinal?_toDigits h k)]
  simp

/-- Between the ordinal and `last` there may be dashes. -/
theorem lookupKey_ordinal_last (k : ℕ) (dashes : String)
    (hdashes : dashes.toList.all (· == '-') = true) :
    v.lookupKey (.string (toString k ++ ending ++ (dashes ++ "last"))) =
      if 0 < ofDecimal k 0 then .ok (.number (.ofFloat (-ofDecimal k 0)))
      else v.indexOfPosition (.ofFloat (ofDecimal k 0)) := by
  set tail := ending.toList ++ dashes.toList ++ "last".toList with htail
  have htext : (toString k ++ ending ++ (dashes ++ "last")).toList = Nat.toDigits 10 k ++ tail := by
    simp only [String.toList_append, toList_toString, htail, List.append_assoc]
  have hdash : ∀ c ∈ dashes.toList, c.toLower = id c := by
    intro c hc
    obtain rfl : c = '-' := beq_iff_eq.1 (List.all_eq_true.1 hdashes c hc)
    rfl
  have hlower : tail.map Char.toLower = tail := by
    rw [htail, List.map_append, List.map_append, map_toLower_ending h, List.map_congr_left hdash,
      List.map_id]
    rfl
  have hfromEnd : (withoutEnding? "last".toList (Nat.toDigits 10 k ++ tail)).map
      (Text.dropEndWhile (· == '-')) = some (Nat.toDigits 10 k ++ ending.toList) := by
    rw [htail, ← List.append_assoc, ← List.append_assoc, withoutEnding?_append _ rfl, if_pos rfl,
      Option.map_some, dropEndWhile_ending (toList_mem_ordinalEndings h) hdashes]
  rw [lookupKey_of_digits hv tail _ Nat.toDigits_ne_nil (all_isDigit_toDigits k) htext hlower
    hfromEnd (ordinal?_toDigits h k)]
  simp

theorem denotes_ordinal_last (hlength : v.elements.length < 2 ^ 53) (k : ℕ) (dashes : String)
    (hdashes : dashes.toList.all (· == '-') = true) :
    v.Denotes (.string (toString k ++ ending ++ (dashes ++ "last"))) k (v.elements.length - k) := by
  have hcounts := counts_ofDecimal k
  have hkey := lookupKey_ordinal_last hv h k dashes hdashes
  refine denotes_fromEnd hv (fun hzero => ?_) (fun hpos => ?_) (hcounts.index?_neg · hlength)
  · rw [hkey, if_neg (by rw [hcounts.pos_iff]; omega)]
    exact indexOfPosition_zero (by rw [hzero]; rfl)
  · rw [hkey, if_pos (hcounts.pos_iff.2 hpos)]

end

theorem lookupKey_last (hv : v.IsSequence) :
    v.lookupKey (.string "last") = .ok (.number (.ofFloat (-1))) := by
  cases hv <;> rfl

theorem value?_neg_one : value? (Number.ofFloat (-1)).float = some (-((1 : ℕ) : ℚ)) := by
  rw [Number.float_ofFloat]
  exact_mod_cast whole?_eq_some_iff.1 (rfl : whole? (-1) = some (-1))

theorem FromStart.denotes (h : FromStart k key) (hv : v.IsSequence)
    (hlength : v.elements.length < 2 ^ 53) : v.Denotes key k (k - 1) := by
  cases h with
  | @number x hx =>
    have hvalue : value? x.float = some (k : ℚ) := by exact_mod_cast whole?_eq_some_iff.1 hx
    exact denotes_fromStart hv hlength (lookupKey_number hv x) (.inl hvalue)
  | ordinal hending =>
    exact denotes_fromStart hv hlength (lookupKey_ordinal hv hending k) (counts_ofDecimal k)

theorem FromEnd.denotes (h : FromEnd k key) (hv : v.IsSequence)
    (hlength : v.elements.length < 2 ^ 53) : v.Denotes key k (v.elements.length - k) := by
  cases h with
  | @number x hx =>
    have hvalue : value? x.float = some (-(k : ℚ)) := by exact_mod_cast whole?_eq_some_iff.1 hx
    refine denotes_fromEnd hv (fun hzero => ?_) (fun hpos => ?_)
      (fun hpos => index?_of_value_neg hpos hvalue)
    · rw [lookupKey_number hv]
      exact indexOfPosition_zero (by rw [hvalue, hzero]; simp)
    · rw [lookupKey_number hv, indexOfPosition_neg hvalue hpos]
  | ordinal hending => exact denotes_ordinal_last hv hending hlength k "" rfl
  | dashed hending => exact denotes_ordinal_last hv hending hlength k "-" rfl
  | last hk =>
    subst hk
    exact denotes_fromEnd hv (fun h => absurd h one_ne_zero) (fun _ => lookupKey_last hv)
      (fun hpos => index?_of_value_neg hpos value?_neg_one)

/-- From `2 ^ 53` elements on, an ordinal beyond the end may be rounded to one that is not. -/
theorem get_ordinal_rounded {items : List Value} (hitems : items.length = 2 ^ 53) :
    items[2 ^ 53 - 1]? = some ((array items).get (.string (toString (2 ^ 53 + 1) ++ "st"))) := by
  have hwhole : whole? (ofDecimal (2 ^ 53 + 1) 0) = some (2 ^ 53 : ℕ) := by decide +kernel
  have hvalue : value? (ofDecimal (2 ^ 53 + 1) 0) = some ((2 ^ 53 : ℕ) : ℚ) := by
    exact_mod_cast whole?_eq_some_iff.1 hwhole
  have hv : (array items).IsSequence := .array items
  have hkey : (array items).lookupKey (.string (toString (2 ^ 53 + 1) ++ "st")) = _ :=
    lookupKey_ordinal hv (by simp) (2 ^ 53 + 1)
  refine get_of_leads hv ⟨_, hkey.trans (indexOfPosition_pos hvalue (by norm_num)),
    index?_sub_one hvalue (by norm_num) le_rfl⟩ ?_
  simp only [elements, hitems]
  norm_num

end Value

open Value

/-- In a sequence that numbers can count, every way to write a position leads to the element it
says: the number and the ordinals count from the start, and the negative number, the ordinals with
`last` and `last` itself from the end. Position 0 and those beyond the other end are range errors.
The bound on the length is the best one: with one element more, an ordinal that no number is equal
to is taken for the last position. -/
theorem positions_of_sequence :
    (∀ v : Value, v.IsSequence → v.elements.length < 2 ^ 53 → ∀ k : ℕ,
      (∀ key, FromStart k key → v.Denotes key k (k - 1)) ∧
      (∀ key, FromEnd k key → v.Denotes key k (v.elements.length - k)) ∧
      v.get (.string "last") = v.get (.number (.ofFloat (-1)))) ∧
    ∀ items : List Value, items.length = 2 ^ 53 →
      items[2 ^ 53 - 1]? = some ((array items).get (.string (toString (2 ^ 53 + 1) ++ "st"))) := by
  refine ⟨fun v hv hlength k => ⟨?_, ?_, ?_⟩, fun items hitems => get_ordinal_rounded hitems⟩
  · exact fun key hkey => hkey.denotes hv hlength
  · exact fun key hkey => hkey.denotes hv hlength
  · rw [Value.get, Value.get, lookupKey_last hv, lookupKey_number hv,
      indexOfPosition_neg value?_neg_one one_pos]

theorem positions_of_sequence_colours :
    (∃ v : Value, v = array [string "red", string "green", string "blue"] ∧ v.IsSequence ∧
      v.elements.length < 2 ^ 53 ∧ FromStart 1 (.number 1) ∧ v.Denotes (.number 1) 1 0 ∧
      FromStart 2 (.string "2nd") ∧ v.Denotes (.string "2nd") 2 1 ∧
      FromEnd 3 (.string "3rd-last") ∧ v.Denotes (.string "3rd-last") 3 0) ∧
    ∃ items : List Value, items.length = 2 ^ 53 ∧
      items[2 ^ 53 - 1]? = some ((array items).get (.string (toString (2 ^ 53 + 1) ++ "st"))) := by
  have hfirst : FromStart 1 (.number 1) := .number rfl
  have hsecond : FromStart 2 (.string "2nd") := @FromStart.ordinal 2 "nd" (by simp)
  have hlast : FromEnd 3 (.string "3rd-last") := @FromEnd.dashed 3 "rd" (by simp)
  refine ⟨⟨_, rfl, .array _, by decide, hfirst, ?_, hsecond, ?_, hlast, ?_⟩,
    List.replicate (2 ^ 53) (boolean true), List.length_replicate, ?_⟩
  · exact (positions_of_sequence.1 _ (.array _) (by decide) 1).1 _ hfirst
  · exact (positions_of_sequence.1 _ (.array _) (by decide) 2).1 _ hsecond
  · exact (positions_of_sequence.1 _ (.array _) (by decide) 3).2.1 _ hlast
  · exact positions_of_sequence.2 _ List.length_replicate

end StoryScript
