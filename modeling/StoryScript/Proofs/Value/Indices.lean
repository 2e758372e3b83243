/-
  Keys to look up, taken for keys as written.

  In an array or a string a key as written is a position, and the key to look up is an
  index. Compiling an index once more takes it for a position: one from the start moves to
  its predecessor or is refused, and one from the end stays what it is. Elsewhere a key to
  look up is the key as written. `Value.Restates` says which keys stay what they are when
  they are compiled once more.
-/
import Mathlib
import StoryScript.Proofs.Decimal.Equality
import StoryScript.Proofs.Literal.Data
import StoryScript.Proofs.Value.Positions

namespace StoryScript.Decimal

open Float.Model
open UnpackedFloat (Sign)

/-! ## Numbers -/

theorem lt_zero_iff_neg {x : Float} : x < 0 ↔ 0 < -x := by
  have hlt : x < 0 ↔ x.toModel.unpack.lt (.zero .positive) = true := decide_eq_true_iff
  have hsign : -Sign.negative = Sign.positive := rfl
  rw [hlt, zero_lt_iff_unpack, unpack_neg]
  rcases x.toModel.unpack with s | _ | s | ⟨s, m, e, hm⟩
  · cases s <;> simp [UnpackedFloat.lt, UnpackedFloat.compare, UnpackedFloat.neg, hsign]
  · simp [UnpackedFloat.lt, UnpackedFloat.compare, UnpackedFloat.neg]
  · simp [UnpackedFloat.lt, UnpackedFloat.compare, UnpackedFloat.neg]
  · cases s <;> simp [UnpackedFloat.lt, UnpackedFloat.compare, UnpackedFloat.neg, hm, hsign]

theorem lt_zero_iff {x : Float} {q : ℚ} (h : value? x = some q) : x < 0 ↔ q < 0 := by
  have hneg : value? (-x) = some (-q) := by rw [value?_neg, h, Option.map_some]
  rw [lt_zero_iff_neg, zero_lt_iff hneg, neg_pos]

/-- From `2 ^ 53` on, the finite numbers are whole. -/
theorem IsLarge.exists_whole {x : Float} (h : IsLarge x) (hx : x.isFinite = true) :
    ∃ k : ℕ, value? x = some (k : ℚ) := by
  have hvalue := value?_of_isFinite hx
  have hlarge := h.le hvalue
  set m := (magnitude x).mantissa with hm
  set e := (magnitude x).exponent with he
  have hbound : (m : ℚ) < 2 ^ 53 := by
    rcases unpack_of_isFinite hx with ⟨hzero, -⟩ | ⟨hcanonical, -⟩
    · rw [hm, hzero]
      norm_num
    · exact_mod_cast hcanonical.bound
  have hsigned : (signed x m : ℚ) ≤ m := by
    rw [cast_signed]
    cases signOf x <;> simp
  -- a unit below one would leave the number below its mantissa
  have hunit : 0 ≤ e := by
    by_contra hneg
    have hle : (2 : ℚ) ^ e ≤ 1 := zpow_le_one_of_nonpos₀ (by norm_num) (by omega)
    have hpos := two_zpow_pos e
    nlinarith
  obtain ⟨n, hn⟩ := Int.eq_ofNat_of_zero_le hunit
  have hcast : (signed x m : ℚ) * 2 ^ e = ((signed x m * 2 ^ n : ℤ) : ℚ) := by
    rw [hn]
    push_cast
    rw [zpow_natCast]
  rw [hcast] at hvalue hlarge
  have hnonneg : 0 ≤ signed x m * 2 ^ n := by
    have hcast : (0 : ℚ) ≤ ((signed x m * 2 ^ n : ℤ) : ℚ) := le_trans (by norm_num) hlarge
    exact_mod_cast hcast
  obtain ⟨k, hk⟩ := Int.eq_ofNat_of_zero_le hnonneg
  exact ⟨k, by rw [hvalue, hk, Int.cast_natCast]⟩

/-- Zero is not its own predecessor. -/
theorem ne_zero_of_sub_one {x : Float} (h : (x - 1 == x) = true) : (x == 0) = false := by
  rw [Bool.eq_false_iff]
  intro hzero
  obtain ⟨s, hu⟩ := unpack_of_beq_zero hzero
  have hx : x = 0 ∨ x = -0 := by
    cases s
    · exact .inr (eq_of_unpack_eq (by rw [hu]; simp) (by rw [hu]; rfl))
    · exact .inl (eq_of_unpack_eq (by rw [hu]; simp) (by rw [hu]; rfl))
  rcases hx with rfl | rfl
  · exact absurd h (by decide)
  · exact absurd h (by decide)

theorem eq_of_sub_one {x : Float} (h : (x - 1 == x) = true) : x - 1 = x := by
  have hzero := ne_zero_of_sub_one h
  have hplain := (beq_iff_plain.1 h).2
  rw [plain_of_ne_zero hzero] at hplain
  rcases plain_cases (x - 1) with ⟨s, -, hpred⟩ | hpred
  · rw [hpred] at hplain
    rw [← hplain] at hzero
    exact absurd hzero (by decide)
  · exact hpred.symm.trans hplain

/-- A number that stands for an index: it is whole, or it has grown beyond all numbers. -/
def IsIndex (x : Float) : Prop :=
  (∃ i : ℤ, value? x = some (i : ℚ)) ∨ x.isInf = true

theorem IsLarge.isIndex {x : Float} (h : IsLarge x) : IsIndex x := by
  cases hx : x.isFinite with
  | true =>
    obtain ⟨k, hk⟩ := h.exists_whole hx
    exact .inl ⟨k, by rw [hk, Int.cast_natCast]⟩
  | false =>
    rcases h with hu | ⟨q, hq, -⟩
    · have hinf : x.isInf = x.toModel.unpack.isInf := rfl
      exact .inr (by rw [hinf, hu]; rfl)
    · rw [value?_of_not_isFinite hx] at hq
      cases hq

theorem IsIndex.neg {x : Float} (h : IsIndex x) : IsIndex (-x) := by
  rcases h with ⟨i, hi⟩ | hinf
  · exact .inl ⟨-i, by rw [value?_neg, hi, Option.map_some, Int.cast_neg]⟩
  · have hx : x.toModel.unpack.isInf = true := hinf
    have hneg : (-x).isInf = (-x).toModel.unpack.isInf := rfl
    right
    rw [hneg, unpack_neg]
    rcases hu : x.toModel.unpack with s | _ | s | ⟨s, m, e, hm⟩ <;> rw [hu] at hx
    · rfl
    · exact absurd hx Bool.false_ne_true
    · exact absurd hx Bool.false_ne_true
    · exact absurd hx Bool.false_ne_true

end StoryScript.Decimal

namespace StoryScript

open Decimal

theorem Counts.isIndex {x : Float} {k : ℕ} (h : Counts x k) : IsIndex x := by
  rcases h with hvalue | ⟨-, hlarge⟩
  · exact .inl ⟨k, by rw [hvalue, Int.cast_natCast]⟩
  · exact hlarge.isIndex

theorem isIndex_of_ordinal? {cs : List Char} {n : Float} (h : ordinal? cs = some n) :
    IsIndex n := by
  rw [ordinal?] at h
  split at h
  · split at h
    · cases h
    · rw [← Option.some.inj h]
      exact (counts_ofDecimal _).isIndex
  · cases h

/-! ## Keys of sequences and of other values -/

namespace Value

variable {v : Value}

theorem indexOfPosition_eq_ok_iff {x : Number} {key : Key} :
    v.indexOfPosition x = .ok key ↔
      ∃ i : ℤ, value? x.float = some (i : ℚ) ∧ i ≠ 0 ∧
        key = .number (if 0 < x.float then x - 1 else x) := by
  rw [indexOfPosition, Number.beq_eq, Number.float_zero]
  cases hwhole : whole? x.float with
  | none =>
    simp only [Option.isNone_none, if_true, reduceCtorEq, false_iff]
    rintro ⟨i, hvalue, -⟩
    rw [whole?_eq_some_iff.2 hvalue] at hwhole
    cases hwhole
  | some i =>
    have hvalue := whole?_eq_some_iff.1 hwhole
    have hzero : (x.float == 0) = true ↔ i = 0 := by
      rw [beq_zero_iff, hvalue, Option.some.injEq, Int.cast_eq_zero]
    simp only [Option.isNone_some, Bool.false_eq_true, if_false, hzero, hvalue, Option.some.injEq,
      Int.cast_inj, exists_eq_left']
    by_cases hi : i = 0
    · simp [hi]
    · simp [hi, eq_comm]

theorem isIndex_of_indexOfPosition {x : Number} {key : Key} (h : v.indexOfPosition x = .ok key) :
    ∃ n, key = .number n ∧ IsIndex n.float := by
  obtain ⟨i, hvalue, hne, rfl⟩ := indexOfPosition_eq_ok_iff.1 h
  refine ⟨_, rfl, ?_⟩
  split_ifs with hpos
  · have hlt : 0 < i := by exact_mod_cast (zero_lt_iff hvalue).1 hpos
    obtain ⟨k, rfl⟩ := Int.eq_ofNat_of_zero_le hlt.le
    rw [Int.cast_natCast] at hvalue
    rw [Number.float_sub, Number.float_one]
    rcases le_or_gt k (2 ^ 53) with hk | hk
    · have hpred := value?_sub_one hvalue (by omega) hk
      exact .inl ⟨(k - 1 : ℕ), by rw [hpred, Int.cast_natCast]⟩
    · exact (isLarge_sub_one hvalue hk).isIndex
  · exact .inl ⟨i, hvalue⟩

theorem isIndex_of_indexOfName {name : String} {key : Key} (h : v.indexOfName name = .ok key) :
    key = .string "length" ∨ ∃ n, key = .number n ∧ IsIndex n.float := by
  simp only [indexOfName] at h
  split_ifs at h with hlength hlast
  · rw [← Except.ok.inj h, hlength]
    exact .inl rfl
  · refine .inr ⟨_, (Except.ok.inj h).symm, .inl ⟨-1, ?_⟩⟩
    rw [value?_neg_one]
    norm_num
  · split at h
    · rename_i n hn
      split_ifs at h
      · exact .inr ⟨_, (Except.ok.inj h).symm, (isIndex_of_ordinal? hn).neg⟩
      · exact .inr (isIndex_of_indexOfPosition h)
    · cases h

/-- The keys to look up in a sequence are `length` and indices. -/
theorem lookupKey_of_isSequence (hv : v.IsSequence) {key key' : Key}
    (h : v.lookupKey key = .ok key') :
    key' = .string "length" ∨ ∃ n, key' = .number n ∧ IsIndex n.float := by
  cases key with
  | number x => exact .inr (isIndex_of_indexOfPosition ((lookupKey_number hv x).symm.trans h))
  | string name =>
    have hname : v.indexOfName name = .ok key' := by
      cases hv <;> (rw [lookupKey] at h; split_ifs at h; exact h)
    exact isIndex_of_indexOfName hname

/-- Outside of sequences the key to look up is the key as written. -/
theorem lookupKey_of_not_isSequence (hv : ¬ v.IsSequence) {key key' : Key}
    (h : v.lookupKey key = .ok key') :
    key' = key ∧ v.lookupKey key.plain = .ok key.plain := by
  have hmap : ∀ n, key = .number n → ∃ m, v = .map m := by
    rintro n rfl
    cases v with
    | map m => exact ⟨m, rfl⟩
    | array items => exact absurd (.array items) hv
    | string s => exact absurd (.string s) hv
    | _ => cases h
  have hsame : key' = key := by
    unfold lookupKey at h
    split_ifs at h
    split at h
    · cases h
    · exact absurd (.array _) hv
    · exact absurd (.string _) hv
    · exact absurd (.array _) hv
    · exact absurd (.string _) hv
    · exact (Except.ok.inj h).symm
    · exact (Except.ok.inj h).symm
    · cases h
    · split_ifs at h
      exact (Except.ok.inj h).symm
    · cases h
    · cases h
  subst hsame
  refine ⟨rfl, ?_⟩
  cases key' with
  | string name => exact h
  | number n =>
    obtain ⟨m, rfl⟩ := hmap n rfl
    rfl

/-! ## Compiling a key once more -/

/-- A key to look up stays what it is when it is compiled once more. In a sequence that holds of a
position from the end, and of one so far out that its predecessor rounds to it. -/
def Restates (v : Value) (key : Key) : Prop :=
  v.IsSequence → ∀ n, key = .number n →
    n.float.isFinite = true ∧ (n.float < 0 ∨ (n.float - 1 == n.float) = true)

/-- An index from the end, or one that its predecessor rounds to, is the index of itself taken for a
position. -/
theorem indexOfPosition_self {n : Number} {i : ℤ} (hvalue : value? n.float = some (i : ℚ))
    (hn : n.float < 0 ∨ (n.float - 1 == n.float) = true) :
    v.indexOfPosition n.plain = .ok (.number n.plain) := by
  have hzero : (n.float == 0) = true ↔ i = 0 := by
    rw [beq_zero_iff, hvalue, Option.some.injEq, Int.cast_eq_zero]
  have hself : i ≠ 0 ∧ (if 0 < n.float then n - 1 else n) = n := by
    rcases hn with hn | hn
    · have hneg : i < 0 := by exact_mod_cast (lt_zero_iff hvalue).1 hn
      refine ⟨hneg.ne, if_neg fun hpos => ?_⟩
      have hpos' : 0 < i := by exact_mod_cast (zero_lt_iff hvalue).1 hpos
      omega
    · have hpred : n - 1 = n := by
        refine Number.eq_of_float_eq ?_ ?_ <;> rw [Number.float_sub, Number.float_one]
        · exact (beq_iff_plain.1 hn).1
        · exact eq_of_sub_one hn
      refine ⟨fun hi => ?_, by rw [hpred, ite_self]⟩
      rw [ne_zero_of_sub_one hn] at hzero
      exact Bool.false_ne_true (hzero.2 hi)
  have hplain : n.plain = n := by
    rw [Number.plain, Number.beq_eq, Number.float_zero, if_neg (mt hzero.1 hself.1)]
  rw [hplain, indexOfPosition_eq_ok_iff]
  exact ⟨i, hvalue, hself.1, by rw [hself.2]⟩

/-- Compiling a key that restates itself gives it back, apart from the sign of a zero. -/
theorem lookupKey_plain {key key' : Key} (hkey : key.IsData) (h : v.lookupKey key = .ok key')
    (hrestates : v.Restates key') : key'.IsData ∧ v.lookupKey key'.plain = .ok key'.plain := by
  by_cases hv : v.IsSequence
  · rcases lookupKey_of_isSequence hv h with rfl | ⟨n, rfl, hindex⟩
    · exact ⟨trivial, by cases hv <;> rfl⟩
    · obtain ⟨hfinite, hn⟩ := hrestates hv n rfl
      obtain ⟨i, hvalue⟩ := hindex.resolve_right (by simp [isInf_of_isFinite hfinite])
      exact ⟨hfinite, (lookupKey_number hv _).trans (indexOfPosition_self hvalue hn)⟩
  · obtain ⟨rfl, hplain⟩ := lookupKey_of_not_isSequence hv h
    exact ⟨hkey, hplain⟩

/-- A key that compiles to an equal one restates itself. -/
theorem restates_of_lookupKey {key key' : Key} (hkey : key.IsData)
    (h : v.lookupKey key.plain = .ok key') (hsame : (key' == key) = true) : v.Restates key := by
  rintro hv n rfl
  refine ⟨hkey, ?_⟩
  rw [Key.plain, lookupKey_number hv, indexOfPosition_eq_ok_iff] at h
  obtain ⟨i, hvalue, hne, rfl⟩ := h
  -- zero is no position, so the index has no sign to lose
  have hplain : n.plain = n := by
    rw [Number.plain, if_neg]
    intro hzero
    have hn : n.plain = 0 := by rw [Number.plain, if_pos hzero]
    rw [hn, Number.float_zero, beq_zero_iff.1 rfl, Option.some.injEq] at hvalue
    exact hne (by exact_mod_cast hvalue.symm)
  rw [hplain] at hvalue hsame
  have hfinite : n.float.isFinite = true := hkey
  by_cases hpos : 0 < n.float
  · rw [if_pos hpos] at hsame
    have hsame : ((n - 1 == n) || ((n - 1).float.isNaN && n.float.isNaN)) = true := hsame
    rw [isNaN_of_isFinite hfinite, Bool.and_false, Bool.or_false, Number.beq_eq, Number.float_sub,
      Number.float_one] at hsame
    exact .inr hsame
  · left
    rw [lt_zero_iff hvalue]
    rw [zero_lt_iff hvalue] at hpos
    have hpos : ¬ 0 < i := by exact_mod_cast hpos
    have hneg : i < 0 := by omega
    exact_mod_cast hneg

end Value

/-! ## Zeros without a sign -/

theorem Decimal.value?_plain (x : Float) : value? (Decimal.plain x) = value? x := by
  rcases plain_cases x with ⟨s, hu, hplain⟩ | hplain
  · rw [hplain, beq_zero_iff.1 rfl, value?, hu]
    rfl
  · rw [hplain]

theorem Decimal.whole?_plain (x : Float) : whole? (Decimal.plain x) = whole? x := by
  ext i
  rw [whole?_eq_some_iff, whole?_eq_some_iff, value?_plain]

theorem DataMap.get?_plain (m : DataMap Value) (key : Key) : m.get? key.plain = m.get? key := by
  have hmeets (name : Key) : name.meets m.size key.plain = name.meets m.size key := by
    rw [← Key.meets_plain, Key.plain_plain, Key.meets_plain]
  simp only [get?, hmeets]

theorem Value.lookup_plain {v w : Value} {key : Key} (h : v.lookup key = .ok w) :
    v.lookup key.plain = .ok w := by
  cases key with
  | string name => exact h
  | number n =>
    have hsequence (hv : v.IsSequence) : v.lookup (.number n.plain) = .ok w := by
      cases hitem : (index? n v.elements.length).bind (v.elements[·]?) with
      | none =>
        obtain ⟨e, he, -⟩ := lookup_of_none hv hitem
        rw [he] at h
        cases h
      | some w' =>
        rw [lookup_of_some hv hitem] at h
        rw [← Except.ok.inj h]
        refine lookup_of_some hv ?_
        rw [← hitem, index?, index?, Number.float_plain, whole?_plain]
    cases v with
    | array items => exact hsequence (.array items)
    | string s => exact hsequence (.string s)
    | map m =>
      rw [lookup] at h
      split at h
      · rename_i w' hget
        rw [lookup, DataMap.get?_plain, hget]
        exact h
      · cases h
    | _ => cases h

theorem Value.foldlM_lookup_plain {v w : Value} {keys : List Key}
    (h : keys.foldlM lookup v = .ok w) : (keys.map Key.plain).foldlM lookup v = .ok w := by
  induction keys generalizing v with
  | nil => exact h
  | cons key keys ih =>
    rw [List.foldlM_cons] at h
    cases hlookup : v.lookup key with
    | error e =>
      rw [hlookup] at h
      cases h
    | ok v' =>
      rw [hlookup] at h
      rw [List.map_cons, List.foldlM_cons, lookup_plain hlookup]
      exact ih h

end StoryScript
