/-
  Whole numbers among numbers.

  A finite number stands for a rational, and whether it is whole, where it lies and what
  its negation is are read off that rational. Up to `2 ^ 53` every whole number is kept
  exactly, and so is its predecessor. What rounds a larger one is never below `2 ^ 53`, so
  counting with numbers may lose count from there on but never falls back.
-/
import Mathlib
import StoryScript.Proofs.Decimal.Scientific

namespace StoryScript.Decimal

open Float.Model Float.Model.UnpackedFloat

/-! ## The rational that a number stands for -/

/-- The rational that the parts of a number stand for. -/
def partsValue? : UnpackedFloat → Option ℚ
  | .zero _ => some 0
  | .finite .positive m e _ => some (m * 2 ^ e)
  | .finite .negative m e _ => some (-(m * 2 ^ e))
  | .infinity _ | .notANumber => none

/-- The rational that a number stands for. -/
def value? (x : Float) : Option ℚ :=
  partsValue? x.toModel.unpack

theorem cast_signed (x : Float) (m : ℕ) :
    (signed x m : ℚ) = match signOf x with | .positive => (m : ℚ) | .negative => -(m : ℚ) := by
  rw [signed, signOf]
  cases isNegative x <;> simp

theorem value?_of_isFinite {x : Float} (h : x.isFinite = true) :
    value? x = some ((signed x (magnitude x).mantissa : ℤ) * (2 : ℚ) ^ (magnitude x).exponent) := by
  rw [value?, cast_signed]
  rcases unpack_of_isFinite h with ⟨hzero, hu⟩ | ⟨hm, hu⟩
  · rw [hu, hzero]
    cases signOf x <;> simp [partsValue?]
  · rw [hu]
    cases signOf x <;> simp [partsValue?]

theorem value?_of_not_isFinite {x : Float} (h : x.isFinite = false) : value? x = none := by
  have hfinite : x.toModel.unpack.isFinite = false := h
  rw [value?]
  rcases hu : x.toModel.unpack with s | _ | s | ⟨s, m, e, hm⟩ <;> rw [hu] at hfinite
  · rfl
  · rfl
  · exact absurd hfinite Bool.false_ne_true.symm
  · exact absurd hfinite Bool.false_ne_true.symm

theorem signed_mul (x : Float) (m n : ℕ) : signed x (m * n) = signed x m * n := by
  rw [signed, signed]
  split_ifs <;> push_cast <;> ring

theorem natAbs_signed (x : Float) (m : ℕ) : (signed x m).natAbs = m := by
  rw [signed]
  split_ifs <;> simp

/-- A number is whole if it stands for an integer, and that integer is what it equals. -/
theorem whole?_eq_some_iff {x : Float} {i : ℤ} : whole? x = some i ↔ value? x = some (i : ℚ) := by
  by_cases hfinite : x.isFinite = true
  · rw [value?_of_isFinite hfinite, whole?, hfinite, Bool.not_true, if_neg Bool.false_ne_true]
    rcases magnitude x with ⟨m, e⟩
    simp only [Option.some.injEq]
    by_cases he : 0 ≤ e
    · obtain ⟨k, rfl⟩ := Int.eq_ofNat_of_zero_le he
      have hpow : Nat.pow 2 (k : ℤ).toNat = 2 ^ k := rfl
      rw [if_pos he, hpow, signed_mul, zpow_natCast, Option.some.injEq]
      norm_cast
    · obtain ⟨k, hk⟩ := Int.eq_ofNat_of_zero_le (show 0 ≤ -e by omega)
      obtain rfl : e = -k := by omega
      have hunit : Nat.pow 2 (- -(k : ℤ)).toNat = 2 ^ k := by rw [neg_neg]; rfl
      have hvalue : (signed x m : ℚ) * 2 ^ (-(k : ℤ)) = i ↔ signed x m = i * 2 ^ k := by
        rw [zpow_neg, zpow_natCast, ← div_eq_mul_inv, div_eq_iff (by positivity)]
        norm_cast
      rw [if_neg he, hunit, hvalue]
      by_cases hmod : m % 2 ^ k = 0
      · obtain ⟨q, rfl⟩ := Nat.dvd_of_mod_eq_zero hmod
        rw [if_pos hmod, Nat.mul_div_cancel_left _ (by positivity), Nat.mul_comm, signed_mul,
          Option.some.injEq]
        push_cast
        exact (mul_left_inj' (by positivity)).symm
      · -- a mantissa that the unit does not divide is that of a fraction
        rw [if_neg hmod]
        refine ⟨fun h => (Option.some_ne_none _ h.symm).elim, fun h => absurd ?_ hmod⟩
        have habs := congrArg Int.natAbs h
        rw [natAbs_signed, Int.natAbs_mul, Int.natAbs_pow] at habs
        rw [habs]
        exact Nat.mul_mod_left _ _
  · have hfinite' : x.isFinite = false := Bool.eq_false_iff.2 hfinite
    rw [value?_of_not_isFinite hfinite', whole?, hfinite', Bool.not_false, if_pos rfl]
    simp

/-! ## Zero, order and sign -/

theorem partsValue?_eq_zero_iff {u : UnpackedFloat} :
    partsValue? u = some 0 ↔ ∃ s, u = .zero s := by
  rcases u with s | _ | s | ⟨s, m, e, hm⟩
  · simp [partsValue?]
  · simp [partsValue?]
  · simp [partsValue?]
  · have hne : (m : ℚ) * 2 ^ e ≠ 0 :=
      mul_ne_zero (by exact_mod_cast hm.ne') (two_zpow_pos e).ne'
    cases s <;>
      simp only [partsValue?, Option.some.injEq, neg_eq_zero, hne, reduceCtorEq, exists_false]

theorem beq_zero_iff {x : Float} : (x == 0) = true ↔ value? x = some 0 := by
  rw [value?, partsValue?_eq_zero_iff]
  refine ⟨unpack_of_beq_zero, ?_⟩
  rintro ⟨s, hu⟩
  rw [beq_eq, hu, unpack_zero]
  rfl

theorem zero_lt_iff_unpack {x : Float} :
    0 < x ↔ x.toModel.unpack = .infinity .positive ∨
      ∃ m e h, x.toModel.unpack = .finite .positive m e h := by
  have hlt : 0 < x ↔ (UnpackedFloat.zero .positive).lt x.toModel.unpack = true :=
    decide_eq_true_iff
  rw [hlt]
  rcases x.toModel.unpack with s | _ | s | ⟨s, m, e, hm⟩
  · cases s <;> simp [UnpackedFloat.lt, UnpackedFloat.compare]
  · simp [UnpackedFloat.lt, UnpackedFloat.compare]
  · simp [UnpackedFloat.lt, UnpackedFloat.compare]
  · cases s
    · simp [UnpackedFloat.lt, UnpackedFloat.compare]
    · simp [UnpackedFloat.lt, UnpackedFloat.compare, hm]

theorem zero_lt_iff {x : Float} {q : ℚ} (h : value? x = some q) : 0 < x ↔ 0 < q := by
  rw [value?] at h
  rw [zero_lt_iff_unpack]
  rcases hu : x.toModel.unpack with s | _ | s | ⟨s, m, e, hm⟩ <;> rw [hu] at h
  · exact absurd h (Option.some_ne_none _).symm
  · exact absurd h (Option.some_ne_none _).symm
  · obtain rfl : 0 = q := Option.some.inj h
    simp
  · have hpos : (0 : ℚ) < m * 2 ^ e := mul_pos (by exact_mod_cast hm) (two_zpow_pos e)
    cases s with
    | negative =>
      obtain rfl : -((m : ℚ) * 2 ^ e) = q := Option.some.inj h
      simp only [reduceCtorEq, false_or, UnpackedFloat.finite.injEq, false_and, exists_false,
        false_iff]
      linarith
    | positive =>
      obtain rfl : (m : ℚ) * 2 ^ e = q := Option.some.inj h
      simp [hpos, hm]

theorem partsValue?_neg (u : UnpackedFloat) : partsValue? u.neg = (partsValue? u).map (- ·) := by
  rcases u with s | _ | s | ⟨s, m, e, hm⟩
  · rfl
  · rfl
  · simp [UnpackedFloat.neg, partsValue?]
  · cases s with
    | negative =>
      show some ((m : ℚ) * 2 ^ e) = some (- -((m : ℚ) * 2 ^ e))
      rw [neg_neg]
    | positive => rfl

/-- Packing and taking apart again keeps the parts, with either sign. -/
theorem unpack_neg (x : Float) : (-x).toModel.unpack = x.toModel.unpack.neg := by
  show (Float.Model.pack x.toModel.unpack.neg).unpack = x.toModel.unpack.neg
  by_cases hfinite : x.isFinite = true
  · rcases unpack_of_isFinite hfinite with ⟨-, hu⟩ | ⟨hm, hu⟩
    · rw [hu]
      cases signOf x <;> rfl
    · rw [hu]
      exact unpack_pack hm _
  · have hfinite' : x.toModel.unpack.isFinite = false := Bool.eq_false_iff.2 hfinite
    rcases hu : x.toModel.unpack with s | _ | s | ⟨s, m, e, hm⟩ <;> rw [hu] at hfinite'
    · cases s <;> rfl
    · rfl
    · exact absurd hfinite' Bool.false_ne_true.symm
    · exact absurd hfinite' Bool.false_ne_true.symm

theorem value?_neg (x : Float) : value? (-x) = (value? x).map (- ·) := by
  rw [value?, unpack_neg, partsValue?_neg, value?]

/-! ## Rounding whole numbers -/

/-- The number is `2 ^ 53` or more, if it is finite at all. -/
def IsLarge (x : Float) : Prop :=
  x.toModel.unpack = .infinity .positive ∨ ∃ q, value? x = some q ∧ 2 ^ 53 ≤ q

theorem IsLarge.pos {x : Float} (h : IsLarge x) : 0 < x := by
  rcases h with hu | ⟨q, hq, hle⟩
  · exact zero_lt_iff_unpack.2 (.inl hu)
  · exact (zero_lt_iff hq).2 (lt_of_lt_of_le (by norm_num) hle)

theorem IsLarge.le {x : Float} (h : IsLarge x) {q : ℚ} (hq : value? x = some q) : 2 ^ 53 ≤ q := by
  rcases h with hu | ⟨p, hp, hle⟩
  · rw [value?, hu] at hq
    exact absurd hq (Option.some_ne_none _).symm
  · rw [hq] at hp
    exact Option.some.inj hp ▸ hle

/-- From `2 ^ 53` on, rounding keeps all bits of the mantissa and a unit of at least two. -/
theorem roundWithAccuracy_of_large {m : ℕ} {e : ℤ} {a : Accuracy} {x : ℚ} (hx : 2 ^ 53 ≤ x)
    (h : Holds (.ofMantissaAndAccuracy m a) (x / 2 ^ e))
    (he : e ≤ Format.binary64.targetExponent (totalExponent m e)) (s : Sign) :
    ∃ (m' : ℕ) (e' : ℤ) (hm : 0 < m'),
      roundWithAccuracy Format.binary64 s m e a = .finite s m' e' hm ∧
        2 ^ 52 ≤ m' ∧ m' < 2 ^ 53 ∧ 1 ≤ e' := by
  obtain ⟨hholds, hexponent⟩ := shiftToTargetExponent_eq h he
  have hfloor := floor_of_holds h
  obtain ⟨hlt, hge⟩ := bounds_of_floor hfloor.1 hfloor.2
  have hlog : 53 < (m.log2 : ℤ) + 1 + e := exponent_lt (by exact_mod_cast hx) hlt
  set target := Format.binary64.targetExponent (totalExponent m e) with htarget
  rw [targetExponent_eq, totalExponent_eq] at htarget
  have hne : m ≠ 0 := by
    rintro rfl
    simp at htarget hlog
    omega
  have htarget' : target = m.log2 + e - 52 := by omega
  have hpos := two_zpow_pos target
  -- in units of the target, `x` has exactly 53 bits before the point
  have hlower : (2 : ℚ) ^ 52 ≤ x / 2 ^ target := by
    rw [le_div_iff₀ hpos, ← zpow_natCast, ← zpow_add₀ two_ne_zero]
    have heq : ((52 : ℕ) : ℤ) + target = m.log2 + e := by omega
    rw [heq]
    exact hge hne
  have hupper : x / 2 ^ target < 2 ^ 53 := by
    rw [div_lt_iff₀ hpos, ← zpow_natCast, ← zpow_add₀ two_ne_zero]
    have heq : ((53 : ℕ) : ℤ) + target = m.log2 + 1 + e := by omega
    rw [heq]
    exact hlt
  have hnearest := hholds.isNearest
  rw [roundWithAccuracy]
  simp only [hexponent]
  generalize ((shiftToTargetExponent Format.binary64 m e a).1.roundedMantissa) = r at hnearest ⊢
  have hlow : 2 ^ 52 ≤ r := by
    have hlt : ((2 ^ 52 : ℕ) : ℚ) < r + 1 := by
      push_cast
      linarith [hnearest.upper]
    exact Nat.lt_succ_iff.1 (by exact_mod_cast hlt)
  have hhigh : r ≤ 2 ^ 53 := by
    have hlt : (r : ℚ) < (2 ^ 53 : ℕ) + 1 := by
      push_cast
      linarith [hnearest.lower]
    exact Nat.lt_succ_iff.1 (by exact_mod_cast hlt)
  rcases hhigh.lt_or_eq with hfits | rfl
  · have hpos' : 0 < r := by omega
    refine ⟨r, target, hpos', ?_, hlow, hfits, by omega⟩
    simp [shiftToTargetExponent_of_fits hfits (show -1074 ≤ target by omega), hpos'.ne']
  · -- rounding up to a power of two carries into the exponent
    refine ⟨2 ^ 52, target + 1, by positivity, ?_, le_rfl, by norm_num, by omega⟩
    simp only [shiftToTargetExponent_of_overflow (show -1074 ≤ target by omega)]
    rfl

theorem isLarge_pack {m : ℕ} {e : ℤ} (hm : 0 < m) (hlow : 2 ^ 52 ≤ m) (hhigh : m < 2 ^ 53)
    (he : 1 ≤ e) : IsLarge (Float.ofModel (Float.Model.pack (.finite .positive m e hm))) := by
  by_cases hgreatest : e ≤ 971
  · right
    have hcanonical : Magnitude.IsCanonical ⟨m, e⟩ :=
      ⟨hm, hhigh, by dsimp only; omega, hgreatest, .inl hlow⟩
    refine ⟨(m : ℚ) * 2 ^ e, ?_, ?_⟩
    · show partsValue? (Float.Model.pack (.finite .positive m e hm)).unpack = _
      rw [unpack_pack hcanonical]
      rfl
    · have hm' : (2 : ℚ) ^ 52 ≤ m := by exact_mod_cast hlow
      have he' : (2 : ℚ) ^ (1 : ℤ) ≤ 2 ^ e := zpow_le_zpow_right₀ one_le_two he
      calc (2 : ℚ) ^ 53 = 2 ^ 52 * 2 ^ (1 : ℤ) := by norm_num
        _ ≤ (m : ℚ) * 2 ^ e := by gcongr
  · left
    have hpack : UnpackedFloat.pack Format.binary64 (.finite .positive m e hm) =
        packedInfinity Format.binary64 .positive := by
      rw [pack_finite, if_pos (by omega)]
    show UnpackedFloat.unpack Format.binary64
      (UnpackedFloat.pack Format.binary64 (.finite .positive m e hm)) = _
    rw [hpack]
    rfl

theorem log2_shiftLeft {m : ℕ} (hm : m ≠ 0) (k : ℕ) : (m <<< k).log2 = m.log2 + k := by
  induction k with
  | zero => rfl
  | succ k ih =>
    have hne : m <<< k ≠ 0 := by
      rw [Nat.shiftLeft_eq]
      positivity
    rw [Nat.shiftLeft_succ, Nat.log2_two_mul hne, ih]
    rfl

/-- Lowering the exponent keeps the rational. -/
theorem value_decreaseExponent (m : ℕ) (e t : ℤ) :
    ((decreaseExponent m e t).1 : ℚ) * 2 ^ (decreaseExponent m e t).2 = m * 2 ^ e := by
  rw [decreaseExponent]
  simp only [Nat.shiftLeft_eq]
  rw [zpow_sub₀ two_ne_zero, zpow_natCast]
  push_cast
  field_simp

/-- Rounding first lowers the exponent as far as the bits need. -/
theorem round_eq {m : ℕ} (hm : 0 < m) (e : ℤ) (s : Sign) :
    ∃ (m' : ℕ) (e' : ℤ), UnpackedFloat.round Format.binary64 s m e =
        roundWithAccuracy Format.binary64 s m' e' .exact ∧
      (m' : ℚ) * 2 ^ e' = m * 2 ^ e ∧
      e' ≤ Format.binary64.targetExponent (totalExponent m' e') := by
  refine ⟨_, _, rfl, value_decreaseExponent m e _, ?_⟩
  simp only [targetExponent_eq, totalExponent_eq, log2_shiftLeft hm.ne']
  omega

theorem normalize_natCast {m : ℕ} (hm : 0 < m) (e : ℤ) (s : Sign) :
    UnpackedFloat.normalize Format.binary64 m e s =
      UnpackedFloat.round Format.binary64 .positive m e := by
  rw [UnpackedFloat.normalize, Int.compare_eq_gt.2 (by omega), Int.toNat_natCast]

theorem normalize_zero (e : ℤ) (s : Sign) :
    UnpackedFloat.normalize Format.binary64 0 e s = .zero s := by
  rw [UnpackedFloat.normalize, Int.compare_eq_eq.2 rfl]

/-- A whole number up to `2 ^ 53` has a magnitude of its own. -/
theorem exists_canonical {k : ℕ} (hpos : 0 < k) (hk : k ≤ 2 ^ 53) :
    ∃ n : Magnitude, n.IsCanonical ∧ (n.mantissa : ℚ) * 2 ^ n.exponent = k := by
  rcases hk.lt_or_eq with hlt | rfl
  · exact ⟨wholeMagnitude k, isCanonical_wholeMagnitude hpos hlt, value_wholeMagnitude hpos hlt⟩
  · exact ⟨⟨2 ^ 52, 1⟩,
      ⟨by norm_num, by norm_num, by norm_num, by norm_num, .inl le_rfl⟩, by norm_num⟩

theorem value?_toFloat {n : Magnitude} (hn : n.IsCanonical) :
    value? (Magnitude.toFloat hn) = some ((n.mantissa : ℚ) * 2 ^ n.exponent) := by
  show partsValue? (Float.Model.pack (.finite .positive n.mantissa n.exponent hn.pos)).unpack = _
  rw [unpack_pack hn]
  rfl

/-- A whole number up to `2 ^ 53` is read exactly. -/
theorem value?_ofDecimal {k : ℕ} (hk : k ≤ 2 ^ 53) : value? (ofDecimal k 0) = some (k : ℚ) := by
  rcases k.eq_zero_or_pos with rfl | hpos
  · rfl
  · obtain ⟨n, hn, hvalue⟩ := exists_canonical hpos hk
    have hattracts : n.Attracts (k * 10 ^ (0 : ℤ)) := by
      rw [zpow_zero, mul_one, ← hvalue]
      exact attracts_self n
    rw [ofDecimal_eq hn hpos hattracts, value?_toFloat, hvalue]

/-- A larger whole number is read as a number that is no smaller than `2 ^ 53`. -/
theorem isLarge_ofDecimal {k : ℕ} (hk : 2 ^ 53 ≤ k) : IsLarge (ofDecimal k 0) := by
  have hpos : 0 < k := by omega
  rw [ofDecimal]
  have hguard :
      (decide (k = 0) || decide (((Nat.toDigits 10 k).length : ℤ) + 0 < -400)) = false := by
    simp
    omega
  rw [hguard, if_neg Bool.false_ne_true]
  split_ifs with hsize hnonneg
  · exact .inl rfl
  · have hd : 0 < k <<< 53 := by
      rw [Nat.shiftLeft_eq]
      positivity
    have hslow : ¬ (k < 2 ^ 53 ∧ (0 : ℤ).toNat ≤ 22) := fun h => absurd h.1 (by omega)
    have hmul : UnpackedFloat.ofScientific Format.binary64 k 0 = roundWithAccuracy Format.binary64
        .positive (k <<< 53 * 1) (-53) .exact := by
      rw [ofScientific_of_bounds hpos hd (by omega) (by omega), if_pos le_rfl]
      rfl
    have hvalue : ((k <<< 53 * 1 : ℕ) : ℚ) = k / 2 ^ (-53 : ℤ) := by
      rw [Nat.shiftLeft_eq, zpow_neg]
      push_cast
      field_simp
    have hlog : 53 ≤ (k <<< 53 * 1).log2 := by
      rw [mul_one, log2_shiftLeft hpos.ne']
      omega
    obtain ⟨m, e, hm, hround, hlow, hhigh, he⟩ := roundWithAccuracy_of_large
      (show (2 : ℚ) ^ 53 ≤ k by exact_mod_cast hk) (hvalue ▸ holds_exact (k <<< 53 * 1))
      (by rw [targetExponent_eq, totalExponent_eq]; omega) .positive
    rw [Float.ofScientific, dif_neg hslow]
    show IsLarge (Float.ofModel (Float.Model.pack (UnpackedFloat.ofScientific Format.binary64 k 0)))
    rw [hmul, hround]
    exact isLarge_pack hm hlow hhigh he
  · exact absurd le_rfl hnonneg

/-! ## Predecessors -/

theorem unpack_of_value?_pos {x : Float} {q : ℚ} (h : value? x = some q) (hq : 0 < q) :
    ∃ m e hm, x.toModel.unpack = .finite .positive m e hm ∧ (m : ℚ) * 2 ^ e = q := by
  rcases zero_lt_iff_unpack.1 ((zero_lt_iff h).2 hq) with hu | ⟨m, e, hm, hu⟩
  · rw [value?, hu] at h
    exact absurd h (Option.some_ne_none _).symm
  · rw [value?, hu] at h
    exact ⟨m, e, hm, hu, Option.some.inj h⟩

/-- One less is rounded from the exact difference. -/
theorem sub_one_eq {x : Float} {q : ℚ} (h : value? x = some q) (hq : 0 < q) :
    ∃ (m : ℤ) (e : ℤ), x - 1 = Float.ofModel (Float.Model.pack
        (UnpackedFloat.normalize Format.binary64 m e .positive)) ∧ (m : ℚ) * 2 ^ e = q - 1 := by
  obtain ⟨m, e, hm, hu, rfl⟩ := unpack_of_value?_pos h hq
  have hone : (1 : Float).toModel.unpack = .finite .positive (2 ^ 52) (-52) (by decide) := rfl
  set low := min e (-52) with hlow
  refine ⟨(decreaseExponent m e low).1 - (decreaseExponent (2 ^ 52) (-52) low).1, low, ?_, ?_⟩
  · show Float.ofModel (Float.Model.pack (UnpackedFloat.sub Format.binary64 x.toModel.unpack
      (1 : Float).toModel.unpack)) = _
    rw [hu, hone]
    rfl
  · have hleft := value_decreaseExponent m e low
    have hright := value_decreaseExponent (2 ^ 52) (-52) low
    have hexponent : (decreaseExponent m e low).2 = low := by
      rw [decreaseExponent]
      dsimp only
      omega
    have hexponent' : (decreaseExponent (2 ^ 52) (-52) low).2 = low := by
      rw [decreaseExponent]
      dsimp only
      omega
    rw [hexponent] at hleft
    rw [hexponent'] at hright
    push_cast at hright ⊢
    rw [sub_mul, hleft, hright]
    norm_num

/-- The predecessor of what is more than one, as it is rounded. -/
theorem sub_one_eq_round {x : Float} {q : ℚ} (h : value? x = some q) (hq : 1 < q) :
    ∃ (m : ℕ) (e : ℤ), x - 1 = Float.ofModel (Float.Model.pack
        (roundWithAccuracy Format.binary64 .positive m e .exact)) ∧
      Holds (.ofMantissaAndAccuracy m .exact) ((q - 1) / 2 ^ e) ∧
      e ≤ Format.binary64.targetExponent (totalExponent m e) := by
  obtain ⟨m, e, heq, hvalue⟩ := sub_one_eq h (by linarith)
  have hm : 0 < m := by
    have hprod : (0 : ℚ) < m * 2 ^ e := by linarith
    exact_mod_cast (mul_pos_iff_of_pos_right (two_zpow_pos e)).1 hprod
  obtain ⟨d, rfl⟩ := Int.eq_ofNat_of_zero_le hm.le
  obtain ⟨m', e', hround, hvalue', he⟩ := round_eq (show 0 < d by omega) e .positive
  refine ⟨m', e', by rw [heq, normalize_natCast (by omega), hround], ?_, he⟩
  have hexact : (q - 1) / 2 ^ e' = m' := by
    rw [← hvalue, Int.cast_natCast, ← hvalue', mul_div_cancel_right₀ _ (two_zpow_pos e').ne']
  rw [hexact]
  exact holds_exact m'

section

variable {x : Float} {k : ℕ}

/-- The predecessor of a whole number up to `2 ^ 53` is exact. -/
theorem value?_sub_one (h : value? x = some (k : ℚ)) (hpos : 0 < k) (hk : k ≤ 2 ^ 53) :
    value? (x - 1) = some ((k - 1 : ℕ) : ℚ) := by
  rcases (show k = 1 ∨ 1 < k by omega) with rfl | hlt
  · obtain ⟨m, e, heq, hvalue⟩ := sub_one_eq h (by norm_num)
    have hm : m = 0 := by
      rw [Nat.cast_one, sub_self, mul_eq_zero] at hvalue
      exact_mod_cast hvalue.resolve_right (two_zpow_pos e).ne'
    rw [heq, hm, normalize_zero]
    rfl
  · obtain ⟨m, e, heq, hholds, he⟩ := sub_one_eq_round h (by exact_mod_cast hlt)
    obtain ⟨n, hn, hn'⟩ := exists_canonical (show 0 < k - 1 by omega) (by omega)
    have hattracts : n.Attracts ((k : ℚ) - 1) := by
      have hcast : (k : ℚ) - 1 = (k - 1 : ℕ) := by rw [Nat.cast_sub hpos, Nat.cast_one]
      rw [hcast, ← hn']
      exact attracts_self n
    rw [heq, roundWithAccuracy_eq hn hattracts hholds he]
    exact (value?_toFloat hn).trans (congrArg some hn')

/-- The predecessor of a larger whole number is no smaller than `2 ^ 53`. -/
theorem isLarge_sub_one (h : value? x = some (k : ℚ)) (hk : 2 ^ 53 < k) : IsLarge (x - 1) := by
  have hk' : (2 : ℚ) ^ 53 + 1 ≤ k := by exact_mod_cast hk
  obtain ⟨m, e, heq, hholds, he⟩ := sub_one_eq_round h (by linarith)
  obtain ⟨m', e', hm', hround, hlow, hhigh, he'⟩ :=
    roundWithAccuracy_of_large (by linarith) hholds he .positive
  rw [heq, hround]
  exact isLarge_pack hm' hlow hhigh he'

end

end StoryScript.Decimal
