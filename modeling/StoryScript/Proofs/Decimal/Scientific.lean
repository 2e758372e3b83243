/-
  Decimals as numbers.

  A decimal is turned into a number by one multiplication or division: by a power of ten
  that is a number itself where the digits are few, and otherwise in whole numbers of
  any size. Either way the result is rounded once, so it is the number that attracts
  the decimal.
-/
import Mathlib
import StoryScript.Decimal.Reader
import StoryScript.Proofs.Decimal.Packing

namespace StoryScript.Decimal

open Float.Model Float.Model.UnpackedFloat

/-- The number with this magnitude and no sign. -/
def Magnitude.toFloat {n : Magnitude} (hn : n.IsCanonical) : Float :=
  Float.ofModel (Float.Model.pack (.finite .positive n.mantissa n.exponent hn.pos))

theorem holds_exact (m : ℕ) : Holds (.ofMantissaAndAccuracy m .exact) m := by
  refine ⟨⟨le_rfl, lt_add_one _⟩, ?_, ?_⟩
  · simp [ExtendedMantissa.ofMantissaAndAccuracy]
  · simp [ExtendedMantissa.ofMantissaAndAccuracy]

/-! ## Products and quotients -/

section

variable {n : Magnitude} {m₁ m₂ : ℕ} {e₁ e₂ : ℤ} (h₁ : 0 < m₁) (h₂ : 0 < m₂)

/-- A product with enough bits is the number that attracts the exact product. -/
theorem mul_eq (hn : n.IsCanonical) (hx : n.Attracts (m₁ * 2 ^ e₁ * (m₂ * 2 ^ e₂)))
    (hbits : 2 ^ 52 ≤ m₁ * m₂) :
    UnpackedFloat.mul Format.binary64 (.finite .positive m₁ e₁ h₁) (.finite .positive m₂ e₂ h₂) =
      .finite .positive n.mantissa n.exponent hn.pos := by
  have hne : m₁ * m₂ ≠ 0 := (Nat.mul_pos h₁ h₂).ne'
  have hlog : 52 ≤ (m₁ * m₂).log2 := (Nat.le_log2 hne).2 hbits
  refine roundWithAccuracy_eq hn hx ?_ ?_ _
  · have hvalue : (m₁ : ℚ) * 2 ^ e₁ * (m₂ * 2 ^ e₂) / 2 ^ (e₁ + e₂) = (m₁ * m₂ : ℕ) := by
      rw [zpow_add₀ two_ne_zero]
      push_cast
      field_simp
    rw [hvalue]
    exact holds_exact _
  · rw [targetExponent_eq, totalExponent_eq]
    omega

/-- The rest of a division, compared with half the divisor, is what rounding needs. -/
theorem holds_quotient (a : ℕ) {b : ℕ} (hb : 0 < b) :
    Holds (.ofMantissaAndAccuracy (a / b) (accuracyOfFraction (a % b) b)) (a / b) := by
  have hb' : (0 : ℚ) < b := by exact_mod_cast hb
  have hvalue : (a : ℚ) / b = (a / b : ℕ) + (a % b : ℕ) / b := by
    rw [add_div' _ _ _ hb'.ne', div_left_inj' hb'.ne']
    exact_mod_cast (Nat.div_add_mod' a b).symm
  have hlt : a % b < b := Nat.mod_lt a hb
  rw [hvalue]
  generalize a / b = q at *
  generalize a % b = r at *
  have hone : (r : ℚ) / b < 1 := by
    rw [div_lt_one hb']
    exact_mod_cast hlt
  rw [accuracyOfFraction]
  by_cases hzero : r = 0
  · rw [if_pos hzero, hzero, Nat.cast_zero, zero_div, add_zero]
    exact holds_exact q
  · rw [if_neg hzero]
    have hpos : (0 : ℚ) < r / b := by positivity
    -- less than a half is left, a half, or more
    rcases lt_trichotomy (2 * r) b with hhalf | hhalf | hhalf
    · have hhalf' : (r : ℚ) / b < 1 / 2 := by
        rw [div_lt_div_iff₀ hb' two_pos]
        exact_mod_cast (by omega : r * 2 < 1 * b)
      rw [Nat.compare_eq_lt.2 hhalf]
      show Holds ⟨q, false, true⟩ _
      exact ⟨⟨by simp only; linarith, by simp only; linarith⟩,
        ⟨fun h => absurd h Bool.false_ne_true, fun h => by simp only at h; linarith⟩,
        ⟨fun _ => ⟨by simp only; linarith, by simp only; linarith⟩, fun _ => rfl⟩⟩
    · have hhalf' : (r : ℚ) / b = 1 / 2 := by
        rw [div_eq_div_iff hb'.ne' two_ne_zero]
        exact_mod_cast (by omega : r * 2 = 1 * b)
      rw [Nat.compare_eq_eq.2 hhalf, hhalf']
      show Holds ⟨q, true, false⟩ _
      exact ⟨⟨by simp only; linarith, by simp only; linarith⟩, ⟨fun _ => le_rfl, fun _ => rfl⟩,
        ⟨fun h => absurd h Bool.false_ne_true, fun h => absurd rfl h.2⟩⟩
    · have hhalf' : 1 / 2 < (r : ℚ) / b := by
        rw [div_lt_div_iff₀ two_pos hb']
        exact_mod_cast (by omega : 1 * b < r * 2)
      rw [Nat.compare_eq_gt.2 hhalf]
      show Holds ⟨q, true, true⟩ _
      exact ⟨⟨by simp only; linarith, by simp only; linarith⟩,
        ⟨fun _ => by simp only; linarith, fun _ => rfl⟩,
        ⟨fun _ => ⟨by simp only; linarith, by simp only; linarith⟩, fun _ => rfl⟩⟩

/-- A quotient is the number that attracts the exact quotient. -/
theorem div_eq (hn : n.IsCanonical) (hx : n.Attracts (m₁ * 2 ^ e₁ / (m₂ * 2 ^ e₂))) :
    UnpackedFloat.div Format.binary64 (.finite .positive m₁ e₁ h₁) (.finite .positive m₂ e₂ h₂) =
      .finite .positive n.mantissa n.exponent hn.pos := by
  set target := min (e₁ - e₂)
    (Format.binary64.targetExponent (totalExponent m₁ e₁ - totalExponent m₂ e₂)) with htarget
  set k := (e₁ - e₂ - target).toNat with hk
  have hshift : e₁ - e₂ - target = k := by omega
  have hdiv : UnpackedFloat.div Format.binary64 (.finite .positive m₁ e₁ h₁)
      (.finite .positive m₂ e₂ h₂) = roundWithAccuracy Format.binary64 .positive (m₁ <<< k / m₂) target
        (accuracyOfFraction (m₁ <<< k % m₂) m₂) := rfl
  rw [hdiv]
  refine roundWithAccuracy_eq hn hx ?_ ?_ _
  · have hvalue : (m₁ : ℚ) * 2 ^ e₁ / (m₂ * 2 ^ e₂) / 2 ^ target = (m₁ <<< k : ℕ) / m₂ := by
      have hsplit : (2 : ℚ) ^ e₁ = 2 ^ k * (2 ^ e₂ * 2 ^ target) := by
        rw [← zpow_natCast, ← zpow_add₀ two_ne_zero, ← zpow_add₀ two_ne_zero]
        congr 1
        omega
      rw [hsplit, Nat.shiftLeft_eq]
      push_cast
      field_simp
    rw [hvalue]
    exact holds_quotient _ h₂
  · -- the quotient has a bit where its leading bit is expected, or one above
    have hlog : m₁.log2 + k < (m₁ <<< k / m₂).log2 + 1 + (m₂.log2 + 1) := by
      apply (Nat.pow_lt_pow_iff_right (by decide : 1 < 2)).1
      calc 2 ^ (m₁.log2 + k) = 2 ^ m₁.log2 * 2 ^ k := pow_add ..
        _ ≤ m₁ * 2 ^ k := Nat.mul_le_mul_right _ (Nat.log2_self_le h₁.ne')
        _ = m₁ <<< k := (Nat.shiftLeft_eq ..).symm
        _ < (m₁ <<< k / m₂ + 1) * m₂ := (Nat.div_lt_iff_lt_mul h₂).1 (Nat.lt_succ_self _)
        _ ≤ 2 ^ ((m₁ <<< k / m₂).log2 + 1) * 2 ^ (m₂.log2 + 1) :=
          Nat.mul_le_mul Nat.lt_log2_self Nat.lt_log2_self.le
        _ = 2 ^ ((m₁ <<< k / m₂).log2 + 1 + (m₂.log2 + 1)) := (pow_add ..).symm
    rw [htarget, targetExponent_eq, targetExponent_eq, totalExponent_eq, totalExponent_eq,
      totalExponent_eq] at *
    omega

end

/-! ## Whole numbers and powers of ten -/

theorem attracts_self (n : Magnitude) : n.Attracts (n.mantissa * 2 ^ n.exponent) := by
  have hvalue : (n.mantissa : ℚ) * 2 ^ n.exponent / 2 ^ n.exponent = n.mantissa :=
    mul_div_cancel_right₀ _ (two_zpow_pos _).ne'
  refine ⟨?_, ?_⟩
  · rw [hvalue]
    refine ⟨by linarith, by linarith, ?_⟩
    rintro (h | h) <;> linarith
  · intro _ _
    rw [hvalue]
    linarith

/-- A whole number of at most 53 bits, moved so that its leading bit is the first of a mantissa. -/
def wholeMagnitude (d : ℕ) : Magnitude :=
  ⟨d * 2 ^ (52 - d.log2), (d.log2 : ℤ) - 52⟩

theorem log2_le_of_lt {d : ℕ} (hpos : 0 < d) (hlt : d < 2 ^ 53) : d.log2 ≤ 52 := by
  have := (Nat.log2_lt hpos.ne').2 hlt
  omega

theorem log2_wholeMagnitude {d : ℕ} (hpos : 0 < d) (hlt : d < 2 ^ 53) :
    (d * 2 ^ (52 - d.log2)).log2 = 52 := by
  have hlog := log2_le_of_lt hpos hlt
  rw [Nat.log2_eq_iff (Nat.mul_pos hpos (by positivity)).ne']
  constructor
  · calc 2 ^ 52 = 2 ^ d.log2 * 2 ^ (52 - d.log2) := by rw [← pow_add]; congr 1; omega
      _ ≤ d * 2 ^ (52 - d.log2) := Nat.mul_le_mul_right _ (Nat.log2_self_le hpos.ne')
  · calc d * 2 ^ (52 - d.log2) < 2 ^ (d.log2 + 1) * 2 ^ (52 - d.log2) :=
          Nat.mul_lt_mul_of_pos_right Nat.lt_log2_self (by positivity)
      _ = 2 ^ (52 + 1) := by rw [← pow_add]; congr 1; omega

theorem isCanonical_wholeMagnitude {d : ℕ} (hpos : 0 < d) (hlt : d < 2 ^ 53) :
    (wholeMagnitude d).IsCanonical := by
  have hlog := log2_le_of_lt hpos hlt
  have hmantissa : 0 < d * 2 ^ (52 - d.log2) := Nat.mul_pos hpos (by positivity)
  obtain ⟨hlow, hhigh⟩ := (Nat.log2_eq_iff hmantissa.ne').1 (log2_wholeMagnitude hpos hlt)
  exact ⟨hmantissa, hhigh, by simp only [wholeMagnitude]; omega, by simp only [wholeMagnitude]; omega,
    .inl hlow⟩

theorem value_wholeMagnitude {d : ℕ} (hpos : 0 < d) (hlt : d < 2 ^ 53) :
    ((wholeMagnitude d).mantissa : ℚ) * 2 ^ (wholeMagnitude d).exponent = d := by
  have hlog := log2_le_of_lt hpos hlt
  have hexponent : (d.log2 : ℤ) - 52 = -((52 - d.log2 : ℕ) : ℤ) := by omega
  simp only [wholeMagnitude]
  rw [hexponent, zpow_neg, zpow_natCast]
  push_cast
  field_simp

/-- A whole number of at most 53 bits is kept exactly. -/
theorem unpack_toFloat {d : ℕ} (hpos : 0 < d) (hlt : d < 2 ^ 53) :
    d.toUInt64.toFloat.toModel.unpack = .finite .positive (wholeMagnitude d).mantissa
      (wholeMagnitude d).exponent (isCanonical_wholeMagnitude hpos hlt).pos := by
  have hlog := log2_le_of_lt hpos hlt
  have hcanonical := isCanonical_wholeMagnitude hpos hlt
  have hnat : d.toUInt64.toNat = d := by
    rw [UInt64.toNat_ofNat']
    omega
  -- the number is first moved to the exponent of its leading bit, then rounded there
  have hround : UnpackedFloat.ofUInt64 Format.binary64 d.toUInt64 =
      roundWithAccuracy Format.binary64 .positive (wholeMagnitude d).mantissa
        (wholeMagnitude d).exponent .exact := by
    have hgt : compare (d : ℤ) 0 = .gt := compare_gt_iff_gt.2 (by omega)
    have htarget : Format.binary64.targetExponent (totalExponent d 0) = (d.log2 : ℤ) - 52 := by
      rw [targetExponent_eq, totalExponent_eq]
      omega
    have hshift : (0 - ((d.log2 : ℤ) - 52)).toNat = 52 - d.log2 := by omega
    rw [UnpackedFloat.ofUInt64, hnat, UnpackedFloat.ofNat, UnpackedFloat.ofInt,
      UnpackedFloat.normalize, hgt]
    simp only [Int.toNat_natCast, UnpackedFloat.round, htarget, decreaseExponent, hshift,
      Nat.shiftLeft_eq, wholeMagnitude]
    congr 1
    omega
  have hself : roundWithAccuracy Format.binary64 .positive (wholeMagnitude d).mantissa
      (wholeMagnitude d).exponent .exact = .finite .positive (wholeMagnitude d).mantissa
        (wholeMagnitude d).exponent hcanonical.pos := by
    refine roundWithAccuracy_eq hcanonical (attracts_self _) ?_ ?_ _
    · rw [mul_div_cancel_right₀ _ (two_zpow_pos _).ne']
      exact holds_exact _
    · rw [targetExponent_eq, totalExponent_eq]
      simp only [wholeMagnitude, log2_wholeMagnitude hpos hlt]
      omega
  show (Float.Model.pack (UnpackedFloat.ofUInt64 Format.binary64 d.toUInt64)).unpack = _
  rw [hround, hself, unpack_pack hcanonical]

/-- The table of powers of ten holds them exactly. -/
theorem table_powerOfTen : ∀ k : Fin 23,
    let x := Float.exactlyRepresentablePowersOfTen[k]
    isNegative x = false ∧ 0 < fieldOf x ∧ fieldOf x < 2047 ∧
      (2 ^ 52 + fractionOf x) * 2 ^ fieldOf x = 10 ^ (k : ℕ) * 2 ^ 1075 := by
  decide +kernel

theorem unpack_powerOfTen {k : ℕ} (hk : k < Float.exactlyRepresentablePowersOfTen.size) :
    ∃ (m : ℕ) (e : ℤ) (h : 0 < m), Float.exactlyRepresentablePowersOfTen[k].toModel.unpack =
      .finite .positive m e h ∧ 2 ^ 52 ≤ m ∧ (m : ℚ) * 2 ^ e = 10 ^ k := by
  obtain ⟨hsign, hpos, hlt, hvalue⟩ := table_powerOfTen ⟨k, hk⟩
  set x := Float.exactlyRepresentablePowersOfTen[k] with hx
  change isNegative x = false at hsign
  change 0 < fieldOf x at hpos
  change fieldOf x < 2047 at hlt
  change (2 ^ 52 + fractionOf x) * 2 ^ fieldOf x = 10 ^ k * 2 ^ 1075 at hvalue
  have hpositive : signOf x = .positive := by rw [signOf, hsign, if_neg Bool.false_ne_true]
  rcases unpack_cases x with ⟨hmax, -⟩ | ⟨hnone, -⟩ | ⟨hnone, -⟩ | ⟨-, -, hm, hu⟩
  · omega
  · omega
  · omega
  · refine ⟨_, _, hm, by rw [hu, hpositive], by omega, ?_⟩
    have hvalue' : ((2 ^ 52 + fractionOf x : ℕ) : ℚ) * 2 ^ fieldOf x = 10 ^ k * 2 ^ 1075 := by
      simpa only [Nat.cast_mul, Nat.cast_pow, Nat.cast_ofNat] using congrArg (Nat.cast : ℕ → ℚ) hvalue
    rw [zpow_sub₀ two_ne_zero, zpow_natCast, mul_div_assoc', hvalue']
    exact mul_div_cancel_right₀ _ (by positivity)

/-! ## Decimals -/

section

variable {n : Magnitude} {d k : ℕ}

/-- A decimal that is neither cut off to zero nor to infinity: zeros after its digits are a factor,
and places after the point are a divisor. -/
theorem ofScientific_of_bounds (hd : 0 < d) (hd' : 0 < d <<< 53) {e : ℤ}
    (hlow : -(2 ^ 11 + (d.log2 : ℤ)) ≤ e) (hhigh : e ≤ 2 ^ 11) :
    UnpackedFloat.ofScientific Format.binary64 d e =
      if 0 ≤ e then UnpackedFloat.mul Format.binary64 (.finite .positive (d <<< 53) (-53) hd')
        (.finite .positive (10 ^ e.toNat) 0 (by positivity))
      else UnpackedFloat.div Format.binary64 (.finite .positive d 0 hd)
        (.finite .positive (10 ^ (-e).toNat) 0 (by positivity)) := by
  have hlarge : ¬ e > 2 ^ Format.binary64.exponentBits := not_lt.2 hhigh
  have hsmall : ¬ e < -((2 ^ Format.binary64.exponentBits : ℤ) + d.log2) := not_lt.2 hlow
  rw [UnpackedFloat.ofScientific, dif_neg hd.ne', if_neg hlarge, if_neg hsmall]
  rfl

/-- In whole numbers of any size, zeros are a factor. -/
theorem ofScientific_nonneg (hn : n.IsCanonical) (hpos : 0 < d) (hx : n.Attracts (d * 10 ^ k))
    (hk : k ≤ 2 ^ 11) : Float.ofModel (Float.Model.ofScientific d k) = Magnitude.toFloat hn := by
  have hd : 0 < d <<< 53 := by
    rw [Nat.shiftLeft_eq]
    positivity
  have hmul : UnpackedFloat.ofScientific Format.binary64 d k = UnpackedFloat.mul Format.binary64
      (.finite .positive (d <<< 53) (-53) hd) (.finite .positive (10 ^ k) 0 (by positivity)) := by
    rw [ofScientific_of_bounds hpos hd (by omega) (by omega), if_pos (Int.natCast_nonneg k)]
    rfl
  have hvalue : ((d <<< 53 : ℕ) : ℚ) * 2 ^ (-53 : ℤ) * ((10 ^ k : ℕ) * 2 ^ (0 : ℤ)) = d * 10 ^ k := by
    rw [Nat.shiftLeft_eq, zpow_zero, zpow_neg]
    push_cast
    field_simp
  have hbits : 2 ^ 52 ≤ d <<< 53 * 10 ^ k := by
    rw [Nat.shiftLeft_eq]
    calc 2 ^ 52 ≤ 1 * 2 ^ 53 * 1 := by norm_num
      _ ≤ d * 2 ^ 53 * 10 ^ k :=
        Nat.mul_le_mul (Nat.mul_le_mul_right _ hpos) (Nat.one_le_pow _ _ (by decide))
  rw [← hvalue] at hx
  rw [Float.Model.ofScientific, hmul, mul_eq _ _ hn hx hbits, Magnitude.toFloat]

/-- In whole numbers of any size, places after the point are a divisor. -/
theorem ofScientific_neg (hn : n.IsCanonical) (hpos : 0 < d) (hx : n.Attracts (d / 10 ^ k))
    (hk : k ≤ 2 ^ 11 + d.log2) (hk' : 0 < k) :
    Float.ofModel (Float.Model.ofScientific d (-k)) = Magnitude.toFloat hn := by
  have hdiv : UnpackedFloat.ofScientific Format.binary64 d (-k) = UnpackedFloat.div Format.binary64
      (.finite .positive d 0 hpos) (.finite .positive (10 ^ k) 0 (by positivity)) := by
    rw [ofScientific_of_bounds hpos (by rw [Nat.shiftLeft_eq]; positivity) (by omega) (by omega),
      if_neg (by omega)]
    simp only [neg_neg, Int.toNat_natCast]
  have hvalue : (d : ℚ) * 2 ^ (0 : ℤ) / ((10 ^ k : ℕ) * 2 ^ (0 : ℤ)) = d / 10 ^ k := by
    rw [zpow_zero]
    push_cast
    rw [mul_one, mul_one]
  rw [← hvalue] at hx
  rw [Float.Model.ofScientific, hdiv, div_eq _ _ hn hx, Magnitude.toFloat]

/-- A decimal with zeros after its digits is the number that attracts it. -/
theorem ofScientific_false (hn : n.IsCanonical) (hpos : 0 < d) (hx : n.Attracts (d * 10 ^ k))
    (hk : k ≤ 2 ^ 11) : Float.ofScientific d false k = Magnitude.toFloat hn := by
  rw [Float.ofScientific]
  by_cases hfast : d < 2 ^ 53 ∧ k ≤ 22
  · have hk' : k < Float.exactlyRepresentablePowersOfTen.size := Nat.lt_succ_of_le hfast.2
    obtain ⟨m, e, hm, hpower, hbits, hvalue⟩ := unpack_powerOfTen hk'
    have hcanonical := isCanonical_wholeMagnitude hpos hfast.1
    rw [dif_pos hfast]
    show Float.ofModel (Float.Model.pack (UnpackedFloat.mul Format.binary64
      d.toUInt64.toFloat.toModel.unpack Float.exactlyRepresentablePowersOfTen[k].toModel.unpack)) = _
    rw [unpack_toFloat hpos hfast.1, hpower, mul_eq _ _ hn, Magnitude.toFloat]
    · rw [value_wholeMagnitude hpos hfast.1, hvalue]
      exact hx
    · exact hbits.trans (Nat.le_mul_of_pos_left m hcanonical.pos)
  · rw [dif_neg hfast]
    exact ofScientific_nonneg hn hpos hx hk

/-- A decimal with places after the point is the number that attracts it. -/
theorem ofScientific_true (hn : n.IsCanonical) (hpos : 0 < d) (hx : n.Attracts (d / 10 ^ k))
    (hk : k ≤ 2 ^ 11 + d.log2) (hk' : 0 < k) :
    Float.ofScientific d true k = Magnitude.toFloat hn := by
  rw [Float.ofScientific]
  by_cases hfast : d < 2 ^ 53 ∧ k ≤ 22
  · have hk' : k < Float.exactlyRepresentablePowersOfTen.size := Nat.lt_succ_of_le hfast.2
    obtain ⟨m, e, hm, hpower, -, hvalue⟩ := unpack_powerOfTen hk'
    rw [dif_pos hfast]
    show Float.ofModel (Float.Model.pack (UnpackedFloat.div Format.binary64
      d.toUInt64.toFloat.toModel.unpack Float.exactlyRepresentablePowersOfTen[k].toModel.unpack)) = _
    rw [unpack_toFloat hpos hfast.1, hpower, div_eq _ _ hn, Magnitude.toFloat]
    rw [value_wholeMagnitude hpos hfast.1, hvalue]
    exact hx
  · -- too many digits or too large a power for one exact division
    rw [dif_neg hfast]
    have hneg : Int.negOfNat k = -(k : ℤ) := Int.negOfNat_eq
    show Float.ofModel (Float.Model.ofScientific d (Int.negOfNat k)) = _
    rw [hneg]
    exact ofScientific_neg hn hpos hx hk hk'

end

/-- What a number attracts is neither too small nor too large. -/
theorem bounds_of_attracts {n : Magnitude} (hn : n.IsCanonical) {x : ℚ} (hx : n.Attracts x) :
    (2 : ℚ) ^ (-1075 : ℤ) ≤ x ∧ x < 2 ^ (1024 : ℤ) := by
  have hpos := two_zpow_pos n.exponent
  have hlower := hx.nearest.lower
  have hupper := hx.nearest.upper
  rw [le_div_iff₀ hpos] at hlower
  rw [div_le_iff₀ hpos] at hupper
  constructor
  · have hmantissa : (1 : ℚ) ≤ n.mantissa := by exact_mod_cast hn.pos
    calc (2 : ℚ) ^ (-1075 : ℤ) ≤ 2 ^ (n.exponent - 1) :=
          zpow_le_zpow_right₀ one_le_two (by have := hn.least; omega)
      _ = 1 / 2 * 2 ^ n.exponent := by rw [zpow_sub_one₀ two_ne_zero]; ring
      _ ≤ (n.mantissa - 1 / 2) * 2 ^ n.exponent := by gcongr; linarith
      _ ≤ x := hlower
  · have hmantissa : (n.mantissa : ℚ) + 1 ≤ 2 ^ 53 := by exact_mod_cast hn.bound
    calc x ≤ (n.mantissa + 1 / 2) * 2 ^ n.exponent := hupper
      _ < 2 ^ 53 * 2 ^ n.exponent := by gcongr; linarith
      _ ≤ 2 ^ 53 * 2 ^ (971 : ℤ) := by
        gcongr
        · exact one_le_two
        · exact hn.greatest
      _ = 2 ^ (1024 : ℤ) := by rw [← zpow_natCast, ← zpow_add₀ two_ne_zero]; rfl

/-- Powers of two of this size stay below powers of ten. -/
theorem two_zpow_lt_ten_zpow : (2 : ℚ) ^ (1200 : ℤ) < 10 ^ (400 : ℤ) := by
  have hpow : ((2 : ℚ) ^ 12) ^ 100 < (10 ^ 4) ^ 100 := by gcongr; norm_num
  rw [← pow_mul, ← pow_mul] at hpow
  exact hpow

theorem length_toDigits_bounds {d : ℕ} (hpos : 0 < d) :
    10 ^ ((Nat.toDigits 10 d).length - 1) ≤ d ∧ d < 10 ^ (Nat.toDigits 10 d).length ∧
      (Nat.toDigits 10 d).length ≤ d.log2 + 1 ∧ 0 < (Nat.toDigits 10 d).length := by
  have hlength : 0 < (Nat.toDigits 10 d).length := Nat.length_toDigits_pos
  have hle : ∀ k, 0 < k → ((Nat.toDigits 10 d).length ≤ k ↔ d < 10 ^ k) :=
    fun k hk => Nat.length_toDigits_le_iff (by decide) hk
  refine ⟨?_, (hle _ hlength).1 le_rfl, ?_, hlength⟩
  · by_cases hone : (Nat.toDigits 10 d).length = 1
    · rw [hone]
      exact hpos
    · by_contra hlt
      have := (hle _ (by omega)).2 (not_le.1 hlt)
      omega
  · refine (hle _ (Nat.succ_pos _)).2 ?_
    calc d < 2 ^ (d.log2 + 1) := Nat.lt_log2_self
      _ ≤ 10 ^ (d.log2 + 1) := Nat.pow_le_pow_left (by decide) _

/-- A decimal is read as the number that attracts it. -/
theorem ofDecimal_eq {n : Magnitude} (hn : n.IsCanonical) {d : ℕ} {e : ℤ} (hpos : 0 < d)
    (hx : n.Attracts (d * 10 ^ e)) : ofDecimal d e = Magnitude.toFloat hn := by
  obtain ⟨hlow, hhigh⟩ := bounds_of_attracts hn hx
  obtain ⟨hdigits, hdigits', hlog, hlength⟩ := length_toDigits_bounds hpos
  rw [ofDecimal]
  set length := (Nat.toDigits 10 d).length with hl
  have hten : ∀ k : ℕ, (10 : ℚ) ^ k * 10 ^ e = 10 ^ ((k : ℤ) + e) := by
    intro k
    rw [zpow_add₀ (by norm_num), zpow_natCast]
  -- no decimal of this size is cut off to zero or to infinity
  have hsmall : -400 ≤ (length : ℤ) + e := by
    by_contra hlt
    have hlt' : (d : ℚ) * 10 ^ e < 2 ^ (-1200 : ℤ) := by
      calc (d : ℚ) * 10 ^ e < 10 ^ length * 10 ^ e := by gcongr; exact_mod_cast hdigits'
        _ = 10 ^ ((length : ℤ) + e) := hten length
        _ ≤ 10 ^ (-400 : ℤ) := zpow_le_zpow_right₀ (by norm_num) (by omega)
        _ < 2 ^ (-1200 : ℤ) := by
          rw [zpow_neg, zpow_neg]
          exact inv_strictAnti₀ (two_zpow_pos _) two_zpow_lt_ten_zpow
    have := (zpow_lt_zpow_iff_right₀ one_lt_two).1 (lt_of_le_of_lt hlow hlt')
    omega
  have hlarge : (length : ℤ) + e ≤ 400 := by
    by_contra hlt
    have hlt' : (2 : ℚ) ^ (1200 : ℤ) < 2 ^ (1024 : ℤ) := by
      calc (2 : ℚ) ^ (1200 : ℤ) < 10 ^ (400 : ℤ) := two_zpow_lt_ten_zpow
        _ ≤ 10 ^ (((length - 1 : ℕ) : ℤ) + e) := zpow_le_zpow_right₀ (by norm_num) (by omega)
        _ = 10 ^ (length - 1) * 10 ^ e := (hten _).symm
        _ ≤ d * 10 ^ e := by gcongr; exact_mod_cast hdigits
        _ < 2 ^ (1024 : ℤ) := hhigh
    have := (zpow_lt_zpow_iff_right₀ one_lt_two).1 hlt'
    omega
  have hguard : (decide (d = 0) || decide ((length : ℤ) + e < -400)) = false := by
    simp
    omega
  rw [hguard, if_neg Bool.false_ne_true, if_neg (by omega)]
  by_cases he : 0 ≤ e
  · rw [if_pos he]
    obtain ⟨k, rfl⟩ := Int.eq_ofNat_of_zero_le he
    exact ofScientific_false hn hpos (by simpa using hx) (by omega)
  · rw [if_neg he]
    obtain ⟨k, hk⟩ := Int.eq_ofNat_of_zero_le (show 0 ≤ -e by omega)
    obtain rfl : e = -k := by omega
    have hk' : (- -(k : ℤ)).toNat = k := by omega
    rw [hk']
    refine ofScientific_true hn hpos ?_ (by omega) (by omega)
    rw [zpow_neg, zpow_natCast] at hx
    exact hx

end StoryScript.Decimal
