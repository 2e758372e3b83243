/-
  Numbers read back from their texts.

  The digits that are written for a number are a decimal that the number attracts, so
  reading the text gives the number again. A negative number is read as the difference
  of zero and its size; of the two zeros only the one without a sign comes back.
-/
import Mathlib
import StoryScript.Proofs.Decimal.Numeral
import StoryScript.Proofs.Decimal.Scientific
import StoryScript.Token.Pattern.Code

namespace StoryScript.Decimal

open Float.Model Float.Model.UnpackedFloat

/-- The rational that a decimal denotes. -/
def Digits.value (d : Digits) : ℚ :=
  d.digits * 10 ^ d.exponent

/-! ## Candidates -/

namespace Magnitude

/-- The exact expansion: its unit is the distance to the next number in its scale. -/
theorem expand_eq (m : Magnitude) :
    m.expand.value = m.mantissa * m.expand.unit ∧ 0 < m.expand.unit ∧
      (m.expand.unit : ℚ) = 2 ^ m.exponent * 10 ^ m.expand.places := by
  rw [expand]
  by_cases h : 0 ≤ m.exponent
  · rw [if_pos h]
    obtain ⟨k, hk⟩ := Int.eq_ofNat_of_zero_le h
    refine ⟨rfl, Nat.pow_pos (by decide), ?_⟩
    simp [hk]
  · rw [if_neg h]
    obtain ⟨k, hk⟩ := Int.eq_ofNat_of_zero_le (show 0 ≤ -m.exponent by omega)
    refine ⟨rfl, Nat.pow_pos (by decide), ?_⟩
    have hexponent : m.exponent = -k := by omega
    have hten : (10 : ℚ) ^ k = 2 ^ k * 5 ^ k := by rw [← mul_pow]; norm_num
    simp only [hexponent, neg_neg, Int.toNat_natCast, zpow_neg, zpow_natCast]
    rw [hten, inv_mul_cancel_left₀ (by positivity)]
    exact Nat.cast_pow 5 k

/-- The same for candidates in the scale of an expansion, at most half a unit away. -/
theorem isNearest_of_scaled {m c u : ℕ} (hu : 0 < u)
    (h : 4 * (m * u) ≤ 4 * c + 2 * u ∧ 4 * c ≤ 4 * (m * u) + 2 * u ∧ m % 2 = 0 ∨
      4 * (m * u) < 4 * c + 2 * u ∧ 4 * c < 4 * (m * u) + 2 * u) : IsNearest m (c / u) := by
  have hu' : (0 : ℚ) < u := by exact_mod_cast hu
  rcases h with ⟨hlow, hhigh, heven⟩ | ⟨hlow, hhigh⟩
  · have hlow' : 4 * ((m : ℚ) * u) ≤ 4 * c + 2 * u := by exact_mod_cast hlow
    have hhigh' : 4 * (c : ℚ) ≤ 4 * (m * u) + 2 * u := by exact_mod_cast hhigh
    refine ⟨?_, ?_, fun _ => heven⟩
    · rw [le_div_iff₀ hu']
      linarith
    · rw [div_le_iff₀ hu']
      linarith
  · have hlow' : 4 * ((m : ℚ) * u) < 4 * c + 2 * u := by exact_mod_cast hlow
    have hhigh' : 4 * (c : ℚ) < 4 * (m * u) + 2 * u := by exact_mod_cast hhigh
    have hlow'' : (m : ℚ) - 1 / 2 < c / u := by
      rw [lt_div_iff₀ hu']
      linarith
    have hhigh'' : (c : ℚ) / u < m + 1 / 2 := by
      rw [div_lt_iff₀ hu']
      linarith
    refine ⟨hlow''.le, hhigh''.le, ?_⟩
    rintro (htie | htie) <;> linarith

/-- A candidate that is taken to read back is one that the number attracts. -/
theorem attracts_of_readsBack {m : Magnitude} {c : ℕ} (h : m.readsBack m.expand c = true) :
    m.Attracts (c / 10 ^ m.expand.places) := by
  obtain ⟨hvalue, hunit, hscale⟩ := m.expand_eq
  have hy : (c : ℚ) / 10 ^ m.expand.places / 2 ^ m.exponent = c / m.expand.unit := by
    rw [hscale, div_div, mul_comm]
  rw [readsBack, hvalue] at h
  generalize m.expand.unit = u at *
  have hunit' : (0 : ℚ) < u := by exact_mod_cast hunit
  by_cases hpower : m.mantissa = 2 ^ 52 ∧ -1074 < m.exponent
  · -- a quarter of a unit below, and the mantissa is even
    have hbelow : (m.mantissa = Nat.pow 2 52 && decide (-1074 < m.exponent)) = true := by
      simpa using hpower
    have heven : m.mantissa % 2 = 0 := by omega
    simp only [hbelow, if_true, heven, Bool.and_eq_true, decide_eq_true_eq] at h
    refine ⟨?_, fun _ _ => ?_⟩
    · rw [hy]
      exact isNearest_of_scaled hunit (.inl ⟨by omega, h.2, heven⟩)
    · have hlow : 4 * ((m.mantissa : ℚ) * u) ≤ 4 * c + u := by exact_mod_cast h.1
      rw [hy, le_div_iff₀ hunit']
      linarith
  · have hbelow : (m.mantissa = Nat.pow 2 52 && decide (-1074 < m.exponent)) = false := by
      simpa using hpower
    refine ⟨?_, fun h₁ h₂ => absurd ⟨h₁, h₂⟩ hpower⟩
    rw [hy]
    refine isNearest_of_scaled hunit ?_
    simp only [hbelow, Bool.false_eq_true, if_false] at h
    split at h
    · rename_i heven
      simp only [Bool.and_eq_true, decide_eq_true_eq] at h
      exact .inl ⟨h.1, h.2, heven⟩
    · simp only [Bool.and_eq_true, decide_eq_true_eq] at h
      exact .inr h

/-- The digits found for a count are a candidate that reads back. -/
theorem attracts_of_withDigits? {m : Magnitude} {count : ℕ} {d : Digits}
    (h : m.withDigits? m.expand count = some d) : m.Attracts d.value := by
  set dropped := digitCount m.expand.value - count with hdropped
  -- whichever neighbour is taken, it was tested in the scale of the expansion
  have htested : ∃ digits, d = ⟨digits, (dropped : ℤ) - m.expand.places⟩ ∧
      m.readsBack m.expand (digits * 10 ^ dropped) = true := by
    rw [withDigits?] at h
    split at h
    · split at h
      · exact ⟨_, (Option.some.inj h).symm, by assumption⟩
      · exact ⟨_, (Option.some.inj h).symm, by assumption⟩
    · exact ⟨_, (Option.some.inj h).symm, by assumption⟩
    · exact ⟨_, (Option.some.inj h).symm, by assumption⟩
    · cases h
  obtain ⟨digits, rfl, hread⟩ := htested
  have hvalue : Digits.value ⟨digits, (dropped : ℤ) - m.expand.places⟩ =
      (digits * 10 ^ dropped : ℕ) / 10 ^ m.expand.places := by
    rw [Digits.value, zpow_sub₀ (by norm_num), zpow_natCast, zpow_natCast]
    push_cast
    ring
  rw [hvalue]
  exact attracts_of_readsBack hread

end Magnitude

theorem Digits.value_stripZeros (fuel : ℕ) (d : Digits) : (stripZeros fuel d).value = d.value := by
  induction fuel generalizing d with
  | zero => rfl
  | succ fuel ih =>
    rw [stripZeros]
    split
    · rename_i h
      simp only [Bool.and_eq_true, decide_eq_true_eq] at h
      have hdigits : d.digits = d.digits / 10 * 10 := by omega
      have hdigits' : (d.digits : ℚ) = (d.digits / 10 : ℕ) * 10 := by exact_mod_cast hdigits
      rw [ih, Digits.value, Digits.value, hdigits', zpow_add_one₀ (by norm_num)]
      ring
    · rfl

/-- The shortest digits of a number are a decimal that it attracts. -/
theorem Magnitude.attracts_shortest (m : Magnitude) : m.Attracts m.shortest.value := by
  rw [shortest, Digits.value_stripZeros]
  cases hfound : (List.range 17).findSome? fun n => m.withDigits? m.expand (n + 1) with
  | some d =>
    obtain ⟨n, -, hn⟩ := List.exists_of_findSome?_eq_some hfound
    exact attracts_of_withDigits? hn
  | none =>
    -- all the digits of the number, which are exact
    obtain ⟨hvalue, -, hscale⟩ := m.expand_eq
    have hexact : Digits.value ⟨m.expand.value, -m.expand.places⟩ = m.mantissa * 2 ^ m.exponent := by
      rw [Digits.value, hvalue, zpow_neg, zpow_natCast]
      push_cast
      rw [hscale, mul_assoc, mul_assoc, mul_inv_cancel₀ (by positivity), mul_one]
    show m.Attracts (Digits.value ⟨m.expand.value, -m.expand.places⟩)
    rw [hexact]
    exact attracts_self m

/-! ## Reading what was written -/

theorem numberOf_positional {m : Magnitude} (hm : m.IsCanonical) {d : Digits}
    (h : m.Attracts d.value) : Pattern.numberOf d.positional = Magnitude.toFloat hm := by
  have hpos : 0 < d.digits := by
    by_contra hzero
    have hvalue : d.value = 0 := by
      rw [Digits.value, Nat.eq_zero_of_not_pos hzero, Nat.cast_zero, zero_mul]
    have hlow := (bounds_of_attracts hm h).1
    rw [hvalue] at hlow
    exact absurd hlow (not_le.2 (two_zpow_pos _))
  rw [Pattern.numberOf, read?_positional, Option.getD_some]
  by_cases hwhole : 0 ≤ d.exponent
  · rw [if_pos hwhole]
    refine ofDecimal_eq hm (Nat.mul_pos hpos (by positivity)) ?_
    obtain ⟨k, hk⟩ := Int.eq_ofNat_of_zero_le hwhole
    rw [Digits.value, hk, zpow_natCast] at h
    rw [hk]
    simpa using h
  · rw [if_neg hwhole]
    exact ofDecimal_eq hm hpos h

/-- The text of a finite number without its sign is read as its size. -/
theorem numberOf_unsignedText {x : Float} (h : x.isFinite = true) :
    (∃ s, x.toModel.unpack = .zero s ∧ Pattern.numberOf (unsignedText x) = 0) ∨
    ∃ hm : (magnitude x).IsCanonical, x.toModel.unpack =
      .finite (signOf x) (magnitude x).mantissa (magnitude x).exponent hm.pos ∧
        Pattern.numberOf (unsignedText x) = Magnitude.toFloat hm := by
  rw [unsignedText, isInf_of_isFinite h, if_neg Bool.false_ne_true]
  rcases unpack_of_isFinite h with ⟨hzero, hu⟩ | ⟨hm, hu⟩
  · rw [if_pos hzero]
    exact .inl ⟨_, hu, rfl⟩
  · rw [if_neg hm.pos.ne']
    exact .inr ⟨hm, hu, numberOf_positional hm (Magnitude.attracts_shortest _)⟩

/-- The number that the text of a number denotes as code: a minus sign takes the size from zero. -/
def readBack (x : Float) : Float :=
  if isNegative x then 0 - Pattern.numberOf (unsignedText x) else Pattern.numberOf (unsignedText x)

/-- A finite number comes back from its text, without the sign if it is a zero. -/
theorem readBack_eq {x : Float} (h : x.isFinite = true) : readBack x = plain x := by
  have hpack := pack_unpack h
  rw [readBack]
  rcases numberOf_unsignedText h with ⟨s, hu, hnumber⟩ | ⟨hm, hu, hnumber⟩
  · rw [hnumber, plain_of_zero hu]
    split <;> rfl
  · have hne : (x == 0) = false := by
      rw [beq_eq, hu, unpack_zero]
      cases signOf x <;> rfl
    rw [hnumber, plain_of_ne_zero hne]
    rw [hu, signOf] at hpack
    split
    · -- taking a size from zero only turns its sign
      rename_i hneg
      rw [hneg, if_pos rfl] at hpack
      show Float.ofModel (Float.Model.pack (UnpackedFloat.sub Format.binary64
        (0 : Float).toModel.unpack (Magnitude.toFloat hm).toModel.unpack)) = x
      rw [unpack_zero, Magnitude.toFloat, unpack_pack hm]
      exact congrArg Float.ofModel hpack
    · rename_i hneg
      rw [if_neg hneg] at hpack
      rw [Magnitude.toFloat, hpack]

end StoryScript.Decimal
