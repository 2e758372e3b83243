/-
  Rounding to the nearest number.

  A number attracts the rationals that are nearer to it than to any other number, and
  of those halfway to the next the ones that it wins by its even mantissa. Rounding a
  rational, known as a mantissa with the place of the rest, gives the number that
  attracts it.
-/
import Mathlib
import StoryScript.Decimal.Exact

namespace StoryScript.Decimal

open Float.Model Float.Model.UnpackedFloat

/-! ## The nearest integer -/

/-- `n` is the integer nearest to `y`; of two equally near, the even one. -/
structure IsNearest (n : ℕ) (y : ℚ) : Prop where
  lower : (n : ℚ) - 1 / 2 ≤ y
  upper : y ≤ n + 1 / 2
  tie : y = n - 1 / 2 ∨ y = n + 1 / 2 → n % 2 = 0

theorem IsNearest.unique {n m : ℕ} {y : ℚ} (hn : IsNearest n y) (hm : IsNearest m y) : n = m := by
  by_contra hne
  wlog hlt : n < m generalizing n m
  · exact this hm hn (Ne.symm hne) (by omega)
  -- both are half a unit away, so both are even and yet neighbours
  have hle : (n : ℚ) + 1 ≤ m := by exact_mod_cast hlt
  have hupper := hn.upper
  have hlower := hm.lower
  have hy : y = n + 1 / 2 := by linarith
  have hy' : y = m - 1 / 2 := by linarith
  have hmn : (m : ℚ) = n + 1 := by linarith
  have hmn' : m = n + 1 := by exact_mod_cast hmn
  have hn' := hn.tie (.inr hy)
  have hm' := hm.tie (.inl hy')
  omega

/-- A mantissa is the floor of `y`; its round bit says whether the rest is at least a half, and its
sticky bit whether the rest is neither nothing nor a half. -/
structure Holds (em : ExtendedMantissa) (y : ℚ) : Prop where
  floor : (em.mantissa : ℚ) ≤ y ∧ y < em.mantissa + 1
  round : em.roundBit = true ↔ (em.mantissa : ℚ) + 1 / 2 ≤ y
  sticky : em.stickyBit = true ↔ y ≠ em.mantissa ∧ y ≠ em.mantissa + 1 / 2

theorem Holds.isNearest {em : ExtendedMantissa} {y : ℚ} (h : Holds em y) :
    IsNearest em.roundedMantissa y := by
  obtain ⟨m, round, sticky⟩ := em
  obtain ⟨⟨hfloor, hceil⟩, hround, hsticky⟩ := h
  simp only at hfloor hceil hround hsticky
  cases round with
  | false =>
    -- less than a half is left, and the mantissa stays
    have hhalf : y < m + 1 / 2 := by simpa using hround
    have hmantissa : ExtendedMantissa.roundedMantissa ⟨m, false, sticky⟩ = m := by
      cases sticky <;> rfl
    rw [hmantissa]
    refine ⟨by linarith, by linarith, ?_⟩
    rintro (hy | hy) <;> linarith
  | true =>
    have hhalf : (m : ℚ) + 1 / 2 ≤ y := by simpa using hround
    cases sticky with
    | false =>
      have hy : y = m + 1 / 2 := by
        by_contra hne
        have hm : y = m := by
          by_contra hm
          exact absurd (hsticky.2 ⟨hm, hne⟩) Bool.false_ne_true
        linarith
      show IsNearest (m + m % 2) y
      rcases Nat.mod_two_eq_zero_or_one m with heven | hodd
      · rw [heven]
        exact ⟨by push_cast; linarith, by push_cast; linarith, fun _ => by omega⟩
      · rw [hodd]
        exact ⟨by push_cast; linarith, by push_cast; linarith, fun _ => by omega⟩
    | true =>
      show IsNearest (m + 1) y
      have hne : y ≠ m + 1 / 2 := (hsticky.1 rfl).2
      have hgt : (m : ℚ) + 1 / 2 < y := lt_of_le_of_ne hhalf hne.symm
      refine ⟨by push_cast; linarith, by push_cast; linarith, ?_⟩
      push_cast
      rintro (hy | hy) <;> linarith

theorem Holds.shiftRightOne {em : ExtendedMantissa} {y : ℚ} (h : Holds em y) :
    Holds em.shiftRightOne (y / 2) := by
  obtain ⟨m, round, sticky⟩ := em
  obtain ⟨⟨hfloor, hceil⟩, hround, hsticky⟩ := h
  simp only at hfloor hceil hround hsticky
  have hrest : (round || sticky) = true ↔ y ≠ m := by
    rw [Bool.or_eq_true, hround, hsticky]
    constructor
    · rintro (hhalf | ⟨hne, -⟩)
      · intro hm
        linarith
      · exact hne
    · intro hne
      by_cases hhalf : y = m + 1 / 2
      · exact .inl hhalf.ge
      · exact .inr ⟨hne, hhalf⟩
  obtain ⟨q, rfl | rfl⟩ := Nat.even_or_odd' m
  · -- the bit that is dropped is zero
    have hq : 2 * q / 2 = q := by omega
    push_cast at hfloor hceil hrest
    refine ⟨?_, ?_, ?_⟩
    · simp only [ExtendedMantissa.shiftRightOne, hq]
      constructor <;> linarith
    · simp only [ExtendedMantissa.shiftRightOne, hq]
      simp
      linarith
    · simp only [ExtendedMantissa.shiftRightOne, hq, hrest]
      constructor
      · intro hne
        exact ⟨fun h => hne (by linarith), fun h => by linarith⟩
      · rintro ⟨hne, -⟩ hm
        exact hne (by linarith)
  · -- the bit that is dropped is a half of what stays
    have hq : (2 * q + 1) / 2 = q := by omega
    push_cast at hfloor hceil hrest
    refine ⟨?_, ?_, ?_⟩
    · simp only [ExtendedMantissa.shiftRightOne, hq]
      constructor <;> linarith
    · simp only [ExtendedMantissa.shiftRightOne, hq]
      simp
      linarith
    · simp only [ExtendedMantissa.shiftRightOne, hq, hrest]
      constructor
      · intro hne
        exact ⟨fun h => by linarith, fun h => hne (by linarith)⟩
      · rintro ⟨-, hne⟩ hm
        exact hne (by linarith)

theorem Holds.shiftRight {em : ExtendedMantissa} {y : ℚ} (h : Holds em y) (n : ℕ) :
    Holds (em >>> n) (y / 2 ^ n) := by
  show Holds (Nat.repeat ExtendedMantissa.shiftRightOne n em) (y / 2 ^ n)
  induction n with
  | zero => simpa [Nat.repeat] using h
  | succ n ih =>
    rw [Nat.repeat, pow_succ, ← div_div]
    exact ih.shiftRightOne

/-! ## Numbers and what they attract -/

namespace Magnitude

/-- The magnitude of a finite number that is not zero, in the form in which numbers are kept. -/
structure IsCanonical (m : Magnitude) : Prop where
  pos : 0 < m.mantissa
  bound : m.mantissa < 2 ^ 53
  least : -1074 ≤ m.exponent
  greatest : m.exponent ≤ 971
  normal : 2 ^ 52 ≤ m.mantissa ∨ m.exponent = -1074

/-- The number is the nearest to `x`, where of two equally near the one with the even mantissa
counts. Below a power of two the numbers are twice as dense. -/
structure Attracts (m : Magnitude) (x : ℚ) : Prop where
  nearest : IsNearest m.mantissa (x / 2 ^ m.exponent)
  dense : m.mantissa = 2 ^ 52 → -1074 < m.exponent → (m.mantissa : ℚ) - 1 / 4 ≤ x / 2 ^ m.exponent

end Magnitude

theorem targetExponent_eq (t : ℤ) : Format.binary64.targetExponent t = max (t - 53) (-1074) :=
  rfl

theorem totalExponent_eq (m : ℕ) (e : ℤ) : totalExponent m e = m.log2 + 1 + e :=
  rfl

theorem two_zpow_pos (e : ℤ) : (0 : ℚ) < 2 ^ e :=
  zpow_pos two_pos e

/-- A rational whose floor in units of `2 ^ e` is `m` lies below the next power of two, and not
below the power of two at the leading bit, if there is one. -/
theorem bounds_of_floor {m : ℕ} {e : ℤ} {x : ℚ} (hfloor : (m : ℚ) ≤ x / 2 ^ e)
    (hceil : x / 2 ^ e < m + 1) :
    x < 2 ^ (m.log2 + 1 + e) ∧ (m ≠ 0 → (2 : ℚ) ^ (m.log2 + e) ≤ x) := by
  have hpos := two_zpow_pos e
  constructor
  · have hlt : m + 1 ≤ 2 ^ (m.log2 + 1) := Nat.lt_log2_self
    have hlt' : (m : ℚ) + 1 ≤ 2 ^ (m.log2 + 1) := by exact_mod_cast hlt
    rw [div_lt_iff₀ hpos] at hceil
    calc x < (m + 1) * 2 ^ e := hceil
      _ ≤ 2 ^ (m.log2 + 1) * 2 ^ e := by gcongr
      _ = 2 ^ ((m.log2 : ℤ) + 1 + e) := by
        rw [zpow_add₀ two_ne_zero]
        norm_cast
  · intro hm
    have hle : (2 : ℚ) ^ m.log2 ≤ m := by exact_mod_cast Nat.log2_self_le hm
    rw [le_div_iff₀ hpos] at hfloor
    calc (2 : ℚ) ^ ((m.log2 : ℤ) + e) = 2 ^ m.log2 * 2 ^ e := by
          rw [zpow_add₀ two_ne_zero, zpow_natCast]
      _ ≤ m * 2 ^ e := by gcongr
      _ ≤ x := hfloor

theorem exponent_lt {a b : ℤ} {x : ℚ} (ha : (2 : ℚ) ^ a ≤ x) (hb : x < 2 ^ b) : a < b :=
  (zpow_lt_zpow_iff_right₀ one_lt_two).1 (lt_of_le_of_lt ha hb)

/-- The exponent of what a number attracts is its own, or one less just below a power of two. -/
theorem targetExponent_of_attracts {n : Magnitude} (hn : n.IsCanonical) {m : ℕ} {e : ℤ} {x : ℚ}
    (hx : n.Attracts x) (hfloor : (m : ℚ) ≤ x / 2 ^ e) (hceil : x / 2 ^ e < m + 1)
    (he : e ≤ Format.binary64.targetExponent (totalExponent m e)) :
    Format.binary64.targetExponent (totalExponent m e) = n.exponent ∨
      n.mantissa = 2 ^ 52 ∧ -1074 < n.exponent ∧ x < 2 ^ 52 * 2 ^ n.exponent ∧
        Format.binary64.targetExponent (totalExponent m e) = n.exponent - 1 := by
  obtain ⟨hlt, hge⟩ := bounds_of_floor hfloor hceil
  rw [targetExponent_eq, totalExponent_eq] at he ⊢
  have hpos := two_zpow_pos n.exponent
  have hleast := hn.least
  have hsplit : ∀ k : ℕ, (2 : ℚ) ^ ((k : ℤ) + n.exponent) = 2 ^ k * 2 ^ n.exponent := by
    intro k
    rw [zpow_add₀ two_ne_zero, zpow_natCast]
  -- from above, rounding to `n` bounds `x` by the next power of two
  have hupper : x < 2 ^ ((53 : ℕ) + n.exponent) := by
    have hbound : (n.mantissa : ℚ) + 1 ≤ 2 ^ 53 := by exact_mod_cast hn.bound
    have hle := hx.nearest.upper
    rw [div_le_iff₀ hpos] at hle
    rw [hsplit]
    nlinarith
  have hle : (m.log2 : ℤ) + e ≤ 52 + n.exponent := by
    by_cases hm : m = 0
    · -- nothing but the rest is left, so the exponent is the least
      subst hm
      simp at he ⊢
      omega
    · have := exponent_lt (hge hm) hupper
      push_cast at this
      omega
  -- from below it bounds `x` by the last one, unless `n` is that power itself
  by_cases hexponent : n.exponent = -1074
  · left
    omega
  have hnormal : 2 ^ 52 ≤ n.mantissa := hn.normal.resolve_right hexponent
  by_cases hpower : n.mantissa = 2 ^ 52
  · have hlower : (2 : ℚ) ^ ((51 : ℕ) + n.exponent) ≤ x := by
      have hdense := hx.dense hpower (by omega)
      rw [le_div_iff₀ hpos, hpower] at hdense
      push_cast at hdense
      rw [hsplit]
      nlinarith
    have hlt' := exponent_lt hlower hlt
    push_cast at hlt'
    by_cases hexact : (m.log2 : ℤ) + e = 52 + n.exponent
    · left
      omega
    · right
      refine ⟨hpower, by omega, ?_, by omega⟩
      have heq : (m.log2 : ℤ) + 1 + e = (52 : ℕ) + n.exponent := by push_cast; omega
      rwa [heq, hsplit] at hlt
  · left
    have hlower : (2 : ℚ) ^ ((52 : ℕ) + n.exponent) ≤ x := by
      have hgt : 2 ^ 52 + 1 ≤ n.mantissa := by omega
      have hgt' : (2 : ℚ) ^ 52 + 1 ≤ n.mantissa := by exact_mod_cast hgt
      have hle := hx.nearest.lower
      rw [le_div_iff₀ hpos] at hle
      rw [hsplit]
      nlinarith
    have hlt' := exponent_lt hlower hlt
    push_cast at hlt'
    omega

/-! ## Rounding -/

theorem floor_of_holds {m : ℕ} {a : Accuracy} {y : ℚ} (h : Holds (.ofMantissaAndAccuracy m a) y) :
    (m : ℚ) ≤ y ∧ y < m + 1 := by
  have hm : (ExtendedMantissa.ofMantissaAndAccuracy m a).mantissa = m := by
    rcases a with _ | _ | _ | _ <;> rfl
  rw [← hm]
  exact h.floor

theorem shiftToTargetExponent_eq {m : ℕ} {e : ℤ} {a : Accuracy} {x : ℚ}
    (h : Holds (.ofMantissaAndAccuracy m a) (x / 2 ^ e))
    (he : e ≤ Format.binary64.targetExponent (totalExponent m e)) :
    Holds (shiftToTargetExponent Format.binary64 m e a).1
        (x / 2 ^ Format.binary64.targetExponent (totalExponent m e)) ∧
      (shiftToTargetExponent Format.binary64 m e a).2 =
        Format.binary64.targetExponent (totalExponent m e) := by
  set target := Format.binary64.targetExponent (totalExponent m e) with htarget
  have hexponent : e + ((target - e).toNat : ℤ) = target := by omega
  rw [shiftToTargetExponent, ← htarget, shiftToExponent]
  refine ⟨?_, hexponent⟩
  have hdiv : x / 2 ^ target = x / 2 ^ e / 2 ^ (target - e).toNat := by
    rw [div_div, ← zpow_natCast (2 : ℚ), ← zpow_add₀ two_ne_zero, hexponent]
  rw [hdiv]
  exact h.shiftRight _

/-- A mantissa that fits stays. -/
theorem shiftToTargetExponent_of_fits {m : ℕ} {e : ℤ} (hm : m < 2 ^ 53) (he : -1074 ≤ e) :
    shiftToTargetExponent Format.binary64 m e .exact = (⟨m, false, false⟩, e) := by
  have hlog : m.log2 ≤ 52 := by
    by_cases hzero : m = 0
    · simp [hzero]
    · have := (Nat.log2_lt hzero).2 hm
      omega
  have hshift : (Format.binary64.targetExponent (totalExponent m e) - e).toNat = 0 := by
    rw [targetExponent_eq, totalExponent_eq]
    omega
  rw [shiftToTargetExponent, shiftToExponent, hshift]
  simp
  rfl

/-- A mantissa that is one power of two too large loses its last bit, which is zero. -/
theorem shiftToTargetExponent_of_overflow {e : ℤ} (he : -1074 ≤ e) :
    shiftToTargetExponent Format.binary64 (2 ^ 53) e .exact = (⟨2 ^ 52, false, false⟩, e + 1) := by
  have hshift : (Format.binary64.targetExponent (totalExponent (2 ^ 53) e) - e).toNat = 1 := by
    rw [targetExponent_eq, totalExponent_eq, Nat.log2_two_pow]
    omega
  rw [shiftToTargetExponent, shiftToExponent, hshift]
  rfl

/-- Rounding gives the number that attracts. -/
theorem roundWithAccuracy_eq {n : Magnitude} (hn : n.IsCanonical) {m : ℕ} {e : ℤ} {a : Accuracy}
    {x : ℚ} (hx : n.Attracts x) (h : Holds (.ofMantissaAndAccuracy m a) (x / 2 ^ e))
    (he : e ≤ Format.binary64.targetExponent (totalExponent m e)) (s : Sign) :
    roundWithAccuracy Format.binary64 s m e a = .finite s n.mantissa n.exponent hn.pos := by
  obtain ⟨hholds, hexponent⟩ := shiftToTargetExponent_eq h he
  have hfloor := floor_of_holds h
  have hnearest := hholds.isNearest
  rw [roundWithAccuracy]
  rcases targetExponent_of_attracts hn hx hfloor.1 hfloor.2 he with heq | ⟨hpower, hleast, hbelow, heq⟩
  · rw [heq] at hnearest
    have hmantissa := hnearest.unique hx.nearest
    simp [hmantissa, hexponent, heq, shiftToTargetExponent_of_fits hn.bound hn.least, hn.pos.ne']
  · -- just below a power of two, the mantissa rounds up to that power
    have hdouble : x / 2 ^ (n.exponent - 1) = 2 * (x / 2 ^ n.exponent) := by
      rw [zpow_sub_one₀ two_ne_zero]
      field_simp
    have hup : IsNearest (2 ^ 53) (x / 2 ^ (n.exponent - 1)) := by
      have hdense := hx.dense hpower hleast
      rw [hpower] at hdense
      rw [← div_lt_iff₀ (two_zpow_pos _)] at hbelow
      rw [hdouble]
      push_cast at hdense ⊢
      refine ⟨?_, ?_, fun _ => by norm_num⟩
      · push_cast
        linarith
      · push_cast
        linarith
    rw [heq] at hnearest
    have hmantissa := hnearest.unique hup
    have hsub : n.exponent - 1 + 1 = n.exponent := by omega
    have hoverflow := shiftToTargetExponent_of_overflow (show -1074 ≤ n.exponent - 1 by omega)
    simp only [hmantissa, hexponent, heq, hoverflow, hpower, hsub]
    rfl

end StoryScript.Decimal
