/-
  Numerals: the texts of numbers without a sign.

  A numeral is digits with an optional fraction, and reading it gives the decimal that
  its digits make up. The text of a finite number without its sign is a numeral.
-/
import Mathlib
import StoryScript.Decimal.Printer
import StoryScript.Decimal.Reader

namespace StoryScript.Decimal

/-- Digits with an optional fraction. -/
inductive IsNumeral : List Char → Prop where
  | whole {digits : List Char} (hne : digits ≠ []) (hdigits : digits.all Char.isDigit = true) :
      IsNumeral digits
  | fraction {digits places : List Char} (hne : digits ≠ [])
      (hdigits : digits.all Char.isDigit = true) (hne' : places ≠ [])
      (hplaces : places.all Char.isDigit = true) : IsNumeral (digits ++ '.' :: places)

theorem IsNumeral.head {text : List Char} (h : IsNumeral text) :
    ∃ c cs, text = c :: cs ∧ c.isDigit = true := by
  cases h with
  | whole hne hdigits =>
    obtain ⟨c, cs, rfl⟩ := List.exists_cons_of_ne_nil hne
    exact ⟨c, cs, rfl, by simp_all⟩
  | fraction hne hdigits hne' hplaces =>
    obtain ⟨c, cs, rfl⟩ := List.exists_cons_of_ne_nil hne
    exact ⟨c, _, rfl, by simp_all⟩

/-! ## Texts of numbers -/

theorem all_isDigit_toDigits (n : Nat) : (Nat.toDigits 10 n).all Char.isDigit = true := by
  rw [List.all_eq_true]
  intro c hc
  exact Nat.isDigit_of_mem_toDigits (by decide) (by decide) hc

theorem all_isDigit_replicate (n : Nat) : (List.replicate n '0').all Char.isDigit = true := by
  rw [List.all_eq_true]
  intro c hc
  rw [List.eq_of_mem_replicate hc]
  rfl

theorem digitsValue_eq (cs : List Char) : digitsValue cs = Nat.ofDigitChars 10 cs 0 :=
  rfl

/-- Where the exponent is negative there is a fraction: the digits stand on both sides of the
point, or zeros fill the place between the point and them. -/
theorem Digits.positional_fraction (d : Digits) (h : d.exponent < 0) :
    ∃ digits places : List Char, d.positional = digits ++ '.' :: places ∧
      digits ≠ [] ∧ digits.all Char.isDigit = true ∧ places.all Char.isDigit = true ∧
      digitsValue (digits ++ places) = d.digits ∧ (places.length : Int) = -d.exponent := by
  have hdigits := all_isDigit_toDigits d.digits
  have hne : Nat.toDigits 10 d.digits ≠ [] := Nat.toDigits_ne_nil
  rw [Digits.positional, if_neg (by omega)]
  set text := Nat.toDigits 10 d.digits with htext
  have hvalue : Nat.ofDigitChars 10 text 0 = d.digits := Nat.ofDigitChars_ten_toDigits
  by_cases hpoint : (-d.exponent).toNat < text.length
  · refine ⟨_, _, if_pos hpoint, ?_, ?_, ?_, ?_, ?_⟩
    · rw [ne_eq, List.take_eq_nil_iff, not_or]
      exact ⟨by omega, hne⟩
    · rw [List.all_eq_true] at hdigits ⊢
      exact fun c hc => hdigits c (List.mem_of_mem_take hc)
    · rw [List.all_eq_true] at hdigits ⊢
      exact fun c hc => hdigits c (List.mem_of_mem_drop hc)
    · rw [List.take_append_drop, digitsValue_eq, hvalue]
    · rw [List.length_drop]
      omega
  · refine ⟨['0'], List.replicate ((-d.exponent).toNat - text.length) '0' ++ text,
      if_neg hpoint, by simp, rfl, ?_, ?_, ?_⟩
    · rw [List.all_append, all_isDigit_replicate, hdigits, Bool.and_true]
    · -- leading zeros add nothing to the value
      rw [digitsValue_eq, Nat.ofDigitChars_append, Nat.ofDigitChars_append,
        Nat.ofDigitChars_replicate_zero]
      exact hvalue
    · rw [List.length_append, List.length_replicate]
      omega

theorem isNumeral_positional (d : Digits) : IsNumeral d.positional := by
  by_cases hwhole : 0 ≤ d.exponent
  · rw [Digits.positional, if_pos hwhole]
    refine .whole (by simp [Nat.toDigits_ne_nil]) ?_
    rw [List.all_append, all_isDigit_toDigits, all_isDigit_replicate, Bool.and_true]
  · obtain ⟨digits, places, heq, hne, hdigits, hplaces, -, hlength⟩ :=
      d.positional_fraction (by omega)
    rw [heq]
    refine .fraction hne hdigits ?_ hplaces
    rintro rfl
    simp at hlength
    omega

/-- The text of a finite number without its sign is a numeral. -/
theorem isNumeral_unsignedText {x : Float} (h : x.isInf = false) : IsNumeral (unsignedText x) := by
  rw [unsignedText, h, if_neg Bool.false_ne_true]
  by_cases hzero : (magnitude x).mantissa = 0
  · rw [if_pos hzero]
    exact .whole (by simp) (by rfl)
  · rw [if_neg hzero]
    exact isNumeral_positional _

/-! ## Reading numerals -/

/-- What starts with a digit has no sign and is no word. -/
theorem read?_of_isDigit {d : Char} (h : d.isDigit = true) (ds : List Char) :
    read? (d :: ds) = readUnsigned? (d :: ds) := by
  have hminus : d ≠ '-' := by rintro rfl; exact absurd h (by decide)
  have hplus : d ≠ '+' := by rintro rfl; exact absurd h (by decide)
  have hi : d ≠ 'i' := by rintro rfl; exact absurd h (by decide)
  have hn : d ≠ 'n' := by rintro rfl; exact absurd h (by decide)
  have hlower : d.toLower = d := by
    refine dif_neg fun hupper => ?_
    have hle : d.val ≤ '9'.val := by simp_all [Char.isDigit]
    exact absurd (UInt32.le_trans hupper.1 hle) (by decide)
  simp [read?, readMagnitude?, hminus, hplus, hlower, hi, hn]

theorem read?_whole {digits : List Char} (hne : digits ≠ [])
    (hdigits : digits.all Char.isDigit = true) :
    read? digits = some (ofDecimal (digitsValue digits) 0) := by
  obtain ⟨d, ds, rfl⟩ := List.exists_cons_of_ne_nil hne
  rw [List.all_eq_true] at hdigits
  have htake : (d :: ds).takeWhile Char.isDigit = d :: ds := List.takeWhile_eq_self_iff.2 hdigits
  have hdrop : (d :: ds).dropWhile Char.isDigit = [] := List.dropWhile_eq_nil_iff.2 hdigits
  rw [read?_of_isDigit (hdigits d List.mem_cons_self), readUnsigned?, htake, hdrop]
  simp

theorem read?_fraction {digits places : List Char} (hne : digits ≠ [])
    (hdigits : digits.all Char.isDigit = true) (hplaces : places.all Char.isDigit = true) :
    read? (digits ++ '.' :: places) =
      some (ofDecimal (digitsValue (digits ++ places)) (-places.length)) := by
  obtain ⟨d, ds, rfl⟩ := List.exists_cons_of_ne_nil hne
  rw [List.all_eq_true] at hdigits hplaces
  have htake : (d :: (ds ++ '.' :: places)).takeWhile Char.isDigit = d :: ds := by
    rw [← List.cons_append, List.takeWhile_append_of_pos hdigits,
      List.takeWhile_cons_of_neg (by decide), List.append_nil]
  have hdrop : (d :: (ds ++ '.' :: places)).dropWhile Char.isDigit = '.' :: places := by
    rw [← List.cons_append, List.dropWhile_append_of_pos hdigits,
      List.dropWhile_cons_of_neg (by decide)]
  have htake' : places.takeWhile Char.isDigit = places := List.takeWhile_eq_self_iff.2 hplaces
  have hdrop' : places.dropWhile Char.isDigit = [] := List.dropWhile_eq_nil_iff.2 hplaces
  rw [List.cons_append, read?_of_isDigit (hdigits d List.mem_cons_self), readUnsigned?, htake, hdrop]
  simp [htake', hdrop']

/-- What the positional text of a decimal reads as. Zeros that the text spells out after the
digits count as digits. -/
theorem read?_positional (d : Digits) :
    read? d.positional = some (if 0 ≤ d.exponent then ofDecimal (d.digits * 10 ^ d.exponent.toNat) 0
      else ofDecimal d.digits d.exponent) := by
  by_cases hwhole : 0 ≤ d.exponent
  · rw [if_pos hwhole, Digits.positional, if_pos hwhole, read?_whole (by simp [Nat.toDigits_ne_nil])
      (by rw [List.all_append, all_isDigit_toDigits, all_isDigit_replicate, Bool.and_true])]
    rw [digitsValue_eq, Nat.ofDigitChars_append, Nat.ofDigitChars_ten_toDigits,
      Nat.ofDigitChars_replicate_zero, Nat.mul_comm]
  · obtain ⟨digits, places, heq, hne, hdigits, hplaces, hvalue, hlength⟩ :=
      d.positional_fraction (by omega)
    rw [if_neg hwhole, heq, read?_fraction hne hdigits hplaces, hvalue, hlength, neg_neg]

end StoryScript.Decimal
