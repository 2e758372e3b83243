/-
  Equality of numbers.

  A number is determined by its parts unless it is no number at all, so two numbers are
  equal exactly if they are the same once the sign of a zero is dropped, and neither is
  NaN. Symmetry, transitivity and reflexivity away from NaN follow.
-/
import Mathlib
import StoryScript.Number
import StoryScript.Proofs.Decimal.Packing

namespace StoryScript.Decimal

open Float.Model Float.Model.UnpackedFloat

/-- The parts of a number without the sign of a zero. -/
def unsignedZero : UnpackedFloat → UnpackedFloat
  | .zero _ => .zero .positive
  | u => u

/-- Numbers are equal if their parts are, but for the sign of a zero. -/
theorem beq_iff {u v : UnpackedFloat} :
    u.beq v = true ↔ u ≠ .notANumber ∧ unsignedZero u = unsignedZero v := by
  rcases u with s | _ | s | ⟨s, m, e, hm⟩ <;> rcases v with t | _ | t | ⟨t, n, f, hn⟩
  case infinity.infinity =>
    have hsign : compare s t = .eq ↔ s = t := by
      cases s <;> cases t
      case negative.negative | positive.positive => exact iff_of_true rfl rfl
      all_goals exact iff_of_false nofun nofun
    simp [UnpackedFloat.beq, UnpackedFloat.compare, unsignedZero, hsign]
  case finite.finite =>
    cases s <;> cases t <;> simp [UnpackedFloat.beq, UnpackedFloat.compare, unsignedZero,
      Ordering.swap_eq_eq, Ordering.then_eq_eq, and_comm]
  all_goals
    try cases s
    all_goals
      try cases t
      all_goals simp [UnpackedFloat.beq, UnpackedFloat.compare, unsignedZero]

theorem isNaN_iff {u : UnpackedFloat} : u.isNaN = true ↔ u = .notANumber := by
  cases u <;> simp [UnpackedFloat.isNaN]

/-- An infinity has the largest field and no fraction. -/
theorem fields_of_infinity {x : Float} {s : Sign} (h : x.toModel.unpack = .infinity s) :
    signOf x = s ∧ fieldOf x = 2047 ∧ fractionOf x = 0 := by
  have hfield : (@unpackExponent Format.binary64 x.toBits.toBitVec).toNat = fieldOf x :=
    toNat_unpackExponent _
  have hfraction : (@unpackMantissa Format.binary64 x.toBits.toBitVec).toNat = fractionOf x :=
    toNat_unpackMantissa _
  have hunpack : x.toModel.unpack = UnpackedFloat.unpack Format.binary64 x.toBits.toBitVec := rfl
  rw [hunpack] at h
  unfold UnpackedFloat.unpack at h
  dsimp only at h
  rw [sign_unpackSign x] at h
  split_ifs at h with hmax hnone
  · rw [hmax] at hfield
    rw [hnone] at hfraction
    exact ⟨UnpackedFloat.infinity.inj h, hfield.symm, hfraction.symm⟩

/-- A number that is not NaN is determined by its parts. -/
theorem eq_of_unpack_eq {x y : Float} (hx : x.toModel.unpack ≠ .notANumber)
    (h : x.toModel.unpack = y.toModel.unpack) : x = y := by
  suffices hmodel : x.toModel = y.toModel from congrArg Float.ofModel hmodel
  rcases hu : x.toModel.unpack with s | _ | s | ⟨s, m, e, hm⟩
  · obtain ⟨hs, hf, hm⟩ := fields_of_infinity hu
    obtain ⟨hs', hf', hm'⟩ := fields_of_infinity (h ▸ hu)
    have hpack : UnpackedFloat.pack Format.binary64 (.infinity s) = x.toBits.toBitVec := by
      rw [bits_eq x, hs, hf, hm]
      rfl
    have hpack' : UnpackedFloat.pack Format.binary64 (.infinity s) = y.toBits.toBitVec := by
      rw [bits_eq y, hs', hf', hm']
      rfl
    rw [← toModel_eq_pack hpack, ← toModel_eq_pack hpack']
  · exact absurd hu hx
  all_goals
    have hfinite : x.isFinite = true := by
      show x.toModel.unpack.isFinite = true
      rw [hu]
      rfl
    have hfinite' : y.isFinite = true := by
      show y.toModel.unpack.isFinite = true
      rw [← h, hu]
      rfl
    rw [← pack_unpack hfinite, ← pack_unpack hfinite', h]

theorem of_unsignedZero_eq {u v : UnpackedFloat} (h : unsignedZero u = unsignedZero v) :
    (∃ s t, u = .zero s ∧ v = .zero t) ∨ u = v := by
  cases u <;> cases v <;> simp_all [unsignedZero]

theorem isNaN_eq_false_iff {x : Float} : x.isNaN = false ↔ x.toModel.unpack ≠ .notANumber := by
  rw [ne_eq, ← isNaN_iff, Bool.not_eq_true]
  rfl

/-- A number that is not NaN is equal to itself. -/
theorem beq_self {x : Float} (h : x.isNaN = false) : (x == x) = true := by
  rw [beq_eq, beq_iff]
  exact ⟨isNaN_eq_false_iff.1 h, rfl⟩

/-- Numbers are equal if they are the same number, but for the sign of a zero. -/
theorem beq_iff_plain {x y : Float} : (x == y) = true ↔ x.isNaN = false ∧ plain x = plain y := by
  constructor
  · intro h
    rw [beq_eq, beq_iff] at h
    obtain ⟨hx, hparts⟩ := h
    refine ⟨isNaN_eq_false_iff.2 hx, ?_⟩
    rcases of_unsignedZero_eq hparts with ⟨s, t, hs, ht⟩ | hsame
    · rw [plain_of_zero hs, plain_of_zero ht]
    · rw [eq_of_unpack_eq hx hsame]
  · rintro ⟨hx, hplain⟩
    rw [← beq_plain, ← hplain]
    exact beq_self (by rw [isNaN_plain]; exact hx)

theorem beq_symm {x y : Float} (h : (x == y) = true) : (y == x) = true := by
  obtain ⟨hx, hplain⟩ := beq_iff_plain.1 h
  refine beq_iff_plain.2 ⟨?_, hplain.symm⟩
  rw [← isNaN_plain, ← hplain, isNaN_plain, hx]

theorem beq_trans {x y z : Float} (hxy : (x == y) = true) (hyz : (y == z) = true) :
    (x == z) = true := by
  obtain ⟨hx, hplain⟩ := beq_iff_plain.1 hxy
  exact beq_iff_plain.2 ⟨hx, hplain.trans (beq_iff_plain.1 hyz).2⟩

/-- Adding `0` makes one of the two zeros, so numbers that are equal become the same. -/
theorem add_zero_eq_of_beq {x y : Float} (h : (x == y) = true) : x + 0 = y + 0 := by
  rw [beq_eq, beq_iff] at h
  obtain ⟨hx, hparts⟩ := h
  rcases of_unsignedZero_eq hparts with ⟨s, t, hs, ht⟩ | hsame
  · have hsum (z : Float) : z + 0 = Float.ofModel (Float.Model.pack
        (UnpackedFloat.add Format.binary64 z.toModel.unpack (0 : Float).toModel.unpack)) := rfl
    rw [hsum, hsum, hs, ht, unpack_zero]
    cases s <;> cases t <;> rfl
  · rw [eq_of_unpack_eq hx hsame]

end StoryScript.Decimal

/-! ## Numbers with their bits -/

namespace StoryScript.Number

/-- A number that is not NaN is determined by its float. -/
theorem eq_of_float_eq {a b : Number} (hnan : a.float.isNaN = false) (h : a.float = b.float) :
    a = b := by
  have hbits := a.bits_spec
  have hbits' := b.bits_spec
  simp only [← h, hnan, Bool.false_eq_true, if_false] at hbits hbits'
  exact Number.ext h (hbits.trans hbits'.symm)

/-- The number with a zero's sign dropped. -/
def plain (a : Number) : Number :=
  if a == 0 then 0 else a

@[simp] theorem float_plain (a : Number) : a.plain.float = Decimal.plain a.float := by
  rw [plain, Decimal.plain, apply_ite float]
  rfl

theorem beq_plain (a b : Number) : (a.plain == b.plain) = (a == b) := by
  rw [beq_eq, float_plain, float_plain, Decimal.beq_plain, beq_eq]

/-- A number that is not NaN is its float with a zero's sign dropped, once it is plain. -/
theorem ofFloat_plain {a : Number} (h : a.float.isNaN = false) :
    ofFloat (Decimal.plain a.float) = a.plain := by
  refine eq_of_float_eq ?_ (float_plain a).symm
  rw [float_ofFloat, Decimal.isNaN_plain, h]

@[simp] theorem plain_plain (a : Number) : a.plain.plain = a.plain := by
  cases h : a == 0 <;> simp [plain, h]

/-- Numbers are equal if they are the same number, but for the sign of a zero. -/
theorem beq_iff_plain {a b : Number} :
    (a == b) = true ↔ a.float.isNaN = false ∧ a.plain = b.plain := by
  rw [beq_eq, Decimal.beq_iff_plain]
  refine and_congr_right fun hnan => ⟨fun h => eq_of_float_eq ?_ ?_, fun h => ?_⟩
  · rw [float_plain, Decimal.isNaN_plain, hnan]
  · rw [float_plain, float_plain, h]
  · rw [← float_plain, ← float_plain, h]

theorem beq_self {a : Number} (h : a.float.isNaN = false) : (a == a) = true :=
  beq_iff_plain.2 ⟨h, rfl⟩

theorem beq_symm {a b : Number} (h : (a == b) = true) : (b == a) = true := by
  rw [beq_eq] at h ⊢
  exact Decimal.beq_symm h

theorem beq_trans {a b c : Number} (hab : (a == b) = true) (hbc : (b == c) = true) :
    (a == c) = true := by
  rw [beq_eq] at hab hbc ⊢
  exact Decimal.beq_trans hab hbc

end StoryScript.Number
