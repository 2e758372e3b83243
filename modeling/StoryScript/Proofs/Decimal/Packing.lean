/-
  How numbers are kept.

  A number is kept in 64 bits: a sign, a field for the exponent and a fraction. Taking
  it apart gives its magnitude, and packing the parts of a number gives the number.
  Numbers are equal if their parts are, apart from zeros, which are all equal.
-/
import Mathlib
import StoryScript.Proofs.Decimal.Rounding

namespace StoryScript.Decimal

open Float.Model Float.Model.UnpackedFloat

/-! ## Bits -/

section

variable (b : BitVec 64)

theorem toNat_unpackMantissa : (@unpackMantissa Format.binary64 b).toNat = b.toNat % 2 ^ 52 := by
  simp [unpackMantissa]

theorem toNat_unpackExponent :
    (@unpackExponent Format.binary64 b).toNat = b.toNat / 2 ^ 52 % 2 ^ 11 := by
  simp [unpackExponent, Nat.shiftRight_eq_div_pow]

theorem toNat_unpackSign : (@unpackSign Format.binary64 b).toNat = b.toNat / 2 ^ 63 := by
  have hlt : b.toNat < 2 ^ 64 := b.isLt
  simp [unpackSign, Nat.shiftRight_eq_div_pow]
  omega

end

theorem toNat_packComponents (s : Sign) (e : BitVec 11) (m : BitVec 52) :
    (packComponents Format.binary64 s e m).toNat =
      (s.toBitVec.toNat * 2 ^ 11 + e.toNat) * 2 ^ 52 + m.toNat := by
  rw [packComponents, BitVec.toNat_append, BitVec.toNat_append,
    ← Nat.shiftLeft_add_eq_or_of_lt m.isLt, ← Nat.shiftLeft_add_eq_or_of_lt e.isLt,
    Nat.shiftLeft_eq, Nat.shiftLeft_eq]

theorem sign_packComponents (s : Sign) (e : BitVec 11) (m : BitVec 52) :
    Sign.ofBitVec (unpackSign (packComponents Format.binary64 s e m)) = s := by
  have hbits : unpackSign (packComponents Format.binary64 s e m) = s.toBitVec := by
    apply BitVec.eq_of_toNat_eq
    rw [toNat_unpackSign, toNat_packComponents]
    have he : e.toNat < 2 ^ 11 := e.isLt
    have hm : m.toNat < 2 ^ 52 := m.isLt
    omega
  rw [hbits]
  cases s <;> rfl

theorem packComponents_parts (b : BitVec 64) :
    packComponents Format.binary64 (Sign.ofBitVec (@unpackSign Format.binary64 b))
      (@unpackExponent Format.binary64 b) (@unpackMantissa Format.binary64 b) = b := by
  have hsign : ∀ v : BitVec 1, (Sign.ofBitVec v).toBitVec = v := by decide
  apply BitVec.eq_of_toNat_eq
  rw [toNat_packComponents, hsign, toNat_unpackSign, toNat_unpackExponent, toNat_unpackMantissa]
  omega

/-- The leading bit of a normal mantissa is not kept. -/
theorem toNat_implicit (m : BitVec 52) : (1#1 ++ m).toNat = 2 ^ 52 + m.toNat := by
  rw [BitVec.toNat_append, ← Nat.shiftLeft_add_eq_or_of_lt m.isLt]
  rfl

/-! ## Packing -/

/-- Packing in numbers of this size. -/
theorem pack_finite (s : Sign) {m : ℕ} {e : ℤ} (hpos : 0 < m) :
    UnpackedFloat.pack Format.binary64 (.finite s m e hpos) =
      if 2 ^ 11 ≤ (e + 1023 + 52).toNat + 1 then packedInfinity Format.binary64 s
      else if m.log2 + 1 = 53 then packComponents Format.binary64 s
        (BitVec.ofNat 11 (e + 1023 + 52).toNat) (BitVec.ofNat 52 m)
      else packComponents Format.binary64 s 0#11 (BitVec.ofNat 52 m) :=
  rfl

/-- A normal number keeps its exponent and the bits of its mantissa after the first. -/
theorem pack_normal (s : Sign) {m : ℕ} {e : ℤ} (hpos : 0 < m) (hlow : 2 ^ 52 ≤ m) (hhigh : m < 2 ^ 53)
    (hgreatest : e ≤ 971) :
    UnpackedFloat.pack Format.binary64 (.finite s m e hpos) =
      packComponents Format.binary64 s (BitVec.ofNat 11 (e + 1023 + 52).toNat) (BitVec.ofNat 52 m) := by
  have hlog : m.log2 = 52 := (Nat.log2_eq_iff hpos.ne').2 ⟨hlow, hhigh⟩
  rw [pack_finite, if_neg (by omega), if_pos (by omega)]

/-- A number too small for that keeps its mantissa as it is. -/
theorem pack_subnormal (s : Sign) {m : ℕ} (hpos : 0 < m) (hhigh : m < 2 ^ 52) :
    UnpackedFloat.pack Format.binary64 (.finite s m (-1074) hpos) =
      packComponents Format.binary64 s 0#11 (BitVec.ofNat 52 m) := by
  have hlog : m.log2 < 52 := (Nat.log2_lt hpos.ne').2 hhigh
  rw [pack_finite, if_neg (by omega), if_neg (by omega)]

/-! ## Taking numbers apart -/

/-- The sign of a number. -/
def signOf (x : Float) : Sign :=
  if isNegative x then .negative else .positive

/-- The field of the exponent. -/
def fieldOf (x : Float) : ℕ :=
  x.toBits.toNat / 2 ^ 52 % 2 ^ 11

/-- The bits of the mantissa that are kept. -/
def fractionOf (x : Float) : ℕ :=
  x.toBits.toNat % 2 ^ 52

theorem magnitude_eq (x : Float) :
    magnitude x = if fieldOf x = 0 then ⟨fractionOf x, -1074⟩
      else ⟨2 ^ 52 + fractionOf x, (fieldOf x : ℤ) - 1075⟩ :=
  rfl

section

variable (x : Float)

theorem sign_unpackSign : Sign.ofBitVec (@unpackSign Format.binary64 x.toBits.toBitVec) = signOf x := by
  have hlt : x.toBits.toNat < 2 ^ 64 := x.toBits.toBitVec.isLt
  have hsign : (@unpackSign Format.binary64 x.toBits.toBitVec).toNat = x.toBits.toNat / 2 ^ 63 :=
    toNat_unpackSign _
  rw [Sign.ofBitVec, signOf, isNegative]
  by_cases hneg : 2 ^ 63 ≤ x.toBits.toNat
  · have hne : @unpackSign Format.binary64 x.toBits.toBitVec ≠ 0#1 := by
      intro hzero
      rw [hzero] at hsign
      simp at hsign
      omega
    have hneg' : decide (Nat.pow 2 63 ≤ x.toBits.toNat) = true := decide_eq_true hneg
    rw [if_neg hne, if_pos hneg']
  · have hzero : @unpackSign Format.binary64 x.toBits.toBitVec = 0#1 := by
      apply BitVec.eq_of_toNat_eq
      rw [hsign]
      simp
      omega
    have hneg' : decide (Nat.pow 2 63 ≤ x.toBits.toNat) = false := decide_eq_false hneg
    rw [if_pos hzero, hneg', if_neg Bool.false_ne_true]

/-- The parts of a number by its field: the largest is for what is not finite, and the least for
zeros and for numbers without a leading bit. -/
theorem unpack_cases :
    (fieldOf x = 2047 ∧ (x.toModel.unpack = .infinity (signOf x) ∨ x.toModel.unpack = .notANumber)) ∨
    (fieldOf x = 0 ∧ fractionOf x = 0 ∧ x.toModel.unpack = .zero (signOf x)) ∨
    (fieldOf x = 0 ∧ ∃ h, x.toModel.unpack = .finite (signOf x) (fractionOf x) (-1074) h) ∨
    (fieldOf x < 2047 ∧ fieldOf x ≠ 0 ∧
      ∃ h, x.toModel.unpack = .finite (signOf x) (2 ^ 52 + fractionOf x) (fieldOf x - 1075) h) := by
  have hfield : (@unpackExponent Format.binary64 x.toBits.toBitVec).toNat = fieldOf x :=
    toNat_unpackExponent _
  have hfraction : (@unpackMantissa Format.binary64 x.toBits.toBitVec).toNat = fractionOf x :=
    toNat_unpackMantissa _
  have hsign := sign_unpackSign x
  have hlt : fieldOf x < 2 ^ 11 := Nat.mod_lt _ (by decide)
  have hunpack : x.toModel.unpack = UnpackedFloat.unpack Format.binary64 x.toBits.toBitVec := rfl
  rw [hunpack]
  unfold UnpackedFloat.unpack
  dsimp only
  rw [hsign]
  split_ifs with hmax hnone hleast hnone
  · rw [hmax] at hfield
    exact .inl ⟨hfield.symm, .inl rfl⟩
  · rw [hmax] at hfield
    exact .inl ⟨hfield.symm, .inr rfl⟩
  · rw [hleast] at hfield
    rw [hnone] at hfraction
    exact .inr (.inl ⟨hfield.symm, hfraction.symm, rfl⟩)
  · rw [hleast] at hfield
    refine .inr (.inr (.inl ⟨hfield.symm, ?_⟩))
    have hpos : 0 < fractionOf x := by
      rw [← hfraction]
      exact (BitVec.toNat_pos _).2 ((BitVec.pos_iff_ne_zero _).2 hnone)
    refine ⟨hpos, ?_⟩
    congr 1
    rw [hleast]
    rfl
  · have hmax' : fieldOf x ≠ 2047 := by
      intro heq
      exact hmax (BitVec.eq_of_toNat_eq (hfield.trans heq))
    have hleast' : fieldOf x ≠ 0 := by
      intro heq
      exact hleast (BitVec.eq_of_toNat_eq (hfield.trans heq))
    refine .inr (.inr (.inr ⟨by omega, hleast', by positivity, ?_⟩))
    congr 1
    · rw [← hfraction]
      exact toNat_implicit _
    · rw [hfield]
      rfl

end

/-- The parts of a finite number by its field. -/
theorem unpack_cases_of_isFinite {x : Float} (h : x.isFinite = true) :
    (fieldOf x = 0 ∧ fractionOf x = 0 ∧ x.toModel.unpack = .zero (signOf x)) ∨
    (fieldOf x = 0 ∧ ∃ h, x.toModel.unpack = .finite (signOf x) (fractionOf x) (-1074) h) ∨
    (fieldOf x < 2047 ∧ fieldOf x ≠ 0 ∧
      ∃ h, x.toModel.unpack = .finite (signOf x) (2 ^ 52 + fractionOf x) (fieldOf x - 1075) h) := by
  refine (unpack_cases x).resolve_left ?_
  have hfinite : x.toModel.unpack.isFinite = true := h
  rintro ⟨-, hu | hu⟩
  · rw [hu] at hfinite
    exact absurd hfinite Bool.false_ne_true
  · rw [hu] at hfinite
    exact absurd hfinite Bool.false_ne_true

/-- A finite number is a zero, or it has a sign and a canonical magnitude. -/
theorem unpack_of_isFinite {x : Float} (h : x.isFinite = true) :
    ((magnitude x).mantissa = 0 ∧ x.toModel.unpack = .zero (signOf x)) ∨
    ∃ hm : (magnitude x).IsCanonical, x.toModel.unpack =
      .finite (signOf x) (magnitude x).mantissa (magnitude x).exponent hm.pos := by
  have hfraction : fractionOf x < 2 ^ 52 := Nat.mod_lt _ (by decide)
  rcases unpack_cases_of_isFinite h with ⟨hfield, hzero, hu⟩ | ⟨hfield, hpos, hu⟩ |
    ⟨hfield, hne, hpos, hu⟩
  · left
    rw [magnitude_eq, if_pos hfield]
    exact ⟨hzero, hu⟩
  · right
    rw [magnitude_eq, if_pos hfield]
    exact ⟨⟨hpos, by dsimp only; omega, le_rfl, by norm_num, .inr rfl⟩, hu⟩
  · right
    rw [magnitude_eq, if_neg hne]
    exact ⟨⟨hpos, by dsimp only; omega, by dsimp only; omega, by dsimp only; omega,
      .inl (by dsimp only; omega)⟩, hu⟩

theorem isInf_of_isFinite {x : Float} (h : x.isFinite = true) : x.isInf = false := by
  have hinf : x.isInf = x.toModel.unpack.isInf := rfl
  rcases unpack_of_isFinite h with ⟨-, hu⟩ | ⟨hm, hu⟩ <;> rw [hinf, hu] <;> rfl

theorem isNaN_of_isFinite {x : Float} (h : x.isFinite = true) : x.isNaN = false := by
  have hnan : x.isNaN = x.toModel.unpack.isNaN := rfl
  rcases unpack_of_isFinite h with ⟨-, hu⟩ | ⟨hm, hu⟩ <;> rw [hnan, hu] <;> rfl

/-! ## Packing the parts -/

/-- The bits of a number are its sign, its field and its fraction. -/
theorem bits_eq (x : Float) :
    x.toBits.toBitVec = packComponents Format.binary64 (signOf x) (BitVec.ofNat 11 (fieldOf x))
      (BitVec.ofNat 52 (fractionOf x)) := by
  have hfield : BitVec.ofNat 11 (fieldOf x) = @unpackExponent Format.binary64 x.toBits.toBitVec := by
    apply BitVec.eq_of_toNat_eq
    rw [toNat_unpackExponent, BitVec.toNat_ofNat, fieldOf, Nat.mod_mod]
    rfl
  have hfraction : BitVec.ofNat 52 (fractionOf x) =
      @unpackMantissa Format.binary64 x.toBits.toBitVec := by
    apply BitVec.eq_of_toNat_eq
    rw [toNat_unpackMantissa, BitVec.toNat_ofNat, fractionOf, Nat.mod_mod]
    rfl
  rw [hfield, hfraction, ← sign_unpackSign, packComponents_parts]

theorem toModel_eq_pack {x : Float} {u : UnpackedFloat}
    (h : UnpackedFloat.pack Format.binary64 u = x.toBits.toBitVec) :
    Float.Model.pack u = x.toModel := by
  have hbits : (Float.Model.pack u).toBits = x.toModel.toBits := UInt64.toBitVec_inj.1 h
  cases hx : x.toModel
  rw [hx] at hbits
  simpa [Float.Model.pack] using hbits

/-- Packing the parts of a finite number gives the number. -/
theorem pack_unpack {x : Float} (h : x.isFinite = true) :
    Float.Model.pack x.toModel.unpack = x.toModel := by
  have hfraction : fractionOf x < 2 ^ 52 := Nat.mod_lt _ (by decide)
  apply toModel_eq_pack
  rw [bits_eq]
  rcases unpack_cases_of_isFinite h with ⟨hfield, hzero, hu⟩ | ⟨hfield, hpos, hu⟩ |
    ⟨hfield, hne, hpos, hu⟩
  · rw [hu, hfield, hzero]
    rfl
  · rw [hu, hfield, pack_subnormal _ hpos hfraction]
  · rw [hu, pack_normal _ hpos (by omega) (by omega) (by omega)]
    have hbias : ((fieldOf x : ℤ) - 1075 + 1023 + 52).toNat = fieldOf x := by omega
    have hdrop : BitVec.ofNat 52 (2 ^ 52 + fractionOf x) = BitVec.ofNat 52 (fractionOf x) := by
      apply BitVec.eq_of_toNat_eq
      simp
    rw [hbias, hdrop]

/-- The parts of the bits of a packed number. -/
theorem parts_of_bits {x : Float} {s : Sign} {e : BitVec 11} {m : BitVec 52}
    (h : x.toBits.toBitVec = packComponents Format.binary64 s e m) :
    signOf x = s ∧ fieldOf x = e.toNat ∧ fractionOf x = m.toNat := by
  have hbits : x.toBits.toNat = (s.toBitVec.toNat * 2 ^ 11 + e.toNat) * 2 ^ 52 + m.toNat := by
    rw [← toNat_packComponents, ← h]
    rfl
  have he : e.toNat < 2 ^ 11 := e.isLt
  have hm : m.toNat < 2 ^ 52 := m.isLt
  have hs : s.toBitVec.toNat < 2 := s.toBitVec.isLt
  refine ⟨?_, ?_, ?_⟩
  · rw [← sign_unpackSign, h, sign_packComponents]
  · rw [fieldOf, hbits]
    omega
  · rw [fractionOf, hbits]
    omega

/-- What was packed is taken apart again. -/
theorem unpack_pack {m : Magnitude} (hm : m.IsCanonical) (s : Sign) :
    (Float.Model.pack (.finite s m.mantissa m.exponent hm.pos)).unpack =
      .finite s m.mantissa m.exponent hm.pos := by
  have hbound := hm.bound
  have hleast := hm.least
  have hgreatest := hm.greatest
  set x := Float.ofModel (Float.Model.pack (.finite s m.mantissa m.exponent hm.pos)) with hx
  show x.toModel.unpack = _
  by_cases hnormal : 2 ^ 52 ≤ m.mantissa
  · obtain ⟨hsign, hfield, hfraction⟩ := @parts_of_bits x _ _ _
      (pack_normal s hm.pos hnormal hm.bound hm.greatest)
    rw [BitVec.toNat_ofNat] at hfield hfraction
    rcases unpack_cases x with ⟨hmax, -⟩ | ⟨hnone, -⟩ | ⟨hnone, -⟩ | ⟨-, -, hpos, hu⟩
    · omega
    · omega
    · omega
    · rw [hu, hsign]
      congr 1 <;> omega
  · have hexponent : m.exponent = -1074 := hm.normal.resolve_left hnormal
    have hpos := hm.pos
    obtain ⟨hsign, hfield, hfraction⟩ := @parts_of_bits x s 0#11 (BitVec.ofNat 52 m.mantissa)
      (by rw [← pack_subnormal s hm.pos (by omega)]; simp only [hx, hexponent]; rfl)
    rw [BitVec.toNat_ofNat] at hfield hfraction
    rcases unpack_cases x with ⟨hmax, -⟩ | ⟨-, hnone, -⟩ | ⟨-, hpos, hu⟩ | ⟨-, hnone, -⟩
    · omega
    · omega
    · rw [hu, hsign]
      congr 1 <;> omega
    · omega

/-! ## Equality -/

theorem beq_eq (x y : Float) : (x == y) = x.toModel.unpack.beq y.toModel.unpack :=
  rfl

theorem unpack_zero : (0 : Float).toModel.unpack = .zero .positive :=
  rfl

/-- Equality does not see the sign of a zero. -/
theorem beq_zero_left (s t : Sign) (v : UnpackedFloat) :
    (UnpackedFloat.zero s).beq v = (UnpackedFloat.zero t).beq v := by
  rcases v with sign | _ | sign | ⟨sign, m, e, h⟩ <;> try cases sign
  all_goals rfl

theorem beq_zero_right (s t : Sign) (v : UnpackedFloat) :
    v.beq (.zero s) = v.beq (.zero t) := by
  rcases v with sign | _ | sign | ⟨sign, m, e, h⟩ <;> try cases sign
  all_goals rfl

theorem unpack_of_beq_zero {x : Float} (h : (x == 0) = true) : ∃ s, x.toModel.unpack = .zero s := by
  rw [beq_eq, unpack_zero] at h
  rcases hu : x.toModel.unpack with sign | _ | sign | ⟨sign, m, e, hpos⟩ <;> rw [hu] at h
  · cases sign <;> exact absurd h Bool.false_ne_true
  · exact absurd h Bool.false_ne_true
  · exact ⟨sign, rfl⟩
  · cases sign <;> exact absurd h Bool.false_ne_true

/-- The number with a zero's sign dropped. -/
def plain (x : Float) : Float :=
  if x == 0 then 0 else x

theorem plain_of_zero {x : Float} {s : Sign} (h : x.toModel.unpack = .zero s) : plain x = 0 := by
  have hzero : (x == 0) = true := by
    rw [beq_eq, h, unpack_zero]
    rfl
  rw [plain, hzero, if_pos rfl]

theorem plain_of_ne_zero {x : Float} (h : (x == 0) = false) : plain x = x := by
  rw [plain, h, if_neg Bool.false_ne_true]

theorem plain_zero : plain 0 = 0 :=
  plain_of_zero unpack_zero

theorem plain_cases (x : Float) : (∃ s, x.toModel.unpack = .zero s ∧ plain x = 0) ∨ plain x = x := by
  by_cases hx : (x == 0) = true
  · obtain ⟨s, hu⟩ := unpack_of_beq_zero hx
    exact .inl ⟨s, hu, plain_of_zero hu⟩
  · exact .inr (plain_of_ne_zero (Bool.eq_false_iff.2 hx))

/-- Without the sign of zeros, a number is equal to what it was equal to. -/
theorem beq_plain (x y : Float) : (plain x == plain y) = (x == y) := by
  have hleft : ∀ z : Float, (plain x == z) = (x == z) := by
    intro z
    rcases plain_cases x with ⟨s, hu, hzero⟩ | hplain
    · rw [hzero, beq_eq, beq_eq, hu, unpack_zero, beq_zero_left]
    · rw [hplain]
  rw [hleft]
  rcases plain_cases y with ⟨s, hu, hzero⟩ | hplain
  · rw [hzero, beq_eq, beq_eq, hu, unpack_zero, beq_zero_right]
  · rw [hplain]

@[simp] theorem plain_plain (x : Float) : plain (plain x) = plain x := by
  rcases plain_cases x with ⟨s, -, hzero⟩ | hplain
  · rw [hzero, plain_zero]
  · rw [hplain, hplain]

@[simp] theorem isNaN_plain (x : Float) : (plain x).isNaN = x.isNaN := by
  rcases plain_cases x with ⟨s, hu, hzero⟩ | hplain
  · have hnan : x.isNaN = x.toModel.unpack.isNaN := rfl
    rw [hzero, hnan, hu]
    rfl
  · rw [hplain]

/-- A finite number is equal to itself. -/
theorem beq_self_of_isFinite {x : Float} (h : x.isFinite = true) : (x == x) = true := by
  rw [beq_eq]
  rcases unpack_of_isFinite h with ⟨-, hu⟩ | ⟨hm, hu⟩
  · rw [hu]
    rfl
  · rw [hu]
    cases signOf x <;> simp [UnpackedFloat.beq, UnpackedFloat.compare]

end StoryScript.Decimal
