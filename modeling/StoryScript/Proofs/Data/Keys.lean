/-
  Keys: which are equal, and which have the same hash.

  Two keys are equal if they are the same text or the same number, with all zeros the
  same and all that is no number the same. Keys that are equal have the same hash unless
  they are NaN, of which each pattern of bits has its own. Both relations are
  equivalences, and so is what a table of any size makes of them.
-/
import Mathlib
import StoryScript.DataMap
import StoryScript.Proofs.Decimal.Equality

namespace StoryScript

namespace Number

/-- Adding `0` makes equal numbers the same. -/
theorem add_zero_eq_of_beq {a b : Number} (h : (a == b) = true) : a + 0 = b + 0 := by
  have hfloat : a.float + 0 = b.float + 0 := Decimal.add_zero_eq_of_beq h
  have ha := (Decimal.beq_iff_plain.1 h).1
  have hb := (Decimal.beq_iff_plain.1 (Decimal.beq_symm h)).1
  -- neither operand is NaN, so no bits are handed on
  have hbits (c : Number) (hc : c.float.isNaN = false) : nanOf c 0 = indefiniteNaN := by
    simp only [nanOf, hc, Bool.false_eq_true, if_false]
    rfl
  refine Number.ext hfloat ?_
  show (if (a.float + 0).isNaN then nanOf a 0 else (a.float + 0).toBits) =
    if (b.float + 0).isNaN then nanOf b 0 else (b.float + 0).toBits
  rw [hfloat, hbits a ha, hbits b hb]

end Number

namespace Key

theorem string_beq {a b : String} : (string a == string b) = true ↔ a = b := by
  show (a == b) = true ↔ a = b
  rw [beq_iff_eq]

/-- Numbers as keys are equal if their parts are, but for the sign of a zero: with those that are
no number equal too, the exception that equality of numbers makes is gone. -/
theorem number_beq {a b : Number} : (number a == number b) = true ↔
    Decimal.unsignedZero a.float.toModel.unpack = Decimal.unsignedZero b.float.toModel.unpack := by
  show (a.float == b.float || (a.float.isNaN && b.float.isNaN)) = true ↔ _
  have hnan : ∀ x : Float, x.isNaN = x.toModel.unpack.isNaN := fun _ => rfl
  rw [hnan, hnan, Decimal.beq_eq, Bool.or_eq_true, Bool.and_eq_true, Decimal.beq_iff,
    Decimal.isNaN_iff, Decimal.isNaN_iff]
  constructor
  · rintro (⟨-, h⟩ | ⟨ha, hb⟩)
    · exact h
    · rw [ha, hb]
  · intro h
    by_cases ha : a.float.toModel.unpack = .notANumber
    · right
      refine ⟨ha, ?_⟩
      rw [ha] at h
      cases hb : b.float.toModel.unpack <;> rw [hb] at h <;> simp_all [Decimal.unsignedZero]
    · exact .inl ⟨ha, h⟩

/-- Equality of keys is an equivalence. -/
instance : EquivBEq Key where
  rfl {a} := by
    cases a with
    | string a => exact string_beq.2 rfl
    | number a => exact number_beq.2 rfl
  symm {a b} h := by
    cases a <;> cases b
    case string.string => exact string_beq.2 (string_beq.1 h).symm
    case number.number => exact number_beq.2 (number_beq.1 h).symm
    all_goals exact absurd h Bool.false_ne_true
  trans {a b c} hab hbc := by
    cases a <;> cases b <;> cases c
    case string.string.string => exact string_beq.2 ((string_beq.1 hab).trans (string_beq.1 hbc))
    case number.number.number => exact number_beq.2 ((number_beq.1 hab).trans (number_beq.1 hbc))
    all_goals first | exact absurd hab Bool.false_ne_true | exact absurd hbc Bool.false_ne_true

/-! ## Hashes -/

/-- Whether the key is a NaN. -/
def isNaN : Key → Bool
  | string _ => false
  | number n => n.float.isNaN

theorem alike_iff {a b : Key} : a.alike b = true ↔ a.hashed = b.hashed ∧ (a == b) = true := by
  rw [alike, Bool.and_eq_true, decide_eq_true_eq]

theorem beq_of_alike {a b : Key} (h : a.alike b = true) : (a == b) = true :=
  (alike_iff.1 h).2

theorem alike_self (a : Key) : a.alike a = true :=
  alike_iff.2 ⟨rfl, BEq.rfl⟩

theorem alike_symm {a b : Key} (h : a.alike b = true) : b.alike a = true := by
  obtain ⟨hhash, hbeq⟩ := alike_iff.1 h
  exact alike_iff.2 ⟨hhash.symm, BEq.symm hbeq⟩

theorem alike_trans {a b c : Key} (hab : a.alike b = true) (hbc : b.alike c = true) :
    a.alike c = true := by
  obtain ⟨hhash, hbeq⟩ := alike_iff.1 hab
  obtain ⟨hhash', hbeq'⟩ := alike_iff.1 hbc
  exact alike_iff.2 ⟨hhash.trans hhash', BEq.trans hbeq hbeq'⟩

/-- Equal keys have the same hash, unless they are NaN. -/
theorem alike_of_beq {a b : Key} (hnan : b.isNaN = false) (h : (a == b) = true) :
    a.alike b = true := by
  refine alike_iff.2 ⟨?_, h⟩
  cases a <;> cases b
  case string.string => rw [string_beq.1 h]
  case number.number a b =>
    have hbeq : (a == b || (a.float.isNaN && b.float.isNaN)) = true := h
    have hb : b.float.isNaN = false := hnan
    rw [hb, Bool.and_false, Bool.or_false] at hbeq
    show Sum.inr (a + 0).bits = Sum.inr (b + 0).bits
    rw [Number.add_zero_eq_of_beq hbeq]
  all_goals exact absurd h Bool.false_ne_true

/-- All that is no number is one key. -/
theorem beq_of_isNaN {a b : Key} (ha : a.isNaN = true) (hb : b.isNaN = true) : (a == b) = true := by
  cases a <;> cases b
  case number.number a b =>
    show (a.float == b.float || (a.float.isNaN && b.float.isNaN)) = true
    rw [show a.float.isNaN = true from ha, show b.float.isNaN = true from hb, Bool.and_true,
      Bool.or_true]
  all_goals first | exact absurd ha Bool.false_ne_true | exact absurd hb Bool.false_ne_true

/-- Equal keys are NaN together. -/
theorem isNaN_eq_of_beq {a b : Key} (h : (a == b) = true) : a.isNaN = b.isNaN := by
  cases a <;> cases b
  case string.string => rfl
  case number.number a b =>
    have hparts := number_beq.1 h
    show a.float.toModel.unpack.isNaN = b.float.toModel.unpack.isNaN
    rcases Decimal.of_unsignedZero_eq hparts with ⟨s, t, hs, ht⟩ | hsame
    · rw [hs, ht]
      rfl
    · rw [hsame]
  all_goals exact absurd h Bool.false_ne_true

/-! ## What a table makes of them -/

variable {size : Nat}

theorem beq_of_meets {a b : Key} (h : a.meets size b = true) : (a == b) = true := by
  rw [meets] at h
  split at h
  · exact h
  · exact beq_of_alike h

theorem meets_of_alike {a b : Key} (h : a.alike b = true) : a.meets size b = true := by
  rw [meets]
  split
  · exact beq_of_alike h
  · exact h

/-- A key that is not NaN is found by equality, whatever the size of the table. -/
theorem meets_eq_beq {b : Key} (hnan : b.isNaN = false) (a : Key) : a.meets size b = (a == b) :=
  Bool.eq_iff_iff.2 ⟨beq_of_meets, fun h => meets_of_alike (alike_of_beq hnan h)⟩

theorem meets_symm {a b : Key} (h : a.meets size b = true) : b.meets size a = true := by
  rw [meets] at h ⊢
  split at h
  · rw [if_pos ‹_›]
    exact BEq.symm h
  · rw [if_neg ‹_›]
    exact alike_symm h

theorem meets_trans {a b c : Key} (hab : a.meets size b = true) (hbc : b.meets size c = true) :
    a.meets size c = true := by
  rw [meets] at hab hbc ⊢
  split at hab
  · rw [if_pos ‹_›] at hbc ⊢
    exact BEq.trans hab hbc
  · rw [if_neg ‹_›] at hbc ⊢
    exact alike_trans hab hbc

/-- Keys that a table takes for one are found in the same places. -/
theorem meets_congr_right {a b : Key} (h : a.meets size b = true) (c : Key) :
    c.meets size a = c.meets size b :=
  Bool.eq_iff_iff.2 ⟨fun hc => meets_trans hc h, fun hc => meets_trans hc (meets_symm h)⟩

/-- Keys with one hash are written in the same places. -/
theorem alike_congr_right {a b : Key} (h : a.alike b = true) (c : Key) : c.alike a = c.alike b :=
  Bool.eq_iff_iff.2 ⟨fun hc => alike_trans hc h, fun hc => alike_trans hc (alike_symm h)⟩

theorem alike_comm (a b : Key) : a.alike b = b.alike a :=
  Bool.eq_iff_iff.2 ⟨alike_symm, alike_symm⟩

/-- The only name of a table is a NaN, and the key is a NaN with another hash. The table finds its
entry under the key, but a write under the key adds a second one. -/
def Doubles (key : Key) (names : List Key) : Prop :=
  ∃ name, names = [name] ∧ name.isNaN = true ∧ key.isNaN = true ∧ name.alike key = false

theorem Doubles.any_alike {key : Key} {names : List Key} (h : key.Doubles names) :
    names.any (·.alike key) = false := by
  obtain ⟨name, rfl, -, -, hhash⟩ := h
  simp [hhash]

/-- Equal keys with different hashes are NaN. -/
theorem doubles_singleton {key name : Key} (hbeq : (name == key) = true)
    (hhash : name.alike key = false) : key.Doubles [name] := by
  have hkey : key.isNaN = true := by
    refine Bool.eq_true_of_not_eq_false fun hnan => ?_
    rw [alike_of_beq hnan hbeq] at hhash
    exact Bool.noConfusion hhash
  exact ⟨name, rfl, (isNaN_eq_of_beq hbeq).trans hkey, hkey, hhash⟩

/-- The NaN that is written as such. -/
def writtenNaN : Key :=
  number (.ofFloat (0 / 0))

/-- The NaN that comes of an operation without a result. -/
def resultNaN : Key :=
  number (0 / 0)

/-- The two NaN are one key to a table that has a single entry, and two to a write. -/
theorem doubles_resultNaN : resultNaN.Doubles [writtenNaN] :=
  ⟨writtenNaN, rfl, by decide +kernel, by decide +kernel, by decide +kernel⟩

end Key

end StoryScript
