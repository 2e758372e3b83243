/-
  Numbers: floating point of 64 bits.

  What is not a number at all (NaN) has many patterns of bits. Arithmetic, comparisons
  and printing take them all for one, and so does `Float`. A table that hashes its keys
  by their bits does not, so a number keeps its bits beside its float.
-/
namespace StoryScript

/-- A number and the bits it is stored in. -/
@[ext]
structure Number where
  float : Float
  bits : UInt64
  bits_spec : if float.isNaN then (Float.ofBits bits).isNaN = true else bits = float.toBits

namespace Number

/-- The bits of the NaN that a literal denotes. -/
def literalNaN : UInt64 := 0x7FF8000000000000

/-- The bits of the NaN that an operation without a result gives: the sign bit is set. -/
def indefiniteNaN : UInt64 := 0xFFF8000000000000

/-- A float as a number; `nan` are its bits in case it is not a number. -/
def ofFloatOr (x : Float) (nan : UInt64) (h : (Float.ofBits nan).isNaN = true) : Number where
  float := x
  bits := if x.isNaN then nan else x.toBits
  bits_spec := by
    split
    · exact h
    · rfl

/-- A float as a number. -/
def ofFloat (x : Float) : Number :=
  ofFloatOr x literalNaN (by decide +kernel)

instance (n : Nat) : OfNat Number n := ⟨ofFloat (OfNat.ofNat n)⟩

/-- A natural number as a number. -/
def ofNat (n : Nat) : Number :=
  ofFloat (Float.ofNat n)

/-- The bits of the NaN that an operation gives on two operands: those of the first operand that
is one itself. -/
def nanOf (a b : Number) : UInt64 :=
  if a.float.isNaN then a.bits else if b.float.isNaN then b.bits else indefiniteNaN

theorem isNaN_ofBits_bits {a : Number} (h : a.float.isNaN = true) :
    (Float.ofBits a.bits).isNaN = true := by
  simpa only [h, if_true] using a.bits_spec

theorem isNaN_nanOf (a b : Number) : (Float.ofBits (nanOf a b)).isNaN = true := by
  unfold nanOf
  split
  · exact isNaN_ofBits_bits ‹_›
  · split
    · exact isNaN_ofBits_bits ‹_›
    · decide +kernel

/-- The number that an operation on floats gives on two numbers. -/
def apply (op : Float → Float → Float) (a b : Number) : Number :=
  ofFloatOr (op a.float b.float) (nanOf a b) (isNaN_nanOf a b)

instance : Add Number := ⟨apply (· + ·)⟩
instance : Sub Number := ⟨apply (· - ·)⟩
instance : Mul Number := ⟨apply (· * ·)⟩
instance : Div Number := ⟨apply (· / ·)⟩

/-- Numbers are compared as floats: `0` and `-0` are equal, and no NaN equals anything. -/
instance : BEq Number := ⟨fun a b => a.float == b.float⟩

@[simp] theorem float_ofFloat (x : Float) : (ofFloat x).float = x := rfl

@[simp] theorem float_zero : (0 : Number).float = 0 := rfl

@[simp] theorem float_one : (1 : Number).float = 1 := rfl

@[simp] theorem float_apply (op : Float → Float → Float) (a b : Number) :
    (apply op a b).float = op a.float b.float := rfl

@[simp] theorem float_add (a b : Number) : (a + b).float = a.float + b.float := rfl

@[simp] theorem float_sub (a b : Number) : (a - b).float = a.float - b.float := rfl

theorem beq_eq (a b : Number) : (a == b) = (a.float == b.float) := rfl

end Number

end StoryScript
