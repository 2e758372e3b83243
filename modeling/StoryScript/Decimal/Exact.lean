/-
  Exact facts about a number: its parts, whether it is whole, rounding, remainder.

  A finite number is `± mantissa * 2 ^ exponent`. Everything here is decided in
  integer arithmetic on that form, so no step rounds unless it says so.
-/
namespace StoryScript.Decimal

/-- The size of a finite number, without its sign: `mantissa * 2 ^ exponent`. -/
structure Magnitude where
  mantissa : Nat
  exponent : Int
  deriving DecidableEq

/-- Whether the sign bit is set; true of `-0` too. -/
def isNegative (x : Float) : Bool :=
  Nat.pow 2 63 ≤ x.toBits.toNat

/-- The magnitude of a finite number. -/
def magnitude (x : Float) : Magnitude :=
  let field : Nat := x.toBits.toNat / Nat.pow 2 52 % Nat.pow 2 11
  let fraction : Nat := x.toBits.toNat % Nat.pow 2 52
  if field = 0 then ⟨fraction, -1074⟩ else ⟨Nat.pow 2 52 + fraction, (field : Int) - 1075⟩

/-- `n` with the sign of `x`. -/
def signed (x : Float) (n : Nat) : Int :=
  if isNegative x then -n else n

/-- The integer a number equals, if it equals one. -/
def whole? (x : Float) : Option Int :=
  if !x.isFinite then none
  else
    let ⟨mantissa, exponent⟩ := magnitude x
    if 0 ≤ exponent then some (signed x (mantissa * Nat.pow 2 exponent.toNat))
    else
      let unit := Nat.pow 2 (-exponent).toNat
      if mantissa % unit = 0 then some (signed x (mantissa / unit)) else none

/-- The integer nearest to a finite number; a half goes away from zero. -/
def nearest (x : Float) : Int :=
  let ⟨mantissa, exponent⟩ := magnitude x
  if 0 ≤ exponent then signed x (mantissa * Nat.pow 2 exponent.toNat)
  else
    let unit := Nat.pow 2 (-exponent).toNat
    signed x ((2 * mantissa + unit) / (2 * unit))

/-- The power of two with exponent `e`, for `-1074 ≤ e ≤ 1023`. -/
def powerOfTwo (e : Int) : Float :=
  if e < -1022 then Float.ofBits (Nat.pow 2 (e + 1074).toNat).toUInt64
  else Float.ofBits ((e + 1023).toNat * Nat.pow 2 52).toUInt64

/-- The remainder of a division whose quotient is cut toward zero: it has the sign of `x`
and is smaller than `y` in size. It is always exact. -/
def remainder (x y : Float) : Float :=
  if x.isNaN || y.isNaN || x.isInf || y == 0 then 0 / 0
  else if y.isInf then x
  else
    let ⟨m, e⟩ := magnitude x
    let ⟨n, f⟩ := magnitude y
    let unit := min e f
    let rest := (m * Nat.pow 2 (e - unit).toNat) % (n * Nat.pow 2 (f - unit).toNat)
    let size := Float.ofNat rest * powerOfTwo unit
    if isNegative x then -size else size

end StoryScript.Decimal
