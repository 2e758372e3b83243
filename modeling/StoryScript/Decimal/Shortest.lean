/-
  The fewest decimal digits that determine a number.

  Every number has an interval of reals that are nearer to it than to any other
  number. A decimal inside the interval reads back as the number. Among the
  decimals with the fewest digits the nearest is taken; of two equally near, the
  larger.
-/
import StoryScript.Decimal.Exact

namespace StoryScript.Decimal

/-- The decimal `digits * 10 ^ exponent`. -/
structure Digits where
  digits : Nat
  exponent : Int
  deriving DecidableEq

/-- A magnitude as an exact decimal `value / 10 ^ places`, with the distance `unit` to the
next number in the same scale. -/
structure Expansion where
  value : Nat
  unit : Nat
  places : Nat

/-- The exact decimal expansion; it ends because two divides ten. -/
def Magnitude.expand (m : Magnitude) : Expansion :=
  if 0 ≤ m.exponent then
    let unit := Nat.pow 2 m.exponent.toNat
    ⟨m.mantissa * unit, unit, 0⟩
  else
    let places := (-m.exponent).toNat
    let unit := Nat.pow 5 places
    ⟨m.mantissa * unit, unit, places⟩

/-- Whether `candidate`, in the scale of the expansion, reads back as `m`. The interval ends
half a unit away, a quarter below a power of two, and holds its ends iff the mantissa is
even. -/
def Magnitude.readsBack (m : Magnitude) (x : Expansion) (candidate : Nat) : Bool :=
  let below := if m.mantissa = Nat.pow 2 52 && -1074 < m.exponent then x.unit else 2 * x.unit
  if m.mantissa % 2 = 0 then
    4 * x.value ≤ 4 * candidate + below && 4 * candidate ≤ 4 * x.value + 2 * x.unit
  else
    4 * x.value < 4 * candidate + below && 4 * candidate < 4 * x.value + 2 * x.unit

/-- The number of decimal digits. -/
def digitCount (n : Nat) : Nat :=
  (Nat.toDigits 10 n).length

/-- The nearest decimal with `count` digits that reads back, if there is one. -/
def Magnitude.withDigits? (m : Magnitude) (x : Expansion) (count : Nat) : Option Digits :=
  let dropped := digitCount x.value - count
  let step := Nat.pow 10 dropped
  let low := x.value / step
  let high := low + 1
  let exponent := (dropped : Int) - x.places
  match m.readsBack x (low * step), m.readsBack x (high * step) with
  | true, true =>
    if x.value - low * step < high * step - x.value then some ⟨low, exponent⟩
    else some ⟨high, exponent⟩
  | true, false => some ⟨low, exponent⟩
  | false, true => some ⟨high, exponent⟩
  | false, false => none

/-- Moves trailing zeros of the digits into the exponent, at most `fuel` of them. -/
def Digits.stripZeros : (fuel : Nat) → Digits → Digits
  | 0, d => d
  | fuel + 1, d =>
    if d.digits % 10 = 0 && d.digits ≠ 0 then stripZeros fuel ⟨d.digits / 10, d.exponent + 1⟩
    else d

/-- The fewest digits that determine a magnitude; seventeen always do. -/
def Magnitude.shortest (m : Magnitude) : Digits :=
  let x := m.expand
  let found := (List.range 17).findSome? fun n => m.withDigits? x (n + 1)
  let all : Digits := ⟨x.value, -x.places⟩
  (found.getD all).stripZeros 18

end StoryScript.Decimal
