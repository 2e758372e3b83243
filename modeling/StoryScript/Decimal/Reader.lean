/-
  How numbers are read.

  An optional sign, then `inf`, `infinity` or `nan` in any case, or digits with an
  optional point and an optional exponent. The result is the number nearest to the
  decimal; beyond the range it is infinite or zero.
-/
import StoryScript.Text.Word

namespace StoryScript.Decimal

/-- The value of a run of decimal digits. -/
def digitsValue (cs : List Char) : Nat :=
  cs.foldl (fun n c => 10 * n + (c.toNat - '0'.toNat)) 0

/-- The number nearest to `mantissa * 10 ^ exponent`. A decimal too large or too small for any
exponent of a number is settled before the power is computed. -/
def ofDecimal (mantissa : Nat) (exponent : Int) : Float :=
  let size := (Nat.toDigits 10 mantissa).length + exponent
  if mantissa = 0 || size < -400 then 0
  else if 400 < size then 1 / 0
  else if 0 ≤ exponent then Float.ofScientific mantissa false exponent.toNat
  else Float.ofScientific mantissa true (-exponent).toNat

/-- Reads the exponent after its mark: an optional sign and at least one digit. -/
def readExponent? (cs : List Char) : Option Int :=
  let digits (cs : List Char) : Option Nat :=
    if cs.isEmpty || !cs.all Char.isDigit then none else some (digitsValue cs)
  match cs with
  | '-' :: cs => (digits cs).map fun n => -(n : Int)
  | '+' :: cs => (digits cs).map Int.ofNat
  | cs => (digits cs).map Int.ofNat

/-- Reads a decimal without a sign. -/
def readUnsigned? (cs : List Char) : Option Float :=
  let whole := cs.takeWhile Char.isDigit
  let rest := cs.dropWhile Char.isDigit
  let (fraction, rest) := match rest with
    | '.' :: rest => (rest.takeWhile Char.isDigit, rest.dropWhile Char.isDigit)
    | rest => ([], rest)
  let exponent? := match rest with
    | [] => some 0
    | mark :: rest => if mark = 'e' || mark = 'E' then readExponent? rest else none
  if whole.isEmpty && fraction.isEmpty then none
  else exponent?.map fun e => ofDecimal (digitsValue (whole ++ fraction)) (e - fraction.length)

/-- Reads `inf`, `infinity`, `nan` or a decimal, without a sign. -/
def readMagnitude? (cs : List Char) : Option Float :=
  let word := cs.map Char.toLower
  if word = ['i', 'n', 'f'] || word = ['i', 'n', 'f', 'i', 'n', 'i', 't', 'y'] then some (1 / 0)
  else if word = ['n', 'a', 'n'] then some (0 / 0)
  else readUnsigned? cs

/-- Reads a number. -/
def read? (cs : List Char) : Option Float :=
  match cs with
  | '-' :: cs => (readMagnitude? cs).map fun x => -x
  | '+' :: cs => readMagnitude? cs
  | cs => readMagnitude? cs

end StoryScript.Decimal
