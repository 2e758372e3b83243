/-
  How numbers are written.

  Numbers are positional, never with an exponent; a whole number has no point; the
  sign of zero is kept.
-/
import StoryScript.Decimal.Shortest

namespace StoryScript.Decimal

/-- Positional text of a decimal. -/
def Digits.positional (d : Digits) : List Char :=
  let text := Nat.toDigits 10 d.digits
  if 0 ≤ d.exponent then text ++ List.replicate d.exponent.toNat '0'
  else
    let places := (-d.exponent).toNat
    if places < text.length then
      text.take (text.length - places) ++ '.' :: text.drop (text.length - places)
    else '0' :: '.' :: List.replicate (places - text.length) '0' ++ text

/-- The text of a number without its sign. -/
def unsignedText (x : Float) : List Char :=
  if x.isInf then ['i', 'n', 'f']
  else if (magnitude x).mantissa = 0 then ['0']
  else (magnitude x).shortest.positional

/-- The text of a number. -/
def render (x : Float) : String :=
  if x.isNaN then "NaN"
  else String.ofList (if isNegative x then '-' :: unsignedText x else unsignedText x)

end StoryScript.Decimal
