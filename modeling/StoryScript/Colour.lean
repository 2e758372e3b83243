/-
  Colours: channels, hexadecimal codes, names and blending.
-/
import StoryScript.Text.Word

namespace StoryScript

/-- A colour with eight bits a channel. -/
structure Colour where
  red : UInt8
  green : UInt8
  blue : UInt8
  deriving DecidableEq

namespace Colour

/-- The value of a hexadecimal digit. -/
def hexValue? (c : Char) : Option Nat :=
  if c.isDigit then some (c.toNat - '0'.toNat)
  else if 'a' ≤ c && c ≤ 'f' then some (c.toNat - 'a'.toNat + 10)
  else if 'A' ≤ c && c ≤ 'F' then some (c.toNat - 'A'.toNat + 10)
  else none

/-- One digit for a whole channel, which stands for the digit written twice. -/
def doubled? (c : Char) : Option UInt8 :=
  (hexValue? c).map fun n => (n * 17).toUInt8

/-- Two digits of a channel. A plus sign may stand for a leading zero. -/
def pair? (high low : Char) : Option UInt8 := do
  let h ← if high = '+' then some 0 else hexValue? high
  let l ← hexValue? low
  return (h * 16 + l).toUInt8

/-- Reads three or six hexadecimal digits, after an optional `#`. -/
def ofHex? (code : String) : Option Colour :=
  let digits := match code.toList with
    | '#' :: digits => digits
    | digits => digits
  match digits with
  | [r, g, b] => do return ⟨← doubled? r, ← doubled? g, ← doubled? b⟩
  | [r, r', g, g', b, b'] => do return ⟨← pair? r r', ← pair? g g', ← pair? b b'⟩
  | _ => none

/-- Two lower-case hexadecimal digits. -/
def hexPair (n : UInt8) : List Char :=
  [Nat.digitChar (n.toNat / 16), Nat.digitChar (n.toNat % 16)]

/-- The six-digit code of a colour. -/
def toHex (c : Colour) : String :=
  String.ofList ('#' :: hexPair c.red ++ hexPair c.green ++ hexPair c.blue)

/-- The colours that have names, with their codes. -/
def names : List (String × String) :=
  [("red", "#e61919"), ("orange", "#e68019"), ("yellow", "#e5e619"), ("lime", "#80e619"),
   ("green", "#19e619"), ("cyan", "#19e5e6"), ("aqua", "#19e5e6"), ("blue", "#197fe6"),
   ("navy", "#1919e6"), ("purple", "#7f19e6"), ("fuchsia", "#e619e5"), ("magenta", "#e619e5"),
   ("white", "#fff"), ("black", "#000"), ("gray", "#888"), ("grey", "#888")]

/-- The code of a named colour; the case of the name does not matter. -/
def codeOfName? (name : String) : Option String :=
  names.lookup (Text.lower name)

/-- One channel of a blend: six tenths of the sum, to the nearest integer, at most 255. -/
def blendChannel (a b : UInt8) : UInt8 :=
  (min 255 ((6 * (a.toNat + b.toNat) + 5) / 10)).toUInt8

/-- The blend of two colours, channel by channel. -/
def blend (a b : Colour) : Colour :=
  ⟨blendChannel a.red b.red, blendChannel a.green b.green, blendChannel a.blue b.blue⟩

/-- The channel with a given name. -/
def channel? (c : Colour) (name : String) : Option UInt8 :=
  if name = "r" then some c.red
  else if name = "g" then some c.green
  else if name = "b" then some c.blue
  else none

end Colour

end StoryScript
