/-
  Blank characters and trimming.

  Two sets matter. A space is any character with the Unicode property White_Space,
  line breaks included; trimming removes spaces. A blank separates words within one
  line, so it leaves out the line break.
-/
import StoryScript.Text.Ranges

namespace StoryScript.Text

/-- Every character with the property White_Space. -/
def spaceRanges : Ranges :=
  [(0x9, 0xd), (0x20, 0x20), (0x85, 0x85), (0xa0, 0xa0), (0x1680, 0x1680), (0x2000, 0x200a),
   (0x2028, 0x2029), (0x202f, 0x202f), (0x205f, 0x205f), (0x3000, 0x3000)]

/-- Characters that separate words within one line. -/
def blankRanges : Ranges :=
  [(0x9, 0x9), (0xb, 0xc), (0x20, 0x20), (0xa0, 0xa0), (0x2000, 0x200a), (0x2028, 0x2029),
   (0x202f, 0x202f), (0x205f, 0x205f), (0x3000, 0x3000)]

/-- White space of any kind. -/
def isSpace (c : Char) : Bool :=
  spaceRanges.contains c

/-- White space within a line. -/
def isBlank (c : Char) : Bool :=
  blankRanges.contains c

/-- Drops the trailing elements that satisfy `p`. -/
def dropEndWhile (p : Char → Bool) (cs : List Char) : List Char :=
  (cs.reverse.dropWhile p).reverse

/-- Removes the spaces at both ends. -/
def trim (s : String) : String :=
  String.ofList (dropEndWhile isSpace (s.toList.dropWhile isSpace))

end StoryScript.Text
