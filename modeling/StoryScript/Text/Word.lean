/-
  Word characters, and comparison without regard to case.

  Keywords and names are runs of word characters. Keywords ignore the case of ASCII
  letters only; other letters always keep their case.
-/
import StoryScript.Text.Alphanumeric

namespace StoryScript.Text

/-- A letter or numeral of any script, or an underscore. -/
def isWord (c : Char) : Bool :=
  isAlphanumeric c || c == '_'

/-- A word character or a hyphen, as used in the names of macros and hooks. -/
def isNameChar (c : Char) : Bool :=
  isWord c || c == '-'

theorem isNameChar_of_isWord {c : Char} (h : isWord c = true) : isNameChar c = true := by
  simp [isNameChar, h]

/-- ASCII letters in lower case, all else unchanged. -/
def lower (s : String) : String :=
  String.ofList (s.toList.map Char.toLower)

/-- Equality up to the case of ASCII letters. -/
def sameIgnoringCase (a b : String) : Bool :=
  lower a == lower b

/-- Whether `cs` starts with `word`, up to the case of ASCII letters. -/
def startsWithIgnoringCase : (word cs : List Char) → Bool
  | [], _ => true
  | _ :: _, [] => false
  | w :: word, c :: cs => w.toLower == c.toLower && startsWithIgnoringCase word cs

theorem length_le_of_startsWithIgnoringCase :
    ∀ {word cs : List Char}, startsWithIgnoringCase word cs = true → word.length ≤ cs.length
  | [], _, _ => by simp
  | _ :: _, [], h => by simp [startsWithIgnoringCase] at h
  | _ :: word, _ :: cs, h => by
    simp only [startsWithIgnoringCase, Bool.and_eq_true] at h
    simpa using length_le_of_startsWithIgnoringCase h.2

/-- A hexadecimal digit. -/
def isHexDigit (c : Char) : Bool :=
  c.isDigit || ('a' ≤ c && c ≤ 'f') || ('A' ≤ c && c ≤ 'F')

end StoryScript.Text
