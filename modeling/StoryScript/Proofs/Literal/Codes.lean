/-
  Written strings and colours.

  The literal form of a text is escaped, and reading it gives the text back. The code of
  a colour is six hexadecimal digits, and reading it gives the colour back.
-/
import Mathlib
import StoryScript.Colour
import StoryScript.Text.Quoted
import StoryScript.Text.Word

namespace StoryScript

namespace Text

/-! ## Strings -/

theorem toList_literal (text : String) :
    (literal text).toList = '"' :: (text.toList.flatMap literalChar ++ ['"']) := by
  rw [literal, String.toList_ofList, List.cons_append]

/-- A character stands for itself, or an escape stands for it. -/
theorem literalChar_cases (c : Char) :
    (literalChar c = [c] ∧ c ≠ '"' ∧ c ≠ '\\') ∨
      ∃ d, literalChar c = ['\\', d] ∧ ∀ cs, unescape ('\\' :: d :: cs) = c :: unescape cs := by
  by_cases hquote : c = '"'
  · subst hquote
    exact .inr ⟨'"', rfl, fun _ => rfl⟩
  by_cases hslash : c = '\\'
  · subst hslash
    exact .inr ⟨'\\', rfl, fun _ => rfl⟩
  by_cases hbreak : c = '\n'
  · subst hbreak
    exact .inr ⟨'n', rfl, fun _ => rfl⟩
  · exact .inl ⟨by simp [literalChar], hquote, hslash⟩

theorem unescape_literal (text : List Char) : unescape (text.flatMap literalChar) = text := by
  induction text with
  | nil => rfl
  | cons c cs ih =>
    rw [List.flatMap_cons]
    rcases literalChar_cases c with ⟨hchar, -, hslash⟩ | ⟨d, hchar, hescape⟩
    · rw [hchar, List.singleton_append, unescape, ih]
      · simp [hslash]
      · simp [hslash]
    · rw [hchar, List.cons_append, List.singleton_append, hescape, ih]

end Text

namespace Colour

/-! ## Colours -/

theorem toList_toHex (c : Colour) :
    c.toHex.toList = '#' :: (hexPair c.red ++ hexPair c.green ++ hexPair c.blue) := by
  rw [toHex, String.toList_ofList]
  rfl

theorem isHexDigit_digitChar {n : Nat} (h : n < 16) : Text.isHexDigit (Nat.digitChar n) = true := by
  have hall : ∀ n < 16, Text.isHexDigit (Nat.digitChar n) = true := by decide
  exact hall n h

theorem isHexDigit_hexPair {n : UInt8} : ∀ c ∈ hexPair n, Text.isHexDigit c = true := by
  intro c hc
  have hn := n.toNat_lt
  rcases List.mem_pair.1 hc with rfl | rfl
  · exact isHexDigit_digitChar (by omega)
  · exact isHexDigit_digitChar (by omega)

theorem pair?_hexPair (n : UInt8) :
    pair? (Nat.digitChar (n.toNat / 16)) (Nat.digitChar (n.toNat % 16)) = some n := by
  have hdigit : ∀ k < 16, Nat.digitChar k ≠ '+' ∧ hexValue? (Nat.digitChar k) = some k := by
    decide
  have hlt : n.toNat < 256 := n.toNat_lt
  obtain ⟨hplus, hhigh⟩ := hdigit (n.toNat / 16) (by omega)
  obtain ⟨-, hlow⟩ := hdigit (n.toNat % 16) (by omega)
  have hvalue : (n.toNat / 16 * 16 + n.toNat % 16).toUInt8 = n := by
    rw [Nat.div_add_mod']
    exact UInt8.ofNat_toNat
  rw [pair?, if_neg hplus, hhigh, hlow]
  exact congrArg some hvalue

theorem ofHex?_toHex (c : Colour) : ofHex? c.toHex = some c := by
  rw [ofHex?, toList_toHex]
  simp [hexPair, pair?_hexPair]

end Colour

end StoryScript
