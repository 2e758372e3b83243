/-
  Text in double quotes.

  Two forms are written. The visible form is for readers of messages and code: it
  escapes everything that cannot be seen. The literal form is source text: it
  escapes only what a string literal must, and reading the literal gives the text
  back.
-/
import StoryScript.Text.Extending
import StoryScript.Text.Printable

namespace StoryScript.Text

/-- A code point in lower-case hexadecimal, between `\u` and braces. -/
def codePointEscape (c : Char) : List Char :=
  ['\\', 'u', '\x7b'] ++ Nat.toDigits 16 c.toNat ++ ['\x7d']

/-- One character of the visible form. -/
def visibleChar (c : Char) : List Char :=
  match c with
  | '\x00' => ['\\', '0']
  | '\t' => ['\\', 't']
  | '\r' => ['\\', 'r']
  | '\n' => ['\\', 'n']
  | '"' => ['\\', '"']
  | '\\' => ['\\', '\\']
  | c => if isExtending c || !isPrintable c then codePointEscape c else [c]

/-- The visible form of a text. -/
def visible (s : String) : String :=
  String.ofList ('"' :: s.toList.flatMap visibleChar ++ ['"'])

/-- One character of the literal form. -/
def literalChar (c : Char) : List Char :=
  match c with
  | '"' => ['\\', '"']
  | '\\' => ['\\', '\\']
  | '\n' => ['\\', 'n']
  | c => [c]

/-- The literal form of a text. -/
def literal (s : String) : String :=
  String.ofList ('"' :: s.toList.flatMap literalChar ++ ['"'])

/-- Reads the inside of a string literal: `\n`, `\t` and `\r` are control characters, a
backslash before a line break hides both, and before any other character it is dropped. -/
def unescape : List Char → List Char
  | [] => []
  | ['\\'] => ['\\']
  | '\\' :: c :: cs =>
    match c with
    | 'n' => '\n' :: unescape cs
    | 't' => '\t' :: unescape cs
    | 'r' => '\r' :: unescape cs
    | '\n' => unescape cs
    | c => c :: unescape cs
  | c :: cs => c :: unescape cs

end StoryScript.Text
