/-
  Tokens: the tree that source text is read into.

  A token covers a stretch of the source. Its children cover the text between its
  delimiters. Offsets count bytes.
-/
import StoryScript.Expr.Operator
import StoryScript.Number
import StoryScript.Text.Blank
import StoryScript.Text.Width
import StoryScript.Token.Kind

namespace StoryScript

/-- On which side of a hook its name tag stands. -/
inductive TagPosition where
  | prepended
  | appended
  deriving DecidableEq

/-- What a rule reads out of the text it matches. -/
structure Detail where
  /-- Name of a macro, variable, property, hook, tag or identifier. -/
  name : Option String := none
  /-- Value of a number or a time. -/
  value : Option Number := none
  /-- Operator of a sign. -/
  operator : Option BinaryOp := none
  /-- Whether a comparison is negated. -/
  negate : Bool := false
  /-- Passage that a link leads to. -/
  passage : Option String := none
  /-- Depth of a list item or heading, or the number of backticks. -/
  depth : Nat := 0
  /-- Alignment of the text below. -/
  align : Option String := none
  /-- Colour as a hexadecimal code. -/
  colour : Option String := none
  /-- Side of the name tag of a hook. -/
  tag : Option TagPosition := none
  /-- Whether a macro name is a variable, so that the call runs its value. -/
  isMethod : Bool := false
  /-- What is wrong with malformed text. -/
  message : Option String := none

/-- A node of the token tree. -/
structure Token extends Detail where
  kind : Kind
  /-- Offset of the first byte. -/
  start : Nat := 0
  /-- The source text covered, delimiters included. -/
  text : String := ""
  /-- Offset just past the last byte. -/
  stop : Nat := start + Text.width text.toList
  /-- The text between the delimiters, which the children cover. -/
  inner : Option String := none
  children : List Token := []
  /-- Whether the token is an opener that still waits for its closer. -/
  isFront : Bool := false
  /-- The rules that apply inside. -/
  mode : Mode := .markup

namespace Token

/-- Whether the token is nothing but white space. -/
def isWhitespace (t : Token) : Bool :=
  match t.kind with
  | .whitespace | .lineBreak => true
  | .text => t.text.toList.all Text.isSpace
  | _ => false

/-- The last of the children. -/
def lastChild? (t : Token) : Option Token :=
  t.children.getLast?

/-- The text of tokens in a row. -/
def textOf (ts : List Token) : String :=
  String.join (ts.map text)

end Token

end StoryScript
