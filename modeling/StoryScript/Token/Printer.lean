/-
  The outline of a token tree: one line a token, indented by depth.
-/
import StoryScript.Decimal.Printer
import StoryScript.Text.Quoted
import StoryScript.Token.Basic

namespace StoryScript.Token

/-- The line of a token: kind, span, text, and name and value where it has them. -/
def outlineLine (depth : Nat) (t : Token) : String :=
  String.ofList (List.replicate (2 * depth) ' ') ++ t.kind.name ++
    "(" ++ toString t.start ++ "→" ++ toString t.stop ++ ") " ++ Text.visible t.text ++
    (match t.name with
      | some name => " name=" ++ Text.visible name
      | none => "") ++
    (match t.value with
      | some value => " value=" ++ Decimal.render value.float
      | none => "") ++
    "\n"

mutual

/-- The outline of a token and everything below it. -/
def outlineAt (depth : Nat) : Token → String
  | t@{ children, .. } => outlineLine depth t ++ outlineAll (depth + 1) children

/-- The outlines of tokens in a row. -/
def outlineAll (depth : Nat) : List Token → String
  | [] => ""
  | t :: ts => outlineAt depth t ++ outlineAll depth ts

end

/-- The outline of a token tree. -/
def outline (t : Token) : String :=
  t.outlineAt 0

end StoryScript.Token
