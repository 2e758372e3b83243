/-
  Questions about a token tree: what stands at an offset, what surrounds the contents.
-/
import StoryScript.Text.Search
import StoryScript.Token.Basic

namespace StoryScript.Token

/-- Whether the token covers an offset. -/
def covers (t : Token) (offset : Nat) : Bool :=
  t.start ≤ offset && offset < t.stop

mutual

/-- Every token below this one that covers the offset, outermost first. -/
def pathAt (offset : Nat) : Token → List Token
  | { children, .. } => pathIn offset children

/-- The path through the first of the tokens that covers the offset. -/
def pathIn (offset : Nat) : List Token → List Token
  | [] => []
  | t :: ts => if t.covers offset then t :: pathAt offset t else pathIn offset ts

end

/-- The innermost token that covers the offset. -/
def tokenAt? (t : Token) (offset : Nat) : Option Token :=
  (t.pathAt offset).getLast?

/-- The texts before and after the contents. A token without contents is all opener. -/
def delimiters (t : Token) : String × String :=
  match t.inner with
  | none => (t.text, "")
  | some inner =>
    match Text.splitAtFirst inner.toList t.text.toList with
    | some (before, after) => (String.ofList before, String.ofList after)
    | none => (t.text, "")

mutual

/-- The outermost macro calls of a token tree, in source order. -/
def macroCalls : Token → List Token
  | t@{ kind, children, .. } => if kind = .macroCall then [t] else macroCallsIn children

/-- The outermost macro calls of tokens in a row. -/
def macroCallsIn : List Token → List Token
  | [] => []
  | t :: ts => macroCalls t ++ macroCallsIn ts

end

end StoryScript.Token
