/-
  Running source text: one expression, or every macro call of a text in turn.
-/
import StoryScript.Eval
import StoryScript.Expr.OfTokens
import StoryScript.Token.Query

namespace StoryScript

namespace Noted

/-- Runs a computation in a context; its notices follow those of the context. -/
def ofEval {α : Type} (x : Eval α) (c : Context) : Noted (α × Context) :=
  let (a, c) := x.run { c with log := [] }
  { value := (a, c), notices := c.notices }

end Noted

/-- Evaluates an expression that stands alone, on given story variables, and gives these as they
are afterwards. -/
def evaluate (host : Host) (source : String) (story : DataMap Value) :
    Noted (Except ScriptError Value × DataMap Value) := do
  let e ← Expr.ofSource source
  let (v, c) ← Noted.ofEval (e.eval host) { story }
  return (v.toExcept, c.story)

/-- A macro call that was run: its text, its code and its result. -/
structure Run where
  text : String
  code : Expr
  result : Value

/-- Runs macro calls in turn. Each has a context of its own; the story variables stay. -/
def runCalls (host : Host) (story : DataMap Value) :
    List Token → Noted (List Run × DataMap Value)
  | [] => return ([], story)
  | call :: rest => do
    let code ← Expr.ofTokens [call] false
    let (result, c) ← Noted.ofEval (code.eval host) { story }
    let (runs, story) ← runCalls host c.story rest
    return ({ text := call.text, code, result } :: runs, story)

/-- Runs every outermost macro call of a markup text. -/
def runMarkup (host : Host) (source : String) : Noted (List Run × DataMap Value) := do
  let root ← Lexer.lexIn .markup source
  runCalls host {} root.macroCalls

end StoryScript
