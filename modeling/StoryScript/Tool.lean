/-
  The command-line tools: one shows the token tree of a markup text, the other runs its
  macro calls.
-/
import StoryScript.Expr.Printer
import StoryScript.Host.Demo
import StoryScript.Script
import StoryScript.Text.Blank
import StoryScript.Token.Printer

namespace StoryScript

/-- A command-line tool. -/
inductive Tool where
  /-- Shows the token tree. -/
  | outline
  /-- Runs the macro calls. -/
  | run
  deriving DecidableEq

/-- What a tool prints and the code it exits with. -/
structure Outcome where
  output : String
  code : UInt32
  deriving DecidableEq

namespace Tool

/-- Every line ended by a line feed alone, the last one too. -/
def normalizeLines : List Char → List Char
  | [] => []
  | '\r' :: '\n' :: cs => '\n' :: normalizeLines cs
  | [c] => if c = '\n' then ['\n'] else [c, '\n']
  | c :: cs => c :: normalizeLines cs

/-- Reads how much to report: an optional plus sign and digits, at most 64 bits. -/
def readVerbosity? (arg : String) : Option Nat :=
  let digits := match arg.toList with
    | '+' :: digits => digits
    | digits => digits
  if digits.isEmpty || !digits.all Char.isDigit then none
  else
    let n := Decimal.digitsValue digits
    if n < Nat.pow 2 64 then some n else none

/-- What is printed about one macro call. -/
def showRun (r : Run) : String :=
  Text.trim r.text ++ "\n  " ++ r.code.code ++ "\n  => " ++ r.result.source ++ "\n"

/-- What a tool prints for a markup text; `elapsed` is what the clock shows while macros run. -/
def print (elapsed : Number) (source : String) : Tool → String
  | outline => (lex source).outline ++ "\n"
  | run =>
    let (runs, story) := (runMarkup (Host.demo elapsed) source).value
    String.join (runs.map showRun) ++ (Value.map story).source ++ "\n"

/-- Runs a tool on its arguments and its input. The first argument, if there is one, says how much
to report; nothing is printed if it cannot be read. -/
def execute (tool : Tool) (elapsed : Number) (args : List String) (input : String) : Outcome :=
  if (args.head?.all fun arg => (readVerbosity? arg).isSome) then
    { output := tool.print elapsed (String.ofList (normalizeLines input.toList)), code := 0 }
  else { output := "", code := 1 }

end Tool

end StoryScript
