/-
  Macros that several hosts share.
-/
import StoryScript.Eval

namespace StoryScript.Macro

open ScriptError

/-- Adds entries to a datamap from keys and values in turn. -/
def addPairs (m : DataMap Value) : List Value → Except ScriptError (DataMap Value)
  | [] => .ok m
  | [_] => .error (macroNeeds "dm" "a value after every name")
  | key :: value :: rest => do addPairs (m.insert (← Key.ofValue key) value) rest

/-- The datamap of keys and values in turn. -/
def datamap (args : List Value) : Value :=
  match addPairs {} args with
  | .ok m => .map m
  | .error e => .error e

/-- The dataset of values. -/
def dataset (args : List Value) : Value :=
  .set (DataSet.ofList args)

/-- Does something with each assignment in turn, up to the first failure. An argument that is no
assignment is refused. -/
def forAssignments (refuse : Value → Value)
    (act : Assignment Value → Eval (Except ScriptError Unit)) : List Value → Eval Value
  | [] => return .string ""
  | .assignment a :: rest => do
    match ← act a with
    | .ok () => forAssignments refuse act rest
    | .error e => return .error e
  | v :: _ => return refuse v

/-- Source texts of values with a space between. -/
def sourceText (args : List Value) : Value :=
  .string (String.intercalate " " (args.map Value.source))

/-- The first error among arguments, or else what a macro makes of them. -/
def unlessError (args : List Value) (x : Eval Value) : Eval Value :=
  match Value.firstError? args with
  | some e => return e
  | none => x

end StoryScript.Macro
