/-
  A host with a library of macros: collections, assignments, styling commands, and
  lambdas applied to values.

  A lambda may run macros that apply lambdas again. Each level of that runs on a host
  of its own, and the lowest level refuses to go deeper.
-/
import StoryScript.Host.Macro

namespace StoryScript

open ScriptError

/-- What surrounds a story: the texts of its hooks, and the time. -/
structure Surroundings where
  hookTexts : List (String × String) := []
  elapsed : Number := 1500

/-- The macros of the library. -/
inductive LibraryMacro where
  /-- Every argument as it is, errors too. -/
  | raw
  | array
  | dataset
  | datamap
  | sealed
  | store
  | unset
  | print
  | source
  /-- A styling command. -/
  | style
  /-- A lambda applied to each of several values. -/
  | altered
  /-- A lambda applied to each of several values with a running total. -/
  | folded
  deriving DecidableEq

namespace LibraryMacro

/-- The macro of a name. -/
def ofName? : String → Option LibraryMacro
  | "raw" => some raw
  | "a" => some array
  | "ds" => some dataset
  | "dm" => some datamap
  | "sealed" => some sealed
  | "set" | "put" => some store
  | "unset" => some unset
  | "print" => some print
  | "source" => some source
  | "bold" | "text-colour" | "link-goto" => some style
  | "altered" => some altered
  | "folded" => some folded
  | _ => none

/-- How a library applies a lambda. -/
abbrev Applier := Lambda → LambdaArgs → Eval Value

/-- Applies a lambda to each value. -/
def alter (apply : Applier) (l : Lambda) : List Value → Eval (List Value)
  | [] => return []
  | v :: rest => return (← apply l { loopValue := some v }) :: (← alter apply l rest)

/-- Applies a lambda to each value and the total so far, which the result replaces. -/
def fold (apply : Applier) (l : Lambda) (total : Value) : List Value → Eval Value
  | [] => return total
  | v :: rest => do
    fold apply l (← apply l { loopValue := some v, makingValue := some total }) rest

/-- Runs a macro, called by `name`. -/
def run (apply : Applier) (name : String) (args : List Value) : LibraryMacro → Eval Value
  | raw | array => return .array args
  | dataset => return Macro.dataset args
  | datamap => return Macro.datamap args
  | sealed =>
    match args with
    | .map m :: _ => return .map m.sealed
    | _ => return .error (macroNeeds name "a datamap")
  | store => Macro.forAssignments (fun _ => .error (macroNeeds name "assignments"))
      Assignment.perform args
  | unset => Macro.forAssignments (fun _ => .error (macroNeeds name "assignments"))
      (fun a => Eval.attempt a.dest.delete) args
  | print => return args.head?.getD (.string "")
  | source => return Macro.sourceText args
  | style => return .changer [{ name, params := args }]
  | altered =>
    match args with
    | .lambda l :: values => return .array (← alter apply l values)
    | _ => return .error (macroNeeds name "a lambda first")
  | folded =>
    match args with
    | .lambda l :: total :: values => fold apply l total values
    | [.lambda _] => return .error (macroNeeds name "a starting value")
    | _ => return .error (macroNeeds name "a lambda first")

end LibraryMacro

namespace Host

/-- Runs a call of the library. A lambda that is called is applied to up to three values. -/
def runLibrary (apply : LibraryMacro.Applier) (target : Callee Value) (args : List Value) :
    Eval Value :=
  match target with
  | .named name =>
    match LibraryMacro.ofName? name with
    | some .raw => LibraryMacro.raw.run apply name args
    | some m => Macro.unlessError args (m.run apply name args)
    | none => Macro.unlessError args (return missing target)
  | .computed (.lambda l) => Macro.unlessError args <|
      apply l { loopValue := args[0]?, withValue := args[1]?, makingValue := args[2]? }
  | .computed _ => Macro.unlessError args (return missing target)

/-- The hooks of a name, with their text if there is one. -/
def selectFrom (texts : List (String × String)) (name : String) : Value :=
  .hooks { name, text := texts.lookup name }

/-- The library host on which lambdas can run `depth` deep inside each other. -/
def libraryAt (around : Surroundings) : (depth : Nat) → Host
  | 0 => {
      run := runLibrary fun _ _ => return .error tooDeep
      selectHooks := selectFrom around.hookTexts
      elapsed := around.elapsed }
  | depth + 1 => {
      run := runLibrary fun l args => l.apply (libraryAt around depth) args
      selectHooks := selectFrom around.hookTexts
      elapsed := around.elapsed }

/-- How deep lambdas can run inside each other. -/
def lambdaDepth : Nat := 10000

/-- The library host. -/
def library (around : Surroundings) : Host :=
  libraryAt around lambdaDepth

end Host

end StoryScript
