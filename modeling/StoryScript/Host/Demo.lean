/-
  A small host for trying out markup: collections, assignments and printing.
-/
import StoryScript.Host.Macro

namespace StoryScript

/-- The macros of the demonstration host. -/
inductive DemoMacro where
  | array
  | datamap
  | dataset
  | store
  | print

namespace DemoMacro

/-- The macro of a name. -/
def ofName? : String → Option DemoMacro
  | "a" | "array" => some array
  | "dm" | "datamap" => some datamap
  | "ds" | "dataset" => some dataset
  | "set" | "put" => some store
  | "print" => some print
  | _ => none

/-- Runs a macro, called as `target`, on arguments that are not errors. -/
def run (target : Callee Value) (args : List Value) : DemoMacro → Eval Value
  | array => return .array args
  | datamap => return Macro.datamap args
  | dataset => return Macro.dataset args
  | store => Macro.forAssignments (fun _ => Host.missing target) Assignment.perform args
  | print => return Macro.sourceText args

end DemoMacro

/-- The demonstration host. -/
def Host.demo (elapsed : Number) : Host where
  run target args := Macro.unlessError args <|
    match target with
    | .computed _ => return missing target
    | .named name =>
      match DemoMacro.ofName? name with
      | some m => m.run target args
      | none => return missing target
  elapsed := elapsed

end StoryScript
