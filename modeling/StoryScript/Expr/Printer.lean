/-
  The code of an expression: the calls that evaluating it amounts to.
-/
import StoryScript.Decimal.Printer
import StoryScript.Expr.Basic
import StoryScript.Text.Quoted

namespace StoryScript.Expr

mutual

/-- The code of an expression. -/
def code : Expr → String
  | empty => ""
  | number value => Decimal.render value.float
  | string value => Text.visible value
  | boolean value => toString value
  | colour code => "colour(" ++ Text.visible code ++ ")"
  | it => "it"
  | time => "time"
  | hooks name => "hooks(" ++ Text.visible name ++ ")"
  | ref object property => "ref(" ++ placeCode object ++ ", " ++ propertyCode property ++ ")"
  | get reference => code reference ++ ".get()"
  | binary lhs op rhs => op.name ++ "(" ++ code lhs ++ ", " ++ code rhs ++ ")"
  | not operand => "not(" ++ code operand ++ ")"
  | group inner => "(" ++ code inner ++ ")"
  | assign dest src op =>
    "makeAssignmentRequest(" ++ code dest ++ ", " ++ code src ++ ", " ++ Text.visible op.name ++ ")"
  | lambda subject clause =>
    "Lambda.create(" ++ subjectCode subject ++ ", " ++ clauseCode clause ++ ")"
  | call callee args =>
    "Macros.run(" ++ calleeCode callee ++ ", [" ++ String.intercalate ", " (argsCode args) ++ "])"
  | error kind message => "error(" ++ Text.visible kind.name ++ ", " ++ Text.visible message ++ ")"

/-- The code of the start of a reference. -/
def placeCode : Place Expr → String
  | .story => "$"
  | .temp => "_"
  | .of e => code e

/-- The code of a property name. -/
def propertyCode : Property Expr → String
  | .name name => Text.visible name
  | .computed e => code e

/-- The code of the subject of a lambda clause. -/
def subjectCode : Subject Expr → String
  | .implicit => "null"
  | .param name => "_" ++ name
  | .of e => code e

/-- The code of a lambda clause. -/
def clauseCode : Clause Expr → String
  | .whereBody body => "\"where\", " ++ code body
  | .viaBody body => "\"via\", " ++ code body
  | .withName name => "\"with\", \"_" ++ name ++ "\""
  | .makingName name => "\"making\", \"_" ++ name ++ "\""

/-- The code of what a call runs. -/
def calleeCode : Callee Expr → String
  | .named name => Text.visible name
  | .computed e => code e

/-- The code of each argument. -/
def argsCode : List (Argument Expr) → List String
  | [] => []
  | .value e :: args => code e :: argsCode args
  | .spread e :: args => ("..." ++ code e) :: argsCode args

end

end StoryScript.Expr
