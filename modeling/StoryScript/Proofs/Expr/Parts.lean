/-
  The parts of an expression.

  What holds throughout an expression is stated of every part: of the expression itself and of all
  that it is made of, the bodies of lambda clauses included. An expression without calls is one
  such notion.
-/
import StoryScript.Expr.Basic

namespace StoryScript.Expr

mutual

/-- Every part of an expression, itself included. -/
def parts : Expr → List Expr
  | ref object property => ref object property :: (placeParts object ++ propertyParts property)
  | get e => get e :: parts e
  | not e => not e :: parts e
  | group e => group e :: parts e
  | binary lhs op rhs => binary lhs op rhs :: (parts lhs ++ parts rhs)
  | assign dest src op => assign dest src op :: (parts dest ++ parts src)
  | lambda subject clause => lambda subject clause :: (subjectParts subject ++ clauseParts clause)
  | call callee args => call callee args :: (calleeParts callee ++ argsParts args)
  | empty => [empty]
  | number value => [number value]
  | string value => [string value]
  | boolean value => [boolean value]
  | colour code => [colour code]
  | it => [it]
  | time => [time]
  | hooks name => [hooks name]
  | error kind message => [error kind message]

/-- The parts of the start of a reference. -/
def placeParts : Place Expr → List Expr
  | .story | .temp => []
  | .of e => parts e

/-- The parts of a property name. -/
def propertyParts : Property Expr → List Expr
  | .name _ => []
  | .computed e => parts e

/-- The parts of the subject of a lambda clause. -/
def subjectParts : Subject Expr → List Expr
  | .implicit | .param _ => []
  | .of e => parts e

/-- The parts of a lambda clause. -/
def clauseParts : Clause Expr → List Expr
  | .whereBody e | .viaBody e => parts e
  | .withName _ | .makingName _ => []

/-- The parts of what a call runs. -/
def calleeParts : Callee Expr → List Expr
  | .named _ => []
  | .computed e => parts e

/-- The parts of arguments. -/
def argsParts : List (Argument Expr) → List Expr
  | [] => []
  | .value e :: args | .spread e :: args => parts e ++ argsParts args

end

/-- Whether an expression is a call. -/
def isCall : Expr → Bool
  | call .. => true
  | _ => false

/-- There is no call anywhere in the expression. -/
def CallFree (e : Expr) : Prop :=
  ∀ p ∈ e.parts, p.isCall = false

instance : DecidablePred CallFree := fun e =>
  inferInstanceAs (Decidable (∀ p ∈ e.parts, p.isCall = false))

end StoryScript.Expr
