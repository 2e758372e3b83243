/-
  Expressions.

  The shapes that expressions share with the values they become (where a reference
  starts, what a call runs, what a lambda clause extends) take the type of their
  contents as a parameter.
-/
import StoryScript.Error
import StoryScript.Expr.Operator
import StoryScript.Number

namespace StoryScript

/-- Where a chain of properties starts. -/
inductive Place (α : Type) where
  /-- The story variables, `$name`. -/
  | story
  /-- The temp variables, `_name`. -/
  | temp
  | of (a : α)

/-- The name of a property, given or computed. -/
inductive Property (α : Type) where
  | name (name : String)
  | computed (a : α)

/-- What a call runs: a macro by name, or a value. -/
inductive Callee (α : Type) where
  | named (name : String)
  | computed (a : α)

/-- An argument of a call. -/
inductive Argument (α : Type) where
  | value (a : α)
  /-- `...x`, which stands for every element of `x`. -/
  | spread (a : α)

/-- What a lambda clause is attached to. -/
inductive Subject (α : Type) where
  /-- Nothing; the loop value is only `it`. -/
  | implicit
  /-- The temp variable that the loop value gets. -/
  | param (name : String)
  /-- Another lambda. -/
  | of (a : α)

/-- One clause of a lambda. -/
inductive Clause (α : Type) where
  | whereBody (body : α)
  | viaBody (body : α)
  | withName (name : String)
  | makingName (name : String)

/-- An expression. -/
inductive Expr where
  /-- Nothing at all, as inside `()`. -/
  | empty
  | number (value : Number)
  | string (value : String)
  | boolean (value : Bool)
  /-- A colour by its hexadecimal code. -/
  | colour (code : String)
  | it
  | time
  | hooks (name : String)
  /-- A variable or a property, not yet read. -/
  | ref (object : Place Expr) (property : Property Expr)
  /-- The value behind a reference. -/
  | get (reference : Expr)
  | binary (lhs : Expr) (op : BinaryOp) (rhs : Expr)
  | not (operand : Expr)
  | group (inner : Expr)
  | assign (dest src : Expr) (op : AssignOp)
  | lambda (subject : Subject Expr) (clause : Clause Expr)
  | call (callee : Callee Expr) (args : List (Argument Expr))
  /-- Malformed code; evaluating it gives the error. -/
  | error (kind : ErrorKind) (message : String)

namespace Expr

/-- Whether the expression itself is an error. -/
def isError : Expr → Bool
  | error .. => true
  | _ => false

mutual

/-- The first error inside an expression, in source order of its parts. -/
def firstError? : Expr → Option Expr
  | error kind message => some (error kind message)
  | ref object property => firstErrorInPlace? object <|> firstErrorInProperty? property
  | get e | not e | group e => firstError? e
  | binary lhs _ rhs => firstError? lhs <|> firstError? rhs
  | assign dest src _ => firstError? dest <|> firstError? src
  | lambda subject clause => firstErrorInSubject? subject <|> firstErrorInClause? clause
  | call callee args => firstErrorInCallee? callee <|> firstErrorInArgs? args
  | empty | number _ | string _ | boolean _ | colour _ | it | time | hooks _ => none

/-- The first error inside the start of a reference. -/
def firstErrorInPlace? : Place Expr → Option Expr
  | .story | .temp => none
  | .of e => firstError? e

/-- The first error inside a property name. -/
def firstErrorInProperty? : Property Expr → Option Expr
  | .name _ => none
  | .computed e => firstError? e

/-- The first error inside the subject of a lambda clause. -/
def firstErrorInSubject? : Subject Expr → Option Expr
  | .implicit | .param _ => none
  | .of e => firstError? e

/-- The first error inside a lambda clause. -/
def firstErrorInClause? : Clause Expr → Option Expr
  | .whereBody e | .viaBody e => firstError? e
  | .withName _ | .makingName _ => none

/-- The first error inside what a call runs. -/
def firstErrorInCallee? : Callee Expr → Option Expr
  | .named _ => none
  | .computed e => firstError? e

/-- The first error inside arguments. -/
def firstErrorInArgs? : List (Argument Expr) → Option Expr
  | [] => none
  | .value e :: args | .spread e :: args => firstError? e <|> firstErrorInArgs? args

end

end Expr

end StoryScript
