/-
  Equality of expressions.

  Two expressions are the same if they are built alike from the same texts, operators
  and numbers. Numbers go by value, so `0` and `-0` are the same and what is not a
  number is not even the same as itself.
-/
import StoryScript.Expr.Basic

namespace StoryScript.Expr

mutual

/-- Whether two expressions are the same. -/
def same : Expr → Expr → Bool
  | empty, empty | it, it | time, time => true
  | number a, number b => a == b
  | string a, string b | colour a, colour b | hooks a, hooks b => a == b
  | boolean a, boolean b => a == b
  | ref object property, ref object' property' =>
    samePlace object object' && sameProperty property property'
  | get a, get b | not a, not b | group a, group b => same a b
  | binary lhs op rhs, binary lhs' op' rhs' => same lhs lhs' && op == op' && same rhs rhs'
  | assign dest src op, assign dest' src' op' => same dest dest' && same src src' && op == op'
  | lambda subject clause, lambda subject' clause' =>
    sameSubject subject subject' && sameClause clause clause'
  | call callee args, call callee' args' => sameCallee callee callee' && sameArgs args args'
  | error kind message, error kind' message' => kind == kind' && message == message'
  | _, _ => false
termination_by structural x => x

/-- Whether two references start at the same place. -/
def samePlace : Place Expr → Place Expr → Bool
  | .story, .story | .temp, .temp => true
  | .of a, .of b => same a b
  | _, _ => false
termination_by structural x => x

/-- Whether two property names are the same. -/
def sameProperty : Property Expr → Property Expr → Bool
  | .name a, .name b => a == b
  | .computed a, .computed b => same a b
  | _, _ => false
termination_by structural x => x

/-- Whether two clauses have the same subject. -/
def sameSubject : Subject Expr → Subject Expr → Bool
  | .implicit, .implicit => true
  | .param a, .param b => a == b
  | .of a, .of b => same a b
  | _, _ => false
termination_by structural x => x

/-- Whether two clauses are the same. -/
def sameClause : Clause Expr → Clause Expr → Bool
  | .whereBody a, .whereBody b | .viaBody a, .viaBody b => same a b
  | .withName a, .withName b | .makingName a, .makingName b => a == b
  | _, _ => false
termination_by structural x => x

/-- Whether two calls run the same. -/
def sameCallee : Callee Expr → Callee Expr → Bool
  | .named a, .named b => a == b
  | .computed a, .computed b => same a b
  | _, _ => false
termination_by structural x => x

/-- Whether two lists of arguments are the same. -/
def sameArgs : List (Argument Expr) → List (Argument Expr) → Bool
  | [], [] => true
  | .value a :: args, .value b :: args' | .spread a :: args, .spread b :: args' =>
    same a b && sameArgs args args'
  | _, _ => false
termination_by structural x => x

end

end StoryScript.Expr
