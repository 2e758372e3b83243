/-
  Operators of expressions and of assignments.
-/
namespace StoryScript

/-- An operator between two operands. -/
inductive BinaryOp where
  | add | subtract | multiply | divide | modulo
  | less | lessEq | greater | greaterEq
  | is | isNot | contains | isIn
  | and | or
  deriving DecidableEq

namespace BinaryOp

/-- Every operator. -/
def all : List BinaryOp :=
  [.add, .subtract, .multiply, .divide, .modulo, .less, .lessEq, .greater, .greaterEq,
   .is, .isNot, .contains, .isIn, .and, .or]

/-- The name of the operation. -/
def name : BinaryOp → String
  | add => "add"
  | subtract => "subtract"
  | multiply => "multiply"
  | divide => "divide"
  | modulo => "modulo"
  | less => "lt"
  | lessEq => "lte"
  | greater => "gt"
  | greaterEq => "gte"
  | is => "is"
  | isNot => "isNot"
  | contains => "contains"
  | isIn => "isIn"
  | and => "and"
  | or => "or"

/-- The sign of an operator that is written with one. -/
def sign : BinaryOp → String
  | add => "+"
  | subtract => "-"
  | multiply => "*"
  | divide => "/"
  | modulo => "%"
  | less => "<"
  | lessEq => "<="
  | greater => ">"
  | greaterEq => ">="
  | op => op.name

/-- The operator with a given name. -/
def ofName? (name : String) : Option BinaryOp :=
  all.find? (·.name == name)

/-- The operator with a given sign. -/
def ofSign? (sign : List Char) : Option BinaryOp :=
  [add, subtract, multiply, divide, modulo, less, lessEq, greater, greaterEq].find?
    (·.sign.toList == sign)

/-- Whether the operator compares its operands; a comparison leaves its left operand in `it`. -/
def isComparison : BinaryOp → Bool
  | less | lessEq | greater | greaterEq | is | isNot | contains | isIn => true
  | _ => false

theorem mem_all (op : BinaryOp) : op ∈ all := by
  cases op <;> decide

theorem ofName?_name (op : BinaryOp) : ofName? op.name = some op := by
  cases op <;> decide

end BinaryOp

/-- How a value is stored: `put x into $a`, `set $a to x`, or combined with the old value as in
`set $a += x`. -/
inductive AssignOp where
  | putInto
  | setTo
  | augmented (op : BinaryOp)
  deriving DecidableEq

/-- The name of the assignment. -/
def AssignOp.name : AssignOp → String
  | putInto => "into"
  | setTo => "to"
  | augmented op => op.name

/-- The assignment with a given name. -/
def AssignOp.ofName? (name : String) : Option AssignOp :=
  if name = "to" then some .setTo
  else if name = "into" then some .putInto
  else (BinaryOp.ofName? name).map .augmented

end StoryScript
