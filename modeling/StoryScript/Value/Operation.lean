/-
  Operators on values.

  Both operands are values already. The first operand that is an error is the result;
  otherwise the operator either has a result or fails for a stated cause.
-/
import StoryScript.DataSet
import StoryScript.Decimal.Exact
import StoryScript.Text.Search
import StoryScript.Value.Failure

namespace StoryScript

open ScriptError

namespace Value

/-! ## Arithmetic -/

/-- Operands of different kinds never mix, unless both can stand for text. -/
def checkKinds (op : BinaryOp) (lhs rhs : Value) : Except ScriptError Unit :=
  if lhs.sameKind rhs || (lhs.text?.isSome && rhs.text?.isSome) then .ok ()
  else .error (differentKinds op lhs rhs)

/-- The sum of two numbers, and the concatenation, union or blend of other data. -/
def sum (lhs rhs : Value) : Except ScriptError Value := do
  checkKinds .add lhs rhs
  match lhs, rhs with
  | number a, number b => return number (a + b)
  | array a, array b => return array (a ++ b)
  | map a, map b => return map ((DataMap.ofList a.entries).merge b)
  | set a, set b => return set (a.union b)
  | changer a, changer b => return changer (a ++ b)
  | colour a, colour b => return colour (a.blend b)
  | lhs, rhs =>
    match lhs.text?, rhs.text? with
    | some a, some b => return string (a ++ b)
    | _, _ => throw (unsupported .add lhs)

/-- The difference of two numbers, and other data without what the right operand has. -/
def difference (lhs rhs : Value) : Except ScriptError Value := do
  checkKinds .subtract lhs rhs
  match lhs, rhs with
  | number a, number b => return number (a - b)
  | array a, array b => return array (a.filter fun v => !b.any (v.same ·))
  | set a, set b => return set (a.diff b)
  | lhs, rhs =>
    match lhs.text?, rhs.text? with
    | some a, some b => return string (String.ofList (Text.erase b.toList a.toList))
    | _, _ => throw (unsupported .subtract lhs)

/-- Both operands as numbers. -/
def numbers (op : BinaryOp) : Value → Value → Except ScriptError (Number × Number)
  | number a, number b => .ok (a, b)
  | number _, v | v, _ => .error (notNumber op v)

/-- The quotient of two numbers. -/
def quotient (lhs rhs : Value) : Except ScriptError Value := do
  let (a, b) ← numbers .divide lhs rhs
  if b == 0 then throw (divideByZero a)
  return number (a / b)

/-- The remainder of two numbers; it has the sign of the left one. -/
def modulus (lhs rhs : Value) : Except ScriptError Value := do
  let (a, b) ← numbers .modulo lhs rhs
  if b == 0 then throw (moduloByZero a)
  return number (.apply Decimal.remainder a b)

/-! ## Comparison and logic -/

/-- Compares two numbers. -/
def compare (op : BinaryOp) (test : Float → Float → Bool) (lhs rhs : Value) :
    Except ScriptError Value := do
  let (a, b) ← numbers op lhs rhs
  return boolean (test a.float b.float)

/-- Whether a value holds another: as an element, as a data name or as a part of its text. A
value without contents holds what it equals. -/
def holds (container item : Value) : Except ScriptError Bool :=
  match container with
  | array items => .ok (items.any (·.same item))
  | set s => .ok (s.contains item)
  | map m =>
    match Key.ofValue item with
    | .ok key => .ok (m.contains key)
    | .error _ => .ok false
  | v =>
    match v.text?, item.text? with
    | some text, some needle => .ok (Text.occursIn needle.toList text.toList)
    | some _, none => .error (notText v item)
    | none, _ => .ok (v.same item)

/-- Joins two truth values. -/
def join (op : BinaryOp) (f : Bool → Bool → Bool) : Value → Value → Except ScriptError Value
  | boolean a, boolean b => .ok (boolean (f a b))
  | boolean _, v | v, _ => .error (notBoolean op v)

/-- The opposite of a truth value. -/
def negate : Value → Value
  | boolean b => boolean !b
  | error e => error e
  | v => error (notInvertible v)

end Value

namespace BinaryOp

open Value

/-- The result of an operator on operands that are not errors. -/
def result : BinaryOp → Value → Value → Except ScriptError Value
  | add, lhs, rhs => sum lhs rhs
  | subtract, lhs, rhs => difference lhs rhs
  | multiply, lhs, rhs => do
    let (a, b) ← numbers multiply lhs rhs
    return number (a * b)
  | divide, lhs, rhs => quotient lhs rhs
  | modulo, lhs, rhs => modulus lhs rhs
  | less, lhs, rhs => compare less (fun a b => a < b) lhs rhs
  | lessEq, lhs, rhs => compare lessEq (fun a b => a ≤ b) lhs rhs
  | greater, lhs, rhs => compare greater (fun a b => b < a) lhs rhs
  | greaterEq, lhs, rhs => compare greaterEq (fun a b => b ≤ a) lhs rhs
  | is, lhs, rhs => return boolean (lhs.same rhs)
  | isNot, lhs, rhs => return boolean !lhs.same rhs
  | contains, lhs, rhs => boolean <$> holds lhs rhs
  | isIn, lhs, rhs => boolean <$> holds rhs lhs
  | and, lhs, rhs => join and (· && ·) lhs rhs
  | or, lhs, rhs => join or (· || ·) lhs rhs

/-- The value of an operator between two values. -/
def apply (op : BinaryOp) (lhs rhs : Value) : Value :=
  (Value.firstError? [lhs, rhs]).getD (Value.ofExcept (op.result lhs rhs))

/-- Whether the operator leaves its left operand in `it`: a comparison does, unless an operand
is an error. -/
def setsIt (op : BinaryOp) (lhs rhs : Value) : Bool :=
  op.isComparison && !lhs.isError && !rhs.isError

/-- An operator on an error gives an error. -/
theorem isError_apply (op : BinaryOp) {lhs rhs : Value}
    (h : lhs.isError = true ∨ rhs.isError = true) : (op.apply lhs rhs).isError = true := by
  cases hl : lhs.isError with
  | true => simp [apply, firstError?, hl]
  | false =>
    have hr : rhs.isError = true := h.resolve_left (by simp [hl])
    simp [apply, firstError?, hl, hr]

theorem apply_of_not_isError (op : BinaryOp) {lhs rhs : Value} (hl : lhs.isError = false)
    (hr : rhs.isError = false) : op.apply lhs rhs = ofExcept (op.result lhs rhs) := by
  simp [apply, firstError?, hl, hr]

end BinaryOp

end StoryScript
