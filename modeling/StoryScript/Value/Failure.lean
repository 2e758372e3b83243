/-
  The failures of operations on values: one definition for each cause.
-/
import StoryScript.Value.Basic

namespace StoryScript.ScriptError

/-! ## Operators -/

/-- Operands of two kinds under an operator that wants one. -/
def differentKinds (op : BinaryOp) (lhs rhs : Value) : ScriptError where
  kind := .type
  message := "I can't use " ++ op.sign ++ " on " ++ lhs.describe ++ " and " ++ rhs.describe ++
    ", because they aren't the same type of data."
  explanation := some "Use (str:) or (num:) to convert one of them first."

/-- An operator that means nothing for this kind of operand. -/
def unsupported (op : BinaryOp) (v : Value) : ScriptError where
  kind := .type
  message := "I can't use " ++ op.sign ++ " on " ++ v.describe ++ "."

/-- An operand that should have been a number. -/
def notNumber (op : BinaryOp) (v : Value) : ScriptError where
  kind := .type
  message := "I can only use " ++ op.sign ++ " on numbers, not " ++ v.describe ++ "."

/-- A division by zero. -/
def divideByZero (n : Number) : ScriptError where
  kind := .range
  message := "I can't divide " ++ Decimal.render n.float ++ " by zero."

/-- A remainder by zero. -/
def moduloByZero (n : Number) : ScriptError where
  kind := .range
  message := "I can't modulo " ++ Decimal.render n.float ++ " by zero."

/-- A search in text for something that is no text. -/
def notText (container item : Value) : ScriptError where
  kind := .type
  message := "I can only look for strings inside " ++ container.describe ++ ", not " ++
    item.describe ++ "."

/-- An operand of a logical operator that is neither true nor false. -/
def notBoolean (op : BinaryOp) (v : Value) : ScriptError where
  kind := .type
  message := "I can only use '" ++ op.name ++ "' to join true or false, not " ++ v.describe ++ "."

/-- A negation of something neither true nor false. -/
def notInvertible (v : Value) : ScriptError where
  kind := .type
  message := "I can only use 'not' to invert true or false, not " ++ v.describe ++ "."

/-! ## Properties -/

/-- A data name that scripts may not use. -/
def reservedName : ScriptError where
  kind := .reference
  message := "Only I can use data names beginning with '__'."

/-- A property of a dataset other than its length. -/
def datasetProperty : ScriptError where
  kind := .type
  message := "You can only get the 'length' of a dataset, because its values have no position."

/-- A property that colours do not have. -/
def colourProperty (key : Key) : ScriptError where
  kind := .reference
  message := "Colours only have 'r', 'g' and 'b' data names, not '" ++ key.render ++ "'."

/-- A property of something that has none. -/
def noProperties (v : Value) : ScriptError where
  kind := .type
  message := "You can't get data values from " ++ v.describe ++ "."

/-- A property of a sequence that is neither a position nor its length. -/
def notPosition (v : Value) (name : String) : ScriptError where
  kind := .range
  message := "You can only use positions ('4th', 'last', '2ndlast', (2), etc.) and 'length' with " ++
    v.describe ++ ", not '" ++ name ++ "'."

/-- A position that is not whole. -/
def notWhole (position : Number) : ScriptError where
  kind := .range
  message := Decimal.render position.float ++ " isn't a whole number, so it can't be a position."

/-- The position 0. -/
def positionZero (v : Value) : ScriptError where
  kind := .range
  message := "You can't use position 0 with " ++ v.describe ++ ", because positions start at 1."

/-- The position of an index as it is written in source: from 1, or from the end. -/
def writtenPosition (n : Number) : String :=
  if n.float < 0 then Decimal.render (-n.float) ++ "last" else Decimal.render (n.float + 1)

/-- How much a sequence has of what it consists of. -/
def extent (noun unit : String) (length : Nat) : String :=
  "This " ++ noun ++ " has only " ++ toString length ++ " " ++ unit

/-- A read beyond the ends of an array. -/
def nothingInArray (length : Nat) (n : Number) : ScriptError where
  kind := .range
  message := extent "array" "values" length ++ ", so there's nothing at position " ++
    writtenPosition n ++ "."

/-- A read beyond the ends of a string. -/
def nothingInString (length : Nat) (n : Number) : ScriptError where
  kind := .range
  message := extent "string" "characters" length ++ ", so there's nothing at position " ++
    writtenPosition n ++ "."

/-- A data name that a datamap does not have. -/
def noSuchName (key : Key) : ScriptError where
  kind := .reference
  message := "I can't find a '" ++ key.render ++ "' data name in this datamap."

/-- A key that means nothing for this kind of value. -/
def cannotGet (v : Value) (key : Key) : ScriptError where
  kind := .type
  message := "I can't get '" ++ key.render ++ "' from " ++ v.describe ++ "."

/-- A change to the length of a sequence. -/
def fixedLength (v : Value) : ScriptError where
  kind := .operation
  message := "I can't forcibly alter the length of " ++ v.describe ++ "."

/-- A write to a sequence under something that is no position. -/
def notWritablePosition (v : Value) (name : String) : ScriptError where
  kind := .range
  message := "You can only use positions ('4th', 'last', '2ndlast', (2), etc.) with " ++
    v.describe ++ ", not '" ++ name ++ "'."

/-- A new data name for a sealed datamap. -/
def sealedAgainstNew (key : Key) : ScriptError where
  kind := .operation
  message := "This datamap is sealed, so I can't add a '" ++ key.render ++ "' data name to it."

/-- A write to something that cannot be changed. -/
def cannotModify (v : Value) : ScriptError where
  kind := .operation
  message := "I can't modify " ++ v.describe ++ "."

/-- A write beyond the ends of an array. -/
def cannotPutInArray (length : Nat) (n : Number) : ScriptError where
  kind := .range
  message := extent "array" "values" length ++ ", so I can't put anything at position " ++
    writtenPosition n ++ "."

/-- A write beyond the ends of a string. -/
def cannotPutInString (length : Nat) (n : Number) : ScriptError where
  kind := .range
  message := extent "string" "characters" length ++ ", so I can't put anything at position " ++
    writtenPosition n ++ "."

/-- A write of something else than one character into a string. -/
def notSingleCharacter (v : Value) : ScriptError where
  kind := .type
  message := "I can only put a single character into a string, not " ++ v.describe ++ "."

/-- A deletion beyond the ends of an array. -/
def nothingToDelete (length : Nat) (n : Number) : ScriptError where
  kind := .range
  message := extent "array" "values" length ++ ", so there's nothing at position " ++
    writtenPosition n ++ " to delete."

/-- A deletion from a sealed datamap. -/
def sealedAgainstDelete (key : Key) : ScriptError where
  kind := .operation
  message := "This datamap is sealed, so I can't delete its '" ++ key.render ++ "' data name."

/-- A deletion from something that data cannot be deleted from. -/
def cannotDelete (v : Value) (key : Key) : ScriptError where
  kind := .operation
  message := "I can't delete '" ++ key.render ++ "' from " ++ v.describe ++ "."

/-- A change inside a position that an array does not have. -/
def nothingToChange (length : Nat) (n : Number) : ScriptError where
  kind := .range
  message := extent "array" "values" length ++ ", so I can't change anything inside position " ++
    Decimal.render (n.float + 1) ++ "."

/-- A change inside something without changeable parts. -/
def cannotChangeInside (v : Value) : ScriptError where
  kind := .operation
  message := "I can't change the data inside " ++ v.describe ++ "."

/-! ## References and assignments -/

/-- A reference without any key. -/
def noKeys : ScriptError where
  kind := .reference
  message := "A reference needs at least one data name."

/-- A temp variable that is not set. -/
def noTemp (name : Key) : ScriptError where
  kind := .reference
  message := "There isn't a temp variable named _" ++ name.render ++ " in this place."

/-- A change inside a story variable that is not set. -/
def noDataIn (name : Key) : ScriptError where
  kind := .reference
  message := "There isn't a $" ++ name.render ++ " variable with data in it."

/-- A new story variable where there can be none. -/
def noNewVariables (name : Key) : ScriptError where
  kind := .operation
  message := "There isn't a $" ++ name.render ++ " variable, and I can't make new ones here."

/-- A deletion of a story variable where they are sealed. -/
def cannotDeleteVariable (name : Key) : ScriptError where
  kind := .operation
  message := "I can't delete the $" ++ name.render ++ " variable."

/-- A value that no variable can hold. -/
def notStorable (v : Value) : ScriptError where
  kind := .type
  message := "I can't store " ++ v.describe ++ " in a variable."

/-- A property of a value outside of any variable, written to. -/
def cannotStoreInValue (v : Value) : ScriptError where
  kind := .operation
  message := "I can't store a new value in " ++ v.describe ++ ", because it isn't in a variable."

/-- A property of a value outside of any variable, deleted. -/
def cannotDeleteFromValue (v : Value) : ScriptError where
  kind := .operation
  message := "I can't delete data from " ++ v.describe ++ ", because it isn't in a variable."

/-- Data inside a value outside of any variable, changed. -/
def cannotChangeInValue (v : Value) : ScriptError where
  kind := .operation
  message := "I can't change the data in " ++ v.describe ++ ", because it isn't in a variable."

/-- A destination of an assignment that is no variable. -/
def notDestination (v : Value) : ScriptError where
  kind := .operation
  message := "I can't store a new value in " ++ v.describe ++
    ", only in variables and their data names."

/-! ## Lambdas -/

/-- A clause attached to something that is no lambda. -/
def notLambdaSubject (v : Value) : ScriptError where
  kind := .malformed
  message := "A lambda needs a temp variable like _item before its clauses, not " ++
    v.describe ++ "."

/-- A clause given twice. -/
def repeatedClause (name : String) : ScriptError where
  kind := .malformed
  message := "This lambda has two '" ++ name ++ "' clauses."

/-- A variable named twice. -/
def repeatedVariable (name : String) : ScriptError where
  kind := .malformed
  message := "This lambda has two variables named '_" ++ name ++ "'."

/-- A `where` clause that is neither true nor false. -/
def notCondition (v : Value) : ScriptError where
  kind := .type
  message := "A lambda's 'where' clause must be true or false, not " ++ v.describe ++ "."

/-! ## Evaluation -/

/-- An expression of which nothing is there. -/
def nothingToEvaluate : ScriptError where
  kind := .malformed
  message := "There's nothing here to evaluate."

/-- A colour whose code cannot be read. -/
def invalidColour (code : String) : ScriptError where
  kind := .malformed
  message := code ++ " isn't a valid colour."

/-- A spread of something without elements. -/
def cannotSpread (v : Value) : ScriptError where
  kind := .type
  message := "I can't spread out " ++ v.describe ++ ", only arrays, datasets and strings."

/-- A call of a macro that is not there; `target` is the call without its arguments. -/
def noSuchMacro (target : String) : ScriptError where
  kind := .reference
  message := "There isn't a " ++ target ++ " macro."

/-- A macro whose arguments are not what it needs. -/
def macroNeeds (name need : String) : ScriptError where
  kind := .type
  message := "(" ++ name ++ ":) needs " ++ need ++ "."

/-- Lambdas running inside each other without end. -/
def tooDeep : ScriptError where
  kind := .operation
  message := "There are too many lambdas running inside each other."

end StoryScript.ScriptError
