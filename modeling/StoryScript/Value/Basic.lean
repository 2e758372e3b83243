/-
  Values: what expressions evaluate to and what variables hold.

  Collections hold their contents outright, so a value never changes behind the back
  of another.
-/
import StoryScript.Colour
import StoryScript.DataMap
import StoryScript.Expr.Basic

namespace StoryScript

/-- Values without a position, none of them twice, in the order in which they were added. -/
structure DataSet (α : Type) where
  items : List α := []

/-- One styling command with its arguments, to be run later. -/
structure ChangerCall (α : Type) where
  name : String
  params : List α

/-- The hooks selected by `?name`. The text is there if the host knows it. -/
structure HookSet where
  name : String
  text : Option String := none
  deriving DecidableEq

/-- A function written by the author, built clause by clause. -/
structure Lambda where
  /-- The temp variable for each value that the lambda is applied to. -/
  loopName : Option String := none
  withName : Option String := none
  makingName : Option String := none
  whereBody : Option Expr := none
  viaBody : Option Expr := none

/-- A way to a value: where it starts, the keys along the path, and the last key. Every key is
the one to look up in the value it is applied to, so positions count from 0. -/
structure Reference (α : Type) where
  base : Place α
  path : List Key
  property : Key

/-- A storing of a value that a macro is asked to perform. -/
structure Assignment (α : Type) where
  dest : Reference α
  src : α
  op : AssignOp

/-- A value. -/
inductive Value where
  | number (n : Number)
  | string (s : String)
  | boolean (b : Bool)
  | array (items : List Value)
  | map (m : DataMap Value)
  | set (s : DataSet Value)
  | colour (c : Colour)
  /-- Styling commands to be run in order. -/
  | changer (calls : List (ChangerCall Value))
  | lambda (l : Lambda)
  | hooks (h : HookSet)
  /-- A reference; it lives within one evaluation and is never stored. -/
  | ref (r : Reference Value)
  | assignment (a : Assignment Value)
  | error (e : ScriptError)

/-- Every key of a reference, outermost first. -/
def Reference.keys {α : Type} (r : Reference α) : List Key :=
  r.path ++ [r.property]

/-- The value with a given key as its data. -/
def Key.toValue : Key → Value
  | string name => .string name
  | number n => .number n

namespace Value

/-- Whether the value is an error. -/
def isError : Value → Bool
  | error _ => true
  | _ => false

/-- The first error among values. -/
def firstError? (values : List Value) : Option Value :=
  values.find? isError

/-- Whether two values are of one kind. -/
def sameKind : Value → Value → Bool
  | number _, number _ | string _, string _ | boolean _, boolean _ | array _, array _
  | map _, map _ | set _, set _ | colour _, colour _ | changer _, changer _
  | lambda _, lambda _ | hooks _, hooks _ | ref _, ref _ | assignment _, assignment _
  | error _, error _ => true
  | _, _ => false

/-- The text of a value that can stand for text: a string, or hooks whose text is known. -/
def text? : Value → Option String
  | string s => some s
  | hooks ⟨_, text⟩ => text
  | _ => none

/-- What a variable holds once the value is stored in it. -/
def stored : Value → Value
  | hooks ⟨_, some text⟩ => string text
  | v => v

/-- What the value is, in a few words. -/
def describe : Value → String
  | number n => "the number " ++ Decimal.render n.float
  | string "" => "an empty string"
  | string s => "the string " ++ Text.visible s
  | boolean b => "the boolean value '" ++ toString b ++ "'"
  | array [] => "an empty array"
  | array _ => "an array"
  | map _ => "a datamap"
  | set _ => "a dataset"
  | colour _ => "a colour"
  | changer [] => "a changer command"
  | changer (call :: _) => "a (" ++ call.name ++ ":) command"
  | lambda _ => "a lambda"
  | hooks h => "the ?" ++ h.name ++ " hook"
  | ref _ => "a variable reference"
  | assignment _ => "an assignment operation"
  | error _ => "an error"

/-- A result as a value: a failure becomes an error. -/
def ofExcept : Except ScriptError Value → Value
  | .ok v => v
  | .error e => error e

/-- A value as a result: an error becomes a failure. -/
def toExcept : Value → Except ScriptError Value
  | error e => .error e
  | v => .ok v

/-- An error of a given kind. -/
def fault (kind : ErrorKind) (message : String) : Value :=
  error { kind, message }

@[simp] theorem isError_error (e : ScriptError) : (error e).isError = true := rfl

@[simp] theorem isError_fault (kind : ErrorKind) (message : String) :
    (fault kind message).isError = true := rfl

theorem isError_iff (v : Value) : v.isError = true ↔ ∃ e, v = error e := by
  cases v <;> simp [isError]

end Value

/-- The key a value denotes: only strings and numbers denote one. -/
def Key.ofValue : Value → Except ScriptError Key
  | .string s => .ok (string s)
  | .number n => .ok (number n)
  | .error e => .error e
  | v => .error {
      kind := .type
      message := "Only strings and numbers can be used as data names, not " ++ v.describe ++ "." }

@[simp] theorem Key.ofValue_toValue (key : Key) : Key.ofValue key.toValue = .ok key := by
  cases key <;> rfl

end StoryScript
