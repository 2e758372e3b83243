/-
  Script errors: computations that failed.

  An error is an ordinary value. It travels through every operation unchanged until
  something shows it.
-/
namespace StoryScript

/-- What kind of failure an error reports. -/
inductive ErrorKind where
  /-- Operands of the wrong kind, or the wrong number of them. -/
  | type
  /-- A missing property or variable. -/
  | reference
  /-- A position out of bounds, a division by zero, a malformed number. -/
  | range
  /-- Malformed code. -/
  | malformed
  /-- A change that is not allowed. -/
  | operation
  deriving DecidableEq

/-- The word for a kind of failure. -/
def ErrorKind.name : ErrorKind → String
  | type => "type"
  | reference => "reference"
  | range => "range"
  | malformed => "syntax"
  | operation => "operation"

/-- The kind of failure with a given word. -/
def ErrorKind.ofName? (name : String) : Option ErrorKind :=
  [type, reference, range, malformed, operation].find? (·.name == name)

/-- A failure, with a message and perhaps a hint. -/
structure ScriptError where
  kind : ErrorKind
  message : String
  explanation : Option String := none
  deriving DecidableEq

/-- Kind and message in one line. -/
def ScriptError.summary (e : ScriptError) : String :=
  e.kind.name ++ " error: " ++ e.message

end StoryScript
