/-
  Hosts: what an evaluation needs from around it.

  A host runs macros, selects hooks and tells the time. It may change the context
  while a macro runs.
-/
import StoryScript.Context
import StoryScript.Value.Printer

namespace StoryScript

/-- What a call runs, as source text without arguments. -/
def Callee.source : Callee Value → String
  | named name => "(" ++ name ++ ":)"
  | computed v => "(" ++ v.source ++ ":)"

/-- The services around an evaluation. -/
structure Host where
  /-- Runs a macro. Errors among the arguments are the macro's to deal with. -/
  run : Callee Value → List Value → Eval Value
  /-- Selects the hooks of a name. -/
  selectHooks : String → Value := fun name => .hooks { name }
  /-- Milliseconds since the current section started. -/
  elapsed : Number := 0

namespace Host

/-- The result of calling a macro that is not there. -/
def missing (target : Callee Value) : Value :=
  .error (.noSuchMacro target.source)

/-- The host without any macro. -/
def bare : Host where
  run target _ := pure (missing target)

end Host

end StoryScript
