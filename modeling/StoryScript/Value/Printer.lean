/-
  The source text of values: for plain data, code that evaluates to the value again.
-/
import StoryScript.Expr.Printer
import StoryScript.Value.Basic

namespace StoryScript

/-- The source text of a lambda. -/
def Lambda.source (l : Lambda) : String :=
  String.intercalate " " (List.flatten [
    l.loopName.toList.map ("_" ++ ·),
    l.makingName.toList.map ("making _" ++ ·),
    l.withName.toList.map ("with _" ++ ·),
    l.whereBody.toList.map ("where " ++ ·.code),
    l.viaBody.toList.map ("via " ++ ·.code)])

/-- The source text of a macro call with the given texts of its arguments. -/
def macroSource (name : String) (args : List String) : String :=
  if args.isEmpty then "(" ++ name ++ ":)"
  else "(" ++ name ++ ": " ++ String.intercalate ", " args ++ ")"

/-- The keys after the first one of a reference, each as a possessive. -/
def possessives (keys : List Key) : String :=
  String.join (keys.map fun key => "'s (" ++ key.source ++ ")")

/-- A variable by its sign and name, with the properties that follow. -/
def variableSource (sign : String) : List Key → String
  | [] => ""
  | name :: rest => sign ++ name.render ++ possessives rest

namespace Value

mutual

/-- The source text of a value. -/
def source : Value → String
  | number n => Decimal.render n.float
  | string s => Text.literal s
  | boolean b => toString b
  | array items => macroSource "a" (sources items)
  | map ⟨entries, _⟩ => macroSource "dm" (entrySources entries)
  | set ⟨items⟩ => macroSource "ds" (sources items)
  | colour c => c.toHex
  | changer calls => String.intercalate " + " (callSources calls)
  | lambda l => l.source
  | hooks h => "?" ++ h.name
  | ref r => refSource r
  | assignment ⟨dest, src, op⟩ => refSource dest ++ " " ++ op.name ++ " " ++ source src
  | error e => macroSource "error" [Text.literal e.message]

/-- The source texts of values. -/
def sources : List Value → List String
  | [] => []
  | v :: rest => source v :: sources rest

/-- The source texts of entries, keys and values in turn. -/
def entrySources : List (Key × Value) → List String
  | [] => []
  | (key, v) :: rest => key.source :: source v :: entrySources rest

/-- The source texts of styling commands. -/
def callSources : List (ChangerCall Value) → List String
  | [] => []
  | ⟨name, params⟩ :: rest => macroSource name (sources params) :: callSources rest

/-- The source text of a reference. -/
def refSource : Reference Value → String
  | ⟨.story, path, property⟩ => variableSource "$" (path ++ [property])
  | ⟨.temp, path, property⟩ => variableSource "_" (path ++ [property])
  | ⟨.of v, path, property⟩ => source v ++ possessives (path ++ [property])

end

end Value

end StoryScript
