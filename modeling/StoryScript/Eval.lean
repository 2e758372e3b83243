/-
  Evaluation of expressions in a context, on a host.
-/
import StoryScript.Host
import StoryScript.Lambda
import StoryScript.Reference

namespace StoryScript

open ScriptError

/-- The arguments that a spread stands for. -/
def Value.elements : Value → List Value
  | .array items => items
  | .set s => s.items
  | .string s => s.toList.map fun c => .string (String.singleton c)
  | .error e => [.error e]
  | v => [.error (cannotSpread v)]

/-- What a chain of properties starts from: a place, or a reference that it goes on from. -/
inductive Origin where
  | place (base : Place Value)
  | reference (r : Reference Value)

/-- The origin for the value of an expression. -/
def Origin.ofValue : Value → Except ScriptError Origin
  | .ref r => .ok (.reference r)
  | .error e => .error e
  | v => .ok (.place (.of v))

/-- The reference to a property of an origin. -/
def Origin.property (origin : Origin) (c : Context) (key : Key) :
    Except ScriptError (Reference Value) :=
  match origin with
  | place base => Reference.create c base [key]
  | reference r => r.extend c key

/-- What a call runs, for the value of the expression in its place. -/
def Callee.ofValue : Value → Except ScriptError (Callee Value)
  | .error e => .error e
  | v => .ok (.computed v)

namespace Eval

/-- A reference as a value. If it is recorded, the value it leads to becomes `it`, so that
`set $a to it + 1` reads the old `$a`. -/
def finishReference (record : Bool) (r : Reference Value) : Eval Value := do
  if record then setIt (r.get (← get))
  return .ref r

/-- The recorded reference along a chain of keys as written. -/
def makeReference (base : Place Value) (chain : List Key) : Eval Value := do
  match Reference.create (← get) base chain with
  | .ok r => finishReference true r
  | .error e => return .error e

/-- The value that a reference leads to; any other value is itself. -/
def read : Value → Eval Value
  | .ref r => return r.get (← get)
  | v => return v

/-- Runs a call. -/
def runMacro (host : Host) (target : Callee Value) (args : List Value) : Eval Value := do
  note (.running target.source args.length)
  host.run target args

/-- Runs a computation, and then makes `it` what it was before. -/
def keepIt (x : Eval Value) : Eval Value := do
  let saved := (← get).it
  let v ← x
  setIt saved
  return v

end Eval

namespace Expr

open Eval

mutual

/-- Evaluates an expression. A reference is recorded in `it` or not; that does not reach the
references inside other expressions, which always are. -/
def evalWith (host : Host) (record : Bool) : Expr → Eval Value
  | empty => return .error nothingToEvaluate
  | number value => return .number value
  | string value => return .string value
  | boolean value => return .boolean value
  | colour code =>
    match Colour.ofHex? code with
    | some c => return .colour c
    | none => return .error (invalidColour code)
  | it => return (← getThe Context).it
  | time => return .number host.elapsed
  | hooks name => return host.selectHooks name
  | ref object property => do
    match ← evalPlace host object with
    | .error e => return .error e
    | .ok origin =>
      match ← evalProperty host property with
      | .error e => return .error e
      | .ok key =>
        match origin.property (← getThe Context) key with
        | .error e => return .error e
        | .ok r => finishReference record r
  | get reference => do read (← evalWith host false reference)
  | binary lhs op rhs => do
    let lhs ← evalWith host true lhs
    let rhs ← evalWith host true rhs
    Eval.binary op lhs rhs
  | not operand => return (← evalWith host true operand).negate
  | group inner => evalWith host true inner
  | assign dest src op => do
    let dest ← evalWith host true dest
    let src ← evalWith host true src
    return Assignment.create dest src op
  | lambda subject clause => return Lambda.create (← evalSubject host subject) clause
  | call callee args => keepIt do
    match ← evalCallee host callee with
    | .error e => return .error e
    | .ok target => runMacro host target (← evalArgs host args)
  | error kind message => return .error { kind, message }

/-- Evaluates the start of a chain of properties. A reference there is not recorded. -/
def evalPlace (host : Host) : Place Expr → Eval (Except ScriptError Origin)
  | .story => return .ok (.place .story)
  | .temp => return .ok (.place .temp)
  | .of e => return Origin.ofValue (← evalWith host false e)

/-- Evaluates a property name. -/
def evalProperty (host : Host) : Property Expr → Eval (Except ScriptError Key)
  | .name name => return .ok (.string name)
  | .computed e => return Key.ofValue (← evalWith host true e)

/-- Evaluates the subject of a lambda clause. -/
def evalSubject (host : Host) : Subject Expr → Eval (Subject Value)
  | .implicit => return .implicit
  | .param name => return .param name
  | .of e => return .of (← evalWith host true e)

/-- Evaluates what a call runs. -/
def evalCallee (host : Host) : Callee Expr → Eval (Except ScriptError (Callee Value))
  | .named name => return .ok (.named name)
  | .computed e => return Callee.ofValue (← evalWith host true e)

/-- Evaluates the arguments of a call, in order. -/
def evalArgs (host : Host) : List (Argument Expr) → Eval (List Value)
  | [] => return []
  | .value e :: args => return (← evalWith host true e) :: (← evalArgs host args)
  | .spread e :: args => return (← evalWith host true e).elements ++ (← evalArgs host args)

end

/-- Evaluates an expression. -/
def eval (host : Host) (e : Expr) : Eval Value :=
  evalWith host true e

end Expr

/-! ## Lambdas at work -/

/-- The values that a lambda is applied to. What is absent binds nothing. -/
structure LambdaArgs where
  loopValue : Option Value := none
  withValue : Option Value := none
  makingValue : Option Value := none
  /-- The result if the `where` clause refuses the loop value. -/
  refused : Option Value := none
  /-- The result if there is no `via` clause. -/
  passed : Option Value := none

namespace Lambda

/-- The frame in which a lambda runs. -/
def frame (l : Lambda) (args : LambdaArgs) : Frame :=
  DataMap.ofList (List.flatten [
    bind l.loopName args.loopValue,
    bind l.withName args.withValue,
    bind l.makingName args.makingValue])
where
  /-- The entry of a name, if both name and value are there. -/
  bind : Option String → Option Value → List (Key × Value)
    | some name, some v => [(.string name, v)]
    | _, _ => []

/-- The `via` clause of a lambda whose `where` clause is satisfied. -/
def runVia (host : Host) (l : Lambda) (args : LambdaArgs) : Eval Value :=
  match l.viaBody with
  | some body => body.eval host
  | none => return ((args.passed <|> args.loopValue).getD (.boolean true))

/-- The clauses of a lambda, with its variables bound. -/
def runClauses (host : Host) (l : Lambda) (args : LambdaArgs) : Eval Value :=
  match l.whereBody with
  | none => runVia host l args
  | some test => do
    match ← test.eval host with
    | .boolean true => runVia host l args
    | .boolean false => return args.refused.getD (.boolean false)
    | .error e => return .error e
    | v => return .error (notCondition v)

/-- Applies a lambda. Its variables live in a frame of their own, and `it` is the loop value,
until it returns. -/
def apply (host : Host) (l : Lambda) (args : LambdaArgs) : Eval Value :=
  Eval.keepIt do
    args.loopValue.forM Eval.setIt
    Eval.pushFrame (l.frame args)
    let v ← runClauses host l args
    let _ ← Eval.popFrame
    return v

end Lambda

end StoryScript
