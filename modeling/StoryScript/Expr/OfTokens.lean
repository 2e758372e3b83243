/-
  From tokens to an expression.

  A run of tokens is divided at its loosest operator, and both sides are compiled in
  their turn. Malformed code never stops this: the part that is wrong becomes an
  error inside the expression, and a notice reports it.
-/
import StoryScript.Expr.Basic
import StoryScript.Expr.Precedence
import StoryScript.Notice
import StoryScript.Text.Quoted
import StoryScript.Token.Lexer
import StoryScript.Token.Weight

namespace StoryScript.Expr

open Precedence

/-! ## Malformed code -/

/-- An error for malformed code, with its notice. -/
def malformed (message : String) : Noted Expr := do
  Noted.note (.malformed message)
  return .error .malformed message

/-- One side of an operator is missing. -/
def missing (side : String) (op : Token) : Noted Expr :=
  malformed ("I need usable code to the " ++ side ++ " of `" ++ Text.trim op.text ++ "`.")

/-- Two operands stand side by side. -/
def adjacent (a b : Token) : Noted Expr :=
  malformed ("There's nothing joining `" ++ Text.trim a.text ++ "` and `" ++ Text.trim b.text ++ "`.")

/-- A token that cannot be code. -/
def notCode (t : Token) : Noted Expr :=
  match t.kind with
  | .error => malformed (t.message.getD "This code is malformed.")
  | _ => malformed ("`" ++ Text.trim t.text ++ "` isn't valid code here.")

/-- A clause that names a variable has something else after it. -/
def needsVariable (op : Token) : Noted Expr :=
  malformed ("I need exactly one temp variable, like `_item`, after `" ++ Text.trim op.text ++ "`.")

/-! ## Parts -/

/-- A variable or property: the reference itself, or the value behind it. -/
def reference (object : Place Expr) (property : Property Expr) (asRef : Bool) : Expr :=
  if asRef then .ref object property else .get (.ref object property)

/-- The name that a token carries. -/
def nameOf (t : Token) : String :=
  t.name.getD ""

/-- The text of a string literal between its quotes. A text without one-byte characters at both
ends has no inside. -/
def stringBody (text : List Char) : List Char :=
  match text with
  | [] => []
  | first :: others =>
    if first.utf8Size = 1 && others.getLast?.any (·.utf8Size = 1) then others.dropLast else []

/-- A token that is an operand by itself, if it holds no further tokens to compile. -/
def ofLeaf (t : Token) (asRef : Bool) : Noted Expr :=
  match t.kind with
  | .number | .cssTime => return .number (t.value.getD (.ofFloat (0 / 0)))
  | .string => return .string (String.ofList (Text.unescape (stringBody t.text.toList)))
  | .boolean => return .boolean (Text.sameIgnoringCase t.text "true")
  | .colour => return .colour (t.colour.getD "")
  | .identifier => return if t.name = some "time" then .time else .it
  | .hookRef => return .hooks (nameOf t)
  | .storyVariable => return reference .story (.name (nameOf t)) asRef
  | .tempVariable => return reference .temp (.name (nameOf t)) asRef
  | .link =>
    let text := t.inner.getD ""
    return .call (.named "link-goto")
      [.value (.string text), .value (.string (t.passage.getD text))]
  | _ => notCode t

/-- The operator of a comparison. -/
def comparisonOp? (t : Token) : Option BinaryOp :=
  match t.kind with
  | .is => some .is
  | .isNot => some .isNot
  | .contains => some .contains
  | .isIn => some .isIn
  | .inequality => t.operator
  | _ => none

/-- Compares two operands as a token says. -/
def comparison (lhs : Expr) (op : Token) (rhs : Expr) : Noted Expr :=
  match comparisonOp? op with
  | none => malformed ("`" ++ Text.trim op.text ++ "` isn't a comparison.")
  | some operator =>
    let test := .binary lhs operator rhs
    return if op.negate then .not test else test

/-- The comparison that a bare operand next to these tokens borrows its operator from: the one
whose left side is `it` once they have been evaluated. -/
def lentComparison? (tokens : List Token) : Option Token :=
  match _division : divide tokens with
  | none => none
  | some d =>
    if d.op.kind.isComparison then some d.op
    else if d.op.kind = .and || d.op.kind = .or then lentComparison? d.left
    else none
termination_by tokens.length
decreasing_by
  have := congrArg List.length (append_of_divide _division)
  simp only [List.length_append, List.length_cons] at this
  omega

/-- The tokens that are not white space. -/
def significant (tokens : List Token) : List Token :=
  tokens.filter (!·.isWhitespace)

/-- The runs between commas. -/
def segments : List Token → List (List Token)
  | [] => [[]]
  | t :: ts =>
    if t.kind = .comma then [] :: segments ts
    else
      match segments ts with
      | [] => [[t]]
      | run :: runs => (t :: run) :: runs

/-! ## Sizes, by which compiling ends -/

theorem weight_significant (tokens : List Token) :
    Token.weightAll (significant tokens) ≤ Token.weightAll tokens :=
  Token.weightAll_filter_le _ _

theorem weight_of_divide {tokens : List Token} {d : Division} (h : divide tokens = some d) :
    Token.weightAll d.left + d.op.weight + Token.weightAll d.right = Token.weightAll tokens := by
  rw [← append_of_divide h]
  simp [Token.weightAll]
  omega

/-- The number of tokens in several runs. -/
def weightRuns : List (List Token) → Nat
  | [] => 0
  | run :: runs => Token.weightAll run + weightRuns runs

theorem weightRuns_segments (tokens : List Token) :
    weightRuns (segments tokens) ≤ Token.weightAll tokens := by
  fun_induction segments tokens <;> simp_all [weightRuns, Token.weightAll] <;> omega

/-! ## Compiling -/

mutual

/-- Compiles a run of tokens without white space. With `asRef`, variables and properties stay
references; otherwise their values are read. -/
def ofRun (tokens : List Token) (asRef : Bool) : Noted Expr :=
  match _division : divide tokens with
  | some d => ofOperator d.left d.op d.right asRef
  | none =>
    match tokens with
    | [] => return .empty
    | [t] => ofOperand t asRef
    | t :: u :: ts =>
      match (t :: u :: ts).find? fun t => t.kind = .text || t.kind = .error with
      | some bad => notCode bad
      | none => adjacent t u
termination_by (Token.weightAll tokens, 3)
decreasing_by
  · have := weight_of_divide _division
    simp only [Prod.lex_def]
    omega
  · simp [Token.weightAll, Prod.lex_def]

/-- Compiles one operand. -/
def ofOperand (t : Token) (asRef : Bool) : Noted Expr :=
  match t.kind with
  | .grouping => return .group (← ofRun (significant t.children) asRef)
  | .macroCall => ofCall t
  | _ => ofLeaf t asRef
termination_by (t.weight, 2)
decreasing_by
  · have := weight_significant t.children
    have := Token.weight_eq t
    simp only [Prod.lex_def]
    omega
  · simp [Prod.lex_def]

/-- Compiles an operator with the tokens on both sides of it. -/
def ofOperator (left : List Token) (op : Token) (right : List Token) (asRef : Bool) : Noted Expr :=
  match op.kind with
  | .comma => malformed "Commas can only separate the values given to a macro."
  | .spread => malformed "`...` can only go in front of a value given to a macro."
  | .toWord => do
    if left.isEmpty then return ← missing "left" op
    if right.isEmpty then return ← missing "right" op
    let dest ← ofRun left true
    let src ← ofRun right false
    return .assign dest src .setTo
  | .intoWord => do
    if left.isEmpty then return ← missing "left" op
    if right.isEmpty then return ← missing "right" op
    let dest ← ofRun right true
    let src ← ofRun left false
    return .assign dest src .putInto
  | .augmentedAssign => do
    if left.isEmpty then return ← missing "left" op
    if right.isEmpty then return ← missing "right" op
    let dest ← ofRun left true
    let src ← ofRun right false
    return .assign dest src (.augmented (op.operator.getD .add))
  | .whereWord | .viaWord | .withWord | .makingWord => ofLambda left op right
  | .and | .or => ofLogic left op right
  | .is | .isNot | .contains | .isIn | .inequality => do
    if right.isEmpty then return ← missing "right" op
    let lhs ← if left.isEmpty then pure .it else ofRun left false
    let rhs ← ofRun right false
    comparison lhs op rhs
  | .addition | .subtraction => do
    let lhs ← if left.isEmpty then pure (.number 0) else ofRun left false
    ofArithmetic lhs op right
  | .multiplication | .division => do
    if left.isEmpty then return ← missing "left" op
    let lhs ← ofRun left false
    ofArithmetic lhs op right
  | .not => do
    if let some last := left.getLast? then return ← adjacent last op
    if right.isEmpty then return ← missing "right" op
    return .not (← ofRun right false)
  | .belongingProperty => do
    if let some last := left.getLast? then return ← adjacent last op
    if right.isEmpty then return ← missing "right" op
    return reference (.of (← ofRun right true)) (.name (nameOf op)) asRef
  | .belongingOperator => do
    if left.isEmpty then return ← missing "left" op
    if right.isEmpty then return ← missing "right" op
    let object ← ofRun right true
    let property ← ofRun left false
    return reference (.of object) (.computed property) asRef
  | .belongingItOperator => do
    if left.isEmpty then return ← missing "left" op
    if let some next := right.head? then return ← adjacent op next
    return reference (.of .it) (.computed (← ofRun left false)) asRef
  | .property => do
    if left.isEmpty then return ← missing "left" op
    if let some next := right.head? then return ← adjacent op next
    return reference (.of (← ofRun left true)) (.name (nameOf op)) asRef
  | .itsProperty | .belongingItProperty => do
    if let some last := left.getLast? then return ← adjacent last op
    if let some next := right.head? then return ← adjacent op next
    return reference (.of .it) (.name (nameOf op)) asRef
  | .possessiveOperator => do
    if left.isEmpty then return ← missing "left" op
    if right.isEmpty then return ← missing "right" op
    let object ← ofRun left true
    let property ← ofRun right false
    return reference (.of object) (.computed property) asRef
  | .itsOperator => do
    if let some last := left.getLast? then return ← adjacent last op
    if right.isEmpty then return ← missing "right" op
    return reference (.of .it) (.computed (← ofRun right false)) asRef
  | _ => ofLeaf op asRef
termination_by (Token.weightAll left + op.weight + Token.weightAll right, 2)
decreasing_by
  all_goals
    have := op.weight_pos
    simp only [Prod.lex_def, true_and]
    omega

/-- Compiles the right side of an arithmetic operator. -/
def ofArithmetic (lhs : Expr) (op : Token) (right : List Token) : Noted Expr := do
  if right.isEmpty then return ← missing "right" op
  match op.operator with
  | none => malformed ("`" ++ op.text ++ "` isn't an operator I know.")
  | some operator => return .binary lhs operator (← ofRun right false)
termination_by (op.weight + Token.weightAll right, 1)
decreasing_by
  have := op.weight_pos
  simp only [Prod.lex_def]
  omega

/-- Compiles `and` or `or`. A bare operand next to a comparison is compared with `it` by the same
operator, and then the comparison comes first, so that `it` is set. -/
def ofLogic (left : List Token) (op : Token) (right : List Token) : Noted Expr := do
  if left.isEmpty then return ← missing "left" op
  if right.isEmpty then return ← missing "right" op
  let join := if op.kind = .and then .and else .or
  match lentComparison? left, lentComparison? right with
  | some lent, none =>
    let bare ← ofRun right false
    let elided ← comparison .it lent bare
    return .binary (← ofRun left false) join elided
  | none, some lent =>
    let bare ← ofRun left false
    let elided ← comparison .it lent bare
    return .binary (← ofRun right false) join elided
  | _, _ =>
    let lhs ← ofRun left false
    let rhs ← ofRun right false
    return .binary lhs join rhs
termination_by (Token.weightAll left + op.weight + Token.weightAll right, 1)
decreasing_by
  all_goals
    have := op.weight_pos
    simp only [Prod.lex_def]
    omega

/-- Compiles a lambda clause. -/
def ofLambda (left : List Token) (op : Token) (right : List Token) : Noted Expr := do
  ofClause (← ofSubject left) op right
termination_by (Token.weightAll left + op.weight + Token.weightAll right, 1)
decreasing_by
  all_goals
    have := op.weight_pos
    simp only [Prod.lex_def]
    omega

/-- Compiles what a lambda clause is attached to. -/
def ofSubject (left : List Token) : Noted (Subject Expr) :=
  match left with
  | [] => return .implicit
  | [t] =>
    if t.kind = .tempVariable then return .param (nameOf t)
    else return .of (← ofRun [t] false)
  | t :: u :: ts => return .of (← ofRun (t :: u :: ts) false)
termination_by (Token.weightAll left, 4)
decreasing_by
  all_goals simp [Prod.lex_def]

/-- Compiles the clause that a keyword starts. -/
def ofClause (subject : Subject Expr) (op : Token) (right : List Token) : Noted Expr :=
  match op.kind with
  | .whereWord =>
    if right.isEmpty then missing "right" op
    else return .lambda subject (.whereBody (← ofRun right false))
  | .viaWord =>
    if right.isEmpty then missing "right" op
    else return .lambda subject (.viaBody (← ofRun right false))
  | _ =>
    match right with
    | [t] =>
      if t.kind = .tempVariable then
        let clause := if op.kind = .withWord then .withName (nameOf t) else .makingName (nameOf t)
        return .lambda subject clause
      else needsVariable op
    | _ => needsVariable op
termination_by (op.weight + Token.weightAll right, 0)
decreasing_by
  all_goals
    have := op.weight_pos
    simp only [Prod.lex_def]
    omega

/-- Compiles a call. -/
def ofCall (t : Token) : Noted Expr :=
  match _children : significant t.children with
  | [] => malformed "This macro call has no name."
  | name :: rest => do
    if name.kind ≠ .macroName then
      return ← malformed ("`" ++ Text.trim name.text ++ "` isn't a macro name.")
    let callee ← if name.isMethod
      then do pure (.computed (← ofRun (significant name.children) false))
      else pure (.named (nameOf name))
    return .call callee (← ofArguments (segments rest))
termination_by (t.weight, 1)
decreasing_by
  · have := weight_significant t.children
    have := Token.weight_eq t
    have := weightRuns_segments rest
    simp only [_children, Token.weightAll] at *
    simp only [Prod.lex_def]
    omega
  · have := weight_significant t.children
    have := Token.weight_eq t
    have := weight_significant name.children
    have := Token.weight_eq name
    simp only [_children, Token.weightAll] at *
    simp only [Prod.lex_def]
    omega

/-- Compiles the runs between the commas of a call. An empty last run is no argument. -/
def ofArguments (runs : List (List Token)) : Noted (List (Argument Expr)) :=
  match runs with
  | [] | [[]] => return []
  | [] :: runs => do
    let gap ← malformed "This macro call has an empty value between two commas."
    return .value gap :: (← ofArguments runs)
  | (t :: ts) :: runs => do
    let arg ←
      if t.kind = .spread then
        if ts.isEmpty then do pure (.value (← missing "right" t))
        else do pure (.spread (← ofRun ts false))
      else do pure (.value (← ofRun (t :: ts) false))
    return arg :: (← ofArguments runs)
termination_by (weightRuns runs, 4 + runs.length)
decreasing_by
  all_goals
    simp only [Prod.lex_def, weightRuns, Token.weightAll, List.length_cons]
    omega

end

/-- Compiles tokens. With `asRef`, variables and properties stay references. -/
def ofTokens (tokens : List Token) (asRef : Bool) : Noted Expr :=
  ofRun (significant tokens) asRef

end StoryScript.Expr

namespace StoryScript

/-- The expression that tokens denote. -/
def compile (tokens : List Token) (asRef : Bool) : Expr :=
  (Expr.ofTokens tokens asRef).value

/-- Lexes and compiles an expression, with the notices of both. -/
def Expr.ofSource (source : String) : Noted Expr := do
  let root ← Lexer.lexIn .code source
  Expr.ofTokens root.children false

/-- Lexes and compiles an expression. -/
def compileExpression (source : String) : Expr :=
  compile (lexExpression source).children false

theorem value_ofSource (source : String) :
    (Expr.ofSource source).value = compileExpression source := rfl

end StoryScript
