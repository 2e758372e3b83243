/-
  Compiling as a derivation.

  `Compiles run e` says what a run of tokens without white space compiles to: `e true` where
  variables and properties stay references, and `e false` where their values are read. It has one
  rule for each form of an expression, and one for malformed code. What compiling keeps, whatever
  the form, is an induction on the derivation.
-/
import Mathlib
import StoryScript.Proofs.Expr.Division

namespace StoryScript

namespace Precedence

theorem divides_of_divideFirst {group : List Kind} :
    ∀ {before tokens d}, divideFirst group before tokens = some d → d.op.kind ∈ group
  | _, [], _, h => by simp [divideFirst] at h
  | before, t :: ts, d, h => by
    simp only [divideFirst] at h
    split at h
    · rename_i ht
      simp only [divides, Bool.and_eq_true, List.contains_iff_mem] at ht
      simp only [Option.some.injEq] at h
      exact h ▸ ht.1
    · simp only [Option.map_eq_some_iff] at h
      obtain ⟨e, he, rfl⟩ := h
      exact (divides_of_divideFirst he : e.op.kind ∈ group)

theorem divides_of_divideLast {group : List Kind} :
    ∀ {before tokens d}, divideLast group before tokens = some d → d.op.kind ∈ group
  | _, [], _, h => by simp [divideLast] at h
  | before, t :: ts, d, h => by
    simp only [divideLast] at h
    split at h
    · rename_i e he
      simp only [Option.some.injEq] at h
      exact h ▸ (divides_of_divideLast he : e.op.kind ∈ group)
    · split at h
      · rename_i ht
        simp only [divides, Bool.and_eq_true, List.contains_iff_mem] at ht
        simp only [Option.some.injEq] at h
        exact h ▸ ht.1
      · simp at h

/-- A run is divided at a token of some group. -/
theorem mem_group_of_divide {tokens : List Token} {d : Division} (h : divide tokens = some d) :
    ∃ group ∈ groups, d.op.kind ∈ group.1 := by
  obtain ⟨group, hgroup, h⟩ := List.exists_of_findSome?_eq_some h
  refine ⟨group, hgroup, ?_⟩
  simp only [divideBy] at h
  split at h
  · exact divides_of_divideFirst h
  · exact divides_of_divideLast h

end Precedence

namespace Expr

open Precedence

/-! ## The rules -/

/-- The operand on the left of an operator, or what stands for it if nothing is there. -/
def leftOr (absent : Expr) (left : List Token) (e : Expr) : Expr :=
  if left.isEmpty then absent else e

/-- What `and` or `or` joins its operands by. -/
def joinOf (op : Token) : BinaryOp :=
  if op.kind = .and then .and else .or

/-- What a lambda clause is attached to, if the tokens before it compile to an expression. -/
def subjectOf (left : List Token) (e : Expr) : Subject Expr :=
  match left with
  | [] => .implicit
  | [t] => if t.kind = .tempVariable then .param (nameOf t) else .of e
  | _ => .of e

/-- The clauses that a keyword starts, if the tokens after it compile to an expression. -/
inductive StartsClause (op : Token) : List Token → Expr → Clause Expr → Prop where
  | whereBody {right : List Token} {e : Expr} (kind : op.kind = .whereWord) :
      StartsClause op right e (.whereBody e)
  | viaBody {right : List Token} {e : Expr} (kind : op.kind = .viaWord) :
      StartsClause op right e (.viaBody e)
  | withName {t : Token} {e : Expr} (kind : op.kind = .withWord) (isName : t.kind = .tempVariable) :
      StartsClause op [t] e (.withName (nameOf t))
  | makingName {t : Token} {e : Expr} (kind : op.kind = .makingWord)
      (isName : t.kind = .tempVariable) : StartsClause op [t] e (.makingName (nameOf t))

/-- What a call runs, if the tokens in its name compile to an expression. -/
def calleeOf (name : Token) (e : Expr) : Callee Expr :=
  if name.isMethod then .computed e else .named (nameOf name)

/-- The tokens of one argument: a spread sign, if there is one, and the tokens after it, with what
they compile to. -/
structure ArgumentRun where
  sign : Option Token
  run : List Token
  expr : Bool → Expr
  isSpread : ∀ t ∈ sign, t.kind = .spread

namespace ArgumentRun

/-- All tokens of an argument. -/
def tokens (a : ArgumentRun) : List Token :=
  a.sign.toList ++ a.run

/-- The argument. -/
def argument (a : ArgumentRun) : Argument Expr :=
  match a.sign with
  | some _ => .spread (a.expr false)
  | none => .value (a.expr false)

end ArgumentRun

/-- What can be wrong with a run of tokens, as it is reported. Most complaints are about where tokens
stand; the last three are about a token that does not carry what its kind asks for. -/
inductive Complaint (run : List Token) : Noted Expr → Prop where
  | missing (side : String) (op : Token) : Complaint run (missing side op)
  | adjacent (a b : Token) : Complaint run (adjacent a b)
  | notCode {t : Token} (mem : t ∈ run) : Complaint run (notCode t)
  | needsVariable (op : Token) : Complaint run (needsVariable op)
  | comma : Complaint run (malformed "Commas can only separate the values given to a macro.")
  | spread : Complaint run (malformed "`...` can only go in front of a value given to a macro.")
  | gap : Complaint run (malformed "This macro call has an empty value between two commas.")
  | noOperator {op : Token} (mem : op ∈ run)
      (kind : op.kind ∈ [.addition, .subtraction, .multiplication, .division])
      (operator : op.operator = none) :
      Complaint run (malformed ("`" ++ op.text ++ "` isn't an operator I know."))
  | noName {t : Token} (mem : t ∈ run) (kind : t.kind = .macroCall)
      (children : significant t.children = []) :
      Complaint run (malformed "This macro call has no name.")
  | notName {t name : Token} {rest : List Token} (mem : t ∈ run) (kind : t.kind = .macroCall)
      (children : significant t.children = name :: rest) (other : name.kind ≠ .macroName) :
      Complaint run (malformed ("`" ++ Text.trim name.text ++ "` isn't a macro name."))

/-- Compiling a run of tokens gives an expression, as a reference and as a value. -/
inductive Compiles : List Token → (Bool → Expr) → Prop where
  | empty : Compiles [] fun _ => .empty
  | malformed {run : List Token} {complaint : Noted Expr} {message : String}
      (cause : Complaint run complaint) (value : complaint.value = .error .malformed message) :
      Compiles run fun _ => .error .malformed message
  | leaf {t : Token} : Compiles [t] fun asRef => (ofLeaf t asRef).value
  | group {t : Token} {e : Bool → Expr} (kind : t.kind = .grouping)
      (inner : Compiles (significant t.children) e) : Compiles [t] fun asRef => .group (e asRef)
  | call {t name : Token} {rest : List Token} {e : Bool → Expr} {args : List ArgumentRun}
      (kind : t.kind = .macroCall) (children : significant t.children = name :: rest)
      (isName : name.kind = .macroName) (callee : Compiles (significant name.children) e)
      (runs : segments rest = args.map (·.tokens) ∨ segments rest = args.map (·.tokens) ++ [[]])
      (arguments : ∀ a ∈ args, Compiles a.run a.expr) :
      Compiles [t] fun _ => .call (calleeOf name (e false)) (args.map (·.argument))
  | assignTo {left right : List Token} {op : Token} {e e' : Bool → Expr} (kind : op.kind = .toWord)
      (dest : Compiles left e) (src : Compiles right e') :
      Compiles (left ++ op :: right) fun _ => .assign (e true) (e' false) .setTo
  | assignInto {left right : List Token} {op : Token} {e e' : Bool → Expr}
      (kind : op.kind = .intoWord) (src : Compiles left e) (dest : Compiles right e') :
      Compiles (left ++ op :: right) fun _ => .assign (e' true) (e false) .putInto
  | augment {left right : List Token} {op : Token} {e e' : Bool → Expr}
      (kind : op.kind = .augmentedAssign) (dest : Compiles left e) (src : Compiles right e') :
      Compiles (left ++ op :: right) fun _ =>
        .assign (e true) (e' false) (.augmented (op.operator.getD .add))
  | lambda {left right : List Token} {op : Token} {e e' : Bool → Expr} {clause : Clause Expr}
      (subject : Compiles left e) (body : Compiles right e')
      (starts : StartsClause op right (e' false) clause) :
      Compiles (left ++ op :: right) fun _ => .lambda (subjectOf left (e false)) clause
  | logic {left right : List Token} {op : Token} {e e' : Bool → Expr}
      (kind : op.kind = .and ∨ op.kind = .or)
      (same : (lentComparison? left).isSome = (lentComparison? right).isSome)
      (lhs : Compiles left e) (rhs : Compiles right e') :
      Compiles (left ++ op :: right) fun _ => .binary (e false) (joinOf op) (e' false)
  | lendRight {left right : List Token} {op lent : Token} {e e' : Bool → Expr}
      (kind : op.kind = .and ∨ op.kind = .or)
      (lends : lentComparison? left = some lent) (borrows : lentComparison? right = none)
      (lhs : Compiles left e) (bare : Compiles right e') :
      Compiles (left ++ op :: right) fun _ =>
        .binary (e false) (joinOf op) (comparison .it lent (e' false)).value
  | lendLeft {left right : List Token} {op lent : Token} {e e' : Bool → Expr}
      (kind : op.kind = .and ∨ op.kind = .or)
      (lends : lentComparison? right = some lent) (borrows : lentComparison? left = none)
      (bare : Compiles left e) (rhs : Compiles right e') :
      Compiles (left ++ op :: right) fun _ =>
        .binary (e' false) (joinOf op) (comparison .it lent (e false)).value
  | compare {left right : List Token} {op : Token} {e e' : Bool → Expr}
      (kind : op.kind.isComparison = true) (lhs : Compiles left e) (rhs : Compiles right e') :
      Compiles (left ++ op :: right) fun _ =>
        (comparison (leftOr .it left (e false)) op (e' false)).value
  | arithmetic {left right : List Token} {op : Token} {operator : BinaryOp} {e e' : Bool → Expr}
      (kind : op.kind ∈ [.addition, .subtraction, .multiplication, .division])
      (sign : op.operator = some operator) (lhs : Compiles left e) (rhs : Compiles right e') :
      Compiles (left ++ op :: right) fun _ =>
        .binary (leftOr (.number 0) left (e false)) operator (e' false)
  | not {right : List Token} {op : Token} {e : Bool → Expr} (kind : op.kind = .not)
      (operand : Compiles right e) : Compiles (op :: right) fun _ => .not (e false)
  | property {left : List Token} {op : Token} {e : Bool → Expr} (kind : op.kind = .property)
      (object : Compiles left e) :
      Compiles (left ++ [op]) fun asRef => reference (.of (e true)) (.name (nameOf op)) asRef
  | belongingProperty {right : List Token} {op : Token} {e : Bool → Expr}
      (kind : op.kind = .belongingProperty) (object : Compiles right e) :
      Compiles (op :: right) fun asRef => reference (.of (e true)) (.name (nameOf op)) asRef
  | itsProperty {op : Token} (kind : op.kind = .itsProperty ∨ op.kind = .belongingItProperty) :
      Compiles [op] fun asRef => reference (.of .it) (.name (nameOf op)) asRef
  | possessive {left right : List Token} {op : Token} {e e' : Bool → Expr}
      (kind : op.kind = .possessiveOperator) (object : Compiles left e) (key : Compiles right e') :
      Compiles (left ++ op :: right) fun asRef =>
        reference (.of (e true)) (.computed (e' false)) asRef
  | belonging {left right : List Token} {op : Token} {e e' : Bool → Expr}
      (kind : op.kind = .belongingOperator) (key : Compiles left e) (object : Compiles right e') :
      Compiles (left ++ op :: right) fun asRef =>
        reference (.of (e' true)) (.computed (e false)) asRef
  | its {right : List Token} {op : Token} {e : Bool → Expr} (kind : op.kind = .itsOperator)
      (key : Compiles right e) :
      Compiles (op :: right) fun asRef => reference (.of .it) (.computed (e false)) asRef
  | belongingIt {left : List Token} {op : Token} {e : Bool → Expr}
      (kind : op.kind = .belongingItOperator) (key : Compiles left e) :
      Compiles (left ++ [op]) fun asRef => reference (.of .it) (.computed (e false)) asRef

/-! ## Every run has a derivation -/

/-- What a run of tokens compiles to. -/
def ofRunAs (run : List Token) (asRef : Bool) : Expr :=
  (ofRun run asRef).value

/-- A part of the code is missing, or the rest compiles. -/
theorem Compiles.unless {run : List Token} {p : Prop} [Decidable p] {side : String} {op : Token}
    {e : Bool → Noted Expr} (h : ¬ p → Compiles run fun asRef => (e asRef).value) :
    Compiles run fun asRef => (if p then missing side op else e asRef).value := by
  by_cases hp : p
  · simp only [if_pos hp]
    exact .malformed (.missing side op) rfl
  · simp only [if_neg hp]
    exact h hp

/-- The subject of a lambda clause, without the notices. -/
theorem value_ofSubject (left : List Token) :
    (ofSubject left).value = subjectOf left (ofRunAs left false) := by
  rcases left with _ | ⟨t, _ | ⟨u, ts⟩⟩
  · simp [ofSubject, subjectOf]
  · by_cases ht : t.kind = .tempVariable <;> simp [ofSubject, subjectOf, ht, ofRunAs]
  · simp [ofSubject, subjectOf, ofRunAs]

/-- A clause that needs a name is malformed without one. -/
theorem value_ofClause_of_not_name {op : Token} {right : List Token} (subject : Subject Expr)
    (hop : op.kind = .withWord ∨ op.kind = .makingWord)
    (hname : ¬ ∃ t, right = [t] ∧ t.kind = .tempVariable) :
    (ofClause subject op right).value = (needsVariable op).value := by
  rw [ofClause.eq_def]
  rcases right with _ | ⟨t, _ | ⟨u, ts⟩⟩
  · rcases hop with hk | hk <;> simp [hk]
  · have ht : t.kind ≠ .tempVariable := by simpa using hname
    rcases hop with hk | hk <;> simp [hk, ht]
  · rcases hop with hk | hk <;> simp [hk]

section Operator

variable {left right : List Token} {op : Token} (hleft : Compiles left (ofRunAs left))
  (hright : Compiles right (ofRunAs right))

include hleft hright

theorem compiles_ofLogic (hop : op.kind = .and ∨ op.kind = .or) :
    Compiles (left ++ op :: right) fun _ => (ofLogic left op right).value := by
  simp only [ofLogic]
  refine .unless fun _ => .unless fun _ => ?_
  cases hl : lentComparison? left with
  | none =>
    cases hr : lentComparison? right with
    | none => exact .logic hop (by rw [hl, hr]) hleft hright
    | some lent => exact .lendLeft hop hr hl hleft hright
  | some lent =>
    cases hr : lentComparison? right with
    | none => exact .lendRight hop hl hr hleft hright
    | some _ => exact .logic hop (by rw [hl, hr]; rfl) hleft hright

theorem compiles_ofLambda
    (hop : op.kind = .whereWord ∨ op.kind = .viaWord ∨ op.kind = .withWord ∨ op.kind = .makingWord) :
    Compiles (left ++ op :: right) fun _ => (ofLambda left op right).value := by
  simp only [ofLambda, Noted.value_bind, value_ofSubject]
  rcases hop with hk | hk | hop
  · simp only [ofClause.eq_def, hk]
    exact .unless fun _ => .lambda hleft hright (.whereBody hk)
  · simp only [ofClause.eq_def, hk]
    exact .unless fun _ => .lambda hleft hright (.viaBody hk)
  · -- these two clauses take a name and nothing else
    by_cases hname : ∃ t, right = [t] ∧ t.kind = .tempVariable
    · obtain ⟨t, rfl, ht⟩ := hname
      rcases hop with hk | hk
      · simp only [ofClause.eq_def, hk, ht, if_true]
        exact .lambda hleft hright (.withName hk ht)
      · simp only [ofClause.eq_def, hk, ht, if_true]
        exact .lambda hleft hright (.makingName hk ht)
    · rw [value_ofClause_of_not_name _ hop hname]
      exact .malformed (.needsVariable op) rfl

theorem compiles_ofArithmetic
    (hop : op.kind ∈ [.addition, .subtraction, .multiplication, .division]) {lhs : Expr}
    (hlhs : leftOr (.number 0) left (ofRunAs left false) = lhs) :
    Compiles (left ++ op :: right) fun _ => (ofArithmetic lhs op right).value := by
  subst hlhs
  simp only [ofArithmetic]
  refine .unless fun _ => ?_
  cases ho : op.operator with
  | none => exact .malformed (.noOperator (by simp) hop ho) rfl
  | some operator => exact .arithmetic hop ho hleft hright

theorem compiles_ofOperator (hop : ∃ group ∈ groups, op.kind ∈ group.1) :
    Compiles (left ++ op :: right) fun asRef => (ofOperator left op right asRef).value := by
  simp only [ofOperator]
  cases hk : op.kind
  case comma => exact .malformed .comma rfl
  case spread => exact .malformed .spread rfl
  case toWord => exact .unless fun _ => .unless fun _ => .assignTo hk hleft hright
  case intoWord => exact .unless fun _ => .unless fun _ => .assignInto hk hleft hright
  case augmentedAssign => exact .unless fun _ => .unless fun _ => .augment hk hleft hright
  case and | or => exact compiles_ofLogic hleft hright (by simp [hk])
  case whereWord | viaWord | withWord | makingWord => exact compiles_ofLambda hleft hright (by simp [hk])
  case possessiveOperator => exact .unless fun _ => .unless fun _ => .possessive hk hleft hright
  case belongingOperator => exact .unless fun _ => .unless fun _ => .belonging hk hleft hright
  case is | isNot | contains | isIn | inequality =>
    refine .unless fun _ => ?_
    have hcomparison : op.kind.isComparison = true := by rw [hk]; rfl
    have h := Compiles.compare hcomparison hleft hright
    unfold leftOr at h
    by_cases hempty : left.isEmpty = true
    · simp only [hempty, if_true] at h ⊢
      exact h
    · simp only [hempty] at h ⊢
      exact h
  case addition | subtraction =>
    by_cases hempty : left.isEmpty = true
    · simp only [hempty, if_true]
      exact compiles_ofArithmetic hleft hright (by simp [hk]) (by simp [leftOr, hempty])
    · simp only [hempty]
      exact compiles_ofArithmetic hleft hright (by simp [hk]) (by simp [leftOr, hempty, ofRunAs])
  case multiplication | division =>
    refine .unless fun hempty => ?_
    exact compiles_ofArithmetic hleft hright (by simp [hk]) (by simp [leftOr, hempty, ofRunAs])
  case not | belongingProperty | itsOperator =>
    cases hlast : left.getLast? with
    | some last => exact .malformed (.adjacent last op) rfl
    | none =>
      obtain rfl := List.getLast?_eq_none_iff.1 hlast
      refine .unless fun _ => ?_
      first | exact .not hk hright | exact .belongingProperty hk hright | exact .its hk hright
  case property | belongingItOperator =>
    refine .unless fun _ => ?_
    cases hhead : right.head? with
    | some next => exact .malformed (.adjacent op next) rfl
    | none =>
      obtain rfl := List.head?_eq_none_iff.1 hhead
      first | exact .property hk hleft | exact .belongingIt hk hleft
  case itsProperty | belongingItProperty =>
    cases hlast : left.getLast? with
    | some last => exact .malformed (.adjacent last op) rfl
    | none =>
      cases hhead : right.head? with
      | some next => exact .malformed (.adjacent op next) rfl
      | none =>
        obtain rfl := List.getLast?_eq_none_iff.1 hlast
        obtain rfl := List.head?_eq_none_iff.1 hhead
        exact .itsProperty (by simp [hk])
  -- no token of another kind divides
  all_goals exact absurd (hk ▸ hop) (by decide)

end Operator

/-- The first of the runs of a call is an argument, unless it is empty and the last. -/
theorem exists_argumentRun (run : List Token) (runs : List (List Token))
    (ih : ∀ run', Token.weightAll run' ≤ Token.weightAll run → Compiles run' (ofRunAs run')) :
    (run = [] ∧ runs = []) ∨
    ∃ a : ArgumentRun, run = a.tokens ∧ Compiles a.run a.expr ∧
      (ofArguments (run :: runs)).value = a.argument :: (ofArguments runs).value := by
  rcases run with _ | ⟨t, ts⟩
  · rcases runs with _ | ⟨r, rs⟩
    · exact .inl ⟨rfl, rfl⟩
    · exact .inr ⟨⟨none, [], _, by simp⟩, rfl, .malformed .gap rfl, by rw [ofArguments] <;> simp; rfl⟩
  · refine .inr ?_
    by_cases ht : t.kind = .spread
    · by_cases hts : ts = []
      · refine ⟨⟨none, [t], fun _ => (missing "right" t).value, by simp⟩, by rw [hts]; rfl,
          .malformed (.missing "right" t) rfl, ?_⟩
        rw [ofArguments]
        simp only [ht, hts, List.isEmpty_nil, if_true]
        rfl
      · refine ⟨⟨some t, ts, _, by simpa using ht⟩, rfl, ih ts (by simp [Token.weightAll]), ?_⟩
        rw [ofArguments]
        simp only [ht, List.isEmpty_iff, hts, if_true, if_false]
        rfl
    · refine ⟨⟨none, t :: ts, _, by simp⟩, rfl, ih (t :: ts) le_rfl, ?_⟩
      rw [ofArguments]
      simp only [ht, if_false]
      rfl

theorem exists_argumentRuns (runs : List (List Token))
    (ih : ∀ run, Token.weightAll run ≤ weightRuns runs → Compiles run (ofRunAs run)) :
    ∃ args : List ArgumentRun,
      (runs = args.map (·.tokens) ∨ runs = args.map (·.tokens) ++ [[]]) ∧
      (ofArguments runs).value = args.map (·.argument) ∧ ∀ a ∈ args, Compiles a.run a.expr := by
  induction runs with
  | nil => exact ⟨[], .inl rfl, by simp [ofArguments], by simp⟩
  | cons run runs ihRuns =>
    have hweight : weightRuns (run :: runs) = Token.weightAll run + weightRuns runs := rfl
    rcases exists_argumentRun run runs fun run' h => ih run' (by omega) with
      ⟨rfl, rfl⟩ | ⟨a, rfl, ha, hvalue⟩
    · exact ⟨[], .inr rfl, by simp [ofArguments], by simp⟩
    · obtain ⟨args, hruns, hrest, hargs⟩ := ihRuns fun run' h => ih run' (by omega)
      refine ⟨a :: args, ?_, ?_, List.forall_mem_cons.2 ⟨ha, hargs⟩⟩
      · rcases hruns with rfl | rfl
        · exact .inl rfl
        · exact .inr rfl
      · rw [hvalue, hrest, List.map_cons]

theorem compiles_ofCall {t : Token} (hk : t.kind = .macroCall)
    (ih : ∀ run, Token.weightAll run < t.weight → Compiles run (ofRunAs run)) :
    Compiles [t] fun _ => (ofCall t).value := by
  generalize hvalue : (ofCall t).value = e
  rw [ofCall] at hvalue
  split at hvalue
  · rename_i hchildren
    subst hvalue
    exact .malformed (.noName (by simp) hk hchildren) rfl
  · rename_i name rest hchildren
    by_cases hname : name.kind = .macroName
    · -- name and arguments are inside the token
      have hweight := weight_significant t.children
      have hname' := weight_significant name.children
      have hrest := weightRuns_segments rest
      simp only [hchildren, Token.weightAll] at hweight
      rw [Token.weight_eq name] at hweight
      rw [Token.weight_eq t] at ih
      obtain ⟨args, hruns, hargs, hcompiles⟩ :=
        exists_argumentRuns (segments rest) fun run h => ih run (by omega)
      have hcallee := ih (significant name.children) (by omega)
      have h := Compiles.call hk hchildren hname hcallee hruns hcompiles
      rw [← hargs] at h
      rw [← hvalue, if_neg (not_not.2 hname)]
      by_cases hmethod : name.isMethod = true
      · rw [if_pos hmethod]
        rw [calleeOf, if_pos hmethod] at h
        exact h
      · rw [if_neg hmethod]
        rw [calleeOf, if_neg hmethod] at h
        exact h
    · simp only [ne_eq, hname, not_false_eq_true, if_true] at hvalue
      subst hvalue
      exact .malformed (.notName (by simp) hk hchildren hname) rfl

theorem compiles_ofOperand {t : Token}
    (ih : ∀ run, Token.weightAll run < t.weight → Compiles run (ofRunAs run)) :
    Compiles [t] fun asRef => (ofOperand t asRef).value := by
  by_cases hcall : t.kind = .macroCall
  · simp only [ofOperand, hcall]
    exact compiles_ofCall hcall ih
  · by_cases hgroup : t.kind = .grouping
    · have hinner : Token.weightAll (significant t.children) < t.weight := by
        have := weight_significant t.children
        have := Token.weight_eq t
        omega
      simp only [ofOperand, hgroup]
      exact .group hgroup (ih _ hinner)
    · have hleaf : (fun asRef => (ofOperand t asRef).value) = fun asRef => (ofLeaf t asRef).value := by
        funext asRef
        rw [ofOperand]
        split <;> simp_all
      rw [hleaf]
      exact .leaf

theorem ofRunAs_nil : ofRunAs [] = fun _ => .empty := by
  funext asRef
  rw [ofRunAs, ofRun]
  rfl

/-- Two tokens or more that nothing divides are malformed. -/
theorem ofRunAs_of_divide_eq_none {t u : Token} {ts : List Token}
    (h : divide (t :: u :: ts) = none) :
    ∃ complaint message, Complaint (t :: u :: ts) complaint ∧
      complaint.value = .error .malformed message ∧
      ofRunAs (t :: u :: ts) = fun _ => .error .malformed message := by
  have hvalue : ofRunAs (t :: u :: ts) = fun _ =>
      (match (t :: u :: ts).find? fun (t : Token) => t.kind = Kind.text || t.kind = Kind.error with
        | some bad => notCode bad
        | none => adjacent t u).value := by
    funext asRef
    rw [ofRunAs, ofRun]
    split
    · simp_all
    · rfl
  rw [hvalue]
  split
  · rename_i bad hbad
    have hmem : bad ∈ t :: u :: ts := List.mem_of_find?_eq_some hbad
    obtain ⟨message, hmessage⟩ : ∃ message, (notCode bad).value = .error .malformed message := by
      rw [notCode]
      split <;> exact ⟨_, rfl⟩
    exact ⟨notCode bad, message, .notCode hmem, hmessage, by rw [hmessage]⟩
  · exact ⟨adjacent t u, _, .adjacent t u, rfl, rfl⟩

/-- Every run of tokens compiles. -/
theorem compiles_ofRun (run : List Token) : Compiles run (ofRunAs run) := by
  cases hdivision : divide run with
  | some d =>
    have hweight := weight_of_divide hdivision
    have hpos := d.op.weight_pos
    have hvalue : ofRunAs run = fun asRef => (ofOperator d.left d.op d.right asRef).value := by
      funext asRef
      rw [ofRunAs, ofRun_of_divide hdivision]
    have h := compiles_ofOperator (compiles_ofRun d.left) (compiles_ofRun d.right)
      (mem_group_of_divide hdivision)
    rw [append_of_divide hdivision] at h
    rwa [hvalue]
  | none =>
    match run, hdivision with
    | [], _ =>
      rw [ofRunAs_nil]
      exact .empty
    | [t], hdivision =>
      have hvalue : ofRunAs [t] = fun asRef => (ofOperand t asRef).value := by
        funext asRef
        rw [ofRunAs, ofRun_of_divide_eq_none hdivision]
      have hweight : Token.weightAll [t] = t.weight := by simp [Token.weightAll]
      rw [hvalue]
      exact compiles_ofOperand fun run hrun => compiles_ofRun run
    | t :: u :: ts, hdivision =>
      obtain ⟨complaint, message, hcause, hvalue, hmessage⟩ := ofRunAs_of_divide_eq_none hdivision
      rw [hmessage]
      exact .malformed hcause hvalue
termination_by Token.weightAll run
decreasing_by all_goals omega

end Expr

end StoryScript
