/-
  Values behind references.

  The same tokens compile to a reference or to a value. The two expressions are the same,
  or one is a reference and the other reads it, perhaps both in parentheses. So evaluating
  as a value is evaluating as a reference and then reading: the two runs walk to the same
  reference, with the same errors on the way, and only the first records it in `it`.
-/
import Mathlib
import StoryScript.Eval
import StoryScript.Proofs.Expr.Derivation

namespace StoryScript

/-! ## Two ways to compile -/

namespace Expr

/-- Expressions that are not about a reference: neither a reference nor the value behind one, nor
one of these in parentheses. -/
def isPlain : Expr → Bool
  | ref .. | get _ | group _ => false
  | _ => true

/-- The second expression is the value behind the first: it reads the reference that the first is,
or the first is no reference and the two are the same. -/
inductive Dereferences : Expr → Expr → Prop where
  | plain {e : Expr} (isPlain : e.isPlain = true) : Dereferences e e
  | ref (object : Place Expr) (property : Property Expr) :
      Dereferences (.ref object property) (.get (.ref object property))
  | group {e e' : Expr} (inner : Dereferences e e') : Dereferences (.group e) (.group e')

theorem dereferences_reference (object : Place Expr) (property : Property Expr) :
    Dereferences (reference object property true) (reference object property false) :=
  .ref object property

theorem isPlain_notCode (t : Token) : (notCode t).value.isPlain = true := by
  simp only [notCode]
  split <;> rfl

theorem isPlain_comparison (lhs : Expr) (op : Token) (rhs : Expr) :
    (comparison lhs op rhs).value.isPlain = true := by
  simp only [comparison]
  split
  · rfl
  · cases op.negate <;> rfl

theorem dereferences_ofLeaf (t : Token) :
    Dereferences (ofLeaf t true).value (ofLeaf t false).value := by
  simp only [ofLeaf]
  split
  -- variables are references, and no other leaf is
  all_goals first
    | exact dereferences_reference _ _
    | exact .plain rfl
    | exact .plain (isPlain_notCode t)
    | exact .plain (by dsimp only [Noted.value_pure]; split <;> rfl)

/-- Compiled as a value, tokens denote the value behind what they denote as a reference. -/
theorem Compiles.dereferences {run : List Token} {e : Bool → Expr} (h : Compiles run e) :
    Dereferences (e true) (e false) := by
  induction h with
  | leaf => exact dereferences_ofLeaf _
  | group _ _ ih => exact .group ih
  | compare => exact .plain (isPlain_comparison _ _ _)
  | property | belongingProperty | itsProperty | possessive | belonging | its | belongingIt =>
    exact dereferences_reference _ _
  | _ => exact .plain rfl

end Expr

/-! ## What is no reference -/

namespace Value

/-- Whether a value is a reference. -/
def isRef : Value → Bool
  | ref _ => true
  | _ => false

theorem isRef_of_isError {v : Value} (h : v.isError = true) : v.isRef = false := by
  cases v <;> simp_all [isError, isRef]

theorem isRef_firstError? (values : List Value) {v : Value} (h : v.isRef = false) :
    ((firstError? values).getD v).isRef = false := by
  cases he : firstError? values with
  | none => exact h
  | some e => exact isRef_of_isError (List.find?_some he)

/-- A failure is no reference, so only what a computation ends with matters. -/
theorem isRef_bind {α : Type} (x : Except ScriptError α) {f : α → Except ScriptError Value}
    (h : ∀ a, (ofExcept (f a)).isRef = false) : (ofExcept (x >>= f)).isRef = false := by
  cases x with
  | error e => rfl
  | ok a => exact h a

theorem isRef_sum (lhs rhs : Value) : (ofExcept (sum lhs rhs)).isRef = false := by
  refine isRef_bind _ fun _ => ?_
  split
  all_goals first | rfl | (split <;> rfl)

theorem isRef_difference (lhs rhs : Value) : (ofExcept (difference lhs rhs)).isRef = false := by
  refine isRef_bind _ fun _ => ?_
  split
  all_goals first | rfl | (split <;> rfl)

theorem isRef_holds (container item : Value) :
    (ofExcept (boolean <$> holds container item)).isRef = false := by
  cases holds container item <;> rfl

theorem isRef_join (op : BinaryOp) (f : Bool → Bool → Bool) (lhs rhs : Value) :
    (ofExcept (join op f lhs rhs)).isRef = false := by
  unfold join
  split <;> rfl

theorem isRef_negate (v : Value) : v.negate.isRef = false := by
  cases v <;> rfl

end Value

/-- No operator gives a reference. -/
theorem BinaryOp.isRef_apply (op : BinaryOp) (lhs rhs : Value) :
    (op.apply lhs rhs).isRef = false := by
  refine Value.isRef_firstError? _ ?_
  cases op
  case add => exact Value.isRef_sum lhs rhs
  case subtract => exact Value.isRef_difference lhs rhs
  case multiply => exact Value.isRef_bind _ fun _ => rfl
  case divide | modulo =>
    refine Value.isRef_bind _ fun _ => ?_
    dsimp only
    split <;> rfl
  case less | lessEq | greater | greaterEq => exact Value.isRef_bind _ fun _ => rfl
  case is | isNot => rfl
  case contains => exact Value.isRef_holds lhs rhs
  case isIn => exact Value.isRef_holds rhs lhs
  case and | or => exact Value.isRef_join _ _ lhs rhs

theorem Assignment.isRef_create (dest src : Value) (op : AssignOp) :
    (Assignment.create dest src op).isRef = false := by
  refine Value.isRef_firstError? _ ?_
  cases dest <;> rfl

theorem Lambda.isRef_create (subject : Subject Value) (clause : Clause Expr) :
    (Lambda.create subject clause).isRef = false := by
  unfold Lambda.create
  split <;> rfl

/-- What a host hands out is no reference: neither the results of macros nor the hooks. -/
structure Host.HandsOutValues (host : Host) : Prop where
  run : ∀ target args c, ((host.run target args).run c).1.isRef = false
  selectHooks : ∀ name, (host.selectHooks name).isRef = false

/-! ## Two ways to evaluate -/

namespace Expr

open Eval

variable {host : Host} {c : Context}

/-- A plain expression gives a reference only if `it` is one or the host hands one out. -/
theorem isRef_of_isPlain (hhost : host.HandsOutValues) (hit : c.it.isRef = false) {e : Expr}
    (he : e.isPlain = true) : ((e.evalWith host true).run c).1.isRef = false := by
  cases e
  case ref | get | group => simp [isPlain] at he
  case empty | number | string | boolean | time | error => rfl
  case colour code =>
    simp only [evalWith]
    split <;> rfl
  case it => exact hit
  case hooks name => exact hhost.selectHooks name
  case binary lhs op rhs =>
    show ((Eval.binary op _ _).run _).1.isRef = false
    rw [run_binary]
    exact op.isRef_apply _ _
  case not operand => exact Value.isRef_negate _
  case assign dest src op => exact Assignment.isRef_create _ _ _
  case lambda subject clause => exact Lambda.isRef_create _ _
  case call callee args =>
    simp only [evalWith, keepIt, run_bind]
    rcases (evalCallee host callee).run _ with ⟨e | target, c₁⟩
    · rfl
    · exact hhost.run _ _ _

/-- Evaluating a reference ends in an error or in the reference, whether it is recorded or not. -/
theorem run_ref (object : Place Expr) (property : Property Expr) :
    (∃ e c', ∀ record, ((ref object property).evalWith host record).run c = (.error e, c')) ∨
    ∃ r c', ∀ record, ((ref object property).evalWith host record).run c =
      (.ref r, if record then { c' with it := r.get c' } else c') := by
  simp only [evalWith, run_bind]
  rcases (evalPlace host object).run c with ⟨e | origin, c₁⟩
  · exact .inl ⟨e, c₁, fun _ => rfl⟩
  · dsimp only
    simp only [run_bind]
    rcases (evalProperty host property).run c₁ with ⟨e | key, c₂⟩
    · exact .inl ⟨e, c₂, fun _ => rfl⟩
    · have hget : (getThe Context : Eval Context).run c₂ = (c₂, c₂) := rfl
      simp only [run_bind, hget]
      cases origin.property c₂ key with
      | error e => exact .inl ⟨e, c₂, fun _ => rfl⟩
      | ok r =>
        refine .inr ⟨r, c₂, fun record => ?_⟩
        cases record <;> rfl

/-- Evaluating the value behind an expression is evaluating the expression and then reading, and
both do the same to the context but for `it`. -/
theorem Dereferences.run_evalWith (hhost : host.HandsOutValues) (hit : c.it.isRef = false)
    {e e' : Expr} (h : Dereferences e e') :
    ((e'.evalWith host true).run c).1 =
      (match (e.evalWith host true).run c with
      | (.ref r, c') => r.get c'
      | (v, _) => v) ∧
    ∃ it, ((e'.evalWith host true).run c).2 = { ((e.evalWith host true).run c).2 with it } := by
  induction h with
  | @plain e he =>
    have hvalue := isRef_of_isPlain hhost hit he
    generalize (e.evalWith host true).run c = result at hvalue ⊢
    obtain ⟨v, c'⟩ := result
    refine ⟨?_, c'.it, rfl⟩
    cases v
    case ref r => simp [Value.isRef] at hvalue
    all_goals rfl
  | ref object property =>
    rcases run_ref object property with ⟨e, c', hrun⟩ | ⟨r, c', hrun⟩
    · have hget : ((Expr.get (.ref object property)).evalWith host true).run c = (.error e, c') := by
        rw [evalWith, run_bind, hrun false]
        rfl
      rw [hget, hrun true]
      exact ⟨rfl, c'.it, rfl⟩
    · -- only the reference itself is recorded, and recording it does not change what it leads to
      have hget : ((Expr.get (.ref object property)).evalWith host true).run c = (r.get c', c') := by
        rw [evalWith, run_bind, hrun false]
        rfl
      rw [hget, hrun true]
      exact ⟨rfl, c'.it, rfl⟩
  | group inner ih => exact ih

end Expr

/-- Compiling as a value agrees with compiling as a reference. Evaluate the same tokens both ways in
the same context, where `it` is no reference and the host hands none out. If the first run ends in a
reference, the second gives what that leads to where the first run ended; otherwise both give the
same value. The runs leave the same context but for `it`. -/
theorem eval_compile_value (host : Host) (hhost : host.HandsOutValues) (c : Context)
    (hit : c.it.isRef = false) (tokens : List Token) :
    (((compile tokens false).eval host).run c).1 =
      (match ((compile tokens true).eval host).run c with
      | (.ref r, c') => r.get c'
      | (v, _) => v) ∧
    ∃ it, (((compile tokens false).eval host).run c).2 =
      { (((compile tokens true).eval host).run c).2 with it } := by
  have hcompiles := Expr.compiles_ofRun (Expr.significant tokens)
  exact hcompiles.dereferences.run_evalWith hhost hit

/-- The tokens of `($a's b)`. -/
def groupedProperty : List Token :=
  [{ kind := .grouping
     children :=
       [{ kind := .storyVariable, name := some "a" }, { kind := .property, name := some "b" }] }]

/-- A story in which `$a's b` is a word. -/
def mappedStory : Context :=
  { story := .ofList [(.string "a", .map (.ofList [(.string "b", .string "word")]))] }

/-- As a reference the tokens lead to the word, and as a value they are the word. -/
theorem eval_compile_value_groupedProperty :
    Host.bare.HandsOutValues ∧ mappedStory.it.isRef = false ∧
    (((compile groupedProperty true).eval .bare).run mappedStory).1.isRef = true ∧
    (((compile groupedProperty false).eval .bare).run mappedStory).1 = .string "word" := by
  have hhost : Host.bare.HandsOutValues := ⟨fun _ _ _ => rfl, fun _ => rfl⟩
  have hcompile : compile groupedProperty true =
      .group (.ref (.of (.ref .story (.name "a"))) (.name "b")) := by
    cbv
  have hvalue := (eval_compile_value .bare hhost mappedStory rfl groupedProperty).1
  rw [hcompile] at hvalue ⊢
  exact ⟨hhost, rfl, rfl, hvalue⟩

end StoryScript
