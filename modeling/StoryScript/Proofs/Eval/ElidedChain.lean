/-
  What a chain with one comparison means.

  `x is 1 or 2 or 3` compares `x` three times, but evaluates it once: every comparison leaves its
  left operand in `it`, and every bare operand is compared with `it`, which is read before the
  operand is evaluated. So whatever an operand does to `it`, the next one is compared with `x`.
-/
import Mathlib
import StoryScript.Eval
import StoryScript.Proofs.Expr.Elision

namespace StoryScript

/-- The value of a comparison, negated if the token says so. -/
def ComparisonToken.apply (cmp : ComparisonToken) (lhs rhs : Value) : Value :=
  let value := cmp.op.apply lhs rhs
  if cmp.token.negate then value.negate else value

/-- A comparison and the bare operands that follow it, each after its joiner. -/
structure ElidedChain where
  x : TightOperand
  cmp : ComparisonToken
  v : TightOperand
  rest : List (Joiner × TightOperand)

namespace ElidedChain

/-- `x cmp v`, and then each joiner with its operand. -/
def tokens (k : ElidedChain) : List Token :=
  k.x.tokens ++ k.cmp.token :: k.v.tokens ++ k.rest.flatMap fun next => next.1.token :: next.2.tokens

/-- The comparisons written out, with `it` on the left of all but the first. They lean to the left. -/
def expr (k : ElidedChain) : Expr :=
  k.rest.foldl
    (fun e next => .binary e next.1.op (Expr.comparison .it k.cmp.token next.2.expr).value)
    (Expr.comparison k.x.expr k.cmp.token k.v.expr).value

/-- The joiners applied to the comparisons of one value with others, from the left. -/
def value (k : ElidedChain) (x v : Value) (others : List Value) : Value :=
  (k.rest.zip others).foldl (fun acc next => next.1.1.op.apply acc (k.cmp.apply x next.2))
    (k.cmp.apply x v)

end ElidedChain

/-! ## Compiling -/

/-- A chain goes on with one bare operand after the other. -/
theorem compile_chain_append (cmp : ComparisonToken) (rest : List (Joiner × TightOperand)) (L : Chain)
    (hfirst : L.first.comparison? = some cmp) :
    compile (L.tokens ++ rest.flatMap fun next => next.1.token :: next.2.tokens) false =
      rest.foldl
        (fun e next => .binary e next.1.op (Expr.comparison .it cmp.token next.2.expr).value)
        (compile L.tokens false) := by
  induction rest generalizing L with
  | nil => rw [List.flatMap_nil, List.append_nil, List.foldl_nil]
  | cons next rest ih =>
    obtain ⟨j, w⟩ := next
    -- the chain that has grown by this operand starts as before
    have hnext : (L.join j (.bare w)).first.comparison? = some cmp := hfirst
    have hborrowed : L.borrowed w = (Expr.comparison .it cmp.token w.expr).value := by
      rw [Expr.value_comparison_token]
      simp only [Chain.borrowed, hfirst]
    have hstep := Expr.compile_join_bare L j w
    rw [hborrowed] at hstep
    rw [List.foldl_cons, ← hstep, List.flatMap_cons, ← List.append_assoc]
    exact ih (L.join j (.bare w)) hnext

theorem ElidedChain.compile_tokens (k : ElidedChain) : compile k.tokens false = k.expr := by
  have hchain := compile_chain_append k.cmp k.rest (.one (.test k.x k.cmp k.v)) rfl
  have hfirst := Expr.compile_test k.x k.cmp k.v
  rw [ElidedChain.expr, Expr.value_comparison_token]
  exact hfirst ▸ hchain

/-! ## Evaluating -/

/-- Evaluates operands one after the other; after each of them a given value becomes `it`. -/
def evalOperands (host : Host) (x : Value) : List TightOperand → Eval (List Value)
  | [] => return []
  | v :: vs => do
    let value ← v.expr.eval host
    Eval.setIt x
    return value :: (← evalOperands host x vs)

theorem run_evalOperands_cons (host : Host) (x : Value) (v : TightOperand) (vs : List TightOperand)
    (c : Context) :
    (evalOperands host x (v :: vs)).run c =
      let first := (v.expr.eval host).run c
      let others := (evalOperands host x vs).run { first.2 with it := x }
      (first.1 :: others.1, others.2) := rfl

/-- A comparison of two values that are no errors leaves the left one in `it`. -/
theorem run_eval_comparison (cmp : ComparisonToken) {host : Host} {lhs rhs : Expr} {x v : Value}
    {c c₁ c₂ : Context} (hlhs : (lhs.eval host).run c = (x, c₁))
    (hrhs : (rhs.eval host).run c₁ = (v, c₂)) (hx : x.isError = false) (hv : v.isError = false) :
    ((Expr.comparison lhs cmp.token rhs).value.eval host).run c =
      (cmp.apply x v, { c₂ with it := x }) := by
  have hsets : cmp.op.setsIt x v = true := by simp [BinaryOp.setsIt, cmp.compares, hx, hv]
  have hbinary : ((Expr.binary lhs cmp.op rhs).eval host).run c =
      (cmp.op.apply x v, { c₂ with it := x }) := by
    rw [Expr.eval, Expr.evalWith, Eval.run_bind]
    rw [Expr.eval] at hlhs hrhs
    rw [hlhs, Eval.run_bind, hrhs, Eval.run_binary, hsets, if_pos rfl]
  rw [Expr.value_comparison_token, Expr.testBy, ComparisonToken.apply]
  -- negating comes after the comparison, and does not touch the context
  cases hnegate : cmp.token.negate with
  | false => simpa [ComparisonToken.sense, hnegate] using hbinary
  | true =>
    simp only [ComparisonToken.sense, hnegate, if_true]
    rw [Expr.eval, Expr.evalWith, Eval.run_bind, ← Expr.eval, hbinary]
    rfl

theorem run_eval_it (host : Host) (c : Context) : (Expr.it.eval host).run c = (c.it, c) := rfl

/-- Joining touches nothing but what its operands touch. -/
theorem run_eval_join (j : Joiner) {host : Host} {lhs rhs : Expr} {a b : Value} {c c₁ c₂ : Context}
    (hlhs : (lhs.eval host).run c = (a, c₁)) (hrhs : (rhs.eval host).run c₁ = (b, c₂)) :
    ((Expr.binary lhs j.op rhs).eval host).run c = (j.op.apply a b, c₂) := by
  have hsets : j.op.setsIt a b = false := by
    rcases j.kind with h | h <;> simp [Joiner.op, Expr.joinOf, h, BinaryOp.setsIt, BinaryOp.isComparison]
  rw [Expr.eval, Expr.evalWith, Eval.run_bind]
  rw [Expr.eval] at hlhs hrhs
  rw [hlhs, Eval.run_bind, hrhs, Eval.run_binary, hsets, if_neg Bool.false_ne_true]

/-- Bare operands that follow an expression which leaves `x` in `it` are all compared with `x`. -/
theorem run_eval_foldl (cmp : ComparisonToken) {host : Host} {x : Value} (hx : x.isError = false)
    (rest : List (Joiner × TightOperand)) (e : Expr) {c c₁ c₂ : Context} {acc : Value}
    {values : List Value} (he : (e.eval host).run c = (acc, c₁)) (hit : c₁.it = x)
    (hoperands : (evalOperands host x (rest.map (·.2))).run c₁ = (values, c₂))
    (hvalues : ∀ v ∈ values, v.isError = false) :
    ((rest.foldl
        (fun e next => .binary e next.1.op (Expr.comparison .it cmp.token next.2.expr).value)
        e).eval host).run c =
      ((rest.zip values).foldl (fun acc next => next.1.1.op.apply acc (cmp.apply x next.2)) acc,
        c₂) := by
  -- each turn adds one operand to the expression; that `it` is `x` after it carries the induction
  induction rest generalizing e c₁ acc values with
  | nil =>
    obtain ⟨rfl, rfl⟩ := Prod.mk.inj hoperands
    exact he
  | cons next rest ih =>
    obtain ⟨j, w⟩ := next
    rw [List.map_cons, run_evalOperands_cons] at hoperands
    obtain ⟨rfl, hcontext⟩ := Prod.mk.inj hoperands
    obtain ⟨hv, hothers⟩ := List.forall_mem_cons.1 hvalues
    -- `it` is read before the operand is evaluated, and set again after that
    have hread : (Expr.it.eval host).run c₁ = (x, c₁) := by rw [run_eval_it, hit]
    have htest := run_eval_comparison cmp hread rfl hx hv
    exact ih _ (run_eval_join j he htest) rfl (Prod.ext rfl hcontext) hothers

/-! ## The law -/

/-- A comparison followed by bare operands: it compiles to the comparisons written out. If no
operand evaluates to an error, `x` is evaluated once and then the others, in order, each of them with
what the one before has done but for `it`; the value is that of the joiners, from the left, on the
comparisons of `x` with each. -/
theorem compile_eval_elidedChain (k : ElidedChain) :
    compile k.tokens false = k.expr ∧
    ∀ host c x c₁ v others c₂, (k.x.expr.eval host).run c = (x, c₁) →
      (evalOperands host x (k.v :: k.rest.map (·.2))).run c₁ = (v :: others, c₂) →
      (∀ w ∈ x :: v :: others, w.isError = false) →
      ((compile k.tokens false).eval host).run c = (k.value x v others, c₂) := by
  refine ⟨k.compile_tokens, ?_⟩
  intro host c x c₁ v others c₂ hrun hoperands herrors
  obtain ⟨hx, hrest⟩ := List.forall_mem_cons.1 herrors
  obtain ⟨hv, hothers⟩ := List.forall_mem_cons.1 hrest
  rw [run_evalOperands_cons] at hoperands
  obtain ⟨hall, hcontext⟩ := Prod.mk.inj hoperands
  obtain ⟨rfl, hvalues⟩ := List.cons.inj hall
  rw [k.compile_tokens]
  have hfirst := run_eval_comparison k.cmp hrun rfl hx hv
  exact run_eval_foldl k.cmp hx k.rest _ hfirst rfl (Prod.ext hvalues hcontext) hothers

namespace ElidedChain

/-- The string `"a"`. -/
def letterA : TightOperand :=
  Chain.single { kind := .string, text := "\"a\"" } rfl rfl

/-- The token of `is`. -/
def isToken : ComparisonToken :=
  ⟨{ kind := .is }, .is, rfl, rfl, rfl⟩

/-- `("b" is "c")`, which sets `it` on its own. -/
def distraction : TightOperand :=
  Chain.single
    { kind := .grouping
      children := [{ kind := .string, text := "\"b\"" }, isToken.token,
        { kind := .string, text := "\"c\"" }] } rfl rfl

/-- `"a" is "a" and ("b" is "c") or "a"` -/
def distracted : ElidedChain where
  x := letterA
  cmp := isToken
  v := letterA
  rest := [(Chain.conjunction, distraction), (⟨{ kind := .or }, .inr rfl⟩, letterA)]

end ElidedChain

/-- The last operand is compared with the first, although the one between has changed `it`. -/
theorem compile_eval_elidedChain_distracted :
    ((ElidedChain.distracted.x.expr.eval .bare).run {} = (.string "a", {}) ∧
      (evalOperands .bare (.string "a")
          (ElidedChain.distracted.v :: ElidedChain.distracted.rest.map (·.2))).run {} =
        ([.string "a", .boolean false, .string "a"], { it := .string "a" }) ∧
      ∀ w ∈ [Value.string "a", .string "a", .boolean false, .string "a"], w.isError = false) ∧
    ((compile ElidedChain.distracted.tokens false).eval .bare).run {} =
      (.boolean true, { it := .string "a" }) := by
  have hletter : ElidedChain.letterA.expr = .string "a" := by cbv
  have hdistraction : ElidedChain.distraction.expr =
      .group (.binary (.string "b") .is (.string "c")) := by cbv
  have hrun : (ElidedChain.distracted.x.expr.eval .bare).run {} = (.string "a", {}) := by
    rw [show ElidedChain.distracted.x = ElidedChain.letterA from rfl, hletter]
    rfl
  have hoperands : (evalOperands .bare (.string "a")
      [ElidedChain.letterA, ElidedChain.distraction, ElidedChain.letterA]).run {} =
      ([.string "a", .boolean false, .string "a"], { it := .string "a" }) := by
    simp only [run_evalOperands_cons, hletter, hdistraction]
    rfl
  have herrors : ∀ w ∈ [Value.string "a", .string "a", .boolean false, .string "a"],
      w.isError = false := by
    simp [Value.isError]
  refine ⟨⟨hrun, hoperands, herrors⟩, ?_⟩
  rw [(compile_eval_elidedChain ElidedChain.distracted).2 .bare {} _ _ _ _ _ hrun hoperands herrors]
  rfl

end StoryScript
