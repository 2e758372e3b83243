/-
  Errors surface.

  Malformed code evaluates to an error, and an error is an ordinary value from there on.
  Each operation that receives one has to hand it on: operators and assignments look for
  an error among their operands first, a property needs an object and a name that are
  none, a lambda clause a subject that is none, and a call hands its arguments to the
  macro. So if the macros hand errors on as well, an expression with malformed code
  anywhere in it evaluates to an error; only the bodies of lambda clauses are left out,
  since they are not evaluated with the lambda.
-/
import Mathlib
import StoryScript.Host.Demo

namespace StoryScript

/-! ## Malformed code inside an expression -/

/-- Malformed code stands somewhere in the expression, outside the bodies of lambda clauses. There
is one rule for each place where an expression can hold another. -/
inductive Expr.Faulty : Expr → Prop where
  | empty : Faulty .empty
  | error (kind : ErrorKind) (message : String) : Faulty (.error kind message)
  | object {e : Expr} (inner : Faulty e) (property : Property Expr) : Faulty (.ref (.of e) property)
  | property {e : Expr} (inner : Faulty e) (object : Place Expr) :
      Faulty (.ref object (.computed e))
  | get {e : Expr} (inner : Faulty e) : Faulty (.get e)
  | lhs {e : Expr} (inner : Faulty e) (op : BinaryOp) (rhs : Expr) : Faulty (.binary e op rhs)
  | rhs {e : Expr} (inner : Faulty e) (lhs : Expr) (op : BinaryOp) : Faulty (.binary lhs op e)
  | not {e : Expr} (inner : Faulty e) : Faulty (.not e)
  | group {e : Expr} (inner : Faulty e) : Faulty (.group e)
  | dest {e : Expr} (inner : Faulty e) (src : Expr) (op : AssignOp) : Faulty (.assign e src op)
  | src {e : Expr} (inner : Faulty e) (dest : Expr) (op : AssignOp) : Faulty (.assign dest e op)
  | subject {e : Expr} (inner : Faulty e) (clause : Clause Expr) : Faulty (.lambda (.of e) clause)
  | callee {e : Expr} (inner : Faulty e) (args : List (Argument Expr)) :
      Faulty (.call (.computed e) args)
  | argument {e : Expr} (inner : Faulty e) (callee : Callee Expr) {args : List (Argument Expr)}
      (mem : .value e ∈ args) : Faulty (.call callee args)
  | spread {e : Expr} (inner : Faulty e) (callee : Callee Expr) {args : List (Argument Expr)}
      (mem : .spread e ∈ args) : Faulty (.call callee args)

/-- Some value is an error. -/
def Value.anyError (values : List Value) : Prop :=
  ∃ v ∈ values, v.isError = true

/-- The macros of the host hand on the errors among their arguments: with one there, the result is
an error. -/
def Host.PassesErrors (host : Host) : Prop :=
  ∀ target args c, Value.anyError args → ((host.run target args).run c).1.isError = true

/-! ## Operations on errors -/

namespace Value

/-- With an error among the operands, the first one is the result. -/
theorem isError_firstError? {values : List Value} (h : anyError values) :
    ∃ v, firstError? values = some v ∧ v.isError = true := by
  obtain ⟨w, hw, herror⟩ := h
  have hsome : (firstError? values).isSome = true := List.find?_isSome.2 ⟨w, hw, herror⟩
  obtain ⟨v, hv⟩ := Option.isSome_iff_exists.1 hsome
  exact ⟨v, hv, List.find?_some hv⟩

theorem isError_firstError?_getD {values : List Value} (h : anyError values) (otherwise : Value) :
    ((firstError? values).getD otherwise).isError = true := by
  obtain ⟨v, hv, herror⟩ := isError_firstError? h
  rw [hv]
  exact herror

variable {v : Value}

theorem isError_negate (h : v.isError = true) : v.negate.isError = true := by
  obtain ⟨e, rfl⟩ := (isError_iff v).1 h
  rfl

/-- An error stands for no elements but itself. -/
theorem anyError_elements (h : v.isError = true) : anyError v.elements := by
  obtain ⟨e, rfl⟩ := (isError_iff v).1 h
  exact ⟨.error e, List.mem_singleton_self _, rfl⟩

theorem isError_read (h : v.isError = true) (c : Context) :
    ((Eval.read v).run c).1.isError = true := by
  obtain ⟨e, rfl⟩ := (isError_iff v).1 h
  rfl

end Value

theorem Lambda.isError_create {v : Value} (h : v.isError = true) (clause : Clause Expr) :
    (Lambda.create (.of v) clause).isError = true := by
  obtain ⟨e, rfl⟩ := (Value.isError_iff v).1 h
  rfl

theorem Origin.ofValue_eq_error {v : Value} (h : v.isError = true) : ∃ e, ofValue v = .error e := by
  obtain ⟨e, rfl⟩ := (Value.isError_iff v).1 h
  exact ⟨e, rfl⟩

theorem Key.ofValue_eq_error {v : Value} (h : v.isError = true) : ∃ e, ofValue v = .error e := by
  obtain ⟨e, rfl⟩ := (Value.isError_iff v).1 h
  exact ⟨e, rfl⟩

theorem Callee.ofValue_eq_error {v : Value} (h : v.isError = true) :
    ∃ e, Callee.ofValue v = .error e := by
  obtain ⟨e, rfl⟩ := (Value.isError_iff v).1 h
  exact ⟨e, rfl⟩

/-! ## Evaluation -/

namespace Expr

open Eval

variable {host : Host}

/-- The expression evaluates to an error in every context, recorded or not. -/
def Fails (host : Host) (e : Expr) : Prop :=
  ∀ record c, ((e.evalWith host record).run c).1.isError = true

/-- A property fails if its object or its name does, whatever the other one is. -/
theorem fails_ref {object : Place Expr} {property : Property Expr}
    (h : (∀ c, ∃ e, ((evalPlace host object).run c).1 = .error e) ∨
      ∀ c, ∃ e, ((evalProperty host property).run c).1 = .error e) :
    Fails host (.ref object property) := by
  intro record c
  simp only [evalWith, run_bind]
  rcases hplace : (evalPlace host object).run c with ⟨e | origin, c₁⟩
  · rfl
  · dsimp only
    simp only [run_bind]
    rcases hproperty : (evalProperty host property).run c₁ with ⟨e | key, c₂⟩
    · rfl
    · -- both parts have given a result, so neither of them fails
      rcases h with h | h
      · obtain ⟨e, he⟩ := h c
        rw [hplace] at he
        cases he
      · obtain ⟨e, he⟩ := h c₁
        rw [hproperty] at he
        cases he

theorem fails_binary {lhs rhs : Expr} (h : Fails host lhs ∨ Fails host rhs) (op : BinaryOp) :
    Fails host (.binary lhs op rhs) := by
  intro record c
  simp only [evalWith, run_bind, run_binary]
  exact op.isError_apply (h.imp (fun h => h true c) fun h => h true _)

theorem fails_assign {dest src : Expr} (h : Fails host dest ∨ Fails host src) (op : AssignOp) :
    Fails host (.assign dest src op) := by
  intro record c
  apply Value.isError_firstError?_getD
  rcases h with h | h
  · exact ⟨_, List.mem_cons_self, h true c⟩
  · exact ⟨_, List.mem_cons_of_mem _ List.mem_cons_self, h true _⟩

/-- The arguments of a call hold an error if one of them fails. -/
theorem anyError_evalArgs {e : Expr} (h : Fails host e) {args : List (Argument Expr)}
    (hmem : .value e ∈ args ∨ .spread e ∈ args) (c : Context) :
    Value.anyError ((evalArgs host args).run c).1 := by
  induction args generalizing c with
  | nil => simp at hmem
  | cons arg rest ih =>
    -- the failing argument is the first one, or one of the rest, whatever context that starts in
    have hcases : (arg = .value e ∨ arg = .spread e) ∨ (.value e ∈ rest ∨ .spread e ∈ rest) := by
      simp only [List.mem_cons] at hmem
      rcases hmem with (h | h) | (h | h)
      · exact .inl (.inl h.symm)
      · exact .inr (.inl h)
      · exact .inl (.inr h.symm)
      · exact .inr (.inr h)
    rcases hcases with (rfl | rfl) | hrest
    · exact ⟨_, List.mem_cons_self, h true c⟩
    · obtain ⟨v, hv, herror⟩ := Value.anyError_elements (h true c)
      exact ⟨v, List.mem_append_left _ hv, herror⟩
    · cases arg with
      | value first =>
        obtain ⟨v, hv, herror⟩ := ih hrest ((first.evalWith host true).run c).2
        exact ⟨v, List.mem_cons_of_mem _ hv, herror⟩
      | spread first =>
        obtain ⟨v, hv, herror⟩ := ih hrest ((first.evalWith host true).run c).2
        exact ⟨v, List.mem_append_right _ hv, herror⟩

/-- A call fails if what it runs does, or if one of its arguments does and the macros hand errors
on. -/
theorem fails_call {callee : Callee Expr} {args : List (Argument Expr)}
    (h : (∀ c, ∃ e, ((evalCallee host callee).run c).1 = .error e) ∨
      host.PassesErrors ∧ ∀ c, Value.anyError ((evalArgs host args).run c).1) :
    Fails host (.call callee args) := by
  intro record c
  simp only [evalWith, keepIt, run_bind]
  rcases hcallee : (evalCallee host callee).run _ with ⟨e | target, c₁⟩
  · rfl
  · rcases h with h | ⟨hhost, h⟩
    · obtain ⟨e, he⟩ := h _
      rw [hcallee] at he
      cases he
    · exact hhost target _ _ (h c₁)

theorem fails_of_faulty (hhost : host.PassesErrors) {e : Expr} (h : e.Faulty) : Fails host e := by
  induction h with
  | empty => exact fun _ _ => rfl
  | error => exact fun _ _ => rfl
  | object inner property ih => exact fails_ref (.inl fun c => Origin.ofValue_eq_error (ih false c))
  | property inner object ih => exact fails_ref (.inr fun c => Key.ofValue_eq_error (ih true c))
  | get inner ih => exact fun _ c => Value.isError_read (ih false c) _
  | lhs inner op rhs ih => exact fails_binary (.inl ih) op
  | rhs inner lhs op ih => exact fails_binary (.inr ih) op
  | not inner ih => exact fun _ c => Value.isError_negate (ih true c)
  | group inner ih => exact fun _ c => ih true c
  | dest inner src op ih => exact fails_assign (.inl ih) op
  | src inner dest op ih => exact fails_assign (.inr ih) op
  | subject inner clause ih => exact fun _ c => Lambda.isError_create (ih true c) clause
  | callee inner args ih => exact fails_call (.inl fun c => Callee.ofValue_eq_error (ih true c))
  | argument inner callee mem ih =>
    exact fails_call (.inr ⟨hhost, anyError_evalArgs ih (.inl mem)⟩)
  | spread inner callee mem ih =>
    exact fails_call (.inr ⟨hhost, anyError_evalArgs ih (.inr mem)⟩)

end Expr

/-- Errors always surface: on a host whose macros hand errors on, an expression with malformed code
anywhere outside the bodies of lambda clauses evaluates to an error, in every context. -/
theorem isError_eval_of_faulty (host : Host) (hhost : host.PassesErrors) (e : Expr) (he : e.Faulty)
    (c : Context) : ((e.eval host).run c).1.isError = true :=
  Expr.fails_of_faulty hhost he true c

/-- The macros of the demonstration host hand errors on. -/
theorem Host.passesErrors_demo (elapsed : Number) : (demo elapsed).PassesErrors := by
  intro target args c h
  obtain ⟨v, hv, herror⟩ := Value.isError_firstError? h
  show ((Macro.unlessError args _).run c).1.isError = true
  rw [Macro.unlessError, hv]
  exact herror

/-- `(print: ...($list's () is 2), _x via ())`, with nothing between the inner parentheses. -/
def spreadComparison : Expr :=
  .call (.named "print")
    [.spread (.group (.binary
      (.get (.ref (.of (.ref .story (.name "list"))) (.computed (.group .empty)))) .is
      (.number 2))),
     .value (.lambda (.param "x") (.viaBody (.group .empty)))]

/-- Printing shows the source text of any value, but not in place of an error: neither the property,
nor the comparison, nor the spread hides that the name of the property is missing. -/
theorem isError_eval_spreadComparison :
    (Host.demo 0).PassesErrors ∧ spreadComparison.Faulty ∧
    ((spreadComparison.eval (.demo 0)).run {}).1.isError = true := by
  have hfaulty : spreadComparison.Faulty :=
    .spread (.group (.lhs (.get (.property (.group .empty) _)) _ _)) _ List.mem_cons_self
  exact ⟨Host.passesErrors_demo 0, hfaulty,
    isError_eval_of_faulty (.demo 0) (Host.passesErrors_demo 0) spreadComparison hfaulty {}⟩

end StoryScript
