/-
  Equality of expressions.

  Two expressions are the same exactly if no number in the first is NaN and the two are
  one expression once the signs of zeros are dropped. So equality is symmetric and
  transitive, and an expression without NaN is the same as itself.
-/
import Mathlib
import StoryScript.Proofs.Decimal.Equality
import StoryScript.Value.Equality

namespace StoryScript.Expr

mutual

/-- Whether no number in an expression is NaN. -/
def isNumeric : Expr → Bool
  | number n => !n.float.isNaN
  | ref object property => isNumericPlace object && isNumericProperty property
  | get e | not e | group e => isNumeric e
  | binary lhs _ rhs => isNumeric lhs && isNumeric rhs
  | assign dest src _ => isNumeric dest && isNumeric src
  | lambda subject clause => isNumericSubject subject && isNumericClause clause
  | call callee args => isNumericCallee callee && isNumericArgs args
  | empty | string _ | boolean _ | colour _ | it | time | hooks _ | error .. => true

/-- The same for the start of a reference. -/
def isNumericPlace : Place Expr → Bool
  | .story | .temp => true
  | .of e => isNumeric e

/-- The same for a property name. -/
def isNumericProperty : Property Expr → Bool
  | .name _ => true
  | .computed e => isNumeric e

/-- The same for the subject of a lambda clause. -/
def isNumericSubject : Subject Expr → Bool
  | .implicit | .param _ => true
  | .of e => isNumeric e

/-- The same for a lambda clause. -/
def isNumericClause : Clause Expr → Bool
  | .whereBody e | .viaBody e => isNumeric e
  | .withName _ | .makingName _ => true

/-- The same for what a call runs. -/
def isNumericCallee : Callee Expr → Bool
  | .named _ => true
  | .computed e => isNumeric e

/-- The same for arguments. -/
def isNumericArgs : List (Argument Expr) → Bool
  | [] => true
  | .value e :: args | .spread e :: args => isNumeric e && isNumericArgs args

end

mutual

/-- The expression with the signs of its zeros dropped. -/
def plain : Expr → Expr
  | number n => number n.plain
  | ref object property => ref (plainPlace object) (plainProperty property)
  | get e => get (plain e)
  | not e => not (plain e)
  | group e => group (plain e)
  | binary lhs op rhs => binary (plain lhs) op (plain rhs)
  | assign dest src op => assign (plain dest) (plain src) op
  | lambda subject clause => lambda (plainSubject subject) (plainClause clause)
  | call callee args => call (plainCallee callee) (plainArgs args)
  | e => e

/-- The same for the start of a reference. -/
def plainPlace : Place Expr → Place Expr
  | .of e => .of (plain e)
  | place => place

/-- The same for a property name. -/
def plainProperty : Property Expr → Property Expr
  | .computed e => .computed (plain e)
  | property => property

/-- The same for the subject of a lambda clause. -/
def plainSubject : Subject Expr → Subject Expr
  | .of e => .of (plain e)
  | subject => subject

/-- The same for a lambda clause. -/
def plainClause : Clause Expr → Clause Expr
  | .whereBody e => .whereBody (plain e)
  | .viaBody e => .viaBody (plain e)
  | clause => clause

/-- The same for what a call runs. -/
def plainCallee : Callee Expr → Callee Expr
  | .computed e => .computed (plain e)
  | callee => callee

/-- The same for arguments. -/
def plainArgs : List (Argument Expr) → List (Argument Expr)
  | [] => []
  | .value e :: args => .value (plain e) :: plainArgs args
  | .spread e :: args => .spread (plain e) :: plainArgs args

end

/-! ## One induction

In each case the second expression is built like the first, or neither side holds. -/

mutual

/-- Expressions are the same if they are one expression, but for the signs of zeros. -/
theorem same_iff : (a b : Expr) → (a.same b = true ↔ a.isNumeric = true ∧ a.plain = b.plain)
  | number x, b => by
    cases b with
    | number y =>
      simp only [same, isNumeric, plain, Number.beq_iff_plain, Bool.not_eq_true', number.injEq]
    | _ => exact iff_of_false Bool.false_ne_true fun h => nomatch h.2
  | ref object property, b => by
    cases b with
    | ref object' property' =>
      simp only [same, isNumeric, plain, Bool.and_eq_true, ref.injEq, samePlace_iff object,
        sameProperty_iff property]
      exact and_and_and_comm
    | _ => exact iff_of_false Bool.false_ne_true fun h => nomatch h.2
  | get a, b => by
    cases b with
    | get b => simp only [same, isNumeric, plain, get.injEq, same_iff a]
    | _ => exact iff_of_false Bool.false_ne_true fun h => nomatch h.2
  | not a, b => by
    cases b with
    | not b => simp only [same, isNumeric, plain, not.injEq, same_iff a]
    | _ => exact iff_of_false Bool.false_ne_true fun h => nomatch h.2
  | group a, b => by
    cases b with
    | group b => simp only [same, isNumeric, plain, group.injEq, same_iff a]
    | _ => exact iff_of_false Bool.false_ne_true fun h => nomatch h.2
  | binary lhs op rhs, b => by
    cases b with
    | binary lhs' op' rhs' =>
      simp only [same, isNumeric, plain, Bool.and_eq_true, beq_iff_eq, binary.injEq, same_iff lhs,
        same_iff rhs]
      tauto
    | _ => exact iff_of_false Bool.false_ne_true fun h => nomatch h.2
  | assign dest src op, b => by
    cases b with
    | assign dest' src' op' =>
      simp only [same, isNumeric, plain, Bool.and_eq_true, beq_iff_eq, assign.injEq, same_iff dest,
        same_iff src]
      tauto
    | _ => exact iff_of_false Bool.false_ne_true fun h => nomatch h.2
  | lambda subject clause, b => by
    cases b with
    | lambda subject' clause' =>
      simp only [same, isNumeric, plain, Bool.and_eq_true, lambda.injEq, sameSubject_iff subject,
        sameClause_iff clause]
      exact and_and_and_comm
    | _ => exact iff_of_false Bool.false_ne_true fun h => nomatch h.2
  | call callee args, b => by
    cases b with
    | call callee' args' =>
      simp only [same, isNumeric, plain, Bool.and_eq_true, call.injEq, sameCallee_iff callee,
        sameArgs_iff args]
      exact and_and_and_comm
    | _ => exact iff_of_false Bool.false_ne_true fun h => nomatch h.2
  | empty, b | it, b | time, b => by
    cases b <;> first
      | exact iff_of_false Bool.false_ne_true fun h => nomatch h.2
      | exact iff_of_true rfl ⟨rfl, rfl⟩
  | string _, b | boolean _, b | colour _, b | hooks _, b | error _ _, b => by
    cases b <;> first
      | exact iff_of_false Bool.false_ne_true fun h => nomatch h.2
      | simp [same, isNumeric, plain]

theorem samePlace_iff : (a b : Place Expr) →
    (samePlace a b = true ↔ isNumericPlace a = true ∧ plainPlace a = plainPlace b)
  | .story, b | .temp, b => by cases b <;> simp [samePlace, isNumericPlace, plainPlace]
  | .of a, b => by cases b <;> simp [samePlace, isNumericPlace, plainPlace, same_iff a]

theorem sameProperty_iff : (a b : Property Expr) →
    (sameProperty a b = true ↔ isNumericProperty a = true ∧ plainProperty a = plainProperty b)
  | .name _, b => by cases b <;> simp [sameProperty, isNumericProperty, plainProperty]
  | .computed a, b => by
    cases b <;> simp [sameProperty, isNumericProperty, plainProperty, same_iff a]

theorem sameSubject_iff : (a b : Subject Expr) →
    (sameSubject a b = true ↔ isNumericSubject a = true ∧ plainSubject a = plainSubject b)
  | .implicit, b | .param _, b => by
    cases b <;> simp [sameSubject, isNumericSubject, plainSubject]
  | .of a, b => by cases b <;> simp [sameSubject, isNumericSubject, plainSubject, same_iff a]

theorem sameClause_iff : (a b : Clause Expr) →
    (sameClause a b = true ↔ isNumericClause a = true ∧ plainClause a = plainClause b)
  | .whereBody a, b | .viaBody a, b => by
    cases b <;> simp [sameClause, isNumericClause, plainClause, same_iff a]
  | .withName _, b | .makingName _, b => by
    cases b <;> simp [sameClause, isNumericClause, plainClause]

theorem sameCallee_iff : (a b : Callee Expr) →
    (sameCallee a b = true ↔ isNumericCallee a = true ∧ plainCallee a = plainCallee b)
  | .named _, b => by cases b <;> simp [sameCallee, isNumericCallee, plainCallee]
  | .computed a, b => by cases b <;> simp [sameCallee, isNumericCallee, plainCallee, same_iff a]

theorem sameArgs_iff : (a b : List (Argument Expr)) →
    (sameArgs a b = true ↔ isNumericArgs a = true ∧ plainArgs a = plainArgs b)
  | [], b => by
    rcases b with _ | ⟨⟨_⟩ | ⟨_⟩, _⟩ <;> simp [sameArgs, isNumericArgs, plainArgs]
  | .value a :: args, b | .spread a :: args, b => by
    rcases b with _ | ⟨⟨_⟩ | ⟨_⟩, _⟩ <;>
      simp [sameArgs, isNumericArgs, plainArgs, same_iff a, sameArgs_iff args]
    tauto

end

/-! ## Symmetry and transitivity -/

mutual

/-- NaN has no sign to drop, so dropping signs neither adds nor removes one. -/
theorem isNumeric_plain : (e : Expr) → e.plain.isNumeric = e.isNumeric
  | number n => by rw [plain, isNumeric, isNumeric, Number.float_plain, Decimal.isNaN_plain]
  | ref object property => by
    simp [plain, isNumeric, isNumericPlace_plain object, isNumericProperty_plain property]
  | get e | not e | group e => by simp [plain, isNumeric, isNumeric_plain e]
  | binary lhs _ rhs => by simp [plain, isNumeric, isNumeric_plain lhs, isNumeric_plain rhs]
  | assign dest src _ => by simp [plain, isNumeric, isNumeric_plain dest, isNumeric_plain src]
  | lambda subject clause => by
    simp [plain, isNumeric, isNumericSubject_plain subject, isNumericClause_plain clause]
  | call callee args => by
    simp [plain, isNumeric, isNumericCallee_plain callee, isNumericArgs_plain args]
  | empty | string _ | boolean _ | colour _ | it | time | hooks _ | error .. => by simp [plain]

theorem isNumericPlace_plain : (p : Place Expr) → isNumericPlace (plainPlace p) = isNumericPlace p
  | .story | .temp => by simp [plainPlace]
  | .of e => by simp [plainPlace, isNumericPlace, isNumeric_plain e]

theorem isNumericProperty_plain :
    (p : Property Expr) → isNumericProperty (plainProperty p) = isNumericProperty p
  | .name _ => by simp [plainProperty]
  | .computed e => by simp [plainProperty, isNumericProperty, isNumeric_plain e]

theorem isNumericSubject_plain :
    (s : Subject Expr) → isNumericSubject (plainSubject s) = isNumericSubject s
  | .implicit | .param _ => by simp [plainSubject]
  | .of e => by simp [plainSubject, isNumericSubject, isNumeric_plain e]

theorem isNumericClause_plain :
    (c : Clause Expr) → isNumericClause (plainClause c) = isNumericClause c
  | .whereBody e | .viaBody e => by simp [plainClause, isNumericClause, isNumeric_plain e]
  | .withName _ | .makingName _ => by simp [plainClause]

theorem isNumericCallee_plain :
    (c : Callee Expr) → isNumericCallee (plainCallee c) = isNumericCallee c
  | .named _ => by simp [plainCallee]
  | .computed e => by simp [plainCallee, isNumericCallee, isNumeric_plain e]

theorem isNumericArgs_plain :
    (args : List (Argument Expr)) → isNumericArgs (plainArgs args) = isNumericArgs args
  | [] => by simp [plainArgs]
  | .value e :: args | .spread e :: args => by
    simp [plainArgs, isNumericArgs, isNumeric_plain e, isNumericArgs_plain args]

end

variable {a b c : Expr}

theorem same_self (h : a.isNumeric = true) : a.same a = true :=
  (same_iff a a).2 ⟨h, rfl⟩

theorem same_symm (h : a.same b = true) : b.same a = true := by
  obtain ⟨hnumeric, hplain⟩ := (same_iff a b).1 h
  refine (same_iff b a).2 ⟨?_, hplain.symm⟩
  rw [← isNumeric_plain, ← hplain, isNumeric_plain, hnumeric]

theorem same_trans (hab : a.same b = true) (hbc : b.same c = true) : a.same c = true := by
  obtain ⟨hnumeric, hplain⟩ := (same_iff a b).1 hab
  obtain ⟨-, hplain'⟩ := (same_iff b c).1 hbc
  exact (same_iff a c).2 ⟨hnumeric, hplain.trans hplain'⟩

end StoryScript.Expr
