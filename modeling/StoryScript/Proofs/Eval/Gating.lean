/-
  What a `where` clause leaves behind.

  The clauses of a lambda run one after the other in one context. Without calls, a `where` clause
  leaves everything in that context as it was, but for `it`: a comparison in it makes its left
  operand `it`, and a `via` clause then starts with that one. So a `where` clause that is satisfied
  does no more than let the loop value pass exactly if it leaves `it` alone.
-/
import Mathlib
import StoryScript.Eval
import StoryScript.Proofs.Expr.Parts

namespace StoryScript

/-! ## Computations that touch nothing but `it` -/

namespace Eval

variable {α β : Type}

/-- The context after the computation is the one before, but for `it`. -/
def TouchesIt (x : Eval α) : Prop :=
  ∀ c, ∃ v, (x.run c).2 = { c with it := v }

theorem touchesIt_of_unchanged {x : Eval α} (h : ∀ c, (x.run c).2 = c) : TouchesIt x :=
  fun c => ⟨c.it, h c⟩

theorem touchesIt_pure (a : α) : TouchesIt (pure a) :=
  touchesIt_of_unchanged fun _ => rfl

theorem TouchesIt.bind {x : Eval α} {f : α → Eval β} (hx : TouchesIt x)
    (hf : ∀ a, TouchesIt (f a)) : TouchesIt (x >>= f) := by
  intro c
  obtain ⟨v, hv⟩ := hx c
  obtain ⟨w, hw⟩ := hf (x.run c).1 (x.run c).2
  refine ⟨w, ?_⟩
  rw [run_bind, hw, hv]

theorem touchesIt_binary (op : BinaryOp) (lhs rhs : Value) : TouchesIt (binary op lhs rhs) := by
  intro c
  rw [run_binary]
  cases op.setsIt lhs rhs with
  | true => exact ⟨lhs, rfl⟩
  | false => exact ⟨c.it, rfl⟩

theorem touchesIt_finishReference (record : Bool) (r : Reference Value) :
    TouchesIt (finishReference record r) := by
  intro c
  cases record with
  | true => exact ⟨r.get c, rfl⟩
  | false => exact ⟨c.it, rfl⟩

theorem touchesIt_read (v : Value) : TouchesIt (read v) := by
  refine touchesIt_of_unchanged fun c => ?_
  cases v <;> rfl

end Eval

/-! ## Expressions without calls -/

namespace Expr

open Eval

variable {host : Host}

mutual

/-- Without calls, evaluation touches nothing but `it`. -/
theorem touchesIt_evalWith (record : Bool) :
    (e : Expr) → e.CallFree → TouchesIt (e.evalWith host record)
  | empty, _ | number _, _ | string _, _ | boolean _, _ | it, _ | time, _ | hooks _, _
  | error _ _, _ => touchesIt_of_unchanged fun _ => rfl
  | colour code, _ => by
    unfold evalWith
    split <;> exact touchesIt_pure _
  | ref object property, h => by
    rw [CallFree, parts, List.forall_mem_cons, List.forall_mem_append] at h
    -- each of the three steps may fail, and then nothing follows
    refine (touchesIt_evalPlace object h.2.1).bind fun origin => ?_
    split
    · exact touchesIt_pure _
    · refine (touchesIt_evalProperty property h.2.2).bind fun key => ?_
      split
      · exact touchesIt_pure _
      · refine (touchesIt_of_unchanged fun _ => rfl).bind fun c => ?_
        split
        · exact touchesIt_pure _
        · exact touchesIt_finishReference record _
  | get reference, h => by
    rw [CallFree, parts, List.forall_mem_cons] at h
    exact (touchesIt_evalWith false reference h.2).bind touchesIt_read
  | binary lhs op rhs, h => by
    rw [CallFree, parts, List.forall_mem_cons, List.forall_mem_append] at h
    refine (touchesIt_evalWith true lhs h.2.1).bind fun v => ?_
    exact (touchesIt_evalWith true rhs h.2.2).bind fun w => touchesIt_binary op v w
  | not operand, h => by
    rw [CallFree, parts, List.forall_mem_cons] at h
    exact (touchesIt_evalWith true operand h.2).bind fun _ => touchesIt_pure _
  | group inner, h => by
    rw [CallFree, parts, List.forall_mem_cons] at h
    exact touchesIt_evalWith true inner h.2
  | assign dest src op, h => by
    rw [CallFree, parts, List.forall_mem_cons, List.forall_mem_append] at h
    refine (touchesIt_evalWith true dest h.2.1).bind fun v => ?_
    exact (touchesIt_evalWith true src h.2.2).bind fun w => touchesIt_pure _
  | lambda subject clause, h => by
    -- the body of the clause is kept for later
    rw [CallFree, parts, List.forall_mem_cons, List.forall_mem_append] at h
    exact (touchesIt_evalSubject subject h.2.1).bind fun _ => touchesIt_pure _
  | call callee args, h => by
    -- a call is a part of itself
    rw [CallFree, parts, List.forall_mem_cons] at h
    cases h.1

theorem touchesIt_evalPlace :
    (place : Place Expr) → (∀ p ∈ placeParts place, p.isCall = false) →
      TouchesIt (evalPlace host place)
  | .story, _ | .temp, _ => touchesIt_of_unchanged fun _ => rfl
  | .of e, h => (touchesIt_evalWith false e h).bind fun _ => touchesIt_pure _

theorem touchesIt_evalProperty :
    (property : Property Expr) → (∀ p ∈ propertyParts property, p.isCall = false) →
      TouchesIt (evalProperty host property)
  | .name _, _ => touchesIt_of_unchanged fun _ => rfl
  | .computed e, h => (touchesIt_evalWith true e h).bind fun _ => touchesIt_pure _

theorem touchesIt_evalSubject :
    (subject : Subject Expr) → (∀ p ∈ subjectParts subject, p.isCall = false) →
      TouchesIt (evalSubject host subject)
  | .implicit, _ | .param _, _ => touchesIt_of_unchanged fun _ => rfl
  | .of e, h => (touchesIt_evalWith true e h).bind fun _ => touchesIt_pure _

end

end Expr

/-! ## Lambdas -/

namespace Lambda

/-- The context in which the first clause of a lambda runs: its variables are bound, and `it` is the
loop value, if there is one. -/
def entry (l : Lambda) (args : LambdaArgs) (c : Context) : Context :=
  { c with
    it := args.loopValue.getD c.it
    temps := c.temps.push (l.frame args) }

/-- Applying a lambda gives what its clauses give in the entry context. -/
theorem value_apply (host : Host) (l : Lambda) (args : LambdaArgs) (c : Context) :
    ((l.apply host args).run c).1 = ((l.runClauses host args).run (l.entry args c)).1 := by
  unfold entry apply
  cases args.loopValue <;> rfl

variable {host : Host} {l : Lambda} {args : LambdaArgs} {c : Context} {w : Expr}

/-- After a satisfied `where` clause the `via` clause runs in the context that the test leaves. -/
theorem value_apply_where (hw : l.whereBody = some w)
    (htrue : ((w.eval host).run (l.entry args c)).1 = .boolean true) :
    ((l.apply host args).run c).1 =
      ((l.runVia host args).run ((w.eval host).run (l.entry args c)).2).1 := by
  rw [value_apply, runClauses, hw]
  dsimp only
  rw [Eval.run_bind, htrue]

/-- Without a `where` clause the `via` clause runs first. -/
theorem value_apply_without_where (l : Lambda) (host : Host) (args : LambdaArgs) (c : Context) :
    ((({ l with whereBody := none } : Lambda).apply host args).run c).1 =
      ((l.runVia host args).run (l.entry args c)).1 := by
  rw [value_apply]
  rfl

end Lambda

/-! ## The law -/

/-- A satisfied `where` clause without calls leaves to the `via` clause the context in which it
started, but for `it`. So the lambda gives what it gives without the `where` clause, whatever the
`via` clause is, exactly if the `where` clause leaves `it` as it was. -/
theorem apply_where_eq (host : Host) (l : Lambda) (args : LambdaArgs) (c : Context) (w : Expr)
    (hw : l.whereBody = some w) (hfree : w.CallFree)
    (htrue : ((w.eval host).run (l.entry args c)).1 = .boolean true) :
    (∀ b, ((({ l with viaBody := some b } : Lambda).apply host args).run c).1 =
      ((b.eval host).run
        { l.entry args c with it := ((w.eval host).run (l.entry args c)).2.it }).1) ∧
    ((∀ b, ((({ l with viaBody := some b } : Lambda).apply host args).run c).1 =
        ((({ l with viaBody := some b, whereBody := none } : Lambda).apply host args).run c).1) ↔
      ((w.eval host).run (l.entry args c)).2.it = (l.entry args c).it) := by
  have hleft : ((w.eval host).run (l.entry args c)).2 =
      { l.entry args c with it := ((w.eval host).run (l.entry args c)).2.it } := by
    obtain ⟨v, hv⟩ := w.touchesIt_evalWith true hfree (l.entry args c)
    rw [Expr.eval, hv]
  -- the names that a lambda binds do not depend on its bodies
  have hwith : ∀ b, ((({ l with viaBody := some b } : Lambda).apply host args).run c).1 =
      ((b.eval host).run
        { l.entry args c with it := ((w.eval host).run (l.entry args c)).2.it }).1 := by
    intro b
    rw [← hleft]
    exact @Lambda.value_apply_where host { l with viaBody := some b } args c w hw htrue
  have hwithout : ∀ b,
      ((({ l with viaBody := some b, whereBody := none } : Lambda).apply host args).run c).1 =
        ((b.eval host).run (l.entry args c)).1 :=
    fun b => Lambda.value_apply_without_where { l with viaBody := some b } host args c
  refine ⟨hwith, ?_⟩
  constructor
  · -- a `via` clause that is `it` tells the two apart
    intro h
    have hit := h .it
    rw [hwith, hwithout] at hit
    exact hit
  · intro hit b
    rw [hwith, hwithout, hit]

namespace Lambda

/-- `where 1 < 2 via it` -/
def constantTest : Lambda where
  whereBody := some (.binary (.number 1) .less (.number 2))
  viaBody := some .it

/-- `where it is "y" via it` -/
def itTest : Lambda where
  whereBody := some (.binary .it .is (.string "y"))
  viaBody := some .it

end Lambda

/-- Applied to 5, `where 1 < 2 via it` gives 1, which the comparison has left in `it`; without the
`where` clause it gives 5. -/
theorem apply_where_ne_constantTest :
    (Expr.binary (.number 1) .less (.number 2)).CallFree ∧
    ((Lambda.constantTest.apply .bare { loopValue := some (.number 5) }).run {}).1.same
      (.number 1) = true ∧
    ((({ Lambda.constantTest with whereBody := none } : Lambda).apply .bare
      { loopValue := some (.number 5) }).run {}).1.same (.number 5) = true ∧
    ((Lambda.constantTest.apply .bare { loopValue := some (.number 5) }).run {}).1 ≠
      ((({ Lambda.constantTest with whereBody := none } : Lambda).apply .bare
        { loopValue := some (.number 5) }).run {}).1 := by
  have hone : ((Lambda.constantTest.apply .bare { loopValue := some (.number 5) }).run {}).1.same
      (.number 1) = true := by decide +kernel
  refine ⟨by decide, hone, by decide +kernel, ?_⟩
  intro h
  rw [h] at hone
  revert hone
  decide +kernel

/-- `where it is "y"` leaves `it` alone, so it does no more than let the loop value pass. -/
theorem apply_where_eq_itTest :
    (Lambda.itTest.whereBody = some (.binary .it .is (.string "y")) ∧
      (Expr.binary .it .is (.string "y")).CallFree ∧
      (((Expr.binary .it .is (.string "y")).eval .bare).run
        (Lambda.itTest.entry { loopValue := some (.string "y") } {})).1 = .boolean true) ∧
    ∀ b, ((({ Lambda.itTest with viaBody := some b } : Lambda).apply .bare
        { loopValue := some (.string "y") }).run {}).1 =
      ((({ Lambda.itTest with viaBody := some b, whereBody := none } : Lambda).apply .bare
        { loopValue := some (.string "y") }).run {}).1 := by
  have hfree : (Expr.binary .it .is (.string "y")).CallFree := by decide
  have htrue : (((Expr.binary .it .is (.string "y")).eval .bare).run
      (Lambda.itTest.entry { loopValue := some (.string "y") } {})).1 = .boolean true := rfl
  refine ⟨⟨rfl, hfree, htrue⟩, ?_⟩
  exact (apply_where_eq .bare Lambda.itTest _ {} _ rfl hfree htrue).2.2 rfl

end StoryScript
