/-
  What evaluation does to a context.

  By itself evaluation changes a context in few ways: it reports, it makes a value `it`,
  and a lambda adds a frame and removes it again. Everything else is up to the macros
  of the host. So a relation between contexts that holds across each of these steps
  and across every macro holds across every evaluation (`keeps_evalWith`) and every
  application of a lambda (`keeps_apply`). One such relation is that the variables and
  options are the same: evaluation alone changes none of them.
-/
import StoryScript.Proofs.Reference.Atomic
import StoryScript.Script

namespace StoryScript

/-! ## Relations across a computation -/

/-- A relation between the contexts before and after a computation that the steps of evaluation
respect. If it holds while a frame is added, it holds around that frame. -/
structure Context.IsRespected (R : Context → Context → Prop) : Prop where
  refl (c : Context) : R c c
  trans {c₁ c₂ c₃ : Context} : R c₁ c₂ → R c₂ c₃ → R c₁ c₃
  note (n : Notice) (c : Context) : R c { c with log := n :: c.log }
  setIt (v : Value) (c : Context) : R c { c with it := v }
  unwind {frame : Frame} {c c' : Context} :
    R { c with temps := c.temps.push frame } c' → R c (Eval.popFrame.run c').2

/-- The relation holds between the contexts before and after a computation. -/
def Eval.Keeps {α : Type} (R : Context → Context → Prop) (x : Eval α) : Prop :=
  ∀ c, R c (x.run c).2

/-- The relation holds between the contexts before and after every macro of a host. -/
def Host.Keeps (R : Context → Context → Prop) (host : Host) : Prop :=
  ∀ target args, Eval.Keeps R (host.run target args)

namespace Eval

variable {R : Context → Context → Prop} {α β : Type} (hR : Context.IsRespected R)

include hR

theorem keeps_pure (a : α) : Keeps R (pure a) :=
  fun c => hR.refl c

theorem keeps_bind {x : Eval α} {f : α → Eval β} (hx : Keeps R x) (hf : ∀ a, Keeps R (f a)) :
    Keeps R (x >>= f) := by
  intro c
  rw [run_bind]
  exact hR.trans (hx c) (hf _ _)

theorem keeps_get : Keeps R get :=
  fun c => hR.refl c

theorem keeps_setIt (v : Value) : Keeps R (setIt v) :=
  fun c => hR.setIt v c

theorem keeps_keepIt {x : Eval Value} (hx : Keeps R x) : Keeps R (keepIt x) := by
  refine keeps_bind hR (keeps_get hR) fun c => keeps_bind hR hx fun v => ?_
  exact keeps_bind hR (keeps_setIt hR c.it) fun _ => keeps_pure hR v

theorem keeps_binary (op : BinaryOp) (lhs rhs : Value) : Keeps R (binary op lhs rhs) := by
  intro c
  rw [run_binary]
  split
  · exact hR.setIt lhs c
  · exact hR.refl c

theorem keeps_finishReference (record : Bool) (r : Reference Value) :
    Keeps R (finishReference record r) := by
  intro c
  cases record with
  | true => exact hR.setIt (r.get c) c
  | false => exact hR.refl c

theorem keeps_read (v : Value) : Keeps R (read v) := by
  intro c
  cases v <;> exact hR.refl c

theorem keeps_runMacro {host : Host} (hhost : host.Keeps R) (target : Callee Value)
    (args : List Value) : Keeps R (runMacro host target args) :=
  fun c => hR.trans (hR.note _ c) (hhost target args _)

end Eval

/-- A host without macros does nothing. -/
theorem Host.keeps_bare {R : Context → Context → Prop} (hR : Context.IsRespected R) :
    Host.bare.Keeps R :=
  fun _ _ => Eval.keeps_pure hR _

/-! ## Evaluation -/

namespace Expr

open Eval

variable {R : Context → Context → Prop} {host : Host}

mutual

/-- Evaluation respects what its own steps and the macros respect. -/
theorem keeps_evalWith (hR : Context.IsRespected R) (hhost : host.Keeps R) (record : Bool) :
    (e : Expr) → Keeps R (e.evalWith host record)
  | empty | number _ | string _ | boolean _ | it | time | hooks _ | error _ _ => fun c => hR.refl c
  | colour code => by
    unfold evalWith
    split <;> exact keeps_pure hR _
  | ref object property => by
    -- each of the three steps may fail, and then nothing follows
    refine keeps_bind hR (keeps_evalPlace hR hhost object) fun origin => ?_
    split
    · exact keeps_pure hR _
    · refine keeps_bind hR (keeps_evalProperty hR hhost property) fun key => ?_
      split
      · exact keeps_pure hR _
      · refine keeps_bind hR (keeps_get hR) fun c => ?_
        split
        · exact keeps_pure hR _
        · exact keeps_finishReference hR record _
  | get reference => keeps_bind hR (keeps_evalWith hR hhost false reference) (keeps_read hR)
  | binary lhs op rhs => by
    refine keeps_bind hR (keeps_evalWith hR hhost true lhs) fun v => ?_
    exact keeps_bind hR (keeps_evalWith hR hhost true rhs) fun w => keeps_binary hR op v w
  | not operand => keeps_bind hR (keeps_evalWith hR hhost true operand) fun _ => keeps_pure hR _
  | group inner => keeps_evalWith hR hhost true inner
  | assign dest src op => by
    refine keeps_bind hR (keeps_evalWith hR hhost true dest) fun v => ?_
    exact keeps_bind hR (keeps_evalWith hR hhost true src) fun w => keeps_pure hR _
  | lambda subject clause =>
    keeps_bind hR (keeps_evalSubject hR hhost subject) fun _ => keeps_pure hR _
  | call callee args => by
    refine keeps_keepIt hR (keeps_bind hR (keeps_evalCallee hR hhost callee) fun target => ?_)
    split
    · exact keeps_pure hR _
    · refine keeps_bind hR (keeps_evalArgs hR hhost args) fun values => ?_
      exact keeps_runMacro hR hhost _ values

theorem keeps_evalPlace (hR : Context.IsRespected R) (hhost : host.Keeps R) :
    (place : Place Expr) → Keeps R (evalPlace host place)
  | .story | .temp => fun c => hR.refl c
  | .of e => keeps_bind hR (keeps_evalWith hR hhost false e) fun _ => keeps_pure hR _

theorem keeps_evalProperty (hR : Context.IsRespected R) (hhost : host.Keeps R) :
    (property : Property Expr) → Keeps R (evalProperty host property)
  | .name _ => fun c => hR.refl c
  | .computed e => keeps_bind hR (keeps_evalWith hR hhost true e) fun _ => keeps_pure hR _

theorem keeps_evalSubject (hR : Context.IsRespected R) (hhost : host.Keeps R) :
    (subject : Subject Expr) → Keeps R (evalSubject host subject)
  | .implicit | .param _ => fun c => hR.refl c
  | .of e => keeps_bind hR (keeps_evalWith hR hhost true e) fun _ => keeps_pure hR _

theorem keeps_evalCallee (hR : Context.IsRespected R) (hhost : host.Keeps R) :
    (callee : Callee Expr) → Keeps R (evalCallee host callee)
  | .named _ => fun c => hR.refl c
  | .computed e => keeps_bind hR (keeps_evalWith hR hhost true e) fun _ => keeps_pure hR _

theorem keeps_evalArgs (hR : Context.IsRespected R) (hhost : host.Keeps R) :
    (args : List (Argument Expr)) → Keeps R (evalArgs host args)
  | [] => fun c => hR.refl c
  | .value e :: args | .spread e :: args => by
    refine keeps_bind hR (keeps_evalWith hR hhost true e) fun v => ?_
    exact keeps_bind hR (keeps_evalArgs hR hhost args) fun values => keeps_pure hR _

end

end Expr

namespace Lambda

open Eval

variable {R : Context → Context → Prop} {host : Host} (hR : Context.IsRespected R)
  (hhost : host.Keeps R) (l : Lambda) (args : LambdaArgs)

include hR hhost

theorem keeps_runVia : Keeps R (runVia host l args) := by
  unfold runVia
  split
  · exact Expr.keeps_evalWith hR hhost true _
  · exact keeps_pure hR _

theorem keeps_runClauses : Keeps R (runClauses host l args) := by
  unfold runClauses
  split
  · exact keeps_runVia hR hhost l args
  · refine keeps_bind hR (Expr.keeps_evalWith hR hhost true _) fun v => ?_
    -- the loop value passes, or it is refused in one of three ways
    split
    · exact keeps_runVia hR hhost l args
    · exact keeps_pure hR _
    · exact keeps_pure hR _
    · exact keeps_pure hR _

/-- Applying a lambda respects what evaluation respects: the frame that it adds is gone again,
however its clauses end. -/
theorem keeps_apply : Keeps R (l.apply host args) := by
  refine keeps_keepIt hR (keeps_bind hR ?_ fun _ => ?_)
  · cases args.loopValue with
    | none => exact keeps_pure hR _
    | some v => exact keeps_setIt hR v
  · intro c
    exact hR.unwind (keeps_runClauses hR hhost l args { c with temps := c.temps.push (l.frame args) })

end Lambda

/-! ## Variables and options -/

namespace Context

theorem run_popFrame_of_inner {c : Context} {frame : Frame} {rest : List Frame}
    (h : c.temps.inner = frame :: rest) :
    Eval.popFrame.run c = (some frame, { c with temps := ⟨rest, c.temps.outer⟩ }) := by
  obtain ⟨story, options, it, ⟨inner, outer⟩, log⟩ := c
  subst h
  rfl

/-- The story variables, the temp frames and the options are the same. -/
structure SameStore (c c' : Context) : Prop where
  story : c'.story = c.story
  temps : c'.temps = c.temps
  options : c'.options = c.options

theorem isRespected_sameStore : IsRespected SameStore where
  refl _ := ⟨rfl, rfl, rfl⟩
  trans h h' := ⟨h'.story.trans h.story, h'.temps.trans h.temps, h'.options.trans h.options⟩
  note _ _ := ⟨rfl, rfl, rfl⟩
  setIt _ _ := ⟨rfl, rfl, rfl⟩
  unwind {frame c c'} h := by
    have hinner : c'.temps.inner = frame :: c.temps.inner := congrArg Temps.inner h.temps
    have houter : c'.temps.outer = (c.temps.push frame).outer := congrArg Temps.outer h.temps
    rw [run_popFrame_of_inner hinner]
    exact ⟨h.story, congrArg (Temps.mk c.temps.inner) houter, h.options⟩

end Context

/-- Evaluation is pure but for the macros: on a host whose macros leave the variables and options
alone, so does every expression and every application of a lambda. A host without macros is one, so
evaluating a source text on it gives back the story variables as they were. -/
theorem sameStore_eval_apply :
    (∀ host : Host, host.Keeps Context.SameStore →
      (∀ (record : Bool) (e : Expr), Eval.Keeps Context.SameStore (e.evalWith host record)) ∧
      ∀ (l : Lambda) (args : LambdaArgs), Eval.Keeps Context.SameStore (l.apply host args)) ∧
    Host.bare.Keeps Context.SameStore ∧
    ∀ (source : String) (story : DataMap Value),
      (evaluate .bare source story).value.2 = story := by
  have hR := Context.isRespected_sameStore
  refine ⟨?_, Host.keeps_bare hR, ?_⟩
  · intro host hhost
    refine ⟨?_, ?_⟩
    · intro record e
      exact e.keeps_evalWith hR hhost record
    · intro l args
      exact l.keeps_apply hR hhost args
  · intro source story
    exact ((compileExpression source).keeps_evalWith hR (Host.keeps_bare hR) true { story }).story

/-- The host on which a lambda that is called is applied to the first argument. -/
def Host.applying : Host where
  run target args :=
    match target with
    | .computed (.lambda l) => l.apply .bare { loopValue := args.head? }
    | _ => return missing target

/-- `((_x where _x > 2 via _x * 2): 3)` -/
def doublingCall : Expr :=
  let x : Expr := .get (.ref .temp (.name "x"))
  .call (.computed (.group (.lambda
    (.of (.lambda (.param "x") (.whereBody (.binary x .greater (.number 2)))))
    (.viaBody (.binary x .multiply (.number 2))))))
    [.value (.number 3)]

/-- Lambdas run in a frame of their own on this host, and nothing of it is left behind. -/
theorem sameStore_eval_apply_doublingCall :
    Host.applying.Keeps Context.SameStore ∧
    ((doublingCall.eval .applying).run {}).1.same (.number 6) = true ∧
    Eval.Keeps Context.SameStore (doublingCall.eval .applying) := by
  obtain ⟨hsame, hbare, -⟩ := sameStore_eval_apply
  have happlying : Host.applying.Keeps Context.SameStore := by
    intro target args
    unfold Host.applying
    dsimp only
    split
    · exact (hsame .bare hbare).2 _ _
    · exact Eval.keeps_pure Context.isRespected_sameStore _
  exact ⟨happlying, by decide +kernel, (hsame .applying happlying).1 true doublingCall⟩

end StoryScript
