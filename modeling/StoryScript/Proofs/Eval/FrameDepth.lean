/-
  How many temp frames there are.

  Writing and deleting through a reference changes frames but adds and removes none, so
  no macro of the library does, however deep lambdas run inside each other. On every
  host of which that is true, evaluation leaves as many frames as it finds, and calls
  and lambdas put `it` back.
-/
import Mathlib
import StoryScript.Host.Library
import StoryScript.Proofs.Eval.Effects

namespace StoryScript

/-! ## Counting frames -/

namespace Context

/-- There are as many temp frames. -/
def SameDepth (c c' : Context) : Prop :=
  c'.temps.frames.length = c.temps.frames.length

theorem sameDepth_iff {c c' : Context} :
    SameDepth c c' ↔ c'.temps.inner.length = c.temps.inner.length := by
  simp [SameDepth, Temps.frames]

theorem isRespected_sameDepth : IsRespected SameDepth where
  refl _ := rfl
  trans h h' := Eq.trans h' h
  note _ _ := rfl
  setIt _ _ := rfl
  unwind {frame c c'} h := by
    have hlength : c'.temps.inner.length = c.temps.inner.length + 1 := sameDepth_iff.1 h
    obtain ⟨top, rest, hinner⟩ := List.exists_cons_of_length_eq_add_one hlength
    rw [run_popFrame_of_inner hinner, sameDepth_iff]
    rw [hinner, List.length_cons] at hlength
    exact Nat.succ.inj hlength

end Context

/-! ## Macros that change variables -/

namespace Reference

theorem sameDepth_setVariable {base : Place Value} {name : Key} {v : Value} {c c' : Context}
    (h : setVariable base name v c = .ok c') : c.SameDepth c' := by
  cases base with
  | story =>
    simp only [setVariable] at h
    split at h
    · simp at h
    · simp only [Except.ok.injEq] at h
      subst h
      rfl
  | temp =>
    simp only [setVariable, Except.ok.injEq] at h
    subst h
    exact Context.sameDepth_iff.2 (Temps.length_inner_insert c.temps name v)
  | of object => simp [setVariable] at h

theorem sameDepth_deleteVariable {base : Place Value} {name : Key} {c c' : Context}
    (h : deleteVariable base name c = .ok c') : c.SameDepth c' := by
  cases base with
  | story =>
    simp only [deleteVariable] at h
    split at h
    · simp at h
    · simp only [Except.ok.injEq] at h
      subst h
      rfl
  | temp =>
    simp only [deleteVariable, Except.ok.injEq] at h
    subst h
    exact Context.sameDepth_iff.2 (Temps.length_inner_erase c.temps name)
  | of object => simp [deleteVariable] at h

theorem sameDepth_replaceVariable (base : Place Value) (name : Key) (c : Context) (v : Value) :
    c.SameDepth (replaceVariable base name c v) := by
  cases base with
  | story => rfl
  | temp => exact Context.sameDepth_iff.2 (Temps.length_inner_insert c.temps name v)
  | of object => rfl

/-- A change through a reference adds and removes no frame, if what it does to a whole variable
does not: deeper down it writes back the variable that it starts from. -/
theorem sameDepth_change (r : Reference Value) {whole : Context → Except ScriptError Context}
    {c : Context} (hwhole : ∀ c', whole c = .ok c' → c.SameDepth c')
    (property : Value → Except ScriptError Value) :
    c.SameDepth (r.change whole property c).2 := by
  cases hpath : r.path with
  | nil =>
    simp only [change, hpath, Change.write]
    split
    · exact hwhole _ ‹_›
    · rfl
  | cons first rest =>
    simp only [change, hpath, Change.inside]
    split
    · exact sameDepth_replaceVariable r.base first c _
    · rfl

theorem keeps_set (r : Reference Value) (v : Value) :
    Eval.Keeps Context.SameDepth (Eval.attempt (r.set · v)) := by
  intro c
  show c.SameDepth (r.set c v).2
  unfold set
  split
  · exact r.sameDepth_change (fun _ => sameDepth_setVariable) _
  · rfl

theorem keeps_delete (r : Reference Value) :
    Eval.Keeps Context.SameDepth (Eval.attempt r.delete) :=
  fun _ => r.sameDepth_change (fun _ => sameDepth_deleteVariable) _

end Reference

theorem Assignment.keeps_perform (a : Assignment Value) :
    Eval.Keeps Context.SameDepth a.perform := by
  intro c
  obtain ⟨it, hrun⟩ := a.run_perform c
  rw [hrun]
  exact a.dest.keeps_set (a.value c) { c with it }

/-! ## The library host -/

section

open Eval

variable {R : Context → Context → Prop} (hR : Context.IsRespected R)

include hR

theorem Macro.keeps_unlessError (args : List Value) {x : Eval Value} (hx : Keeps R x) :
    Keeps R (unlessError args x) := by
  unfold unlessError
  split
  · exact keeps_pure hR _
  · exact hx

theorem Macro.keeps_forAssignments (refuse : Value → Value)
    {act : Assignment Value → Eval (Except ScriptError Unit)} (hact : ∀ a, Keeps R (act a))
    (args : List Value) : Keeps R (forAssignments refuse act args) := by
  fun_induction forAssignments refuse act args with
  | case1 => exact keeps_pure hR _
  | case2 a rest ih =>
    refine keeps_bind hR (hact a) fun result => ?_
    split
    · exact ih
    · exact keeps_pure hR _
  | case3 => exact keeps_pure hR _

namespace LibraryMacro

variable {apply : Applier} (happly : ∀ l args, Keeps R (apply l args))

include happly

theorem keeps_alter (l : Lambda) (values : List Value) : Keeps R (alter apply l values) := by
  induction values with
  | nil => exact keeps_pure hR _
  | cons v rest ih =>
    refine keeps_bind hR (happly l _) fun w => ?_
    exact keeps_bind hR ih fun ws => keeps_pure hR _

theorem keeps_fold (l : Lambda) (total : Value) (values : List Value) :
    Keeps R (fold apply l total values) := by
  induction values generalizing total with
  | nil => exact keeps_pure hR _
  | cons v rest ih => exact keeps_bind hR (happly l _) fun w => ih w

end LibraryMacro

end

namespace LibraryMacro

open Eval

/-- If lambdas leave as many frames as they find, so does every macro of the library. -/
theorem keeps_run {apply : Applier} (happly : ∀ l args, Keeps Context.SameDepth (apply l args))
    (name : String) (args : List Value) (m : LibraryMacro) :
    Keeps Context.SameDepth (m.run apply name args) := by
  have hR := Context.isRespected_sameDepth
  have hpure : ∀ v : Value, Keeps Context.SameDepth (pure v) := keeps_pure hR
  cases m with
  | raw | array | dataset | datamap | print | source | style => exact hpure _
  | sealed =>
    simp only [run]
    split <;> exact hpure _
  | store => exact Macro.keeps_forAssignments hR _ Assignment.keeps_perform args
  | unset => exact Macro.keeps_forAssignments hR _ (fun a => a.dest.keeps_delete) args
  | altered =>
    simp only [run]
    split
    · exact keeps_bind hR (keeps_alter hR happly _ _) fun values => hpure _
    · exact hpure _
  | folded =>
    simp only [run]
    split
    · exact keeps_fold hR happly _ _ _
    · exact hpure _
    · exact hpure _

end LibraryMacro

namespace Host

open Eval

theorem keeps_runLibrary {apply : LibraryMacro.Applier}
    (happly : ∀ l args, Eval.Keeps Context.SameDepth (apply l args)) (target : Callee Value)
    (args : List Value) : Eval.Keeps Context.SameDepth (runLibrary apply target args) := by
  have hR := Context.isRespected_sameDepth
  unfold runLibrary
  split
  · split
    · exact keeps_pure hR _
    · exact Macro.keeps_unlessError hR args (LibraryMacro.keeps_run happly _ args _)
    · exact Macro.keeps_unlessError hR args (keeps_pure hR _)
  · exact Macro.keeps_unlessError hR args (happly _ _)
  · exact Macro.keeps_unlessError hR args (keeps_pure hR _)

/-- However deep lambdas run inside each other, the macros of the library leave as many frames as
they find. -/
theorem keeps_libraryAt (around : Surroundings) (depth : Nat) :
    (libraryAt around depth).Keeps Context.SameDepth := by
  induction depth with
  | zero => exact keeps_runLibrary fun _ _ => keeps_pure Context.isRespected_sameDepth _
  | succ depth ih =>
    exact keeps_runLibrary fun l args => l.keeps_apply Context.isRespected_sameDepth ih args

end Host

/-! ## What calls and lambdas restore -/

/-- Whatever the macros of a host do, as long as each leaves as many temp frames as it finds: so does
every expression and every lambda, and each call and each lambda leaves `it` as it found it, in
whatever context it runs. -/
theorem restored_eval_apply (host : Host) (hhost : host.Keeps Context.SameDepth) :
    (∀ (record : Bool) (e : Expr), Eval.Keeps Context.SameDepth (e.evalWith host record)) ∧
    (∀ (l : Lambda) (args : LambdaArgs), Eval.Keeps Context.SameDepth (l.apply host args)) ∧
    (∀ (record : Bool) (callee : Callee Expr) (args : List (Argument Expr)) (c : Context),
      (((Expr.call callee args).evalWith host record).run c).2.it = c.it) ∧
    ∀ (l : Lambda) (args : LambdaArgs) (c : Context), ((l.apply host args).run c).2.it = c.it := by
  have hkeepIt : ∀ (x : Eval Value) (c : Context), ((Eval.keepIt x).run c).2.it = c.it :=
    fun _ _ => rfl
  refine ⟨?_, ?_, ?_, ?_⟩
  · intro record e
    exact e.keeps_evalWith Context.isRespected_sameDepth hhost record
  · intro l args
    exact l.keeps_apply Context.isRespected_sameDepth hhost args
  · intro record callee args c
    exact hkeepIt _ c
  · intro l args c
    exact hkeepIt _ c

/-- `(altered: _x where _x is not 2 via (set: _y to _x), 1, 2)` -/
def alteringCall : Expr :=
  let x : Expr := .get (.ref .temp (.name "x"))
  .call (.named "altered")
    [.value (.lambda
      (.of (.lambda (.param "x") (.whereBody (.binary x .isNot (.number 2)))))
      (.viaBody (.call (.named "set") [.value (.assign (.ref .temp (.name "y")) x .setTo)]))),
     .value (.number 1), .value (.number 2)]

/-- The lambda compares, assigns to a temp variable of its own frame and refuses one of the values;
`it` and the number of frames are as before. -/
theorem restored_eval_apply_alteringCall :
    let after := (alteringCall.eval (.library {})).run { it := .string "before" }
    (Host.library {}).Keeps Context.SameDepth ∧
    after.1.same (.array [.string "", .boolean false]) = true ∧
    after.2.temps.frames.length = 1 ∧ after.2.it = .string "before" := by
  have hlibrary := Host.keeps_libraryAt {} Host.lambdaDepth
  obtain ⟨hdepth, -, hcall, -⟩ := restored_eval_apply (.library {}) hlibrary
  exact ⟨hlibrary, by decide +kernel, hdepth true alteringCall { it := .string "before" },
    hcall true _ _ { it := .string "before" }⟩

end StoryScript
