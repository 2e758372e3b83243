/-
  What reading does to `it`.

  Without comparisons and assignments, evaluation makes nothing `it` but the values of the
  references that it records; whatever happens in a call, `it` is restored. So code that only reads
  leaves `it` alone, unless it reads a property of a reference in parentheses. That does change
  `it`, to what the reference leads to.
-/
import Mathlib
import StoryScript.Proofs.Eval.Effects
import StoryScript.Proofs.Expr.Recording

namespace StoryScript

/-! ## Computations that record -/

/-- The second context comes about from the first by steps of evaluation and by macros of the host:
the two are related in every way that these respect. -/
def Host.Reaches (host : Host) (c c' : Context) : Prop :=
  ∀ R, Context.IsRespected R → host.Keeps R → R c c'

namespace Host

variable (host : Host)

theorem isRespected_reaches : Context.IsRespected host.Reaches where
  refl c _ hR _ := hR.refl c
  trans h h' R hR hhost := hR.trans (h R hR hhost) (h' R hR hhost)
  note n c _ hR _ := hR.note n c
  setIt v c _ hR _ := hR.setIt v c
  unwind h R hR hhost := hR.unwind (h R hR hhost)

theorem keeps_reaches : host.Keeps host.Reaches :=
  fun target args c _ _ hhost => hhost target args c

end Host

namespace Eval

/-- After the computation `it` is what it was, or it is what one of the given references led to when
that was evaluated, in a context that the computation came by. -/
def RecordsOnly {α : Type} (host : Host) (refs : List Expr) (x : Eval α) : Prop :=
  ∀ c, (x.run c).2.it = c.it ∨
    ∃ g ∈ refs, ∃ c₀ r c₁, host.Reaches c c₀ ∧ (g.evalWith host true).run c₀ = (.ref r, c₁) ∧
      (x.run c).2.it = r.get c₁

section

variable {α β : Type} {host : Host} {refs refs' : List Expr}

theorem recordsOnly_of_unchanged {x : Eval α} (h : ∀ c, (x.run c).2.it = c.it) :
    RecordsOnly host refs x :=
  fun c => .inl (h c)

theorem recordsOnly_pure (a : α) : RecordsOnly host refs (pure a) :=
  recordsOnly_of_unchanged fun _ => rfl

theorem RecordsOnly.mono {x : Eval α} (hx : RecordsOnly host refs x) (h : refs ⊆ refs') :
    RecordsOnly host refs' x := by
  intro c
  rcases hx c with hit | ⟨g, hg, hrun⟩
  · exact .inl hit
  · exact .inr ⟨g, h hg, hrun⟩

theorem RecordsOnly.bind {x : Eval α} {f : α → Eval β} (hx : RecordsOnly host refs x)
    (hreaches : Keeps host.Reaches x) (hf : ∀ a, RecordsOnly host refs (f a)) :
    RecordsOnly host refs (x >>= f) := by
  intro c
  rw [run_bind]
  -- what the second computation leaves alone is what the first one has left
  rcases hf (x.run c).1 (x.run c).2 with hit | ⟨g, hg, c₀, r, c₁, hc₀, hrun, hit⟩
  · rw [hit]
    exact hx c
  · exact .inr ⟨g, hg, c₀, r, c₁, host.isRespected_reaches.trans (hreaches c) hc₀, hrun, hit⟩

/-- A value made from what a computation gives. -/
theorem RecordsOnly.map {x : Eval α} (hx : RecordsOnly host refs x) (f : α → β) :
    RecordsOnly host refs (do return f (← x)) :=
  fun c => hx c

/-- Whatever happens in a call, `it` is restored. -/
theorem recordsOnly_keepIt (x : Eval Value) : RecordsOnly host refs (keepIt x) :=
  recordsOnly_of_unchanged fun _ => rfl

theorem context_read (v : Value) (c : Context) : ((read v).run c).2 = c := by
  cases v <;> rfl

theorem recordsOnly_read (v : Value) : RecordsOnly host refs (read v) :=
  recordsOnly_of_unchanged fun c => congrArg Context.it (context_read v c)

theorem recordsOnly_finishReference (r : Reference Value) :
    RecordsOnly host refs (finishReference false r) :=
  recordsOnly_of_unchanged fun _ => rfl

theorem recordsOnly_binary {op : BinaryOp} (hop : op.isComparison = false) (lhs rhs : Value) :
    RecordsOnly host refs (binary op lhs rhs) := by
  refine recordsOnly_of_unchanged fun c => ?_
  rw [run_binary, BinaryOp.setsIt, hop]
  rfl

end

end Eval

/-! ## What evaluation records -/

namespace Expr

open Eval

variable {host : Host}

/-- What a recorded reference leads to is `it` afterwards. -/
theorem it_ref {object : Place Expr} {property : Property Expr} {c c₁ : Context}
    {r : Reference Value} (h : ((ref object property).evalWith host true).run c = (.ref r, c₁)) :
    c₁.it = r.get c₁ := by
  rcases @run_ref host c object property with ⟨e, c', herror⟩ | ⟨r', c', href⟩
  · rw [herror true] at h
    cases h
  · -- where a reference leads does not depend on `it`
    rw [href true] at h
    cases h
    rfl

/-- A reference that is recorded is evaluated like one that is not, and then its value is `it`. -/
theorem recordsOnly_ref {refs : List Expr} {object : Place Expr} {property : Property Expr}
    (h : RecordsOnly host refs ((ref object property).evalWith host false)) :
    RecordsOnly host (ref object property :: refs) ((ref object property).evalWith host true) := by
  intro c
  rcases @run_ref host c object property with ⟨e, c', hrun⟩ | ⟨r, c', hrun⟩
  · -- nothing is recorded after a failure
    have hc := h.mono (List.subset_cons_self (ref object property) refs) c
    rw [hrun false] at hc
    rw [hrun true]
    exact hc
  · refine .inr ⟨_, List.mem_cons_self, c, r, _, host.isRespected_reaches.refl c, hrun true, ?_⟩
    rw [hrun true]
    exact it_ref (hrun true)

theorem reaches_evalWith (record : Bool) (e : Expr) : Keeps host.Reaches (e.evalWith host record) :=
  e.keeps_evalWith host.isRespected_reaches host.keeps_reaches record

mutual

/-- Without comparisons and assignments, only recorded references become `it`. -/
theorem recordsOnly_evalWith (record : Bool) :
    (e : Expr) → e.OnlyReads → RecordsOnly host (e.recorded record) (e.evalWith host record)
  | empty, _ | number _, _ | string _, _ | boolean _, _ | it, _ | time, _ | hooks _, _
  | error _ _, _ => recordsOnly_of_unchanged fun _ => rfl
  | colour code, _ => by
    unfold evalWith
    split <;> exact recordsOnly_pure _
  | ref object property, h => by
    rw [OnlyReads, surface, List.forall_mem_cons, List.forall_mem_append] at h
    have hR := host.isRespected_reaches
    have hhost := host.keeps_reaches
    have hwalk : RecordsOnly host (placeRecorded object ++ propertyRecorded property)
        ((ref object property).evalWith host false) := by
      -- each of the three steps may fail, and then nothing follows
      have hplace := recordsOnly_evalPlace object h.2.1
      have hproperty := recordsOnly_evalProperty property h.2.2
      refine (hplace.mono (List.subset_append_left _ _)).bind (keeps_evalPlace hR hhost object)
        fun origin => ?_
      split
      · exact recordsOnly_pure _
      · refine (hproperty.mono (List.subset_append_right _ _)).bind
          (keeps_evalProperty hR hhost property) fun key => ?_
        split
        · exact recordsOnly_pure _
        · refine (recordsOnly_of_unchanged fun _ => rfl).bind (keeps_get hR) fun c => ?_
          split
          · exact recordsOnly_pure _
          · exact recordsOnly_finishReference _
    cases record with
    | false => exact hwalk
    | true => exact recordsOnly_ref hwalk
  | get reference, h => by
    rw [OnlyReads, surface, List.forall_mem_cons] at h
    exact (recordsOnly_evalWith false reference h.2).bind (reaches_evalWith false reference)
      recordsOnly_read
  | binary lhs op rhs, h => by
    rw [OnlyReads, surface, List.forall_mem_cons, List.forall_mem_append] at h
    have hlhs := recordsOnly_evalWith true lhs h.2.1
    have hrhs := recordsOnly_evalWith true rhs h.2.2
    refine (hlhs.mono (List.subset_append_left _ _)).bind (reaches_evalWith true lhs) fun v => ?_
    refine (hrhs.mono (List.subset_append_right _ _)).bind (reaches_evalWith true rhs) fun w => ?_
    exact recordsOnly_binary h.1 v w
  | not operand, h => by
    rw [OnlyReads, surface, List.forall_mem_cons] at h
    exact (recordsOnly_evalWith true operand h.2).map _
  | group inner, h => by
    rw [OnlyReads, surface, List.forall_mem_cons] at h
    exact recordsOnly_evalWith true inner h.2
  | assign dest src op, h => by
    rw [OnlyReads, surface, List.forall_mem_cons] at h
    cases h.1
  | lambda subject clause, h => by
    rw [OnlyReads, surface, List.forall_mem_cons] at h
    exact (recordsOnly_evalSubject subject h.2).map _
  | call callee args, _ => recordsOnly_keepIt _

theorem recordsOnly_evalPlace :
    (place : Place Expr) → (∀ p ∈ placeSurface place, p.comparesOrAssigns = false) →
      RecordsOnly host (placeRecorded place) (evalPlace host place)
  | .story, _ | .temp, _ => recordsOnly_of_unchanged fun _ => rfl
  | .of e, h => (recordsOnly_evalWith false e h).map _

theorem recordsOnly_evalProperty :
    (property : Property Expr) →
      (∀ p ∈ propertySurface property, p.comparesOrAssigns = false) →
      RecordsOnly host (propertyRecorded property) (evalProperty host property)
  | .name _, _ => recordsOnly_of_unchanged fun _ => rfl
  | .computed e, h => (recordsOnly_evalWith true e h).map _

theorem recordsOnly_evalSubject :
    (subject : Subject Expr) →
      (∀ p ∈ subjectSurface subject, p.comparesOrAssigns = false) →
      RecordsOnly host (subjectRecorded subject) (evalSubject host subject)
  | .implicit, _ | .param _, _ => recordsOnly_of_unchanged fun _ => rfl
  | .of e, h => (recordsOnly_evalWith true e h).map _

end

end Expr

/-! ## The law -/

/-- Parentheses around a reference do not change its evaluation. -/
theorem Expr.evalWith_of_innerRef? {host : Host} {g : Expr} :
    ∀ {e : Expr}, e.innerRef? = some g → e.evalWith host true = g.evalWith host true
  | .ref object property, h => by
    rw [innerRef?, Option.some.injEq] at h
    rw [h]
  | .group e, h => by
    rw [innerRef?] at h
    rw [evalWith, evalWith_of_innerRef? h]

/-- What a reference leads to is `it` afterwards, in parentheses too. -/
theorem Expr.it_of_innerRef? {host : Host} {g : Expr} {c c₁ : Context} {r : Reference Value} :
    ∀ {e : Expr}, e.innerRef? = some g → (g.evalWith host true).run c = (.ref r, c₁) →
      c₁.it = r.get c₁
  | .ref object property, h, hrun => by
    rw [innerRef?, Option.some.injEq] at h
    subst h
    exact it_ref hrun
  | .group e, h, hrun => by
    rw [innerRef?] at h
    exact it_of_innerRef? h hrun

/-- A property of what is in parentheses. -/
theorem compile_property_of_grouping {t op : Token} (ht : t.kind = .grouping)
    (hop : op.kind = .property) :
    compile [t, op] false =
      .get (.ref (.of (.group (compile t.children true))) (.name (Expr.nameOf op))) := by
  have hgroups : Precedence.groups =
      Precedence.groups.take 16 ++ ([.property], .last) :: Precedence.groups.drop 17 := rfl
  have hdivide : Precedence.divide ([t] ++ [op]) = some ⟨[t], op, []⟩ := by
    refine Precedence.divide_of_divideBy hgroups ?_ (Precedence.divideLast_append ?_ (by simp))
    · simp only [List.cons_append, List.nil_append, List.forall_mem_cons, ht, hop]
      decide
    · simp [Precedence.divides, Precedence.isUsable, hop]
  have hgroup : (Expr.ofRun [t] true).value = .group (compile t.children true) := by
    rw [Expr.ofRun_singleton (by rw [ht]; decide), Expr.ofOperand]
    simp only [ht]
    rfl
  have hsignificant : Expr.significant [t, op] = [t] ++ [op] := by
    simp [Expr.significant, Token.isWhitespace, ht, hop]
  rw [compile, Expr.ofTokens, hsignificant, Expr.ofRun_of_divide hdivide, Expr.ofOperator]
  simp [hop, hgroup, Expr.reference]

/-- Reading a property by its name leaves the context as the object left it. -/
theorem Expr.context_property {host : Host} {c c₁ : Context} {e : Expr} {r : Reference Value}
    (h : (e.evalWith host false).run c = (.ref r, c₁)) (name : String) :
    (((get (ref (.of e) (.name name))).evalWith host true).run c).2 = c₁ := by
  have hplace : (evalPlace host (.of e)).run c = (.ok (.reference r), c₁) := by
    rw [evalPlace, Eval.run_bind, h]
    rfl
  have hwalk : (((ref (.of e) (.name name)).evalWith host false).run c).2 = c₁ := by
    have hget : (getThe Context : Eval Context).run c₁ = (c₁, c₁) := rfl
    have hname : (evalProperty host (.name name)).run c₁ = (.ok (.string name), c₁) := rfl
    simp only [evalWith, Eval.run_bind, hplace, hname, hget]
    cases (Origin.reference r).property c₁ (.string name) <;> rfl
  rw [evalWith, Eval.run_bind, hwalk]
  exact Eval.context_read _ c₁

/-- After code without comparisons and assignments, outside calls and the bodies of lambda clauses,
`it` is what it was, unless the code reads a property of a reference in parentheses: then it may be
what such a reference led to when it was evaluated. And reading a property of a reference in
parentheses, and nothing else, does make what the reference leads to `it`. -/
theorem it_eval_compile (host : Host) (c : Context) :
    (∀ tokens, (compile tokens false).OnlyReads →
      (((compile tokens false).eval host).run c).2.it = c.it ∨
      ∃ g ∈ (compile tokens false).groupedObjects, ∃ c₀ r c₁, host.Reaches c c₀ ∧
        (g.eval host).run c₀ = (.ref r, c₁) ∧
        (((compile tokens false).eval host).run c).2.it = r.get c₁) ∧
    ∀ t op g r c₁, t.kind = .grouping → op.kind = .property →
      (compile t.children true).innerRef? = some g → (g.eval host).run c = (.ref r, c₁) →
      (((compile [t, op] false).eval host).run c).2.it = r.get c₁ := by
  refine ⟨?_, ?_⟩
  · intro tokens hreads
    have hcompiles := Expr.compiles_ofRun (Expr.significant tokens)
    have hrecords := @Expr.recordsOnly_evalWith host true (compile tokens false) hreads
    exact hrecords.mono (hcompiles.recordsGrouped hreads) c
  · intro t op g r c₁ ht hop hg hrun
    -- the parentheses and the reference inside are evaluated alike, and the reference is recorded
    have hobject : ((Expr.group (compile t.children true)).evalWith host false).run c =
        (.ref r, c₁) := by
      rw [Expr.evalWith, Expr.evalWith_of_innerRef? hg]
      exact hrun
    rw [compile_property_of_grouping ht hop, Expr.eval, Expr.context_property hobject]
    exact Expr.it_of_innerRef? hg hrun

/-- The token of `$a`. -/
def mapToken : Token :=
  { kind := .storyVariable, name := some "a" }

/-- The token of `($a)`. -/
def groupedMap : Token :=
  { kind := .grouping, children := [mapToken] }

/-- The token of `'s b`. -/
def wordOf : Token :=
  { kind := .property, name := some "b" }

/-- Reading `($a)'s b` changes `it`, though nothing is compared or assigned. -/
theorem not_it_eval_groupedMap :
    (compile [groupedMap, wordOf] false).OnlyReads ∧
    (((compile [groupedMap, wordOf] false).eval .bare).run mappedStory).1 = .string "word" ∧
    (((compile [groupedMap, wordOf] false).eval .bare).run mappedStory).2.it ≠ mappedStory.it := by
  have hcompile : compile [groupedMap, wordOf] false =
      .get (.ref (.of (.group (.ref .story (.name "a")))) (.name "b")) := by
    cbv
  rw [hcompile]
  refine ⟨by decide, rfl, ?_⟩
  -- it is a map now, and it was a number
  show Value.map _ ≠ Value.number _
  intro h
  cases h

/-- Reading `$a's b` leaves `it` alone, and reading `($a)'s b` makes `$a` `it`. -/
theorem it_eval_compile_mappedStory :
    (compile [mapToken, wordOf] false).OnlyReads ∧
    (((compile [mapToken, wordOf] false).eval .bare).run mappedStory).2.it = mappedStory.it ∧
    (((compile [groupedMap, wordOf] false).eval .bare).run mappedStory).2.it =
      .map (.ofList [(.string "b", .string "word")]) := by
  have hplain : compile [mapToken, wordOf] false =
      .get (.ref (.of (.ref .story (.name "a"))) (.name "b")) := by
    cbv
  have hmap : compile [mapToken] true = .ref .story (.name "a") := by
    cbv
  have hreads : (compile [mapToken, wordOf] false).OnlyReads := by
    rw [hplain]
    decide
  have hnone : (compile [mapToken, wordOf] false).groupedObjects = [] := by
    rw [hplain]
    rfl
  obtain ⟨honly, hgrouped⟩ := it_eval_compile .bare mappedStory
  refine ⟨hreads, ?_, ?_⟩
  · rcases honly [mapToken, wordOf] hreads with hit | ⟨g, hg, -⟩
    · exact hit
    · rw [hnone] at hg
      cases hg
  · exact hgrouped groupedMap wordOf _ _ _ rfl rfl (congrArg Expr.innerRef? hmap) rfl

end StoryScript
