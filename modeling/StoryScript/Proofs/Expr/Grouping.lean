/-
  Groupings are compositional.

  Compiling does not look at offsets, so tokens compile to the same expression wherever
  they stand. With that, what lexing says about the contents of a grouping carries over
  to expressions: a grouping compiles to the group of what its inner text alone compiles
  to, whatever surrounds the parentheses.
-/
import Mathlib
import StoryScript.Proofs.Expr.Division
import StoryScript.Proofs.Token.Grouping
import StoryScript.Proofs.Token.Shift

namespace StoryScript

/-! ## Dividing tokens further on -/

namespace Precedence

/-- The same division, `k` bytes further on. -/
def Division.shift (k : Nat) (d : Division) : Division :=
  ⟨d.left.map (Token.shift k), d.op.shift k, d.right.map (Token.shift k)⟩

theorem divides_shift (k : Nat) (group : List Kind) (before : Option Token) (t : Token) :
    divides group (before.map (Token.shift k)) (t.shift k) = divides group before t := by
  cases before <;> simp [divides, isUsable]

theorem divideFirst_shift (k : Nat) (group : List Kind) (before : Option Token)
    (tokens : List Token) :
    divideFirst group (before.map (Token.shift k)) (tokens.map (Token.shift k)) =
      (divideFirst group before tokens).map (Division.shift k) := by
  induction tokens generalizing before with
  | nil => rfl
  | cons t ts ih =>
    have hnext := ih (some t)
    rw [Option.map_some] at hnext
    simp only [List.map_cons, divideFirst, divides_shift, hnext]
    split
    · rfl
    · cases divideFirst group (some t) ts <;> rfl

theorem divideLast_shift (k : Nat) (group : List Kind) (before : Option Token)
    (tokens : List Token) :
    divideLast group (before.map (Token.shift k)) (tokens.map (Token.shift k)) =
      (divideLast group before tokens).map (Division.shift k) := by
  induction tokens generalizing before with
  | nil => rfl
  | cons t ts ih =>
    have hnext := ih (some t)
    rw [Option.map_some] at hnext
    simp only [List.map_cons, divideLast, divides_shift, hnext]
    cases divideLast group (some t) ts with
    | some d => rfl
    | none =>
      simp only [Option.map_none]
      split <;> rfl

theorem divide_shift (k : Nat) (tokens : List Token) :
    divide (tokens.map (Token.shift k)) = (divide tokens).map (Division.shift k) := by
  refine divide_eq_map fun group _ => ?_
  simp only [divideBy]
  split
  · exact divideFirst_shift k group.1 none tokens
  · exact divideLast_shift k group.1 none tokens

end Precedence

/-! ## Compiling tokens further on -/

namespace Expr

open Precedence

@[simp] theorem missing_shift (k : Nat) (side : String) (op : Token) :
    missing side (op.shift k) = missing side op := by
  simp [missing]

@[simp] theorem adjacent_shift (k : Nat) (a b : Token) :
    adjacent (a.shift k) (b.shift k) = adjacent a b := by
  simp [adjacent]

@[simp] theorem notCode_shift (k : Nat) (t : Token) : notCode (t.shift k) = notCode t := by
  simp [notCode]

@[simp] theorem needsVariable_shift (k : Nat) (op : Token) :
    needsVariable (op.shift k) = needsVariable op := by
  simp [needsVariable]

@[simp] theorem nameOf_shift (k : Nat) (t : Token) : nameOf (t.shift k) = nameOf t := by
  simp [nameOf]

@[simp] theorem ofLeaf_shift (k : Nat) (t : Token) (asRef : Bool) :
    ofLeaf (t.shift k) asRef = ofLeaf t asRef := by
  simp [ofLeaf]

@[simp] theorem comparison_shift (k : Nat) (lhs : Expr) (op : Token) (rhs : Expr) :
    comparison lhs (op.shift k) rhs = comparison lhs op rhs := by
  simp [comparison, comparisonOp?]

theorem lentComparison?_of_divide {tokens : List Token} {d : Division}
    (h : divide tokens = some d) : lentComparison? tokens =
      if d.op.kind.isComparison then some d.op
      else if d.op.kind = .and || d.op.kind = .or then lentComparison? d.left else none := by
  rw [lentComparison?]
  split
  · simp_all
  · rename_i d' hd
    rw [h, Option.some.injEq] at hd
    rw [hd]

theorem lentComparison?_of_divide_eq_none {tokens : List Token} (h : divide tokens = none) :
    lentComparison? tokens = none := by
  rw [lentComparison?]
  split
  · rfl
  · simp_all

theorem lentComparison?_shift (k : Nat) (tokens : List Token) :
    lentComparison? (tokens.map (Token.shift k)) =
      (lentComparison? tokens).map (Token.shift k) := by
  have hdivide := divide_shift k tokens
  cases hd : divide tokens with
  | none =>
    rw [hd] at hdivide
    rw [lentComparison?_of_divide_eq_none hd, lentComparison?_of_divide_eq_none hdivide,
      Option.map_none]
  | some d =>
    have hshorter : d.left.length < tokens.length := by
      rw [← append_of_divide hd, List.length_append, List.length_cons]
      omega
    have hleft := lentComparison?_shift k d.left
    rw [hd] at hdivide
    rw [lentComparison?_of_divide hd, lentComparison?_of_divide hdivide]
    simp only [Division.shift, Token.kind_shift, hleft]
    split
    · rfl
    · split <;> rfl
termination_by tokens.length

theorem significant_shift (k : Nat) (tokens : List Token) :
    significant (tokens.map (Token.shift k)) = (significant tokens).map (Token.shift k) := by
  have hspace : (fun t : Token => !t.isWhitespace) ∘ Token.shift k = fun t => !t.isWhitespace :=
    funext fun t => by simp [Token.isWhitespace]
  rw [significant, List.filter_map, hspace, significant]

theorem segments_shift (k : Nat) (tokens : List Token) :
    segments (tokens.map (Token.shift k)) = (segments tokens).map (List.map (Token.shift k)) := by
  induction tokens with
  | nil => rfl
  | cons t ts ih =>
    simp only [List.map_cons, segments, ih, Token.kind_shift]
    split
    · rfl
    · cases segments ts <;> rfl

/-- A run compiles to the same wherever it stands. -/
def Unmoved (k : Nat) (run : List Token) : Prop :=
  ∀ asRef, ofRun (run.map (Token.shift k)) asRef = ofRun run asRef

section

variable {k : Nat} {left right : List Token} (hleft : Unmoved k left) (hright : Unmoved k right)

include hright in
theorem ofArithmetic_shift (lhs : Expr) (op : Token) :
    ofArithmetic lhs (op.shift k) (right.map (Token.shift k)) = ofArithmetic lhs op right := by
  simp only [ofArithmetic, List.isEmpty_map, missing_shift, Token.toDetail_shift, Token.text_shift,
    hright false]

include hleft hright in
theorem ofLogic_shift (op : Token) :
    ofLogic (left.map (Token.shift k)) (op.shift k) (right.map (Token.shift k)) =
      ofLogic left op right := by
  simp only [ofLogic, List.isEmpty_map, missing_shift, Token.kind_shift, lentComparison?_shift,
    hleft false, hright false]
  cases lentComparison? left <;> cases lentComparison? right <;>
    simp only [Option.map_some, Option.map_none, comparison_shift]

include hleft in
theorem ofSubject_shift : ofSubject (left.map (Token.shift k)) = ofSubject left := by
  rcases left with _ | ⟨t, _ | ⟨u, ts⟩⟩
  · rfl
  · have ht := hleft false
    simp only [List.map_cons, List.map_nil] at ht ⊢
    simp only [ofSubject, Token.kind_shift, nameOf_shift, ht]
  · have hrun := hleft false
    simp only [List.map_cons] at hrun ⊢
    simp only [ofSubject, hrun]

include hright in
theorem ofClause_shift (subject : Subject Expr) (op : Token) :
    ofClause subject (op.shift k) (right.map (Token.shift k)) = ofClause subject op right := by
  have hbody := hright false
  simp only [ofClause.eq_def, Token.kind_shift, List.isEmpty_map, missing_shift, hbody]
  rcases right with _ | ⟨t, _ | ⟨u, ts⟩⟩ <;> simp

include hleft hright in
theorem ofOperator_shift (op : Token) (asRef : Bool) :
    ofOperator (left.map (Token.shift k)) (op.shift k) (right.map (Token.shift k)) asRef =
      ofOperator left op right asRef := by
  have hlambda : ofLambda (left.map (Token.shift k)) (op.shift k) (right.map (Token.shift k)) =
      ofLambda left op right := by
    simp only [ofLambda, ofSubject_shift hleft, ofClause_shift hright]
  have hlogic := ofLogic_shift hleft hright op
  rw [Unmoved] at hleft
  simp only [ofOperator, Token.kind_shift, Token.toDetail_shift, List.isEmpty_map, missing_shift,
    List.getLast?_map, List.head?_map, nameOf_shift, ofLeaf_shift, comparison_shift,
    ofArithmetic_shift hright, hlambda, hlogic, hleft, hright true, hright false]
  cases left.getLast? <;> cases right.head? <;>
    simp only [Option.map_some, Option.map_none, adjacent_shift]

end

theorem ofArguments_shift {k : Nat} {runs : List (List Token)}
    (ih : ∀ run, Token.weightAll run ≤ weightRuns runs → Unmoved k run) :
    ofArguments (runs.map (List.map (Token.shift k))) = ofArguments runs := by
  induction runs with
  | nil => rfl
  | cons run runs ihRuns =>
    have hweight : weightRuns (run :: runs) = Token.weightAll run + weightRuns runs := rfl
    have hrest := ihRuns fun run' h => ih run' (by omega)
    rcases run with _ | ⟨t, ts⟩
    · rcases runs with _ | ⟨run, runs⟩
      · rfl
      · -- an empty run is a gap unless it is the last one, which mapping does not change
        simp only [List.map_cons, List.map_nil] at hrest ⊢
        rw [ofArguments, ofArguments, hrest]
        · simp
        · simp
    · have hwhole := ih (t :: ts) (by omega) false
      have hafter := ih ts (by simp only [Token.weightAll] at hweight; omega) false
      simp only [List.map_cons] at hwhole ⊢
      simp only [ofArguments, Token.kind_shift, List.isEmpty_map, missing_shift, hwhole, hafter,
        hrest]

theorem ofCall_of_nil {t : Token} (h : significant t.children = []) :
    ofCall t = malformed "This macro call has no name." := by
  rw [ofCall]
  split
  · rfl
  · simp_all

theorem ofCall_of_cons {t name : Token} {rest : List Token}
    (h : significant t.children = name :: rest) : ofCall t = (do
      if name.kind ≠ .macroName then
        return ← malformed ("`" ++ Text.trim name.text ++ "` isn't a macro name.")
      let callee ← if name.isMethod
        then do pure (.computed (← ofRun (significant name.children) false))
        else pure (.named (nameOf name))
      return .call callee (← ofArguments (segments rest))) := by
  rw [ofCall]
  split
  · simp_all
  · rename_i name' rest' hcons
    rw [h, List.cons.injEq] at hcons
    rw [hcons.1, hcons.2]

theorem ofCall_shift {k : Nat} {t : Token}
    (ih : ∀ run, Token.weightAll run < t.weight → Unmoved k run) :
    ofCall (t.shift k) = ofCall t := by
  have hshift : significant (t.shift k).children =
      (significant t.children).map (Token.shift k) := by
    rw [Token.children_shift, significant_shift]
  cases hchildren : significant t.children with
  | nil =>
    rw [hchildren] at hshift
    rw [ofCall_of_nil hchildren, ofCall_of_nil hshift]
  | cons name rest =>
    -- the name and the runs between the commas are all parts of the call
    have hweight : name.weight + Token.weightAll rest < t.weight := by
      have hsignificant := weight_significant t.children
      have hwhole := Token.weight_eq t
      simp only [hchildren, Token.weightAll] at hsignificant
      omega
    have hname : Token.weightAll (significant name.children) < t.weight := by
      have hsignificant := weight_significant name.children
      have hwhole := Token.weight_eq name
      omega
    have hruns := weightRuns_segments rest
    have harguments : ofArguments (segments (rest.map (Token.shift k))) =
        ofArguments (segments rest) := by
      rw [segments_shift]
      exact ofArguments_shift fun run hrun => ih run (by omega)
    rw [hchildren] at hshift
    rw [ofCall_of_cons hchildren, ofCall_of_cons hshift, harguments]
    simp only [Token.toDetail_shift, Token.kind_shift, Token.text_shift, Token.children_shift,
      nameOf_shift, significant_shift, ih _ hname false]

theorem ofOperand_shift {k : Nat} {t : Token}
    (ih : ∀ run, Token.weightAll run < t.weight → Unmoved k run) (asRef : Bool) :
    ofOperand (t.shift k) asRef = ofOperand t asRef := by
  have hinner : Token.weightAll (significant t.children) < t.weight := by
    have := weight_significant t.children
    have := Token.weight_eq t
    omega
  simp only [ofOperand, Token.kind_shift, Token.children_shift, significant_shift, ofLeaf_shift,
    ofCall_shift ih, ih _ hinner asRef]

theorem ofRun_of_adjacent {t u : Token} {ts : List Token} (h : divide (t :: u :: ts) = none)
    (asRef : Bool) : ofRun (t :: u :: ts) asRef =
      match (t :: u :: ts).find? fun t => t.kind = .text || t.kind = .error with
      | some bad => notCode bad
      | none => adjacent t u := by
  rw [ofRun]
  split
  · simp_all
  · rfl

theorem unmoved (k : Nat) (run : List Token) : Unmoved k run := by
  induction hweight : Token.weightAll run using Nat.strong_induction_on generalizing run with
  | h n ih =>
    intro asRef
    have hdivide := divide_shift k run
    cases hd : divide run with
    | some d =>
      have hparts := weight_of_divide hd
      have hpos := d.op.weight_pos
      rw [hd] at hdivide
      rw [ofRun_of_divide hd, ofRun_of_divide hdivide]
      exact ofOperator_shift (ih _ (by omega) d.left rfl) (ih _ (by omega) d.right rfl) d.op asRef
    | none =>
      rw [hd] at hdivide
      match run with
      | [] => rfl
      | [t] =>
        rw [ofRun_of_divide_eq_none hd, List.map_cons, List.map_nil,
          ofRun_of_divide_eq_none hdivide]
        refine ofOperand_shift (fun run hrun => ih _ ?_ run rfl) asRef
        simpa [← hweight, Token.weightAll] using hrun
      | t :: u :: ts =>
        rw [ofRun_of_adjacent hd, List.map_cons, List.map_cons, ofRun_of_adjacent hdivide]
        have hbad : (fun t : Token => t.kind = .text || t.kind = .error) ∘ Token.shift k =
            fun t => t.kind = .text || t.kind = .error :=
          funext fun t => by simp
        rw [← List.map_cons, ← List.map_cons, List.find?_map, hbad]
        cases (t :: u :: ts).find? fun t => t.kind = .text || t.kind = .error with
        | none => exact adjacent_shift k t u
        | some bad => exact notCode_shift k bad

/-- Tokens compile to the same, notices included, wherever they stand. -/
theorem ofTokens_shift (k : Nat) (tokens : List Token) (asRef : Bool) :
    ofTokens (tokens.map (Token.shift k)) asRef = ofTokens tokens asRef := by
  rw [ofTokens, significant_shift, unmoved k, ofTokens]

/-- A grouping by itself compiles to the group of what its children compile to. -/
theorem ofTokens_grouping {g : Token} (hkind : g.kind = .grouping) (asRef : Bool) :
    ofTokens [g] asRef = (do return .group (← ofTokens g.children asRef)) := by
  have hsignificant : significant [g] = [g] := by
    simp [significant, Token.isWhitespace, hkind]
  have hnone : ∀ group ∈ groups, g.kind ∉ group.1 := by
    rw [hkind]
    decide
  rw [ofTokens, hsignificant, ofRun_singleton hnone, ofOperand]
  simp only [hkind, ofTokens]

end Expr

/-! ## Groupings of the finished tree -/

namespace Lexer

/-- A grouping holds the tokens of its inner text as an expression of its own, moved to where that
text starts. -/
def HoldsExpression (g : Token) : Prop :=
  g.kind = .grouping → ∃ inner, g.inner = some inner ∧
    g.children = (lexExpression inner).children.map (Token.shift (g.start + 1))

theorem LexedAlone.holdsExpression {g : Token} (h : LexedAlone g) :
    HoldsExpression (mergeText g) := by
  rw [mergeText_eq]
  intro hkind
  obtain ⟨body, hinner, hchildren⟩ := h hkind
  refine ⟨String.ofList body, hinner, ?_⟩
  show mergeAll g.children =
    (mergeAll (lexFrom .code { offset := 0 } (String.ofList body).toList).value).map _
  rw [hchildren, lexFrom_offset, mergeAll_shift, String.toList_ofList]

-- a merged text is no grouping and has nothing below it
theorem holdsExpression_of_isPlainText (t : Token) (h : IsPlainText t) :
    ∀ u ∈ t.tokens, HoldsExpression u := by
  obtain ⟨hkind, hnil⟩ := h
  refine Token.forall_mem_tokens.2 ⟨fun hgrouping => ?_, by simp [hnil]⟩
  rw [hkind] at hgrouping
  cases hgrouping

theorem GroupsAlone.holdsExpression {t : Token} (h : GroupsAlone t) :
    ∀ u ∈ (mergeText t).tokens, HoldsExpression u := by
  induction t using Token.tree_induction with
  | h t ih =>
    obtain ⟨hown, hbelow⟩ := groupsAlone_iff.1 h
    refine Token.forall_mem_tokens.2 ⟨hown.holdsExpression, ?_⟩
    rw [mergeText_eq]
    exact forall_mem_mergeAll holdsExpression_of_isPlainText fun c hc => ih c hc (hbelow c hc)

theorem holdsExpression_lexIn (mode : Mode) (source : String) :
    ∀ u ∈ (lexIn mode source).value.tokens, HoldsExpression u := by
  have halone := groupsAlone_lexFrom mode _ source.toList (State.isUngrouped_start 0)
  refine Token.forall_mem_tokens.2 ⟨(fun hroot => nomatch hroot), ?_⟩
  exact forall_mem_mergeAll holdsExpression_of_isPlainText fun t ht => (halone t ht).holdsExpression

end Lexer

/-- Groupings are compositional. Wherever a grouping stands in a tree that lexing gives, its
children are the tokens of its inner text lexed alone, moved to where that text starts; and it
compiles to the group of what its inner text alone compiles to. -/
theorem grouping_eq_lexExpression (mode : Mode) (source : String) (g : Token)
    (hg : g ∈ (Lexer.lexIn mode source).value.tokens) (hkind : g.kind = .grouping) :
    ∃ inner, g.inner = some inner ∧
      g.children = (lexExpression inner).children.map (Token.shift (g.start + 1)) ∧
      ∀ asRef, compile [g] asRef = .group (compile (lexExpression inner).children asRef) := by
  obtain ⟨inner, hinner, hchildren⟩ := Lexer.holdsExpression_lexIn mode source g hg hkind
  refine ⟨inner, hinner, hchildren, ?_⟩
  intro asRef
  rw [compile, Expr.ofTokens_grouping hkind, hchildren, Expr.ofTokens_shift]
  rfl

/-- The call around `(it is)` is never closed and gives way to text; the comparison in the
parentheses is unfinished, and the `in` behind them does not become part of it. -/
theorem grouping_eq_lexExpression_unfinished :
    ∃ g ∈ (Lexer.lexIn .markup "A (print: (it is) in $b").value.tokens, g.kind = .grouping ∧
      g.children = (lexExpression "it is").children.map (Token.shift 11) ∧
      ∀ asRef, compile [g] asRef = .group (compile (lexExpression "it is").children asRef) := by
  have hfound : ((Lexer.lexIn .markup "A (print: (it is) in $b").value.tokens.any fun g =>
      g.kind = .grouping && g.start = 10 && g.inner = some "it is") = true := by
    decide +kernel
  obtain ⟨g, hg, hall⟩ := List.any_eq_true.1 hfound
  simp only [Bool.and_eq_true, decide_eq_true_eq] at hall
  obtain ⟨⟨hkind, hstart⟩, htext⟩ := hall
  obtain ⟨inner, hinner, hchildren, hcompile⟩ := grouping_eq_lexExpression .markup _ g hg hkind
  rw [htext, Option.some.injEq] at hinner
  subst hinner
  rw [hstart] at hchildren
  exact ⟨g, hg, hkind, hchildren, hcompile⟩

end StoryScript
