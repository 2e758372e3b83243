/-
  Precedence and associativity.

  An operator tree says how operators are meant to nest: operands of an operator bind
  at least as tightly on its left and more tightly on its right. The level in the type
  of a tree carries this, so there are no ill-formed trees. Written out in order, the
  tokens of a tree divide at its root, and `compile_operatorTree` says that compiling
  them gives the tree back, node by node.
-/
import Mathlib
import StoryScript.Proofs.Expr.Division

namespace StoryScript

/-! ## Operator trees -/

namespace Kind

/-- The kinds of tokens that are operands by themselves. -/
def isAtom : Kind → Bool
  | number | string | boolean | colour | identifier | hookRef | storyVariable | tempVariable
  | macroCall | grouping => true
  | _ => false

/-- How tightly a binary operator binds, 0 for the loosest. -/
def binding? : Kind → Option Nat
  | is | isNot => some 0
  | contains | isIn => some 1
  | inequality => some 2
  | addition | subtraction => some 3
  | multiplication | division => some 4
  | _ => none

/-- The kinds of the tokens of a tree whose operators bind as tightly as a level or tighter. -/
def fits (level : Nat) (kind : Kind) : Bool :=
  kind.isAtom || kind = .not || kind.binding?.any (level ≤ ·)

end Kind

/-- The binary operator that a token stands for. A sign stands for the operator it carries, which
is one of those that lexing gives to tokens of its kind. -/
def Token.binaryOp? (t : Token) : Option BinaryOp :=
  match t.kind with
  | .is => some .is
  | .isNot => some .isNot
  | .contains => some .contains
  | .isIn => some .isIn
  | .inequality => t.operator.filter [.less, .lessEq, .greater, .greaterEq].contains
  | .addition => t.operator.filter [.add].contains
  | .subtraction => t.operator.filter [.subtract].contains
  | .multiplication => t.operator.filter [.multiply].contains
  | .division => t.operator.filter [.divide, .modulo].contains
  | _ => none

/-- The token of a binary operator. -/
structure OperatorToken where
  token : Token
  /-- How tightly it binds. -/
  binding : Nat
  /-- What it stands for. -/
  op : BinaryOp
  binding_eq : token.kind.binding? = some binding
  op_eq : token.binaryOp? = some op

/-- A tree of operators that all bind as tightly as the level or tighter, except inside `not`,
which binds tightest of all. -/
inductive OperatorTree : Nat → Type where
  | atom {level : Nat} (t : Token) (isAtom : t.kind.isAtom = true) : OperatorTree level
  | not {level : Nat} (t : Token) (isNot : t.kind = .not) (operand : OperatorTree 5) :
      OperatorTree level
  | binary {level : Nat} (o : OperatorToken) (tight : level ≤ o.binding)
      (left : OperatorTree o.binding) (right : OperatorTree (o.binding + 1)) : OperatorTree level

namespace OperatorTree

/-- The tokens of a tree, in order. -/
def tokens {level : Nat} : OperatorTree level → List Token
  | atom t _ => [t]
  | not t _ operand => t :: operand.tokens
  | binary o _ left right => left.tokens ++ o.token :: right.tokens

/-- The expression with the shape of a tree. A negated comparison is wrapped in `not`. -/
def expr {level : Nat} : OperatorTree level → Expr
  | atom t _ => (Expr.ofOperand t false).value
  | not _ _ operand => .not operand.expr
  | binary o _ left right =>
    let test := .binary left.expr o.op right.expr
    if o.token.kind.isComparison && o.token.negate then .not test else test

/-! ## The tokens of a tree -/

theorem fits_mono {level level' : Nat} (h : level ≤ level') {kind : Kind}
    (hk : kind.fits level' = true) : kind.fits level = true := by
  simp only [Kind.fits, Bool.or_eq_true, Option.any_eq_true] at hk ⊢
  rcases hk with hk | ⟨b, hb, hle⟩
  · exact .inl hk
  · simp only [decide_eq_true_eq] at hle
    exact .inr ⟨b, hb, by simp only [decide_eq_true_eq]; omega⟩

theorem binding_lt {kind : Kind} {b : Nat} (h : kind.binding? = some b) : b < 5 := by
  have htable : ∀ kind ∈ Kind.all, ∀ b ∈ kind.binding?, b < 5 := by decide
  exact htable kind kind.mem_all b h

/-- No binary operator stands inside `not`. -/
theorem fits_of_fits_five {kind : Kind} (h : kind.fits 5 = true) (level : Nat) :
    kind.fits level = true := by
  simp only [Kind.fits, Bool.or_eq_true, Option.any_eq_true] at h ⊢
  rcases h with h | ⟨b, hb, hle⟩
  · exact .inl h
  · have := binding_lt hb
    simp only [decide_eq_true_eq] at hle
    omega

theorem fits_of_mem_tokens {level : Nat} (T : OperatorTree level) :
    ∀ t ∈ T.tokens, t.kind.fits level = true := by
  induction T with
  | atom t isAtom =>
    intro u hu
    rw [List.mem_singleton.1 hu, Kind.fits, isAtom, Bool.true_or, Bool.true_or]
  | not t isNot operand ih =>
    intro u hu
    rcases List.mem_cons.1 hu with rfl | hu
    · simp [Kind.fits, isNot]
    · exact fits_of_fits_five (ih u hu) _
  | binary o tight left right ihl ihr =>
    intro u hu
    rcases List.mem_append.1 hu with hu | hu
    · exact fits_mono tight (ihl u hu)
    · rcases List.mem_cons.1 hu with rfl | hu
      · simp [Kind.fits, o.binding_eq, tight]
      · exact fits_mono (by omega) (ihr u hu)

/-- A tree ends with an operand, so that a sign after it is an operator. -/
theorem endsOperand_of_getLast? {level : Nat} (T : OperatorTree level) :
    ∃ t, T.tokens.getLast? = some t ∧ t.kind.endsOperand = true := by
  induction T with
  | atom t isAtom =>
    refine ⟨t, rfl, ?_⟩
    have htable : ∀ kind ∈ Kind.all, kind.isAtom = true → kind.endsOperand = true := by decide
    exact htable t.kind t.kind.mem_all isAtom
  | not t isNot operand ih =>
    obtain ⟨u, hlast, hu⟩ := ih
    exact ⟨u, by rw [tokens, List.getLast?_cons, hlast]; rfl, hu⟩
  | binary o tight left right ihl ihr =>
    obtain ⟨u, hlast, hu⟩ := ihr
    refine ⟨u, ?_, hu⟩
    rw [tokens, List.getLast?_append, List.getLast?_cons, hlast]
    rfl

theorem tokens_ne_nil {level : Nat} (T : OperatorTree level) : T.tokens ≠ [] := by
  obtain ⟨t, hlast, -⟩ := T.endsOperand_of_getLast?
  intro hnil
  rw [hnil] at hlast
  simp at hlast

/-! ## Where a tree divides -/

open Precedence

/-- The group of a binary operator: what fits a tree of its level belongs to no looser group, and
what binds more tightly does not belong to the group. -/
theorem group_of_binding {kind : Kind} {b : Nat} (h : kind.binding? = some b) :
    ∃ looser group tighter, groups = looser ++ (group, .last) :: tighter ∧ kind ∈ group ∧
      (∀ k : Kind, k.fits b = true → ∀ g ∈ looser, k ∉ g.1) ∧
      ∀ k : Kind, k.fits (b + 1) = true → k ∉ group := by
  -- the groups of binary operators follow one another in the order of their bindings
  have hgroups : ∀ b < 5, ∃ group, groups = groups.take (8 + b) ++ (group, .last) :: groups.drop (9 + b) ∧
      (∀ k ∈ Kind.all, k.binding? = some b → k ∈ group) ∧
      (∀ k ∈ Kind.all, k.fits b = true → ∀ g ∈ groups.take (8 + b), k ∉ g.1) ∧
      ∀ k ∈ Kind.all, k.fits (b + 1) = true → k ∉ group := by
    intro b hb
    interval_cases b
    · exact ⟨[.is, .isNot], rfl, by decide, by decide, by decide⟩
    · exact ⟨[.contains, .isIn], rfl, by decide, by decide, by decide⟩
    · exact ⟨[.inequality], rfl, by decide, by decide, by decide⟩
    · exact ⟨[.addition, .subtraction], rfl, by decide, by decide, by decide⟩
    · exact ⟨[.multiplication, .division], rfl, by decide, by decide, by decide⟩
  obtain ⟨group, heq, hmem, hlooser, htighter⟩ := hgroups b (binding_lt h)
  exact ⟨_, group, _, heq, hmem kind kind.mem_all h, fun k => hlooser k k.mem_all,
    fun k => htighter k k.mem_all⟩

/-- The tokens of a binary node divide at its operator. -/
theorem divide_binary (o : OperatorToken) (left : OperatorTree o.binding)
    (right : OperatorTree (o.binding + 1)) :
    divide (left.tokens ++ o.token :: right.tokens) = some ⟨left.tokens, o.token, right.tokens⟩ := by
  obtain ⟨looser, group, tighter, hgroups, hmem, hlooser, htighter⟩ := group_of_binding o.binding_eq
  refine divide_of_divideBy hgroups ?_ ?_
  · intro t ht
    have hfits := (OperatorTree.binary o (Nat.le_refl _) left right).fits_of_mem_tokens t ht
    exact hlooser t.kind hfits
  · refine divideLast_append ?_ ?_
    · -- the left operand ends with an operand, so even a sign divides here
      obtain ⟨t, hlast, ht⟩ := left.endsOperand_of_getLast?
      have husable : isUsable (some t) o.token = true := by
        rw [isUsable]
        split <;> simp [ht]
      rw [hlast, Option.some_or, divides, husable, Bool.and_true]
      simpa using hmem
    · -- the right operand binds more tightly, so this is the last operator of its group
      intro t ht
      exact htighter t.kind (right.fits_of_mem_tokens t ht)

/-- The tokens of a negation divide at its first token. -/
theorem divide_not {t : Token} (isNot : t.kind = .not) (operand : OperatorTree 5) :
    divide (t :: operand.tokens) = some ⟨[], t, operand.tokens⟩ := by
  have hgroups : groups = groups.take 13 ++ ([.not], .first) :: groups.drop 14 := rfl
  have htable : ∀ k ∈ Kind.all, k.fits 5 = true → ∀ g ∈ groups.take 13, k ∉ g.1 := by decide
  refine divide_of_divideBy hgroups ?_ ?_
  · intro u hu
    have hfits := (OperatorTree.not t isNot operand : OperatorTree 5).fits_of_mem_tokens u hu
    exact htable u.kind u.kind.mem_all hfits
  · simp [divideBy, divideFirst, divides, isUsable, isNot]

theorem ofRun_atom {t : Token} (isAtom : t.kind.isAtom = true) (asRef : Bool) :
    Expr.ofRun [t] asRef = Expr.ofOperand t asRef := by
  have htable : ∀ k ∈ Kind.all, k.isAtom = true → ∀ g ∈ groups, k ∉ g.1 := by decide
  exact Expr.ofRun_singleton (htable t.kind t.kind.mem_all isAtom) asRef

/-! ## Compiling a tree -/

/-- A comparison denotes the operator of its token, negated if the token says so. -/
theorem value_comparison {o : OperatorToken} (h : o.token.kind.isComparison = true) (lhs rhs : Expr) :
    (Expr.comparison lhs o.token rhs).value =
      if o.token.negate then .not (.binary lhs o.op rhs) else .binary lhs o.op rhs := by
  have hop : Expr.comparisonOp? o.token = some o.op := by
    have hop := o.op_eq
    rw [Token.binaryOp?] at hop
    rw [Expr.comparisonOp?]
    cases hk : o.token.kind <;> rw [hk] at h hop <;>
      simp_all [Kind.isComparison, Option.filter_eq_some_iff]
  simp [Expr.comparison, hop]

/-- An operator that is no comparison is arithmetic, and its token carries the operator. -/
theorem arithmetic_of_not_isComparison (o : OperatorToken)
    (h : o.token.kind.isComparison = false) :
    o.token.kind ∈ [Kind.addition, .subtraction, .multiplication, .division] ∧
      o.token.operator = some o.op := by
  have hop := o.op_eq
  have hbinding := o.binding_eq
  rw [Token.binaryOp?] at hop
  cases hk : o.token.kind <;> rw [hk] at h hop hbinding <;>
    simp_all [Kind.isComparison, Kind.binding?, Option.filter_eq_some_iff]

/-- Compiling the tokens of a tree gives the expression with its shape. -/
theorem value_ofRun_tokens {level : Nat} (T : OperatorTree level) :
    (Expr.ofRun T.tokens false).value = T.expr := by
  -- every node is where its own tokens divide, which leaves those of its operands
  induction T with
  | atom t isAtom => rw [tokens, ofRun_atom isAtom, expr]
  | not t isNot operand ih =>
    rw [tokens, Expr.ofRun_of_divide (divide_not isNot operand),
      Expr.value_ofOperator_not isNot operand.tokens_ne_nil, ih, expr]
  | binary o tight left right ihl ihr =>
    rw [tokens, Expr.ofRun_of_divide (divide_binary o left right)]
    simp only [expr]
    by_cases h : o.token.kind.isComparison = true
    · rw [Expr.value_ofOperator_comparison h left.tokens_ne_nil right.tokens_ne_nil, ihl, ihr,
        value_comparison h, h, Bool.true_and]
    · rw [Bool.not_eq_true] at h
      obtain ⟨hkind, hoperator⟩ := arithmetic_of_not_isComparison o h
      rw [Expr.value_ofOperator_arithmetic hkind hoperator left.tokens_ne_nil right.tokens_ne_nil,
        ihl, ihr, h, Bool.false_and, if_neg Bool.false_ne_true]

end OperatorTree

/-- Precedence and associativity: tokens that are, but for white space, those of an operator tree
compile to the expression with the shape of the tree. -/
theorem compile_operatorTree (T : OperatorTree 0) (tokens : List Token)
    (h : Expr.significant tokens = T.tokens) : compile tokens false = T.expr := by
  rw [compile, Expr.ofTokens, h]
  exact T.value_ofRun_tokens

namespace OperatorTree

/-- The token of a number. -/
def numberToken (n : Number) : Token :=
  { kind := .number, value := some n }

/-- A minus sign. -/
def minus : OperatorToken :=
  ⟨{ kind := .subtraction, operator := some .subtract }, 3, .subtract, rfl, rfl⟩

/-- A multiplication sign. -/
def times : OperatorToken :=
  ⟨{ kind := .multiplication, operator := some .multiply }, 4, .multiply, rfl, rfl⟩

/-- A negated comparison. -/
def notGreater : OperatorToken :=
  ⟨{ kind := .inequality, operator := some .greater, negate := true }, 2, .greater, rfl, rfl⟩

/-- `((not 1) - (2 * 3)) - 4` compared with `5`. -/
def chain : OperatorTree 0 :=
  .binary notGreater (by decide)
    (.binary minus (by decide)
      (.binary minus (by decide)
        (.not { kind := .not } rfl (.atom (numberToken 1) rfl))
        (.binary times (by decide) (.atom (numberToken 2) rfl) (.atom (numberToken 3) rfl)))
      (.atom (numberToken 4) rfl))
    (.atom (numberToken 5) rfl)

/-- The tokens of `chain` with white space among them. -/
def chainTokens : List Token :=
  [{ kind := .not }, { kind := .whitespace, text := " " }, numberToken 1, minus.token, numberToken 2,
   { kind := .whitespace, text := "  " }, times.token, numberToken 3, minus.token, numberToken 4,
   notGreater.token, { kind := .whitespace, text := " " }, numberToken 5]

end OperatorTree

/-- Chains lean to the left and tighter operators nest deeper, whatever white space there is. -/
theorem compile_operatorTree_chain :
    Expr.significant OperatorTree.chainTokens = OperatorTree.chain.tokens ∧
    compile OperatorTree.chainTokens false =
      .not (.binary (.binary (.binary (.not (.number 1)) .subtract
        (.binary (.number 2) .multiply (.number 3))) .subtract (.number 4)) .greater (.number 5)) := by
  refine ⟨rfl, ?_⟩
  rw [compile_operatorTree OperatorTree.chain OperatorTree.chainTokens rfl]
  simp [OperatorTree.chain, OperatorTree.numberToken, OperatorTree.notGreater, OperatorTree.minus,
    OperatorTree.times, OperatorTree.expr, Expr.ofOperand, Expr.ofLeaf, Kind.isComparison]

end StoryScript
