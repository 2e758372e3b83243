/-
  Comparisons that are left out.

  In `x is 1 or 2` the second operand is bare: it borrows the comparison, with `it` on the left.
  In `x > 1 and < 5` the second comparison has nothing on its left and compares `it` as well.
  A chain is a row of comparisons and bare operands joined by `and` and `or`. The types of its
  pieces carry how tightly their tokens bind, so its tokens divide at the last joiner, and what is
  left is the chain before it. The comparison that is lent is then always that of the first
  operand: a chain of one comparison and bare operands means what it says, but where
  comparisons are mixed, the first is lent and not the one that was evaluated last.
-/
import Mathlib
import StoryScript.Proofs.Expr.Derivation
import StoryScript.Proofs.Expr.Grouping

namespace StoryScript

open Precedence

/-! ## Chains -/

/-- The operators that bind no tighter than comparisons. -/
def Kind.isLoose (kind : Kind) : Bool :=
  -- the seven groups before that of `and` and `or`, that group, and the three of comparisons
  (groups.take 11).any (·.1.contains kind)

/-- An operand whose tokens bind tighter than comparisons. -/
structure TightOperand where
  tokens : List Token
  nonempty : Expr.significant tokens ≠ []
  tight : ∀ t ∈ tokens, t.kind.isLoose = false

/-- The token of a comparison, with the operator it stands for. -/
structure ComparisonToken where
  token : Token
  op : BinaryOp
  kind : token.kind.isComparison = true
  op_eq : Expr.comparisonOp? token = some op
  compares : op.isComparison = true

/-- `and` or `or`. -/
structure Joiner where
  token : Token
  kind : token.kind = .and ∨ token.kind = .or

/-- What stands before a comparison: an operand, or nothing but blanks, which stand for `it`. -/
inductive LeftSide where
  | operand (x : TightOperand)
  | blanks (tokens : List Token) (blank : Expr.significant tokens = [])

instance : Coe TightOperand LeftSide := ⟨.operand⟩

/-- One operand of a chain: a comparison, or a bare operand. -/
inductive ChainPart where
  | test (x : LeftSide) (cmp : ComparisonToken) (v : TightOperand)
  | bare (v : TightOperand)

/-- Comparisons and bare operands joined by `and` and `or`. -/
inductive Chain where
  | one (part : ChainPart)
  | join (before : Chain) (j : Joiner) (part : ChainPart)

/-- What an operand compiles to. -/
def TightOperand.expr (v : TightOperand) : Expr :=
  compile v.tokens false

namespace LeftSide

def tokens : LeftSide → List Token
  | operand x => x.tokens
  | blanks tokens _ => tokens

/-- What is compared. -/
def expr : LeftSide → Expr
  | operand x => x.expr
  | blanks _ _ => .it

end LeftSide

/-- The comparison of two expressions by an operator, negated or not. -/
def Expr.testBy (sense : BinaryOp × Bool) (lhs rhs : Expr) : Expr :=
  if sense.2 then .not (.binary lhs sense.1 rhs) else .binary lhs sense.1 rhs

/-- The operator of a comparison, and whether it is negated. -/
def ComparisonToken.sense (cmp : ComparisonToken) : BinaryOp × Bool :=
  (cmp.op, cmp.token.negate)

/-- What the joiner joins by. -/
def Joiner.op (j : Joiner) : BinaryOp :=
  Expr.joinOf j.token

def ChainPart.tokens : ChainPart → List Token
  | test x cmp v => x.tokens ++ cmp.token :: v.tokens
  | bare v => v.tokens

/-- The comparison of an operand, unless it is bare. -/
def ChainPart.comparison? : ChainPart → Option ComparisonToken
  | test _ cmp _ => some cmp
  | bare _ => none

namespace Chain

def tokens : Chain → List Token
  | one part => part.tokens
  | join before j part => before.tokens ++ j.token :: part.tokens

/-- The operand that a chain starts with. -/
def first : Chain → ChainPart
  | one part => part
  | join before _ _ => before.first

/-- The operand that a chain ends with. -/
def last : Chain → ChainPart
  | one part => part
  | join _ _ part => part

/-- What a bare operand at the end of a chain becomes: it borrows the comparison of the first
operand, if that is one. -/
def borrowed (L : Chain) (v : TightOperand) : Expr :=
  match L.first.comparison? with
  | some cmp => .testBy cmp.sense .it v.expr
  | none => v.expr

end Chain

/-! ## Where a chain divides -/

namespace Kind

/-- What is not loose belongs to none of the loose groups. -/
theorem not_mem_of_not_isLoose {kind : Kind} (h : kind.isLoose = false) :
    ∀ group ∈ groups.take 11, kind ∉ group.1 := by
  simpa [isLoose] using h

/-- A comparison divides by the last of its group, which is loose, and no looser group has it. -/
theorem group_of_isComparison {kind : Kind} (h : kind.isComparison = true) :
    ∃ looser group tighter, groups = looser ++ (group, .last) :: tighter ∧ kind ∈ group ∧
      (∀ g ∈ looser, kind ∉ g.1) ∧ looser ++ [(group, .last)] <+: groups.take 11 := by
  -- the three groups of comparisons follow one another
  have htable : ∀ k ∈ all, k.isComparison = true → ∃ n < 3, ∃ group,
      groups = groups.take (8 + n) ++ (group, .last) :: groups.drop (9 + n) ∧ k ∈ group ∧
      ∀ g ∈ groups.take (8 + n), k ∉ g.1 := by
    intro k _ hk
    cases k <;> simp only [isComparison, Bool.false_eq_true] at hk
    case is | isNot => exact ⟨0, by decide, [.is, .isNot], rfl, by decide, by decide⟩
    case contains | isIn => exact ⟨1, by decide, [.contains, .isIn], rfl, by decide, by decide⟩
    case inequality => exact ⟨2, by decide, [.inequality], rfl, by decide, by decide⟩
  obtain ⟨n, hn, group, hgroups, hmem, hlooser⟩ := htable kind kind.mem_all h
  refine ⟨_, group, _, hgroups, hmem, hlooser, ?_⟩
  have hlast : groups.take (8 + n) ++ [(group, .last)] = groups.take (9 + n) := by
    have hlength : (groups.take (8 + n)).length = 8 + n := by
      rw [List.length_take]
      exact Nat.min_eq_left (by show 8 + n ≤ 20; omega)
    conv_rhs => rw [hgroups]
    rw [show 9 + n = (groups.take (8 + n)).length + 1 by omega, List.take_length_add_append]
    rfl
  rw [hlast]
  exact List.take_prefix_take_left (by omega)

end Kind

namespace Expr

theorem significant_append (left right : List Token) :
    significant (left ++ right) = significant left ++ significant right :=
  List.filter_append ..

theorem significant_cons {t : Token} (h : t.isWhitespace = false) (ts : List Token) :
    significant (t :: ts) = t :: significant ts := by
  simp [significant, h]

theorem significant_test (x : LeftSide) (cmp : ComparisonToken) (v : TightOperand) :
    significant (x.tokens ++ cmp.token :: v.tokens) =
      significant x.tokens ++ cmp.token :: significant v.tokens := by
  have hblank : cmp.token.isWhitespace = false := by
    have hkind := cmp.kind
    unfold Token.isWhitespace
    split <;> simp_all [Kind.isComparison]
  rw [significant_append, significant_cons hblank]

theorem significant_join (left right : List Token) (j : Joiner) :
    significant (left ++ j.token :: right) = significant left ++ j.token :: significant right := by
  have hblank : j.token.isWhitespace = false := by
    rcases j.kind with h | h <;> simp [Token.isWhitespace, h]
  rw [significant_append, significant_cons hblank]

theorem not_isLoose_significant (v : TightOperand) :
    ∀ t ∈ significant v.tokens, t.kind.isLoose = false :=
  fun t ht => v.tight t (List.mem_of_mem_filter ht)

theorem not_isLoose_leftSide (x : LeftSide) :
    ∀ t ∈ significant x.tokens, t.kind.isLoose = false := by
  cases x with
  | operand x => exact not_isLoose_significant x
  | blanks tokens blank =>
    intro t ht
    rw [LeftSide.tokens, blank] at ht
    cases ht

/-- The tokens of a comparison divide at the comparison. -/
theorem divide_test (x : LeftSide) (cmp : ComparisonToken) (v : TightOperand) :
    divide (significant x.tokens ++ cmp.token :: significant v.tokens) =
      some ⟨significant x.tokens, cmp.token, significant v.tokens⟩ := by
  obtain ⟨looser, group, tighter, hgroups, hmem, hlooser, hloose⟩ :=
    Kind.group_of_isComparison cmp.kind
  -- the operands belong to none of the groups up to this one
  have htight : ∀ t : Token, t.kind.isLoose = false → ∀ g ∈ looser ++ [(group, .last)],
      t.kind ∉ g.1 :=
    fun t ht g hg => Kind.not_mem_of_not_isLoose ht g (hloose.subset hg)
  refine divide_of_divideBy hgroups ?_ (divideLast_append ?_ ?_)
  · intro t ht g hg
    simp only [List.mem_append, List.mem_cons] at ht
    rcases ht with ht | rfl | ht
    · exact htight t (not_isLoose_leftSide x t ht) g (List.mem_append_left _ hg)
    · exact hlooser g hg
    · exact htight t (not_isLoose_significant v t ht) g (List.mem_append_left _ hg)
  · have husable : ∀ before, isUsable before cmp.token = true := by
      have hkind := cmp.kind
      intro before
      unfold isUsable
      split <;> simp_all [Kind.isComparison]
    simp [divides, husable, hmem]
  · intro t ht
    exact htight t (not_isLoose_significant v t ht) (group, .last) (by simp)

/-- Nothing in an operand of a chain divides before `and` and `or` do. -/
theorem not_mem_part (part : ChainPart) :
    ∀ t ∈ significant part.tokens, ∀ group ∈ groups.take 8, t.kind ∉ group.1 := by
  have htight : ∀ t : Token, t.kind.isLoose = false → ∀ group ∈ groups.take 8,
      t.kind ∉ group.1 := by
    intro t ht group hgroup
    have hloose : groups.take 8 <+: groups.take 11 := List.take_prefix_take_left (by omega)
    exact Kind.not_mem_of_not_isLoose ht group (hloose.subset hgroup)
  cases part with
  | bare v => exact fun t ht => htight t (not_isLoose_significant v t ht)
  | test x cmp v =>
    intro t ht
    rw [ChainPart.tokens, significant_test, List.mem_append, List.mem_cons] at ht
    rcases ht with ht | rfl | ht
    · exact htight t (not_isLoose_leftSide x t ht)
    · have htable : ∀ k ∈ Kind.all, k.isComparison = true → ∀ g ∈ groups.take 8, k ∉ g.1 := by
        decide
      exact htable _ (Kind.mem_all _) cmp.kind
    · exact htight t (not_isLoose_significant v t ht)

/-- In a chain nothing divides before `and` and `or` do. -/
theorem not_mem_chain (L : Chain) :
    ∀ t ∈ significant L.tokens, ∀ group ∈ groups.take 7, t.kind ∉ group.1 := by
  have hpart : ∀ part : ChainPart, ∀ t ∈ significant part.tokens, ∀ group ∈ groups.take 7,
      t.kind ∉ group.1 := by
    intro part t ht group hgroup
    have hlooser : groups.take 7 <+: groups.take 8 := List.take_prefix_take_left (by omega)
    exact not_mem_part part t ht group (hlooser.subset hgroup)
  induction L with
  | one part => exact hpart part
  | join before j part ih =>
    intro t ht
    rw [Chain.tokens, significant_join, List.mem_append, List.mem_cons] at ht
    rcases ht with ht | rfl | ht
    · exact ih t ht
    · rcases j.kind with h | h <;> rw [h] <;> decide
    · exact hpart part t ht

/-- A chain divides at its last joiner. -/
theorem divide_join (L : Chain) (j : Joiner) (part : ChainPart) :
    divide (significant L.tokens ++ j.token :: significant part.tokens) =
      some ⟨significant L.tokens, j.token, significant part.tokens⟩ := by
  -- the eighth group divides by its last token, and behind the joiner there is none of that group
  have hgroups : groups = groups.take 7 ++ ([.and, .or], .last) :: groups.drop 8 := rfl
  refine divide_of_divideBy hgroups ?_ (divideLast_append ?_ ?_)
  · have hchain := not_mem_chain (.join L j part)
    rwa [Chain.tokens, significant_join] at hchain
  · rcases j.kind with h | h <;> simp [divides, isUsable, h]
  · intro t ht
    exact not_mem_part part t ht ([.and, .or], .last) (by decide)

/-! ## Which comparison is lent -/

/-- A bare operand lends nothing. -/
theorem lentComparison?_bare (v : TightOperand) : lentComparison? (significant v.tokens) = none := by
  cases hdivision : divide (significant v.tokens) with
  | none => exact lentComparison?_of_divide_eq_none hdivision
  | some d =>
    -- its operator binds tighter than comparisons
    have htight : d.op.kind.isLoose = false := by
      refine not_isLoose_significant v d.op ?_
      simp [← append_of_divide hdivision]
    have htable : ∀ k ∈ Kind.all, k.isLoose = false →
        k.isComparison = false ∧ k ≠ .and ∧ k ≠ .or := by decide
    obtain ⟨hcomparison, hand, hor⟩ := htable _ (Kind.mem_all _) htight
    rw [lentComparison?_of_divide hdivision]
    simp [hcomparison, hand, hor]

theorem lentComparison?_part (part : ChainPart) :
    lentComparison? (significant part.tokens) = part.comparison?.map (·.token) := by
  cases part with
  | bare v => exact lentComparison?_bare v
  | test x cmp v =>
    rw [ChainPart.tokens, significant_test, lentComparison?_of_divide (divide_test x cmp v)]
    exact if_pos cmp.kind

/-- A chain lends the comparison of its first operand, however long it is. -/
theorem lentComparison?_chain (L : Chain) :
    lentComparison? (significant L.tokens) = L.first.comparison?.map (·.token) := by
  -- the search goes to the left of each joiner, as the chain was built
  induction L with
  | one part => exact lentComparison?_part part
  | join before j part ih =>
    have hjoin : j.token.kind.isComparison = false ∧
        (j.token.kind = .and || j.token.kind = .or) = true := by
      rcases j.kind with h | h <;> simp [h, Kind.isComparison]
    rw [Chain.tokens, significant_join, lentComparison?_of_divide (divide_join before j part), hjoin.1,
      hjoin.2, if_neg Bool.false_ne_true, if_pos rfl, ih]
    rfl

/-! ## What chains compile to -/

theorem value_comparison_token (cmp : ComparisonToken) (lhs rhs : Expr) :
    (comparison lhs cmp.token rhs).value = testBy cmp.sense lhs rhs := by
  simp only [comparison, cmp.op_eq]
  rfl

theorem compile_test (x : LeftSide) (cmp : ComparisonToken) (v : TightOperand) :
    compile (x.tokens ++ cmp.token :: v.tokens) false = testBy cmp.sense x.expr v.expr := by
  rw [compile, ofTokens, significant_test, ofRun_of_divide (divide_test x cmp v)]
  cases x with
  | operand x =>
    rw [LeftSide.tokens, value_ofOperator_comparison cmp.kind x.nonempty v.nonempty,
      value_comparison_token]
    rfl
  | blanks tokens blank =>
    rw [LeftSide.tokens, blank, value_ofOperator_implicit cmp.kind v.nonempty,
      value_comparison_token]
    rfl

theorem significant_part_ne_nil (part : ChainPart) : significant part.tokens ≠ [] := by
  cases part with
  | bare v => exact v.nonempty
  | test x cmp v => simp [ChainPart.tokens, significant_test]

theorem significant_chain_ne_nil (L : Chain) : significant L.tokens ≠ [] := by
  cases L with
  | one part => exact significant_part_ne_nil part
  | join before j part => simp [Chain.tokens, significant_join]

/-- If both sides are comparisons or neither is, they are joined as they are. -/
theorem value_ofLogic_same {left right : List Token} (hleft : left ≠ []) (hright : right ≠ [])
    (hsame : (lentComparison? left).isSome = (lentComparison? right).isSome) (op : Token) :
    (ofLogic left op right).value =
      .binary (ofRun left false).value (joinOf op) (ofRun right false).value := by
  simp only [ofLogic, List.isEmpty_iff, hleft, hright, if_false]
  cases hl : lentComparison? left <;> cases hr : lentComparison? right <;> simp_all [joinOf]

/-- A bare right side borrows the comparison of the left one. -/
theorem value_ofLogic_lent {left right : List Token} {lent : Token} (hleft : left ≠ [])
    (hright : right ≠ []) (hlent : lentComparison? left = some lent)
    (hbare : lentComparison? right = none) (op : Token) :
    (ofLogic left op right).value = .binary (ofRun left false).value (joinOf op)
      (comparison .it lent (ofRun right false).value).value := by
  simp [ofLogic, hleft, hright, hlent, hbare, joinOf]

theorem compile_join (L : Chain) (j : Joiner) (part : ChainPart) :
    compile (L.tokens ++ j.token :: part.tokens) false =
      (ofLogic (significant L.tokens) j.token (significant part.tokens)).value := by
  rw [compile, ofTokens, significant_join, ofRun_of_divide (divide_join L j part)]
  rcases j.kind with h | h <;> simp [ofOperator, h]

/-- A bare operand after a chain borrows the comparison of the chain's first operand. -/
theorem compile_join_bare (L : Chain) (j : Joiner) (v : TightOperand) :
    compile (L.tokens ++ j.token :: v.tokens) false =
      .binary (compile L.tokens false) j.op (L.borrowed v) := by
  have hchain := lentComparison?_chain L
  have hbare := lentComparison?_bare v
  refine (compile_join L j (.bare v)).trans ?_
  unfold Chain.borrowed
  cases hfirst : L.first.comparison? with
  | none =>
    rw [hfirst] at hchain
    exact value_ofLogic_same (significant_chain_ne_nil L) v.nonempty (by rw [hchain, hbare]; rfl) _
  | some cmp =>
    rw [hfirst] at hchain
    show _ = Expr.binary (compile L.tokens false) j.op (testBy cmp.sense .it v.expr)
    rw [← value_comparison_token]
    exact value_ofLogic_lent (significant_chain_ne_nil L) v.nonempty hchain hbare _

/-- A comparison after a chain that starts with one stands for itself. -/
theorem compile_join_test {L : Chain} {lender : ComparisonToken}
    (hfirst : L.first.comparison? = some lender) (j : Joiner) (x : LeftSide)
    (cmp : ComparisonToken) (v : TightOperand) :
    compile (L.join j (.test x cmp v)).tokens false =
      .binary (compile L.tokens false) j.op (testBy cmp.sense x.expr v.expr) := by
  have hchain := lentComparison?_chain L
  rw [hfirst] at hchain
  have hpart := lentComparison?_part (.test x cmp v)
  refine (compile_join L j (.test x cmp v)).trans ?_
  rw [← compile_test]
  refine value_ofLogic_same (significant_chain_ne_nil L) (significant_part_ne_nil _) ?_ _
  rw [hchain, hpart]
  rfl

/-! ## The comparison that is evaluated last -/

/-- Of comparisons joined by `and` and `or`, the operator of the one that is evaluated last, and
whether it is negated. -/
def lastTest? : Expr → Option (BinaryOp × Bool)
  | binary lhs op rhs =>
    if op.isComparison then some (op, false)
    else if op = .and || op = .or then rhs.lastTest? <|> lhs.lastTest? else none
  | not (binary _ op _) => if op.isComparison then some (op, true) else none
  | _ => none

theorem lastTest?_testBy (cmp : ComparisonToken) (lhs rhs : Expr) :
    (testBy cmp.sense lhs rhs).lastTest? = some cmp.sense := by
  have hcompares := cmp.compares
  cases h : cmp.token.negate <;> simp [testBy, ComparisonToken.sense, h, lastTest?, hcompares]

theorem lastTest?_join (before : Expr) (j : Joiner) (cmp : ComparisonToken) (lhs rhs : Expr) :
    (binary before j.op (testBy cmp.sense lhs rhs)).lastTest? = some cmp.sense := by
  rcases j.kind with h | h <;>
    simp [lastTest?, Joiner.op, joinOf, h, BinaryOp.isComparison, lastTest?_testBy]

/-- In a chain that starts with a comparison, the last operand is compared last; a bare one is
compared like the first. -/
theorem lastTest?_chain {L : Chain} {lender : ComparisonToken}
    (hfirst : L.first.comparison? = some lender) :
    (compile L.tokens false).lastTest? = some (L.last.comparison?.getD lender).sense := by
  match L, hfirst with
  | .one (.test x cmp v), hfirst =>
    rw [Chain.tokens, ChainPart.tokens, compile_test, lastTest?_testBy]
    rfl
  | .join before j (.test x cmp v), hfirst =>
    have hbefore : before.first.comparison? = some lender := hfirst
    rw [compile_join_test hbefore, lastTest?_join]
    rfl
  | .join before j (.bare v), hfirst =>
    have hbefore : before.first.comparison? = some lender := hfirst
    have hborrowed : before.borrowed v = testBy lender.sense .it v.expr := by
      simp only [Chain.borrowed, hbefore]
    rw [Chain.tokens, ChainPart.tokens, compile_join_bare, hborrowed, lastTest?_join]
    rfl

theorem testBy_injective {sense sense' : BinaryOp × Bool} {lhs rhs : Expr}
    (h : testBy sense lhs rhs = testBy sense' lhs rhs) : sense = sense' := by
  obtain ⟨op, negate⟩ := sense
  obtain ⟨op', negate'⟩ := sense'
  cases negate <;> cases negate' <;> simp_all [testBy]

/-- No expression is a comparison with itself inside. -/
theorem testBy_ne (sense : BinaryOp × Bool) (lhs rhs : Expr) : testBy sense lhs rhs ≠ rhs := by
  intro h
  have hsize := congrArg sizeOf h
  unfold testBy at hsize
  split at hsize
  · simp only [not.sizeOf_spec, binary.sizeOf_spec] at hsize
    omega
  · simp only [binary.sizeOf_spec] at hsize
    omega

end Expr

/-! ## The law -/

/-- What a bare operand after a chain is compared by: it borrows the comparison that the chain
starts with, and nothing if the chain starts with a bare operand. So it borrows the comparison
that is evaluated last exactly if the chain starts with a comparison and its last operand is bare or
has the same operator, negated or not. -/
theorem compile_after_chain (L : Chain) (j : Joiner) (v : TightOperand) :
    compile (L.tokens ++ j.token :: v.tokens) false =
      .binary (compile L.tokens false) j.op (L.borrowed v) ∧
    ((∃ sense, (compile L.tokens false).lastTest? = some sense ∧
        compile (L.tokens ++ j.token :: v.tokens) false =
          .binary (compile L.tokens false) j.op (.testBy sense .it v.expr)) ↔
      ∃ lender, L.first.comparison? = some lender ∧
        (L.last.comparison?.getD lender).sense = lender.sense) := by
  refine ⟨Expr.compile_join_bare L j v, ?_⟩
  rw [Expr.compile_join_bare]
  constructor
  · rintro ⟨sense, hlast, hcompile⟩
    have hborrowed : L.borrowed v = .testBy sense .it v.expr := (Expr.binary.inj hcompile).2.2
    unfold Chain.borrowed at hborrowed
    cases hfirst : L.first.comparison? with
    | none =>
      -- nothing is borrowed, so the operand would have to be a comparison with itself
      rw [hfirst] at hborrowed
      exact absurd hborrowed.symm (Expr.testBy_ne sense .it v.expr)
    | some lender =>
      rw [hfirst] at hborrowed
      rw [Expr.lastTest?_chain hfirst] at hlast
      exact ⟨lender, rfl, (Option.some.inj hlast).trans (Expr.testBy_injective hborrowed).symm⟩
  · rintro ⟨lender, hfirst, hsense⟩
    refine ⟨lender.sense, ?_, ?_⟩
    · rw [Expr.lastTest?_chain hfirst, hsense]
    · simp only [Chain.borrowed, hfirst]

namespace Chain

/-- An operand of one token. -/
def single (t : Token) (hblank : t.isWhitespace = false) (htight : t.kind.isLoose = false) :
    TightOperand :=
  ⟨[t], by simp [Expr.significant, hblank], by simpa using htight⟩

/-- A story variable. -/
def letter (name : String) : TightOperand :=
  single { kind := .storyVariable, name := some name } rfl rfl

def numeral (n : Number) : TightOperand :=
  single { kind := .number, value := some n } rfl rfl

def greater : ComparisonToken :=
  ⟨{ kind := .inequality, operator := some .greater }, .greater, rfl, rfl, rfl⟩

def less : ComparisonToken :=
  ⟨{ kind := .inequality, operator := some .less }, .less, rfl, rfl, rfl⟩

def conjunction : Joiner :=
  ⟨{ kind := .and }, .inl rfl⟩

/-- `$a > 2 and $b < 5`, whose first comparison is not the one that is evaluated last. -/
def mixed : Chain :=
  .join (.one (.test (letter "a") greater (numeral 2))) conjunction
    (.test (letter "b") less (numeral 5))

/-- `$a > 2 and 5`, whose bare operand is compared like the first. -/
def uniform : Chain :=
  .join (.one (.test (letter "a") greater (numeral 2))) conjunction (.bare (numeral 5))

end Chain

/-- After `$a > 2 and $b < 5`, the operand in `and 3` is compared by `>`, and not by `<`, which was
evaluated last. -/
theorem not_lastTest_after_mixed :
    (compile Chain.mixed.tokens false).lastTest? = some (.less, false) ∧
    compile (Chain.mixed.tokens ++ Chain.conjunction.token :: (Chain.numeral 3).tokens) false =
      .binary (compile Chain.mixed.tokens false) .and
        (.binary .it .greater (Chain.numeral 3).expr) ∧
    ¬ ∃ sense, (compile Chain.mixed.tokens false).lastTest? = some sense ∧
      compile (Chain.mixed.tokens ++ Chain.conjunction.token :: (Chain.numeral 3).tokens) false =
        .binary (compile Chain.mixed.tokens false) .and
          (.testBy sense .it (Chain.numeral 3).expr) := by
  have hlast : (compile Chain.mixed.tokens false).lastTest? = some (.less, false) :=
    @Expr.lastTest?_chain Chain.mixed Chain.greater rfl
  have hcompile := Expr.compile_join_bare Chain.mixed Chain.conjunction (Chain.numeral 3)
  refine ⟨hlast, hcompile, ?_⟩
  rintro ⟨sense, hsense, hborrowed⟩
  obtain rfl := Option.some.inj (hlast.symm.trans hsense)
  have hops := (Expr.binary.inj (hcompile.symm.trans hborrowed)).2.2
  cases (Expr.binary.inj hops).2.1

/-- After `$a > 2 and 5` the comparison that is borrowed is also the last. -/
theorem compile_after_chain_uniform :
    (∃ lender, Chain.uniform.first.comparison? = some lender ∧
      (Chain.uniform.last.comparison?.getD lender).sense = lender.sense) ∧
    ∃ sense, (compile Chain.uniform.tokens false).lastTest? = some sense ∧
      compile (Chain.uniform.tokens ++ Chain.conjunction.token :: (Chain.numeral 3).tokens) false =
        .binary (compile Chain.uniform.tokens false) Chain.conjunction.op
          (.testBy sense .it (Chain.numeral 3).expr) := by
  have hsame : ∃ lender, Chain.uniform.first.comparison? = some lender ∧
      (Chain.uniform.last.comparison?.getD lender).sense = lender.sense := ⟨_, rfl, rfl⟩
  exact ⟨hsame, (compile_after_chain Chain.uniform Chain.conjunction (Chain.numeral 3)).2.2 hsame⟩

end StoryScript
