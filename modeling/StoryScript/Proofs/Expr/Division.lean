/-
  Where a run of tokens is divided.

  Dividing tries the groups of operators from the loosest on. These lemmas say what it
  finds from what kinds the tokens have: nothing if no token belongs to a group, and
  the operator of a group if no token belongs to a looser one. Compiling a run then
  has one equation for each outcome.
-/
import Mathlib
import StoryScript.Expr.OfTokens

namespace StoryScript

namespace Precedence

/-! ## Groups that no token belongs to -/

theorem divideFirst_eq_none {group : List Kind} {tokens : List Token} {before : Option Token}
    (h : ∀ t ∈ tokens, t.kind ∉ group) : divideFirst group before tokens = none := by
  induction tokens generalizing before with
  | nil => rfl
  | cons t ts ih =>
    have ht : t.kind ∉ group := h t List.mem_cons_self
    have hts : ∀ u ∈ ts, u.kind ∉ group := fun u hu => h u (List.mem_cons_of_mem t hu)
    rw [divideFirst, ih hts]
    simp [divides, ht]

theorem divideLast_eq_none {group : List Kind} {tokens : List Token} {before : Option Token}
    (h : ∀ t ∈ tokens, t.kind ∉ group) : divideLast group before tokens = none := by
  induction tokens generalizing before with
  | nil => rfl
  | cons t ts ih =>
    have ht : t.kind ∉ group := h t List.mem_cons_self
    have hts : ∀ u ∈ ts, u.kind ∉ group := fun u hu => h u (List.mem_cons_of_mem t hu)
    rw [divideLast, ih hts]
    simp [divides, ht]

theorem divideBy_eq_none {group : List Kind × Side} {tokens : List Token}
    (h : ∀ t ∈ tokens, t.kind ∉ group.1) : divideBy group tokens = none := by
  rw [divideBy]
  split
  · exact divideFirst_eq_none h
  · exact divideLast_eq_none h

theorem divide_eq_none {tokens : List Token}
    (h : ∀ t ∈ tokens, ∀ group ∈ groups, t.kind ∉ group.1) : divide tokens = none := by
  rw [divide, List.findSome?_eq_none_iff]
  intro group hgroup
  exact divideBy_eq_none fun t ht => h t ht group hgroup

/-! ## The operator that divides -/

/-- The token before the rest of a run. -/
theorem getLast?_cons_or (t : Token) (ts : List Token) (before : Option Token) :
    (t :: ts).getLast?.or before = ts.getLast?.or (some t) := by
  cases h : ts.getLast? <;> simp [List.getLast?_cons, h]

/-- The last operator of a group divides: nothing after it belongs to the group, and the token
before it does not make it a sign. -/
theorem divideLast_append {group : List Kind} {left right : List Token} {op : Token}
    {before : Option Token} (hop : divides group (left.getLast?.or before) op = true)
    (hright : ∀ t ∈ right, t.kind ∉ group) :
    divideLast group before (left ++ op :: right) = some ⟨left, op, right⟩ := by
  induction left generalizing before with
  | nil =>
    rw [List.nil_append, divideLast, divideLast_eq_none hright]
    rw [List.getLast?_nil, Option.none_or] at hop
    simp [hop]
  | cons t ts ih =>
    rw [getLast?_cons_or] at hop
    rw [List.cons_append, divideLast, ih hop]
    rfl

/-- A run divides by the loosest group that one of its tokens belongs to. -/
theorem divide_of_divideBy {looser tighter : List (List Kind × Side)} {group : List Kind × Side}
    {tokens : List Token} {d : Division} (hgroups : groups = looser ++ group :: tighter)
    (hlooser : ∀ t ∈ tokens, ∀ g ∈ looser, t.kind ∉ g.1) (h : divideBy group tokens = some d) :
    divide tokens = some d := by
  have hnone : looser.findSome? (divideBy · tokens) = none := by
    rw [List.findSome?_eq_none_iff]
    intro g hg
    exact divideBy_eq_none fun t ht => hlooser t ht g hg
  rw [divide, hgroups, List.findSome?_append, hnone, Option.none_or, List.findSome?_cons, h]

/-- Two runs divide alike if they do by every group. -/
theorem divide_eq_map {tokens tokens' : List Token} {f : Division → Division}
    (h : ∀ group ∈ groups, divideBy group tokens' = (divideBy group tokens).map f) :
    divide tokens' = (divide tokens).map f := by
  rw [divide, divide]
  generalize groups = table at h ⊢
  induction table with
  | nil => rfl
  | cons group rest ih =>
    obtain ⟨hgroup, hrest⟩ := List.forall_mem_cons.1 h
    rw [List.findSome?_cons, List.findSome?_cons, hgroup, ih hrest]
    cases divideBy group tokens <;> rfl

end Precedence

/-! ## Compiling a run -/

namespace Expr

open Precedence

theorem ofRun_of_divide {tokens : List Token} {d : Division} (h : divide tokens = some d)
    (asRef : Bool) : ofRun tokens asRef = ofOperator d.left d.op d.right asRef := by
  rw [ofRun]
  split
  · rename_i d' hd
    rw [h, Option.some.injEq] at hd
    rw [hd]
  · rename_i hd
    rw [h] at hd
    simp at hd

theorem ofRun_of_divide_eq_none {t : Token} (h : divide [t] = none) (asRef : Bool) :
    ofRun [t] asRef = ofOperand t asRef := by
  rw [ofRun]
  split
  · rename_i d hd
    rw [h] at hd
    simp at hd
  · rfl

theorem ofRun_singleton {t : Token} (h : ∀ group ∈ groups, t.kind ∉ group.1) (asRef : Bool) :
    ofRun [t] asRef = ofOperand t asRef :=
  ofRun_of_divide_eq_none (divide_eq_none (by simpa using h)) asRef

/-! ## Compiling an operator with both operands -/

theorem value_ofOperator_comparison {left right : List Token} {op : Token}
    (hop : op.kind.isComparison = true) (hleft : left ≠ []) (hright : right ≠ []) (asRef : Bool) :
    (ofOperator left op right asRef).value =
      (comparison (ofRun left false).value op (ofRun right false).value).value := by
  rw [ofOperator]
  cases hk : op.kind <;> rw [hk] at hop <;> simp_all [Kind.isComparison]

/-- A comparison with nothing on its left compares `it`. -/
theorem value_ofOperator_implicit {right : List Token} {op : Token}
    (hop : op.kind.isComparison = true) (hright : right ≠ []) (asRef : Bool) :
    (ofOperator [] op right asRef).value =
      (comparison .it op (ofRun right false).value).value := by
  rw [ofOperator]
  cases hk : op.kind <;> rw [hk] at hop <;> simp_all [Kind.isComparison]

theorem value_ofOperator_arithmetic {left right : List Token} {op : Token} {operator : BinaryOp}
    (hop : op.kind ∈ [.addition, .subtraction, .multiplication, .division])
    (hoperator : op.operator = some operator) (hleft : left ≠ []) (hright : right ≠ [])
    (asRef : Bool) :
    (ofOperator left op right asRef).value =
      .binary (ofRun left false).value operator (ofRun right false).value := by
  rw [ofOperator]
  simp only [List.mem_cons, List.not_mem_nil, or_false] at hop
  rcases hop with hk | hk | hk | hk <;> simp [hk, hleft, hright, ofArithmetic, hoperator]

theorem value_ofOperator_not {right : List Token} {op : Token} (hop : op.kind = .not)
    (hright : right ≠ []) (asRef : Bool) :
    (ofOperator [] op right asRef).value = .not (ofRun right false).value := by
  rw [ofOperator]
  simp [hop, hright]

end Expr

end StoryScript
