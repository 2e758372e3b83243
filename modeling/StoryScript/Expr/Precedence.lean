/-
  Where an expression is divided: the operator that binds loosest.

  Operators are grouped by how tightly they bind, loosest first. Of several in one
  group the first or the last divides, which makes the group associate to the right
  or to the left.
-/
import StoryScript.Token.Basic

namespace StoryScript.Precedence

/-- Which operator of a group divides. -/
inductive Side where
  | first
  | last
  deriving DecidableEq

/-- The groups of operators, loosest first. -/
def groups : List (List Kind × Side) :=
  [([.comma], .first),
   ([.spread], .first),
   ([.toWord], .first),
   ([.intoWord], .first),
   ([.whereWord, .viaWord], .last),
   ([.withWord, .makingWord], .last),
   ([.augmentedAssign], .first),
   ([.and, .or], .last),
   ([.is, .isNot], .last),
   ([.contains, .isIn], .last),
   ([.inequality], .last),
   ([.addition, .subtraction], .last),
   ([.multiplication, .division], .last),
   ([.not], .first),
   ([.belongingProperty], .first),
   ([.belongingOperator, .belongingItOperator], .first),
   ([.property], .last),
   ([.itsProperty], .last),
   ([.belongingItProperty], .last),
   ([.possessiveOperator, .itsOperator], .last)]

/-- Whether a token after `before` can divide. A plus or minus that follows no operand is a
sign, but a leading one divides all the same. -/
def isUsable (before : Option Token) (t : Token) : Bool :=
  match t.kind with
  | .addition | .subtraction => before.all (·.kind.endsOperand)
  | _ => true

/-- Whether a token after `before` divides as an operator of the group. -/
def divides (group : List Kind) (before : Option Token) (t : Token) : Bool :=
  group.contains t.kind && isUsable before t

/-- The tokens before an operator, the operator, and the tokens after it. -/
structure Division where
  left : List Token
  op : Token
  right : List Token

/-- Adds a token at the front. -/
def Division.cons (t : Token) (d : Division) : Division :=
  { d with left := t :: d.left }

/-- Divides at the first operator of the group. -/
def divideFirst (group : List Kind) : (before : Option Token) → List Token → Option Division
  | _, [] => none
  | before, t :: ts =>
    if divides group before t then some ⟨[], t, ts⟩
    else (divideFirst group (some t) ts).map (·.cons t)

/-- Divides at the last operator of the group. -/
def divideLast (group : List Kind) : (before : Option Token) → List Token → Option Division
  | _, [] => none
  | before, t :: ts =>
    match divideLast group (some t) ts with
    | some d => some (d.cons t)
    | none => if divides group before t then some ⟨[], t, ts⟩ else none

/-- Divides at an operator of one group. -/
def divideBy (group : List Kind × Side) (tokens : List Token) : Option Division :=
  match group.2 with
  | .first => divideFirst group.1 none tokens
  | .last => divideLast group.1 none tokens

/-- Divides at the loosest operator. -/
def divide (tokens : List Token) : Option Division :=
  groups.findSome? (divideBy · tokens)

theorem append_of_divideFirst {group : List Kind} :
    ∀ {before tokens d}, divideFirst group before tokens = some d →
      d.left ++ d.op :: d.right = tokens
  | _, [], _, h => by simp [divideFirst] at h
  | before, t :: ts, d, h => by
    simp only [divideFirst] at h
    split at h
    · simp only [Option.some.injEq] at h
      simp [← h]
    · simp only [Option.map_eq_some_iff] at h
      obtain ⟨e, he, rfl⟩ := h
      simpa [Division.cons] using append_of_divideFirst he

theorem append_of_divideLast {group : List Kind} :
    ∀ {before tokens d}, divideLast group before tokens = some d →
      d.left ++ d.op :: d.right = tokens
  | _, [], _, h => by simp [divideLast] at h
  | before, t :: ts, d, h => by
    simp only [divideLast] at h
    split at h
    · rename_i e he
      simp only [Option.some.injEq] at h
      simpa [← h, Division.cons] using append_of_divideLast he
    · split at h
      · simp only [Option.some.injEq] at h
        simp [← h]
      · simp at h

/-- Dividing loses nothing. -/
theorem append_of_divide {tokens : List Token} {d : Division} (h : divide tokens = some d) :
    d.left ++ d.op :: d.right = tokens := by
  obtain ⟨group, -, h⟩ := List.exists_of_findSome?_eq_some h
  simp only [divideBy] at h
  split at h
  · exact append_of_divideFirst h
  · exact append_of_divideLast h

end StoryScript.Precedence
