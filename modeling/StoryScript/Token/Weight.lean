/-
  The number of tokens in a tree, the measure by which recursion over trees ends.
-/
import StoryScript.Token.Basic

namespace StoryScript.Token

mutual

/-- The number of tokens in the tree. -/
def weight : Token → Nat
  | { children, .. } => 1 + weightAll children

/-- The number of tokens in the trees. -/
def weightAll : List Token → Nat
  | [] => 0
  | t :: ts => weight t + weightAll ts

end

theorem weight_eq (t : Token) : t.weight = 1 + weightAll t.children := by
  cases t; simp [weight]

theorem weight_pos (t : Token) : 0 < t.weight := by
  rw [weight_eq]; omega

@[simp] theorem weightAll_append (ts us : List Token) :
    weightAll (ts ++ us) = weightAll ts + weightAll us := by
  induction ts with
  | nil => simp [weightAll]
  | cons t ts ih => simp [weightAll, ih, Nat.add_assoc]

theorem weightAll_filter_le (p : Token → Bool) (ts : List Token) :
    weightAll (ts.filter p) ≤ weightAll ts := by
  induction ts with
  | nil => simp
  | cons t ts ih =>
    by_cases h : p t = true <;> simp only [List.filter_cons, h, if_true, weightAll] <;> grind

end StoryScript.Token
