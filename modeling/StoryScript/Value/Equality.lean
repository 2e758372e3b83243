/-
  Equality of values, which is what `is` tests.

  Numbers go by value, collections by contents: arrays in order, datamaps and datasets
  in any order. References and assignments are never equal to anything.

  A dataset that is asked whether it has a value compares each of its own members with
  that value, so the operands change sides at every dataset. The comparison is by
  recursion on one of the two values, and carries along on which side that one stands.
-/
import StoryScript.Expr.Equality
import StoryScript.Value.Basic

namespace StoryScript

/-- Whether two lambdas have the same names and bodies. -/
def Lambda.same (l m : Lambda) : Bool :=
  l.loopName == m.loopName && l.withName == m.withName && l.makingName == m.makingName &&
    sameBody l.whereBody m.whereBody && sameBody l.viaBody m.viaBody
where
  /-- Whether two clauses are both absent, or present with the same body. -/
  sameBody : Option Expr → Option Expr → Bool
    | none, none => true
    | some a, some b => a.same b
    | _, _ => false

namespace Value

/-- A test of two operands, which stand the other way round if they are swapped. -/
def inOrder {α : Type} (swapped : Bool) (test : α → α → Bool) (a b : α) : Bool :=
  if swapped then test b a else test a b

mutual

/-- Whether two values are equal; if they are swapped, the second one is the left operand. -/
def sameIn (swapped : Bool) : Value → Value → Bool
  | number a, number b => inOrder swapped (· == ·) a b
  | string a, string b => inOrder swapped (· == ·) a b
  | boolean a, boolean b => inOrder swapped (· == ·) a b
  | array items, array items' => sameAll swapped items items'
  | map ⟨entries, _⟩, map m =>
    inOrder swapped (· == ·) entries.length m.size &&
      if swapped then
        m.entries.all fun entry => sameUnder entries (·.meets entries.length entry.1) entry.2
      else sameEntries entries m
  | set ⟨items⟩, set ⟨items'⟩ =>
    inOrder swapped (· == ·) items.length items'.length &&
      if swapped then items'.all (sameMember items ·) else sameMembers items items'
  | colour a, colour b => inOrder swapped (· == ·) a b
  | changer calls, changer calls' => sameCalls swapped calls calls'
  | lambda a, lambda b => inOrder swapped Lambda.same a b
  | hooks a, hooks b => inOrder swapped (· == ·) a.name b.name
  | error a, error b => inOrder swapped (· == ·) a b
  | _, _ => false
termination_by structural x => x

/-- Whether two lists have equal values in the same places. -/
def sameAll (swapped : Bool) : List Value → List Value → Bool
  | [], [] => true
  | a :: items, b :: items' => sameIn swapped a b && sameAll swapped items items'
  | _, _ => false
termination_by structural x => x

/-- Whether every entry stands in `m` with an equal value. -/
def sameEntries : List (Key × Value) → DataMap Value → Bool
  | [], _ => true
  | (key, value) :: rest, m => (m.get? key).any (sameIn false value ·) && sameEntries rest m
termination_by structural x => x

/-- Whether a value is equal to that of the first entry whose key passes a test. -/
def sameUnder : List (Key × Value) → (Key → Bool) → Value → Bool
  | [], _, _ => false
  | (key, value) :: rest, test, v =>
    if test key then sameIn true value v else sameUnder rest test v
termination_by structural x => x

/-- Whether for every value a list has a member that is equal to it. -/
def sameMembers : List Value → List Value → Bool
  | [], _ => true
  | value :: rest, items => items.any (sameIn true value ·) && sameMembers rest items
termination_by structural x => x

/-- Whether a list has a member that is equal to a value. -/
def sameMember : List Value → Value → Bool
  | [], _ => false
  | member :: rest, v => sameIn false member v || sameMember rest v
termination_by structural x => x

/-- Whether two lists of commands have the same names and equal arguments. -/
def sameCalls (swapped : Bool) : List (ChangerCall Value) → List (ChangerCall Value) → Bool
  | [], [] => true
  | ⟨name, params⟩ :: rest, call :: rest' =>
    inOrder swapped (· == ·) name call.name && sameAll swapped params call.params &&
      sameCalls swapped rest rest'
  | _, _ => false
termination_by structural x => x

end

/-- Whether two values are equal. -/
def same (a b : Value) : Bool :=
  sameIn false a b

end Value

end StoryScript
