/-
  Data names: the keys of datamaps and the steps of property chains.
-/
import StoryScript.Decimal.Printer
import StoryScript.Number
import StoryScript.Text.Quoted

namespace StoryScript

/-- A data name is a text or a number. -/
inductive Key where
  | string (name : String)
  | number (n : Number)

namespace Key

/-- Whether two keys name the same entry. Numbers go by value, so `0` and `-0` are one name, and
so are any two that are not a number at all. -/
def same : Key → Key → Bool
  | string a, string b => a == b
  | number a, number b => a == b || (a.float.isNaN && b.float.isNaN)
  | _, _ => false

instance : BEq Key := ⟨same⟩

/-- What a table hashes of a key: a text, or the bits of a number. Adding `0` makes one of `0` and
`-0`, but leaves every NaN its own bits. Different texts and bits are taken to have different
hashes. -/
def hashed : Key → String ⊕ UInt64
  | string name => .inl name
  | number n => .inr (n + 0).bits

/-- Whether two keys name the same entry for a table that goes by their hashes first. It differs
from `==` on two NaN only. -/
def alike (a b : Key) : Bool :=
  decide (a.hashed = b.hashed) && a == b

/-- The key as it stands in a message. -/
def render : Key → String
  | string name => name
  | number n => Decimal.render n.float

/-- The source text that denotes the key. -/
def source : Key → String
  | string name => Text.literal name
  | number n => Decimal.render n.float

/-- The number of a numeric key. -/
def number? : Key → Option Number
  | number n => some n
  | string _ => none

/-- The name of a textual key. -/
def name? : Key → Option String
  | string name => some name
  | number _ => none

end Key

end StoryScript
