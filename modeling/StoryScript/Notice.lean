/-
  Notices: what the library reports about its own work, beside its results.

  A computation that may report carries its notices with its value, in the order in
  which they arose.
-/
import StoryScript.Token.Kind

namespace StoryScript

/-- Something worth reporting. -/
inductive Notice where
  /-- An opener or closer without a partner. -/
  | unmatched (kind : Kind) (start : Nat)
  /-- Malformed code became an error in the expression. -/
  | malformed (message : String)
  /-- A macro is about to run. -/
  | running (target : String) (arguments : Nat)
  /-- The outermost temp frame was to be removed. -/
  | outermostFrame
  deriving DecidableEq

/-- How much a notice matters. -/
def Notice.level : Notice → String
  | unmatched .. | malformed _ => "DEBUG"
  | running .. => "TRACE"
  | outermostFrame => "WARN"

/-- The wording of a notice. -/
def Notice.text : Notice → String
  | unmatched kind start =>
    "Unmatched " ++ kind.name ++ " at offset " ++ toString start ++ ", treating it as text"
  | malformed message => "Compiled a syntax error: " ++ message
  | running target arguments =>
    "Running " ++ target ++ " with " ++ toString arguments ++ " argument(s)"
  | outermostFrame =>
    "Tried to pop a temp variable frame, but only the outermost one is left"

/-- One line of a log. -/
def Notice.render (n : Notice) : String :=
  n.level ++ " " ++ n.text

/-- A value with the notices that arose on the way to it. -/
structure Noted (α : Type) where
  value : α
  notices : List Notice := []

namespace Noted

instance : Monad Noted where
  pure a := { value := a }
  bind x f := { value := (f x.value).value, notices := x.notices ++ (f x.value).notices }

/-- Reports one notice. -/
def note (n : Notice) : Noted Unit :=
  { value := (), notices := [n] }

/-- Reports notices in order. -/
def noteAll (ns : List Notice) : Noted Unit :=
  { value := (), notices := ns }

variable {α β : Type}

@[simp] theorem value_pure (a : α) : (pure a : Noted α).value = a := rfl

@[simp] theorem value_bind (x : Noted α) (f : α → Noted β) :
    (x >>= f).value = (f x.value).value := rfl

@[simp] theorem value_map (x : Noted α) (f : α → β) : (f <$> x).value = f x.value := rfl

@[simp] theorem notices_pure (a : α) : (pure a : Noted α).notices = [] := rfl

@[simp] theorem notices_bind (x : Noted α) (f : α → Noted β) :
    (x >>= f).notices = x.notices ++ (f x.value).notices := rfl

end Noted

end StoryScript
