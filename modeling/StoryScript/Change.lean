/-
  Changes in place.

  A change leaves something in the place of what it was given, and it may fail. A
  failure undoes nothing: what was written before it stays. So a change inside a part
  of something writes back whatever it left in the part, also when it failed.
-/
import StoryScript.Error

namespace StoryScript

/-- A change of a `σ` in place: whether it failed, and what is there afterwards. -/
abbrev Change (σ : Type) := σ → Except ScriptError Unit × σ

/-- A part of a `σ`, if it is there, that can be written over. Writing back what was found changes
nothing, and what was written is found again. -/
structure Part (σ α : Type) where
  /-- The part, or why there is none. -/
  find : σ → Except ScriptError α
  /-- Writes over the part. -/
  replace : σ → α → σ
  replace_find {s : σ} {a : α} : find s = .ok a → replace s a = s
  find_replace {s : σ} {a : α} (b : α) : find s = .ok a → find (replace s b) = .ok b

namespace Change

variable {σ α : Type}

/-- Fails. -/
def fail (e : ScriptError) : Change σ :=
  fun s => (.error e, s)

/-- Writes over everything, or fails to make what is to be written. -/
def write (make : σ → Except ScriptError σ) : Change σ :=
  fun s =>
    match make s with
    | .ok s => (.ok (), s)
    | .error e => (.error e, s)

/-- Changes a part. -/
def inside (part : Part σ α) (change : Change α) : Change σ :=
  fun s =>
    match part.find s with
    | .ok a =>
      let (result, a) := change a
      (result, part.replace s a)
    | .error e => (.error e, s)

end Change

end StoryScript
