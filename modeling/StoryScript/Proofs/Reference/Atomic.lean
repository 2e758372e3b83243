/-
  Failed changes leave the variables alone.

  A change works in place, and a failure undoes nothing, so this is a property of how
  changes are put together. A change that writes once, and nothing after that can fail,
  is atomic. A change inside a part is atomic if the change of the part is, because
  writing back what was found changes nothing. Every walk of a reference is made of
  these two.
-/
import Mathlib
import StoryScript.Reference

namespace StoryScript

namespace Change

variable {σ α : Type}

/-- A change that leaves everything as it was if it fails. -/
def Atomic (change : Change σ) : Prop :=
  ∀ s e, (change s).1 = .error e → (change s).2 = s

theorem atomic_fail (e : ScriptError) : (fail e : Change σ).Atomic :=
  fun _ _ _ => rfl

theorem atomic_write (make : σ → Except ScriptError σ) : (write make).Atomic := by
  intro s e h
  cases hmake : make s with
  | ok s' => simp [write, hmake] at h
  | error e' => simp [write, hmake]

theorem Atomic.inside {change : Change α} (h : change.Atomic) (part : Part σ α) :
    (Change.inside part change).Atomic := by
  intro s e hfailed
  cases hfind : part.find s with
  | error e' => simp [Change.inside, hfind]
  | ok a =>
    simp only [Change.inside, hfind] at hfailed ⊢
    -- the part is as it was, and it is written back
    rw [h a e hfailed, part.replace_find hfind]

end Change

theorem Value.atomic_changeAt {change : Change Value} (h : change.Atomic) (keys : List Key) :
    (changeAt change keys).Atomic := by
  induction keys with
  | nil => exact h
  | cons key keys ih => exact ih.inside (child key)

namespace Reference

theorem atomic_change (r : Reference Value) (whole : Context → Except ScriptError Context)
    (property : Value → Except ScriptError Value) : (r.change whole property).Atomic := by
  unfold change
  split
  · exact Change.atomic_write whole
  · exact (Value.atomic_changeAt (Change.atomic_write property) _).inside _

theorem atomic_set (r : Reference Value) (v : Value) : Change.Atomic (r.set · v) := by
  unfold set
  split
  · exact r.atomic_change _ _
  · exact Change.atomic_fail _

theorem atomic_delete (r : Reference Value) : Change.Atomic r.delete :=
  r.atomic_change _ _

end Reference

/-! ## Assignments -/

/-- The value that an assignment stores. -/
def Assignment.value (a : Assignment Value) (c : Context) : Value :=
  match a.op with
  | .setTo | .putInto => a.src
  | .augmented op => op.apply (a.dest.get c) a.src

/-- Performing an assignment is a write in a context that has at most `it` changed. -/
theorem Assignment.run_perform (a : Assignment Value) (c : Context) :
    ∃ it, a.perform.run c = a.dest.set { c with it } (a.value c) := by
  cases hop : a.op with
  | setTo => exact ⟨c.it, by simp only [perform, value, hop]; rfl⟩
  | putInto => exact ⟨c.it, by simp only [perform, value, hop]; rfl⟩
  | augmented op =>
    have hbinary := Eval.run_binary op (a.dest.get c) a.src c
    refine ⟨((Eval.binary op (a.dest.get c) a.src).run c).2.it, ?_⟩
    have hstate : ((Eval.binary op (a.dest.get c) a.src).run c).2 =
        { c with it := ((Eval.binary op (a.dest.get c) a.src).run c).2.it } := by
      rw [hbinary]
      split <;> rfl
    have hvalue : ((Eval.binary op (a.dest.get c) a.src).run c).1 = a.value c := by
      rw [hbinary]
      simp only [value, hop]
    rw [← hstate, ← hvalue]
    simp only [perform, hop]
    rfl

/-- Failed changes are atomic: a write or a deletion that fails leaves the whole context as it was,
and an assignment that fails all of it but `it`. -/
theorem unchanged_of_failed (c : Context) (e : ScriptError) :
    (∀ (r : Reference Value) (v : Value), (r.set c v).1 = .error e → (r.set c v).2 = c) ∧
    (∀ r : Reference Value, (r.delete c).1 = .error e → (r.delete c).2 = c) ∧
    ∀ a : Assignment Value, (a.perform.run c).1 = .error e →
      ∃ it, (a.perform.run c).2 = { c with it } := by
  refine ⟨?_, ?_, ?_⟩
  · intro r v h
    exact r.atomic_set v c e h
  · intro r h
    exact r.atomic_delete c e h
  · intro a h
    obtain ⟨it, hrun⟩ := a.run_perform c
    rw [hrun] at h ⊢
    exact ⟨it, a.dest.atomic_set (a.value c) { c with it } e h⟩

namespace Reference

/-- A story with a string inside an array. -/
def nestedStory : Context :=
  { story := { entries := [(.string "list", .array [.number 1, .string "ab"])], isSealed := true } }

/-- The last character of the string in `nestedStory`. -/
def lastCharacter : Reference Value :=
  { base := .story, path := [.string "list", .number 1], property := .number 1 }

/-- The assignment to `lastCharacter` of whether it is a `b`. -/
def comparing : Assignment Value :=
  { dest := lastCharacter, src := .string "b", op := .augmented .is }

theorem value_comparing : comparing.value nestedStory = .boolean true := by
  have hget : lastCharacter.get nestedStory = .string "b" := rfl
  simp only [comparing, Assignment.value, hget]
  rfl

end Reference

open Reference in
/-- A number cannot take the place of a character, and a character cannot be deleted. Nor can the
result of a comparison be stored there, though the comparison has set `it` by then. -/
theorem unchanged_of_failed_nestedStory :
    (lastCharacter.set nestedStory (.number 2)).1 =
      .error (.notSingleCharacter (.number 2)) ∧
    (lastCharacter.set nestedStory (.number 2)).2 = nestedStory ∧
    (lastCharacter.delete nestedStory).1 =
      .error (.cannotDelete (.string "ab") (.number 1)) ∧
    (lastCharacter.delete nestedStory).2 = nestedStory ∧
    (comparing.perform.run nestedStory).1 = .error (.notSingleCharacter (.boolean true)) ∧
    ∃ it, (comparing.perform.run nestedStory).2 = { nestedStory with it } := by
  have hperform : (comparing.perform.run nestedStory).1 =
      .error (.notSingleCharacter (.boolean true)) := by
    obtain ⟨it, hrun⟩ := comparing.run_perform nestedStory
    rw [hrun, value_comparing]
    rfl
  refine ⟨rfl, ?_, rfl, ?_, hperform, ?_⟩
  · exact (unchanged_of_failed nestedStory _).1 lastCharacter (.number 2) rfl
  · exact (unchanged_of_failed nestedStory _).2.1 lastCharacter rfl
  · exact (unchanged_of_failed nestedStory _).2.2 comparing hperform

end StoryScript
