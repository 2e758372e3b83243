/-
  Temp variables.

  They live in frames. A frame is added while a lambda runs and removed afterwards; the
  outermost one stays for the whole evaluation. A name means the innermost frame that
  has it.
-/
import StoryScript.Value.Basic

namespace StoryScript

/-- The temp variables of one frame. -/
abbrev Frame := DataMap Value

/-- Every frame: the inner ones, innermost first, and the outermost one. -/
structure Temps where
  inner : List Frame := []
  outer : Frame := {}

namespace Temps

/-- Every frame, innermost first. -/
def frames (t : Temps) : List Frame :=
  t.inner ++ [t.outer]

/-- The value that a name has. -/
def get? (t : Temps) (name : Key) : Option Value :=
  t.frames.findSome? (·.get? name)

/-- The frame that a name belongs to. -/
def frame? (t : Temps) (name : Key) : Option Frame :=
  t.frames.find? (·.contains name)

/-- Changes the first of several frames that has a name. -/
def changeFirst? (name : Key) (change : Frame → Frame) : List Frame → Option (List Frame)
  | [] => none
  | frame :: rest =>
    if frame.contains name then some (change frame :: rest)
    else (changeFirst? name change rest).map (frame :: ·)

/-- Changes the frame that a name belongs to. -/
def changeFrame? (t : Temps) (name : Key) (change : Frame → Frame) : Option Temps :=
  match changeFirst? name change t.inner with
  | some inner => some { t with inner }
  | none =>
    if t.outer.contains name then some { t with outer := change t.outer } else none

/-- Gives a new name a value, in the innermost frame. -/
def declare (t : Temps) (name : Key) (value : Value) : Temps :=
  match t.inner with
  | [] => { t with outer := t.outer.insert name value }
  | frame :: rest => { t with inner := frame.insert name value :: rest }

/-- Gives a name a value, in the frame that it belongs to if there is one. -/
def insert (t : Temps) (name : Key) (value : Value) : Temps :=
  (t.changeFrame? name (·.replace name value)).getD (t.declare name value)

/-- Removes a name from the frame that it belongs to. -/
def erase (t : Temps) (name : Key) : Temps :=
  (t.changeFrame? name (·.erase name)).getD t

/-- Adds an innermost frame. -/
def push (t : Temps) (frame : Frame) : Temps :=
  { t with inner := frame :: t.inner }

/-! ## The frames stay -/

theorem length_of_changeFirst? {name : Key} {change : Frame → Frame} :
    ∀ {frames frames' : List Frame}, changeFirst? name change frames = some frames' →
      frames'.length = frames.length
  | [], _, h => by simp [changeFirst?] at h
  | frame :: rest, frames', h => by
    simp only [changeFirst?] at h
    split at h
    · simp only [Option.some.injEq] at h
      simp [← h]
    · simp only [Option.map_eq_some_iff] at h
      obtain ⟨rest', hr, rfl⟩ := h
      simp [length_of_changeFirst? hr]

theorem length_of_changeFrame? {t t' : Temps} {name : Key} {change : Frame → Frame}
    (h : t.changeFrame? name change = some t') : t'.inner.length = t.inner.length := by
  simp only [changeFrame?] at h
  split at h
  · rename_i inner hi
    simp only [Option.some.injEq] at h
    simp [← h, length_of_changeFirst? hi]
  · split at h
    · simp only [Option.some.injEq] at h
      simp [← h]
    · simp at h

@[simp] theorem length_inner_declare (t : Temps) (name : Key) (value : Value) :
    (t.declare name value).inner.length = t.inner.length := by
  simp only [declare]
  split <;> simp_all

/-- Giving a name a value adds and removes no frame. -/
@[simp] theorem length_inner_insert (t : Temps) (name : Key) (value : Value) :
    (t.insert name value).inner.length = t.inner.length := by
  cases h : t.changeFrame? name (·.replace name value) with
  | none => simp [insert, h]
  | some t' => simpa [insert, h] using length_of_changeFrame? h

/-- Removing a name adds and removes no frame. -/
@[simp] theorem length_inner_erase (t : Temps) (name : Key) :
    (t.erase name).inner.length = t.inner.length := by
  cases h : t.changeFrame? name (·.erase name) with
  | none => simp [erase, h]
  | some t' => simpa [erase, h] using length_of_changeFrame? h

/-! ## Reading and writing -/

theorem get?_eq (t : Temps) (name : Key) :
    t.get? name = (t.inner.findSome? (·.get? name)).or (t.outer.get? name) := by
  rw [get?, frames, List.findSome?_append]
  cases h : t.outer.get? name <;> simp [h]

theorem changeFirst?_eq_none {name : Key} {change : Frame → Frame} {frames : List Frame}
    (h : frames.findSome? (·.get? name) = none) : changeFirst? name change frames = none := by
  induction frames with
  | nil => rfl
  | cons frame rest ih =>
    simp only [List.findSome?_eq_none_iff, List.forall_mem_cons] at h ih
    simp [changeFirst?, DataMap.contains_eq_isSome_get?, h.1, ih h.2]

/-- Writing changes the innermost frame that has the name, in which the value is then found. -/
theorem changeFirst?_replace {name : Key} {old : Value} {frames : List Frame} (value : Value)
    (h : frames.findSome? (·.get? name) = some old) :
    ∃ frames', changeFirst? name (·.replace name value) frames = some frames' ∧
      frames'.findSome? (·.get? name) = some value := by
  induction frames with
  | nil => simp at h
  | cons frame rest ih =>
    cases hf : frame.get? name with
    | none =>
      simp only [List.findSome?_cons, hf] at h
      obtain ⟨rest', hchange, hfind⟩ := ih h
      exact ⟨frame :: rest', by simp [changeFirst?, DataMap.contains_eq_isSome_get?, hf, hchange],
        by simp [hf, hfind]⟩
    | some v =>
      exact ⟨frame.replace name value :: rest,
        by simp [changeFirst?, DataMap.contains_eq_isSome_get?, hf],
        by simp [DataMap.get?_replace_of_get? value hf]⟩

theorem changeFirst?_replace_self {name : Key} {value : Value} {frames : List Frame}
    (h : frames.findSome? (·.get? name) = some value) :
    changeFirst? name (·.replace name value) frames = some frames := by
  induction frames with
  | nil => simp at h
  | cons frame rest ih =>
    cases hf : frame.get? name with
    | none =>
      simp only [List.findSome?_cons, hf] at h
      simp [changeFirst?, DataMap.contains_eq_isSome_get?, hf, ih h]
    | some v =>
      simp only [List.findSome?_cons, hf, Option.some.injEq] at h
      subst h
      simp [changeFirst?, DataMap.contains_eq_isSome_get?, hf, DataMap.replace_of_get? hf]

/-- A value that is written over another is there. -/
theorem get?_insert_of_get? {t : Temps} {name : Key} {old : Value} (value : Value)
    (h : t.get? name = some old) : (t.insert name value).get? name = some value := by
  rw [get?_eq] at h
  cases hi : t.inner.findSome? (·.get? name) with
  | none =>
    simp only [hi, Option.none_or] at h
    simp [insert, changeFrame?, changeFirst?_eq_none hi, DataMap.contains_eq_isSome_get?, h, get?_eq,
      hi, DataMap.get?_replace_of_get? value h]
  | some v =>
    obtain ⟨inner, hchange, hfind⟩ := changeFirst?_replace value hi
    simp [insert, changeFrame?, hchange, get?_eq, hfind]

/-- Writing the value that is there changes nothing. -/
theorem insert_of_get? {t : Temps} {name : Key} {value : Value} (h : t.get? name = some value) :
    t.insert name value = t := by
  rw [get?_eq] at h
  cases hi : t.inner.findSome? (·.get? name) with
  | none =>
    simp only [hi, Option.none_or] at h
    simp [insert, changeFrame?, changeFirst?_eq_none hi, DataMap.contains_eq_isSome_get?, h,
      DataMap.replace_of_get? h]
  | some v =>
    simp only [hi, Option.some_or, Option.some.injEq] at h
    subst h
    simp [insert, changeFrame?, changeFirst?_replace_self hi]

end Temps

end StoryScript
