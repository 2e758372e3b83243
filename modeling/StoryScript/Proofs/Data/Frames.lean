/-
  Frames of temp variables.

  Writing a name changes one frame, its home: the innermost one that has the name, or
  the innermost of all if none has it. So which frame is written, and that every other
  frame stays, is one equation on the list of frames.
-/
import Mathlib
import StoryScript.Proofs.Data.Entries
import StoryScript.Temps

namespace StoryScript.Temps

/-- The number of the frame that a name is written to, counted from the innermost. -/
def home (t : Temps) (name : Key) : Nat :=
  (t.frames.findIdx? (·.contains name)).getD 0

/-- A frame with a name written in it: over the value it has there, or as a new name. -/
def writeIn (name : Key) (value : Value) (frame : Frame) : Frame :=
  if frame.contains name then frame.replace name value else frame.insert name value

theorem agreeBut_writeIn (name : Key) (value : Value) (frame : Frame) :
    frame.AgreeBut name (writeIn name value frame) := by
  rw [writeIn]
  split
  · exact frame.agreeBut_replace name value
  · exact frame.agreeBut_insert name value

theorem get?_writeIn (name : Key) (value : Value) (frame : Frame) :
    (writeIn name value frame).get? name = some value := by
  rw [writeIn]
  split
  · rename_i hname
    rw [DataMap.contains_eq_isSome_get?, Option.isSome_iff_exists] at hname
    obtain ⟨old, hold⟩ := hname
    exact DataMap.get?_replace_of_get? value hold
  · exact frame.get?_insert_self name value

theorem changeFirst?_eq (name : Key) (change : Frame → Frame) (frames : List Frame) :
    changeFirst? name change frames =
      (frames.findIdx? (·.contains name)).map (frames.modify · change) := by
  induction frames with
  | nil => rfl
  | cons frame rest ih =>
    cases h : frame.contains name with
    | true => simp [changeFirst?, h, List.findIdx?_cons]
    | false =>
      rw [changeFirst?, h, if_neg Bool.false_ne_true, ih, List.findIdx?_cons, h]
      cases rest.findIdx? (·.contains name) <;> simp

theorem changeFirst?_append (name : Key) (change : Frame → Frame) (frames others : List Frame) :
    changeFirst? name change (frames ++ others) =
      ((changeFirst? name change frames).map (· ++ others)).or
        ((changeFirst? name change others).map (frames ++ ·)) := by
  induction frames with
  | nil => simp [changeFirst?]
  | cons frame rest ih =>
    cases h : frame.contains name with
    | true => simp [changeFirst?, h]
    | false =>
      rw [List.cons_append, changeFirst?, changeFirst?, h, if_neg Bool.false_ne_true,
        if_neg Bool.false_ne_true, ih, Option.map_or]
      simp [Function.comp_def]

/-- Only a frame that has the name is changed. -/
theorem changeFirst?_replace_eq (name : Key) (value : Value) (frames : List Frame) :
    changeFirst? name (·.replace name value) frames = changeFirst? name (writeIn name value) frames := by
  induction frames with
  | nil => rfl
  | cons frame rest ih => cases h : frame.contains name <;> simp [changeFirst?, writeIn, h, ih]

/-- Writing a name writes to its home and leaves the other frames alone. -/
theorem frames_insert (t : Temps) (name : Key) (value : Value) :
    (t.insert name value).frames = t.frames.modify (t.home name) (writeIn name value) := by
  have hfirst := changeFirst?_append name (writeIn name value) t.inner [t.outer]
  rw [← frames, changeFirst?_eq] at hfirst
  rw [insert, changeFrame?, home, changeFirst?_replace_eq]
  cases hinner : changeFirst? name (writeIn name value) t.inner with
  | some inner =>
    rw [hinner, Option.map_some, Option.some_or, Option.map_eq_some_iff] at hfirst
    obtain ⟨i, hi, hmodify⟩ := hfirst
    rw [hi]
    exact hmodify.symm
  | none =>
    cases ho : t.outer.contains name with
    | true =>
      have hwrite : writeIn name value t.outer = t.outer.replace name value := by
        rw [writeIn, ho, if_pos rfl]
      simp only [hinner, changeFirst?, ho, if_true, Option.map_none, Option.none_or,
        Option.map_some, Option.map_eq_some_iff, hwrite] at hfirst
      obtain ⟨i, hi, hmodify⟩ := hfirst
      rw [hi]
      exact hmodify.symm
    | false =>
      -- no frame has the name, so it goes to the innermost one
      have hnone : t.frames.findIdx? (·.contains name) = none := by
        simpa [hinner, changeFirst?, ho] using hfirst
      have habsent : ∀ frame ∈ t.frames, frame.contains name = false :=
        List.findIdx?_eq_none_iff.1 hnone
      rw [hnone]
      cases hi : t.inner with
      | nil => simp [frames, declare, hi, writeIn, ho]
      | cons frame rest =>
        have hf : frame.contains name = false := habsent frame (by simp [frames, hi])
        simp [frames, declare, hi, writeIn, hf]

/-- Temp variables that agree in all but what one name leads to: it is the same in every frame but
the home of the name, and there all other names are. -/
structure AgreeBut (name : Key) (t t' : Temps) : Prop where
  length : t'.frames.length = t.frames.length
  elsewhere : ∀ i, i ≠ t.home name → t'.frames[i]? = t.frames[i]?
  atHome : ∀ frame frame', t.frames[t.home name]? = some frame →
    t'.frames[t.home name]? = some frame' → frame.AgreeBut name frame'

theorem agreeBut_insert (t : Temps) (name : Key) (value : Value) :
    t.AgreeBut name (t.insert name value) where
  length := by rw [frames_insert, List.length_modify]
  elsewhere i hi := by rw [frames_insert, List.getElem?_modify_ne _ _ (Ne.symm hi)]
  atHome frame frame' h h' := by
    rw [frames_insert, List.getElem?_modify_eq, h] at h'
    obtain rfl : writeIn name value frame = frame' := by simpa using h'
    exact agreeBut_writeIn name value frame

/-- What was written is found. -/
theorem get?_insert_self (t : Temps) (name : Key) (value : Value) :
    (t.insert name value).get? name = some value := by
  cases hget : t.get? name with
  | some old => exact get?_insert_of_get? value hget
  | none =>
    have habsent : ∀ frame ∈ t.frames, frame.contains name = false := by
      intro frame hframe
      rw [DataMap.contains_eq_isSome_get?, List.findSome?_eq_none_iff.1 hget frame hframe]
      rfl
    have hhome : t.home name = 0 := by
      rw [home, List.findIdx?_eq_none_iff.2 habsent, Option.getD_none]
    rw [get?, frames_insert, hhome]
    cases hframes : t.frames with
    | nil => simp [frames] at hframes
    | cons frame rest => simp [get?_writeIn]

end StoryScript.Temps
