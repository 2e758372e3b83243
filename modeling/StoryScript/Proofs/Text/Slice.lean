/-
  Slices of a text by byte offsets.

  Offsets count bytes, and a slice exists only between offsets at which characters
  start. `slice?_eq_some_iff` says which text a slice is: what stands after a part as
  wide as the first offset and reaches to the second.
-/
import StoryScript.Text.Width

namespace StoryScript.Text

/-- Splits a text after a number of bytes, if a character starts there. -/
def splitBytes? : Nat → List Char → Option (List Char × List Char)
  | 0, cs => some ([], cs)
  | _ + 1, [] => none
  | n + 1, c :: cs =>
    if c.utf8Size ≤ n + 1 then
      (splitBytes? (n + 1 - c.utf8Size) cs).map fun (before, after) => (c :: before, after)
    else none

/-- The text between two byte offsets, if characters start at both. -/
def slice? (cs : List Char) (start stop : Nat) : Option (List Char) :=
  if start ≤ stop then do
    let (_, after) ← splitBytes? start cs
    let (slice, _) ← splitBytes? (stop - start) after
    return slice
  else none

theorem splitBytes?_append (a b : List Char) : splitBytes? (width a) (a ++ b) = some (a, b) := by
  induction a with
  | nil => cases b <;> rfl
  | cons c cs ih =>
    have hpos := c.utf8Size_pos
    obtain ⟨n, hn⟩ : ∃ n, width (c :: cs) = n + 1 := ⟨width (c :: cs) - 1, by simp; omega⟩
    rw [hn, List.cons_append, splitBytes?]
    rw [width_cons] at hn
    rw [if_pos (by omega), show n + 1 - c.utf8Size = width cs by omega, ih]
    rfl

theorem append_of_splitBytes? :
    ∀ {n : Nat} {cs a b : List Char}, splitBytes? n cs = some (a, b) → cs = a ++ b ∧ n = width a
  | 0, cs, a, b, h => by
    rw [splitBytes?, Option.some.injEq, Prod.mk.injEq] at h
    obtain ⟨rfl, rfl⟩ := h
    exact ⟨rfl, rfl⟩
  | _ + 1, [], _, _, h => by simp [splitBytes?] at h
  | n + 1, c :: cs, a, b, h => by
    rw [splitBytes?] at h
    split at h
    · simp only [Option.map_eq_some_iff, Prod.exists, Prod.mk.injEq] at h
      obtain ⟨a', b', h, rfl, rfl⟩ := h
      obtain ⟨rfl, hn⟩ := append_of_splitBytes? h
      refine ⟨rfl, ?_⟩
      rw [width_cons]
      omega
    · simp at h

/-- The slice between two offsets is what stands between a part as wide as the first offset and
the second offset. -/
theorem slice?_eq_some_iff {cs slice : List Char} {start stop : Nat} :
    slice? cs start stop = some slice ↔
      ∃ before after, cs = before ++ slice ++ after ∧ start = width before ∧
        stop = start + width slice := by
  constructor
  · intro h
    simp only [slice?] at h
    split at h
    · simp only [Option.bind_eq_bind, Option.bind_eq_some_iff, Prod.exists, Option.pure_def,
        Option.some.injEq] at h
      obtain ⟨before, after, h₁, slice', after', h₂, rfl⟩ := h
      obtain ⟨rfl, hstart⟩ := append_of_splitBytes? h₁
      obtain ⟨rfl, hstop⟩ := append_of_splitBytes? h₂
      exact ⟨before, after', by rw [List.append_assoc], hstart, by omega⟩
    · simp at h
  · rintro ⟨before, after, rfl, rfl, rfl⟩
    simp [slice?, List.append_assoc, splitBytes?_append]

end StoryScript.Text
