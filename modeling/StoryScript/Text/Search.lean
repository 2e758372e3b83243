/-
  Looking for one text inside another, over lists of characters.
-/
namespace StoryScript.Text

/-- What stands before and after the first occurrence of `needle`. -/
def splitAtFirst (needle : List Char) : List Char → Option (List Char × List Char)
  | [] => if needle.isEmpty then some ([], []) else none
  | c :: cs =>
    if needle.isPrefixOf (c :: cs) then some ([], (c :: cs).drop needle.length)
    else (splitAtFirst needle cs).map fun (before, after) => (c :: before, after)

/-- What stands before and after the last occurrence of `needle`. -/
def splitAtLast (needle : List Char) : List Char → Option (List Char × List Char)
  | [] => if needle.isEmpty then some ([], []) else none
  | c :: cs =>
    match splitAtLast needle cs with
    | some (before, after) => some (c :: before, after)
    | none =>
      if needle.isPrefixOf (c :: cs) then some ([], (c :: cs).drop needle.length) else none

/-- Whether `needle` occurs in the text. -/
def occursIn (needle cs : List Char) : Bool :=
  (splitAtFirst needle cs).isSome

/-- Drops `skip` characters, then removes every occurrence of `needle`, leftmost first. -/
def eraseFrom (needle : List Char) : (skip : Nat) → List Char → List Char
  | _, [] => []
  | skip + 1, _ :: cs => eraseFrom needle skip cs
  | 0, c :: cs =>
    if needle.isPrefixOf (c :: cs) then eraseFrom needle (needle.length - 1) cs
    else c :: eraseFrom needle 0 cs

/-- Removes every occurrence of `needle`; an empty `needle` removes nothing. -/
def erase (needle cs : List Char) : List Char :=
  if needle.isEmpty then cs else eraseFrom needle 0 cs

theorem prefix_append_drop {needle cs : List Char} (h : needle.isPrefixOf cs = true) :
    needle ++ cs.drop needle.length = cs := by
  obtain ⟨rest, rfl⟩ := List.isPrefixOf_iff_prefix.1 h
  simp

/-- The parts around the first occurrence put the text together again. -/
theorem append_of_splitAtFirst {needle : List Char} :
    ∀ {cs before after}, splitAtFirst needle cs = some (before, after) →
      before ++ needle ++ after = cs
  | [], before, after, h => by
    simp only [splitAtFirst] at h
    split at h
    · simp_all
    · simp at h
  | c :: cs, before, after, h => by
    simp only [splitAtFirst] at h
    split at h
    · rename_i hp
      simp only [Option.some.injEq, Prod.mk.injEq] at h
      obtain ⟨rfl, rfl⟩ := h
      simpa using prefix_append_drop hp
    · simp only [Option.map_eq_some_iff, Prod.exists, Prod.mk.injEq] at h
      obtain ⟨b, a, hba, rfl, rfl⟩ := h
      simpa using append_of_splitAtFirst hba

/-- The parts around the last occurrence put the text together again. -/
theorem append_of_splitAtLast {needle : List Char} :
    ∀ {cs before after}, splitAtLast needle cs = some (before, after) →
      before ++ needle ++ after = cs
  | [], before, after, h => by
    simp only [splitAtLast] at h
    split at h
    · simp_all
    · simp at h
  | c :: cs, before, after, h => by
    simp only [splitAtLast] at h
    split at h
    · rename_i hba
      simp only [Option.some.injEq, Prod.mk.injEq] at h
      obtain ⟨rfl, rfl⟩ := h
      simpa using append_of_splitAtLast hba
    · split at h
      · rename_i hp
        simp only [Option.some.injEq, Prod.mk.injEq] at h
        obtain ⟨rfl, rfl⟩ := h
        simpa using prefix_append_drop hp
      · simp at h

end StoryScript.Text
