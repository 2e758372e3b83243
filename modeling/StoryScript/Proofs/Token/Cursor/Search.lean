/-
  Searches step by step.

  The scanners that look for the end of something, such as a line, a quoted text or a tag,
  as the loops that they are: each takes one step and goes on with what the step leaves,
  which is less than it was given.
-/
import Mathlib
import StoryScript.Proofs.Token.Cursor.Mirrors
import StoryScript.Proofs.Token.Nesting

namespace StoryScript

/-! ## Texts without letters -/

namespace Text

theorem startsWithIgnoringCase_eq_isPrefixOf {word : List Char}
    (h : word.all (fun c => !c.isAlpha) = true) (cs : List Char) :
    startsWithIgnoringCase word cs = word.isPrefixOf cs := by
  induction word generalizing cs with
  | nil => simp [startsWithIgnoringCase]
  | cons w word ih =>
    cases cs with
    | nil => rfl
    | cons c cs =>
      simp only [List.all_cons, Bool.and_eq_true, Bool.not_eq_true'] at h
      rw [startsWithIgnoringCase, List.isPrefixOf, ih h.2]
      congr 1
      rw [Bool.eq_iff_iff, beq_iff_eq, beq_iff_eq]
      exact ⟨fun hsame => (eq_of_toLower_eq h.1 hsame).symm, fun hsame => by rw [hsame]⟩

/-- The byte offset of the first occurrence of `needle`. -/
def find? (needle cs : List Char) : Option Nat :=
  (splitAtFirst needle cs).map fun (before, _) => width before

/-- The byte offset of the last occurrence of `needle`. -/
def findLast? (needle cs : List Char) : Option Nat :=
  (splitAtLast needle cs).map fun (before, _) => width before

/-- The first occurrence of a character ends the run of other characters. -/
theorem splitAtFirst_singleton (c : Char) (cs : List Char) :
    (splitAtFirst [c] cs = none ∧ cs.dropWhile (· != c) = []) ∨
    ∃ after, splitAtFirst [c] cs = some (cs.takeWhile (· != c), after) ∧
      cs.dropWhile (· != c) = c :: after := by
  induction cs with
  | nil => exact .inl ⟨rfl, rfl⟩
  | cons d cs ih =>
    by_cases hd : d = c
    · subst hd
      exact .inr ⟨cs, by simp [splitAtFirst], by simp⟩
    · have hne : ¬ c = d := fun h => hd h.symm
      rcases ih with ⟨hnone, hdrop⟩ | ⟨after, hsome, hdrop⟩
      · exact .inl (by simp [splitAtFirst, hd, hne, hnone, hdrop])
      · exact .inr ⟨after, by simp [splitAtFirst, hd, hne, hsome, hdrop]⟩

end Text

namespace Scanner

/-- A literal without letters is found only as it is spelled. -/
theorem literal_of_not_prefix {word : String} {cs : List Char}
    (hword : word.toList.all (fun c => !c.isAlpha) = true) (h : ¬ word.toList <+: cs) :
    literal word cs = none := by
  rw [literal, Text.startsWithIgnoringCase_eq_isPrefixOf hword,
    if_neg (mt List.isPrefixOf_iff_prefix.1 h)]

end Scanner

/-! ## Steps of the searches -/

namespace Pattern

open Scanner

/-- One step along a line, or its end. -/
def lineStep : Scanner (Option Unit) := do
  if ← test (literal "\\\n") then
    let _ ← test (char '\\')
    return none
  else if ← test (literal "\n\\") then
    return none
  else
    let next ← peek
    if next.all (· == '\n') then return some ()
    else
      let _ ← bump
      return none

/-- To the end of a line. -/
def skipLine : Scanner Unit := fun cs => some ((), (splitLine cs).2)

theorem unrolls_skipLine (cs : List Char) : Cursor.Unrolls lineStep skipLine cs := by
  fun_cases splitLine cs with
  | case1 cs =>
    have honce : lineStep ('\\' :: '\n' :: '\\' :: cs) = some (none, cs) := rfl
    exact .goes honce (by simp only [List.length_cons]; omega) rfl
  | case2 cs hother =>
    have hback : char '\\' cs = none := by
      cases cs with
      | nil => rfl
      | cons c cs => exact if_neg fun hc => hother cs (by rw [hc])
    have hfront : literal "\\\n" ('\\' :: '\n' :: cs) = some ((), cs) := rfl
    have honce : lineStep ('\\' :: '\n' :: cs) = some (none, cs) := by
      simp [lineStep, bind_apply, map_apply, test_of_some hfront, test_of_none hback]
    refine .goes honce (by simp only [List.length_cons]; omega) ?_
    rw [skipLine, splitLine]
    · rfl
    · exact hother
  | case3 cs =>
    have honce : lineStep ('\n' :: '\\' :: cs) = some (none, cs) := rfl
    exact .goes honce (by simp only [List.length_cons]; omega) rfl
  | case4 => exact .stops rfl rfl
  | case5 cs h₁ h₂ h₃ =>
    have hfront : literal "\\\n" ('\n' :: cs) = none := rfl
    have hback : literal "\n\\" ('\n' :: cs) = none := by
      refine literal_of_not_prefix (by decide) ?_
      rintro ⟨rest, h⟩
      exact h₃ rest rfl (List.cons.inj h).2.symm
    have honce : lineStep ('\n' :: cs) = some (some (), '\n' :: cs) := by
      simp [lineStep, bind_apply, pure_apply, test_of_none hfront, test_of_none hback, peek_apply]
    refine .stops honce ?_
    rw [skipLine, splitLine, if_pos rfl]
    · exact h₁
    · exact h₂
    · exact h₃
  | case6 c cs h₁ h₂ h₃ hc =>
    have hfront : literal "\\\n" (c :: cs) = none := by
      refine literal_of_not_prefix (by decide) ?_
      rintro ⟨rest, h⟩
      obtain ⟨rfl, rfl⟩ := List.cons.inj h
      exact h₂ rest rfl rfl
    have hback : literal "\n\\" (c :: cs) = none := by
      refine literal_of_not_prefix (by decide) ?_
      rintro ⟨rest, h⟩
      exact hc (List.cons.inj h).1.symm
    have honce : lineStep (c :: cs) = some (none, cs) := by
      simp [lineStep, bind_apply, map_apply, test_of_none hfront, test_of_none hback, peek_apply,
        bump_cons, hc]
    refine .goes honce (Nat.lt_succ_self _) ?_
    rw [skipLine, splitLine, if_neg hc]
    · rfl
    · exact h₁
    · exact h₂
    · exact h₃

/-- One step of quoted text, or the quote that ends it. -/
def quotedStep (quote : Char) : Scanner (Option Unit) := do
  let c ← bump
  if c = '\\' then
    let _ ← bump
    return none
  else if c = quote then return some ()
  else return none

/-- To just past the closing `quote`. -/
def skipQuoted (quote : Char) : Scanner Unit :=
  fun cs => (splitString quote cs).map fun (_, rest) => ((), rest)

theorem unrolls_skipQuoted {quote : Char} (hquote : quote ≠ '\\') (cs : List Char) :
    Cursor.Unrolls (quotedStep quote) (skipQuoted quote) cs := by
  fun_cases splitString quote cs with
  | case1 => exact .fails rfl rfl
  | case2 c cs =>
    have honce : quotedStep quote ('\\' :: c :: cs) = some (none, cs) := rfl
    refine .goes honce (by simp only [List.length_cons]; omega) ?_
    rw [skipQuoted, skipQuoted, splitString, Option.map_map]
    rfl
  | case3 cs hback =>
    have honce : quotedStep quote (quote :: cs) = some (some (), cs) := by
      simp [quotedStep, bind_apply, bump_cons, pure_apply, hquote]
    refine .stops honce ?_
    rw [skipQuoted, splitString, if_pos rfl]
    · rfl
    · exact hback
  | case4 c cs hback hc =>
    by_cases hslash : c = '\\'
    · subst hslash
      cases cs with
      | nil => exact .fails rfl (by rw [skipQuoted, splitString, if_neg hc]; rfl; exact hback)
      | cons d cs => exact absurd rfl (hback d cs rfl)
    · have honce : quotedStep quote (c :: cs) = some (none, cs) := by
        simp [quotedStep, bind_apply, bump_cons, pure_apply, hslash, hc]
      refine .goes honce (Nat.lt_succ_self _) ?_
      rw [skipQuoted, skipQuoted, splitString, if_neg hc, Option.map_map]
      · rfl
      · exact hback

/-- One step through an old macro, or its end. -/
def oldMacroStep : Scanner (Option Unit) := do
  if ← test (literal ">>") then return some ()
  else
    let c ← bump
    if c = '\\' then
      let _ ← bump
      return none
    else if c = '\'' || c = '"' then
      skipQuoted c
      return none
    else return none

/-- To just past `>>`. -/
def skipMacro : Scanner Unit :=
  ofSplit fun cs => (skipOldMacro none cs).map fun rest => ((), rest)

/-- Inside quotes an old macro goes on like a string. -/
theorem skipOldMacro_quoted (quote : Char) (cs : List Char) :
    skipOldMacro (some quote) cs =
      (splitString quote cs).bind fun found => skipOldMacro none found.2 := by
  fun_induction splitString quote cs with
  | case1 => rfl
  | case2 c cs ih =>
    rw [skipOldMacro, ih, Option.bind_map]
    rfl
  | case3 cs hback =>
    rw [skipOldMacro, if_pos rfl]
    · rfl
    · exact hback
  | case4 c cs hback hc ih =>
    rw [skipOldMacro, if_neg hc, ih, Option.bind_map]
    · rfl
    · exact hback

theorem unrolls_skipMacro (cs : List Char) : Cursor.Unrolls oldMacroStep skipMacro cs := by
  by_cases hend : ['>', '>'] <+: cs
  · obtain ⟨rest, rfl⟩ := hend
    have honce : oldMacroStep ('>' :: '>' :: rest) = some (some (), rest) := rfl
    exact .stops honce rfl
  have hclose : literal ">>" cs = none := literal_of_not_prefix (by decide) hend
  cases cs with
  | nil => exact .fails rfl rfl
  | cons c cs =>
    have hnext (hback : ∀ d rest, c = '\\' → cs = d :: rest → False) :
        skipMacro (c :: cs) = (skipOldMacro (if c = '\'' || c = '"' then some c else none) cs).map
          fun rest => ((), rest) := by
      rw [skipMacro, ofSplit, skipOldMacro]
      · intro rest hc hcs
        exact hend ⟨rest, by rw [hc, hcs]; rfl⟩
      · exact hback
    by_cases hslash : c = '\\'
    · subst hslash
      cases cs with
      | nil => exact .fails rfl rfl
      | cons d cs =>
        have honce : oldMacroStep ('\\' :: d :: cs) = some (none, cs) := rfl
        exact .goes honce (by simp only [List.length_cons]; omega) rfl
    have hnext := hnext fun _ _ hc _ => hslash hc
    by_cases hquote : c = '\'' ∨ c = '"'
    · rw [if_pos (by simpa using hquote), skipOldMacro_quoted] at hnext
      cases hsplit : splitString c cs with
      | none =>
        refine .fails ?_ (by rw [hnext, hsplit]; rfl)
        simp [oldMacroStep, bind_apply, map_apply, test_of_none hclose, bump_cons, hslash, hquote,
          skipQuoted, hsplit]
      | some found =>
        have honce : oldMacroStep (c :: cs) = some (none, found.2) := by
          simp [oldMacroStep, bind_apply, map_apply, test_of_none hclose, bump_cons, hslash, hquote,
            skipQuoted, hsplit]
        refine .goes honce ?_ (by rw [hnext, hsplit]; rfl)
        rw [Lexer.append_of_splitString hsplit]
        simp only [List.length_cons, List.length_append]
        omega
    · rw [if_neg (by simpa using hquote)] at hnext
      have honce : oldMacroStep (c :: cs) = some (none, cs) := by
        simp [oldMacroStep, bind_apply, pure_apply, test_of_none hclose, bump_cons, hslash, hquote]
      exact .goes honce (Nat.lt_succ_self _) hnext

/-- One step towards a closing tag, or the tag. -/
def closeStep (word : String) : Scanner (Option Unit) := do
  if ← test (literal word) then return some ()
  else
    let _ ← bump
    return none

/-- To just past a closing tag. -/
def skipClose (word : String) : Scanner Unit :=
  ofSplit fun cs => (skipPast word.toList cs).map fun rest => ((), rest)

theorem unrolls_skipClose (word : String) (cs : List Char) :
    Cursor.Unrolls (closeStep word) (skipClose word) cs := by
  have hnil : skipPast word.toList [] =
      if Text.startsWithIgnoringCase word.toList [] then some [] else none := by
    cases word.toList <;> rfl
  by_cases hword : Text.startsWithIgnoringCase word.toList cs = true
  · have hread : literal word cs = some ((), cs.drop word.length) := by
      rw [literal, if_pos hword]
    have honce : closeStep word cs = some (some (), cs.drop word.length) := by
      simp [closeStep, bind_apply, pure_apply, test_of_some hread]
    refine .stops honce ?_
    cases cs with
    | nil =>
      rw [skipClose, ofSplit, hnil, if_pos hword, List.drop_nil]
      rfl
    | cons c cs =>
      rw [skipClose, ofSplit, skipPast, if_pos hword]
      rfl
  · have hread : literal word cs = none := by rw [literal, if_neg hword]
    cases cs with
    | nil =>
      refine .fails ?_ (by rw [skipClose, ofSplit, hnil, if_neg hword]; rfl)
      simp [closeStep, bind_apply, map_apply, test_of_none hread, bump, satisfy]
    | cons c cs =>
      have honce : closeStep word (c :: cs) = some (none, cs) := by
        simp [closeStep, bind_apply, map_apply, test_of_none hread, bump_cons]
      refine .goes honce (Nat.lt_succ_self _) ?_
      rw [skipClose, ofSplit, skipPast, if_neg hword]

/-- One step through a tag, or its end. Quoted text is one step. -/
def tagStep : Scanner (Option Unit) := do
  let c ← bump
  if c = '>' then return some ()
  else if c = '<' || c = '\n' then failure
  else if c = '\'' || c = '"' then
    let _ ← takeWhile (· != c)
    let _ ← bump
    return none
  else return none

/-- To just past the `>` that ends a tag. -/
def skipTagEnd : Scanner Unit :=
  ofSplit fun cs => (skipTag none cs).map fun rest => ((), rest)

/-- Inside quotes a tag goes on to the closing quote. -/
theorem skipTag_quoted (quote : Char) (cs : List Char) :
    skipTag (some quote) cs =
      (bump (cs.dropWhile (· != quote))).bind fun found => skipTag none found.2 := by
  induction cs with
  | nil => rfl
  | cons c cs ih =>
    by_cases hc : c = quote
    · rw [skipTag, if_pos hc, List.dropWhile_cons_of_neg (by simp [hc])]
      rfl
    · rw [skipTag, if_neg hc, List.dropWhile_cons_of_pos (by simp [hc]), ih]

theorem unrolls_skipTagEnd (cs : List Char) : Cursor.Unrolls tagStep skipTagEnd cs := by
  cases cs with
  | nil => exact .fails rfl rfl
  | cons c cs =>
    by_cases hend : c = '>'
    · subst hend
      have honce : tagStep ('>' :: cs) = some (some (), cs) := rfl
      exact .stops honce rfl
    by_cases hbreak : c = '<' ∨ c = '\n'
    · refine .fails ?_ ?_
      · simp [tagStep, bind_apply, bump_cons, hend, hbreak, failure, StateT.failure]
      · rw [skipTagEnd, ofSplit, skipTag, if_neg hend, if_pos (by simpa using hbreak)]
        rfl
    by_cases hquote : c = '\'' ∨ c = '"'
    · have hnext : skipTagEnd (c :: cs) =
          (bump (cs.dropWhile (· != c))).bind fun found => skipTagEnd found.2 := by
        rw [skipTagEnd, ofSplit, skipTag, if_neg hend, if_neg (by simpa using hbreak),
          if_pos (by simpa using hquote), skipTag_quoted]
        cases bump (cs.dropWhile (· != c)) <;> rfl
      cases hclose : cs.dropWhile (· != c) with
      | nil =>
        refine .fails ?_ (by rw [hnext, hclose]; rfl)
        simp [tagStep, bind_apply, map_apply, hend, hbreak, hquote, takeWhile, hclose, bump, satisfy]
      | cons d rest =>
        have honce : tagStep (c :: cs) = some (none, rest) := by
          simp [tagStep, bind_apply, map_apply, bump_cons, hend, hbreak, hquote, takeWhile, hclose]
        refine .goes honce ?_ (by rw [hnext, hclose]; rfl)
        have hle := (List.dropWhile_sublist (· != c) (l := cs)).length_le
        rw [hclose, List.length_cons] at hle
        rw [List.length_cons]
        omega
    · have honce : tagStep (c :: cs) = some (none, cs) := by
        simp [tagStep, bind_apply, pure_apply, bump_cons, hend, hbreak, hquote]
      refine .goes honce (Nat.lt_succ_self _) ?_
      rw [skipTagEnd, ofSplit, skipTag, if_neg hend, if_neg (by simpa using hbreak),
        if_neg (by simpa using hquote)]

/-- What the parts of a link between its brackets tell. -/
def linkFound (inner : List Char) : Scanner (Detail × Option Inside) :=
  match splitLink inner with
  | none => failure
  | some (lead, text, passage) =>
    return ({ passage := some (String.ofList passage) },
      some { lead := '[' :: '[' :: lead, body := text })

/-- One step through the text of a link, or its end. -/
def linkStep : Scanner (Option Unit) := do
  let next ← peek
  let second ← peekSecond
  if next.all (· == '|') || (next == some ']' && second == some ']') then return some ()
  else
    let _ ← bump
    return none

/-- To the end of the text of a link. -/
def skipLinkText : Scanner Unit := fun cs => some ((), (splitLinkText cs).2)

theorem unrolls_skipLinkText (cs : List Char) : Cursor.Unrolls linkStep skipLinkText cs := by
  fun_cases splitLinkText cs with
  | case1 => exact .stops rfl rfl
  | case2 cs => exact .stops rfl rfl
  | case3 cs hother =>
    have honce : linkStep ('|' :: cs) = some (some (), '|' :: cs) := rfl
    refine .stops honce ?_
    rw [skipLinkText, splitLinkText, if_pos rfl]
    exact hother
  | case4 c cs hother hc =>
    have hgo : ¬ (c = ']' ∧ cs[0]? = some ']') := by
      rintro ⟨hc, hcs⟩
      cases cs with
      | nil => cases hcs
      | cons d cs => exact hother cs hc (by rw [Option.some.inj hcs])
    have honce : linkStep (c :: cs) = some (none, cs) := by
      simp [linkStep, bind_apply, map_apply, peek_apply, peekSecond_apply, bump_cons, hc, hgo]
    refine .goes honce (Nat.lt_succ_self _) ?_
    rw [skipLinkText, splitLinkText, if_neg hc]
    · rfl
    · exact hother

end Pattern

end StoryScript
