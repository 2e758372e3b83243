/-
  What a match is made of.

  A pattern that leaves text to be lexed leaves a stretch of its own match: the lead
  stands before the body, and something closes it. So the offset of the body in the
  source is the offset of the match plus the width of the lead.
-/
import Mathlib
import StoryScript.Token.Rule

namespace StoryScript

/-! ## Literals without letters -/

namespace Text

/-- A character that is no letter has one spelling. -/
theorem eq_of_toLower_eq {w c : Char} (hw : w.isAlpha = false) (h : w.toLower = c.toLower) :
    c = w := by
  have halpha : c.isAlpha = false := by
    rw [← Char.isAlpha_toLower_eq_isAlpha, ← h, Char.isAlpha_toLower_eq_isAlpha, hw]
  have hupper {d : Char} (hd : d.isAlpha = false) : ¬ d.isUpper = true := by
    intro hu
    simp [Char.isAlpha, hu] at hd
  rw [Char.toLower_eq_of_not_isUpper (hupper hw), Char.toLower_eq_of_not_isUpper (hupper halpha)]
    at h
  exact h.symm

/-- A text without letters is found only as it is spelled. -/
theorem append_of_startsWithIgnoringCase :
    ∀ {word cs : List Char}, word.all (fun c => !c.isAlpha) = true →
      startsWithIgnoringCase word cs = true → word ++ cs.drop word.length = cs
  | [], cs, _, _ => by simp
  | _ :: _, [], _, h => by simp [startsWithIgnoringCase] at h
  | w :: word, c :: cs, hw, h => by
    simp only [List.all_cons, Bool.and_eq_true, Bool.not_eq_true'] at hw
    simp only [startsWithIgnoringCase, Bool.and_eq_true, beq_iff_eq] at h
    rw [eq_of_toLower_eq hw.1 h.1, List.length_cons, List.drop_succ_cons, List.cons_append,
      append_of_startsWithIgnoringCase hw.2 h.2]

end Text

/-! ## What scanners consume -/

namespace Scanner

theorem append_of_satisfy {p : Char → Bool} {cs rest : List Char} {c : Char}
    (h : satisfy p cs = some (c, rest)) : cs = c :: rest ∧ p c = true := by
  cases cs with
  | nil => simp [satisfy] at h
  | cons d cs =>
    simp only [satisfy] at h
    split at h
    · rename_i hp
      simp only [Option.some.injEq, Prod.mk.injEq] at h
      obtain ⟨rfl, rfl⟩ := h
      exact ⟨rfl, hp⟩
    · simp at h

theorem append_of_char {c : Char} {cs rest : List Char} {u : Unit}
    (h : char c cs = some (u, rest)) : cs = c :: rest := by
  cases cs with
  | nil => simp [char] at h
  | cons d cs =>
    simp only [char] at h
    split at h
    · rename_i hd
      simp only [Option.some.injEq, Prod.mk.injEq, true_and] at h
      rw [hd, h]
    · simp at h

theorem append_of_takeWhile {p : Char → Bool} {cs run rest : List Char}
    (h : takeWhile p cs = some (run, rest)) : cs = run ++ rest := by
  simp only [takeWhile, Option.some.injEq, Prod.mk.injEq] at h
  rw [← h.1, ← h.2, List.takeWhile_append_dropWhile]

theorem append_of_takeWhile1 {p : Char → Bool} {cs run rest : List Char}
    (h : takeWhile1 p cs = some (run, rest)) : cs = run ++ rest := by
  simp only [takeWhile1, bind_eq_some, require_eq_some, pure_eq_some] at h
  obtain ⟨_, _, hb, _, _, ⟨-, rfl⟩, rfl, rfl⟩ := h
  exact append_of_takeWhile hb

/-- A literal without letters consumes exactly itself. -/
theorem append_of_literal {word : String} {cs rest : List Char} {u : Unit}
    (hw : word.toList.all (fun c => !c.isAlpha) = true)
    (h : literal word cs = some (u, rest)) : cs = word.toList ++ rest := by
  simp only [literal] at h
  split at h
  · rename_i hs
    simp only [Option.some.injEq, Prod.mk.injEq, true_and] at h
    rw [← h, ← String.length_toList, Text.append_of_startsWithIgnoringCase hw hs]
  · simp at h

theorem append_of_endOfLine {cs rest : List Char} {u : Unit}
    (h : endOfLine cs = some (u, rest)) : ∃ used, cs = used ++ rest := by
  rcases orElse_eq_some.1 h with h | ⟨-, h⟩
  · exact ⟨['\n'], append_of_char h⟩
  · simp only [atEnd] at h
    split at h
    · simp only [Option.some.injEq, Prod.mk.injEq, true_and] at h
      exact ⟨[], h⟩
    · simp at h

end Scanner

/-! ## Stretches of a match -/

namespace Pattern

open Scanner

/-- What a pattern leaves to be lexed stands in its match, after the lead. -/
def Encloses (p : Pattern) : Prop :=
  ∀ source detail inside rest, p.scan source = some ((detail, some inside), rest) →
    ∃ trail, source = inside.lead ++ inside.body ++ trail ++ rest

theorem encloses_of_isLeaf {p : Pattern} (hp : p.isLeaf = true) : p.Encloses := by
  intro source detail inside rest h
  cases p with
  | nest => simp [isLeaf] at hp
  | leaf s =>
    simp only [Pattern.scan, bind_eq_some, pure_eq_some, Prod.mk.injEq] at h
    obtain ⟨_, _, -, ⟨-, hi⟩, -⟩ := h
    simp at hi

theorem encloses_markedLine {marks : List Char → List Char × List Char}
    {gap : Scanner (List Char)} {depth : List Char → Nat}
    (hmarks : ∀ cs, (marks cs).1 ++ (marks cs).2 = cs)
    (hgap : ∀ {cs space rest}, gap cs = some (space, rest) → cs = space ++ rest) :
    (Pattern.nest (markedLine marks gap depth)).Encloses := by
  intro source detail inside rest h
  simp only [scan, markedLine, bind_eq_some, require_eq_some, pure_eq_some, ofSplit,
    Function.comp_apply, Option.some.injEq, Prod.mk.injEq] at h
  obtain ⟨indent, r₁, h₁, mark, r₂, h₂, _, _, ⟨-, rfl⟩, space, r₃, h₃, body, r₄, h₄, _, _,
    ⟨-, rfl⟩, _, r₅, h₅, ⟨-, rfl⟩, rfl⟩ := h
  obtain ⟨ending, hending⟩ := append_of_endOfLine h₅
  have hmark : r₁ = mark ++ r₂ := by rw [← hmarks r₁, h₂]
  have hbody : r₃ = body ++ r₄ := by rw [← splitLine_append r₃, h₄]
  refine ⟨ending, ?_⟩
  rw [append_of_takeWhile h₁, hmark, hgap h₃, hbody, hending]
  simp only [List.append_assoc]

theorem encloses_bulleted : bulleted.Encloses :=
  encloses_markedLine (fun _ => List.takeWhile_append_dropWhile) append_of_takeWhile1

theorem encloses_numbered : numbered.Encloses :=
  encloses_markedLine splitZeroDots_append append_of_takeWhile1

theorem encloses_heading : heading.Encloses :=
  encloses_markedLine (splitAtMost_append _ _) append_of_takeWhile

/-- The shown part of a link stands between its brackets, after the lead. -/
theorem append_of_splitLink {inner lead text passage : List Char}
    (h : splitLink inner = some (lead, text, passage)) : ∃ trail, inner = lead ++ text ++ trail := by
  simp only [splitLink] at h
  split at h
  · rename_i ha hb
    split at h
    · simp only [Option.some.injEq, Prod.mk.injEq] at h
      obtain ⟨rfl, rfl, rfl⟩ := h
      exact ⟨['|'] ++ _, by simpa using (Text.append_of_splitAtLast hb).symm⟩
    · simp only [Option.some.injEq, Prod.mk.injEq] at h
      obtain ⟨rfl, rfl, rfl⟩ := h
      exact ⟨['-', '>'] ++ _, by simpa using (Text.append_of_splitAtLast ha).symm⟩
  · rename_i ha hb
    simp only [Option.some.injEq, Prod.mk.injEq] at h
    obtain ⟨rfl, rfl, rfl⟩ := h
    exact ⟨['-', '>'] ++ _, by simpa using (Text.append_of_splitAtLast ha).symm⟩
  · rename_i ha hb
    simp only [Option.some.injEq, Prod.mk.injEq] at h
    obtain ⟨rfl, rfl, rfl⟩ := h
    exact ⟨['|'] ++ _, by simpa using (Text.append_of_splitAtLast hb).symm⟩
  · simp only [Option.map_eq_some_iff, Prod.mk.injEq, Prod.exists] at h
    obtain ⟨before, after, hab, rfl, rfl, rfl⟩ := h
    exact ⟨[], by simpa using (Text.append_of_splitAtFirst hab).symm⟩

theorem append_of_linkText {cs text rest : List Char} (h : linkText cs = some (text, rest)) :
    cs = text ++ rest := by
  simp only [linkText, bind_eq_some, require_eq_some, pure_eq_some, ofSplit, Function.comp_apply,
    Option.some.injEq] at h
  obtain ⟨_, _, h, _, _, ⟨-, rfl⟩, rfl, rfl⟩ := h
  rw [← splitLinkText_append cs, h]

theorem encloses_passageLink : passageLink.Encloses := by
  intro source detail inside rest h
  simp only [passageLink, scan, bind_eq_some] at h
  obtain ⟨_, r₁, h₁, _, r₂, h₂, inner, r₃, h₃, _, r₄, h₄, h⟩ := h
  have hsame : r₂ = r₁ := by
    simp only [notAhead] at h₂
    split at h₂ <;> simp_all
  cases hs : splitLink inner with
  | none => simp [hs, failure, StateT.failure] at h
  | some parts =>
    obtain ⟨lead, text, passage⟩ := parts
    simp only [hs, pure_eq_some, Prod.mk.injEq, Option.some.injEq] at h
    obtain ⟨⟨-, rfl⟩, rfl⟩ := h
    obtain ⟨trail, htrail⟩ := append_of_splitLink hs
    refine ⟨trail ++ "]]".toList, ?_⟩
    rw [append_of_literal (by decide) h₁, ← hsame, append_of_takeWhile h₃, htrail,
      append_of_literal (by decide) h₄]
    simp

theorem encloses_simpleLink : simpleLink.Encloses := by
  intro source detail inside rest h
  simp only [simpleLink, scan, bind_eq_some, pure_eq_some, Prod.mk.injEq, Option.some.injEq] at h
  obtain ⟨_, r₁, h₁, text, r₂, h₂, _, r₃, h₃, ⟨-, rfl⟩, rfl⟩ := h
  refine ⟨"]]".toList, ?_⟩
  rw [append_of_literal (by decide) h₁, append_of_linkText h₂, append_of_literal (by decide) h₃]
  simp

theorem encloses_barLink : barLink.Encloses := by
  intro source detail inside rest h
  simp only [barLink, scan, bind_eq_some, pure_eq_some, Prod.mk.injEq, Option.some.injEq] at h
  obtain ⟨_, r₁, h₁, text, r₂, h₂, _, r₃, h₃, passage, r₄, h₄, _, r₅, h₅, ⟨-, rfl⟩, rfl⟩ := h
  refine ⟨'|' :: passage ++ "]]".toList, ?_⟩
  rw [append_of_literal (by decide) h₁, append_of_linkText h₂, append_of_char h₃,
    append_of_linkText h₄, append_of_literal (by decide) h₅]
  simp

theorem append_of_propertyName {cs name rest : List Char}
    (h : propertyName cs = some (name, rest)) : cs = name ++ rest := by
  simp only [propertyName, bind_eq_some, require_eq_some, pure_eq_some] at h
  obtain ⟨_, _, h, _, _, ⟨-, rfl⟩, rfl, rfl⟩ := h
  exact append_of_takeWhile h

/-- A called name is followed by a colon. -/
theorem append_of_calledName {cs name rest : List Char} {isMethod : Bool}
    (h : calledName cs = some ((name, isMethod), rest)) : cs = name ++ ':' :: rest := by
  rcases orElse_eq_some.1 h with h | ⟨-, h⟩
  · simp only [bind_eq_some, pure_eq_some, Prod.mk.injEq] at h
    obtain ⟨_, r₁, h₁, n, r₂, h₂, _, r₃, h₃, ⟨rfl, -⟩, rfl⟩ := h
    rw [append_of_char h₁, append_of_propertyName h₂, append_of_char h₃]
    simp
  · simp only [bind_eq_some, pure_eq_some, Prod.mk.injEq] at h
    obtain ⟨c, r₁, h₁, cs', r₂, h₂, _, r₃, h₃, ⟨rfl, -⟩, rfl⟩ := h
    rw [(append_of_satisfy h₁).1, append_of_takeWhile h₂, append_of_char h₃]
    simp

theorem encloses_macroName : macroName.Encloses := by
  intro source detail inside rest h
  simp only [macroName, scan, bind_eq_some, pure_eq_some, Prod.mk.injEq] at h
  obtain ⟨⟨name, isMethod⟩, r, h₁, ⟨-, hi⟩, rfl⟩ := h
  split at hi
  · simp only [Option.some.injEq] at hi
    subst hi
    exact ⟨[':'], by simpa using append_of_calledName h₁⟩
  · simp at hi

/-- A capture is what the scanner reads, if it reads anything. -/
theorem capture?_eq_some {p : Pattern} {source : List Char} {c : Capture} :
    p.capture? source = some c ↔ ∃ rest, p.scan source = some ((c.detail, c.inside), rest) ∧
      c.text = source.take (source.length - rest.length) ∧ c.text ≠ [] := by
  obtain ⟨text, detail, inside⟩ := c
  simp only [capture?]
  cases hscan : p.scan source with
  | none => simp
  | some found =>
    obtain ⟨⟨detail', inside'⟩, rest⟩ := found
    by_cases hempty : source.take (source.length - rest.length) = []
    · simp [hempty]
    · simp only [List.isEmpty_iff, hempty, if_false, Option.some.injEq, Capture.mk.injEq,
        Prod.mk.injEq]
      constructor
      · rintro ⟨rfl, rfl, rfl⟩
        exact ⟨rest, ⟨⟨rfl, rfl⟩, rfl⟩, rfl, hempty⟩
      · rintro ⟨_, ⟨⟨rfl, rfl⟩, rfl⟩, rfl, -⟩
        exact ⟨rfl, rfl, rfl⟩

/-- What is taken from a source is what stands before the rest. -/
theorem take_of_append {source text rest : List Char} (h : source = text ++ rest) :
    source.take (source.length - rest.length) = text := by
  rw [h, List.length_append, Nat.add_sub_cancel, List.take_left]

/-- The text of a capture: its lead, what is left to be lexed, and what closes it. -/
theorem Encloses.of_capture? {p : Pattern} (hp : p.Encloses) {source : List Char} {c : Capture}
    (h : p.capture? source = some c) {inside : Inside} (hi : c.inside = some inside) :
    ∃ trail, c.text = inside.lead ++ inside.body ++ trail := by
  obtain ⟨rest, hscan, htext, -⟩ := capture?_eq_some.1 h
  rw [hi] at hscan
  obtain ⟨trail, htrail⟩ := hp _ _ _ _ hscan
  exact ⟨trail, htext.trans (take_of_append htrail)⟩

end Pattern

namespace Rule

theorem encloses_of_mem_all {rule : Rule} (h : rule ∈ all) : rule.pattern.Encloses := by
  cases hl : rule.pattern.isLeaf with
  | true => exact Pattern.encloses_of_isLeaf hl
  | false =>
    have hm : rule ∈ all.filter (fun rule => !rule.pattern.isLeaf) := by simp [h, hl]
    rw [nesting_rules] at hm
    simp only [List.mem_cons, List.not_mem_nil, or_false] at hm
    rcases hm with rfl | rfl | rfl | rfl | rfl | rfl | rfl
    · exact Pattern.encloses_bulleted
    · exact Pattern.encloses_numbered
    · exact Pattern.encloses_heading
    · exact Pattern.encloses_passageLink
    · exact Pattern.encloses_simpleLink
    · exact Pattern.encloses_barLink
    · exact Pattern.encloses_macroName

/-- What the first match leaves to be lexed stands in its text, after the lead. -/
theorem text_eq_of_firstMatch {here : Situation} {source : List Char} {rule : Rule} {c : Capture}
    (h : firstMatch here source = some (rule, c)) {inside : Inside} (hi : c.inside = some inside) :
    ∃ trail, c.text = inside.lead ++ inside.body ++ trail := by
  obtain ⟨hmem, hmatch⟩ := of_firstMatch h
  exact (encloses_of_mem_all hmem).of_capture? (capture?_of_match? hmatch) hi

end Rule

end StoryScript
