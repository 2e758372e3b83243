/-
  Emphasis and what it can hold.

  A closer asks for an opener that is not directly before it, and then folds with the
  innermost opener, which may be the one directly before it. For single stars this makes
  no difference: two stars are never read as two openers. Two openers of two stars can
  stand side by side, though, and then two more stars close the second one with nothing
  inside. This is the only way in which emphasis can be empty, so it takes six stars in a
  row.
-/
import Mathlib
import StoryScript.Proofs.Token.Marks

namespace StoryScript

namespace Rule

variable {here : Situation}

/-- The opener of strong emphasis. -/
def strongFrontRule : Rule :=
  { ofInline .strongFront "*" (Pattern.exactly "**") with isFront := true }

/-- The closer of strong emphasis. -/
def strongBackRule : Rule :=
  { ofInline .strongBack "*" (Pattern.exactly "**") with needsFront := true }

theorem capture?_stars (cs : List Char) :
    (Pattern.exactly "**").capture? ('*' :: '*' :: cs) = some ⟨['*', '*'], {}, none⟩ :=
  @Pattern.capture?_exactly "**" (by decide) cs

theorem match?_strongFront (hmode : here.mode = .markup) (cs : List Char) :
    strongFrontRule.match? here ('*' :: '*' :: cs) = some ⟨['*', '*'], {}, none⟩ := by
  have hfits : strongFrontRule.fits here = true := by
    simp [fits, strongFrontRule, ofInline, hmode, Scope.activeIn]
  rw [match?_of_fits hfits (by rfl)]
  exact capture?_stars cs

/-- In prose a closer of strong emphasis may stand where an opener waits that is not directly
before. -/
theorem fits_strongBack_iff (hmode : here.mode = .markup) :
    strongBackRule.fits here = true ↔ .strongFront ∈ here.openers := by
  have hfold : ∀ opener : Kind, (Kind.fold? .strongBack opener).isSome =
      (opener == Kind.strongFront) := by
    intro opener
    cases opener <;> rfl
  simp [fits, strongBackRule, ofInline, hmode, Scope.activeIn, hfold]

end Rule

namespace Lexer

/-- The openers of a state, but for one directly before. -/
theorem State.mem_openers_or_fresh (s : State) {opener : Token} (h : opener ∈ s.fronts) :
    opener.kind ∈ s.openers ∨
    ∃ f fs, s.frames = f :: fs ∧ s.pending = [] ∧ f.inside = [] ∧ f.opener = opener := by
  obtain ⟨f, hf, rfl⟩ := List.mem_map.1 h
  cases hframes : s.frames with
  | nil => simp [hframes] at hf
  | cons top fs =>
    by_cases hfresh : s.pending = [] ∧ top.inside = []
    · rw [hframes] at hf
      rcases List.mem_cons.1 hf with rfl | hf
      · exact .inr ⟨f, fs, rfl, hfresh.1, hfresh.2, rfl⟩
      · left
        simp only [State.openers, hframes, hfresh, List.isEmpty_nil, Bool.and_self, if_true]
        exact List.mem_map_of_mem hf
    · left
      have hdistant : (s.pending.isEmpty && top.inside.isEmpty) = false := by
        simpa [List.isEmpty_iff] using hfresh
      simp only [State.openers, hframes, hdistant, Bool.false_eq_true, if_false]
      rw [hframes] at hf
      exact List.mem_map_of_mem hf

/-- An opener that stands directly before ends what has been read. -/
theorem Reached.done_of_fresh {whole : Mode} {base : Nat} {s : State} {done ahead : List Char}
    (h : Reached whole base s done ahead) {f : Lexer.Frame} {fs : List Lexer.Frame}
    (hframes : s.frames = f :: fs) (hpending : s.pending = []) (hinside : f.inside = []) :
    ∃ prior, done = prior ++ f.opener.text.toList := by
  obtain ⟨placed, hdone, hrow⟩ := h.coversFrom.row
  have hlast : s.row = { s with frames := fs }.row ++ [f.opener] := by
    simp [State.row, hframes, Frame.row, hinside]
  rw [hlast] at hrow
  obtain ⟨prior, last, rfl, -, hlast⟩ := hrow.split
  refine ⟨prior, ?_⟩
  rw [hdone, hpending, hlast.placed.2.2]
  simp

/-- Right after an opener all others count as openers to close. -/
theorem State.openers_opening (s : State) (whole : Mode) (rule : Rule) (capture : Capture) :
    (s.opening whole rule capture).openers = s.fronts.map (·.kind) := by
  have hpending : (s.opening whole rule capture).pending = [] := s.pending_flush whole
  have hframes : (s.opening whole rule capture).frames =
      ⟨build rule capture s.offset [], []⟩ :: (s.flush whole).frames := rfl
  simp only [openers, hpending, hframes, List.isEmpty_nil, Bool.and_self, if_true]
  rw [← fronts_flush s whole, fronts, List.map_map]
  rfl

namespace Folding

variable {source : List Char} (g : Folding source)

/-- What single stars hold does not start with a star. -/
theorem inner_of_em (h : g.kind = .em) : ∃ c cs, g.inner = c :: cs ∧ c ≠ '*' := by
  obtain ⟨hfront, -, hopener, hcloser⟩ := g.spelled (h ▸ rfl : g.kind.pairs = [(.emFront, .emBack)])
  obtain ⟨s, done, rule, capture, o⟩ := g.opened
  have hkind := o.kind_eq.trans hfront
  obtain ⟨hrule, hmatch⟩ := Rule.of_firstMatch o.matched.found
  have hmode := Rule.mode_of_inline hrule hmatch (by rw [hkind]; decide)
  -- the opener of strong emphasis comes first, and did not match
  have hstrong := Rule.match?_of_earlier o.matched.found 10 (by rw [hkind]; decide)
    Rule.strongFrontRule
    (by simp [Rule.all, Rule.blockRules, Rule.inlineRules, Rule.strongFrontRule])
  rw [o.text_eq, hopener (by decide), hcloser (by decide)] at hstrong
  cases hinner : g.inner with
  | nil =>
    rw [hinner] at hstrong
    exact absurd (hstrong.symm.trans (Rule.match?_strongFront hmode _)) (by simp)
  | cons c cs =>
    refine ⟨c, cs, rfl, ?_⟩
    rintro rfl
    rw [hinner] at hstrong
    exact absurd (hstrong.symm.trans (Rule.match?_strongFront hmode _)) (by simp)

/-- Two stars close the two stars directly before them only after two more. -/
theorem stars_of_strong (h : g.kind = .strong) (hinner : g.inner = []) :
    ∃ prior, g.done = prior ++ ['*', '*', '*', '*'] ∧ g.capture.text = ['*', '*'] := by
  obtain ⟨hfront, hback, hopener, hcloser⟩ :=
    g.spelled (h ▸ rfl : g.kind.pairs = [(.strongFront, .strongBack)])
  obtain ⟨s, done, rule, capture, o⟩ := g.opened
  have hkind := o.kind_eq.trans hfront
  have htext : capture.text = ['*', '*'] := o.text_eq.trans (hopener (by decide))
  obtain ⟨hrule, hmatch⟩ := Rule.of_firstMatch o.matched.found
  have hmode := Rule.mode_of_inline hrule hmatch (by rw [hkind]; decide)
  -- the closer comes before the opener, so it could not stand where the opener was read
  have hdistant : Kind.strongFront ∉ s.openers := by
    have hnone := Rule.match?_of_earlier o.matched.found 9 (by rw [hkind]; decide)
      Rule.strongBackRule
      (by simp [Rule.all, Rule.blockRules, Rule.inlineRules, Rule.strongBackRule])
    intro hmem
    rw [Rule.match?_of_fits ((Rule.fits_strongBack_iff hmode).2 hmem) (by rw [htext]; rfl),
      htext] at hnone
    exact absurd (hnone.symm.trans (Rule.capture?_stars _)) (by simp)
  -- right after the opener it can, so another opener waits
  obtain ⟨hrule', hmatch'⟩ := Rule.of_firstMatch g.matched.found
  have hmode' := Rule.mode_of_inline hrule' hmatch' (by rw [hback]; decide)
  rw [@rule_of_kind _ Rule.strongBackRule _ hrule' hback rfl] at hmatch'
  have hmem : Kind.strongFront ∈ g.s.openers :=
    (Rule.fits_strongBack_iff hmode').1 (Rule.fits_of_match? hmatch')
  rcases o.since with ⟨-, hs⟩ | ⟨hne, -⟩
  · rw [hs, State.openers_opening] at hmem
    obtain ⟨other, hother, hotherKind⟩ := List.mem_map.1 hmem
    rcases s.mem_openers_or_fresh hother with hdist | ⟨f, fs, hframes, hpending, hinside, rfl⟩
    · rw [hotherKind] at hdist
      exact absurd hdist hdistant
    · -- it was directly before the opener
      obtain ⟨prior, hdone⟩ := o.matched.reached.done_of_fresh hframes hpending hinside
      have hstars := o.matched.reached.spelled hother (by rw [hotherKind]; decide)
      rw [hotherKind] at hstars
      refine ⟨prior, ?_, hcloser (by decide)⟩
      rw [o.done_eq, hinner, htext, hdone, hstars]
      simp [Kind.spelling]
  · exact absurd hinner hne

/-- Strong emphasis around nothing ends six stars in the source. -/
theorem sixStars_of_strong {t : Token} (made : g.Makes t) (h : g.kind = .strong)
    (hinner : g.inner = []) (hstop : t.stop = t.start + Text.width t.text.toList) :
    ∃ n, t.start = n + 2 ∧ Text.slice? source n t.stop = some "******".toList := by
  obtain ⟨-, -, hopener, -⟩ := g.spelled (h ▸ rfl : g.kind.pairs = [(.strongFront, .strongBack)])
  have hopener : g.frame.opener.text.toList = ['*', '*'] := hopener (by decide)
  obtain ⟨prior, hdone, hcloser⟩ := g.stars_of_strong h hinner
  obtain ⟨prior', hdone', hstart, -⟩ := g.done_eq
  have hprior : prior' = prior ++ ['*', '*'] := by
    have htwo : prior' ++ ['*', '*'] = (prior ++ ['*', '*']) ++ ['*', '*'] := by
      rw [hinner, hopener, hdone] at hdone'
      simpa using hdone'.symm
    exact List.append_cancel_right htwo
  have hfirst : t.start = Text.width (g.before ++ prior) + 2 := by
    rw [made.start_eq, hstart, hprior, Text.width_append, Text.width_append]
    rfl
  refine ⟨Text.width (g.before ++ prior), hfirst, Text.slice?_eq_some_iff.2
    ⟨g.before ++ prior, g.rest ++ g.after, ?_, rfl, ?_⟩⟩
  · nth_rewrite 1 [g.source_eq]
    rw [hdone, hcloser]
    simp
  · rw [hstop, hfirst, made.text_eq, hinner, hopener, hcloser]
    rfl

end Folding

end Lexer

/-- Emphasis holds something, but for strong emphasis that stands right after two more stars: single
stars never hold an empty text, and where double stars do, the source has six stars from two before
the token to its end. -/
theorem emphasis_lexIn (mode : Mode) (source : String) (t : Token)
    (ht : t ∈ (Lexer.lexIn mode source).value.tokens) :
    (t.kind = .em → ∃ inner, t.inner = some inner ∧ inner ≠ "") ∧
    (t.kind = .strong → ∃ inner, t.inner = some inner ∧ (inner = "" →
      ∃ n, t.start = n + 2 ∧ Text.slice? source.toList n t.stop = some "******".toList)) := by
  refine ⟨fun hkind => ?_, fun hkind => ?_⟩
  · obtain ⟨g, made⟩ := Lexer.exists_folding ht (by rw [hkind]; rfl)
    obtain ⟨c, cs, hinner, -⟩ := g.inner_of_em (made.kind_eq.symm.trans hkind)
    exact ⟨String.ofList g.inner, made.inner_eq, by simp [hinner]⟩
  · obtain ⟨g, made⟩ := Lexer.exists_folding ht (by rw [hkind]; rfl)
    refine ⟨String.ofList g.inner, made.inner_eq, fun hempty => ?_⟩
    have hinner : g.inner = [] := by simpa using hempty
    exact g.sixStars_of_strong made (made.kind_eq.symm.trans hkind) hinner
      ((Lexer.covers_lexIn mode source t ht).stop_eq)

/-- Two stars open, two open again and two close what is between. -/
theorem emphasis_lexIn_six :
    ∃ t ∈ (Lexer.lexIn .markup "*a* ******").value.tokens, t.kind = .strong ∧ t.inner = some "" ∧
      ∃ n, t.start = n + 2 ∧
        Text.slice? "*a* ******".toList n t.stop = some "******".toList := by
  have hany : ((Lexer.lexIn .markup "*a* ******").value.tokens.any fun t =>
      t.kind == .strong && t.inner == some "") = true := by
    decide +kernel
  obtain ⟨t, ht, hstrong⟩ := List.any_eq_true.1 hany
  simp only [Bool.and_eq_true, beq_iff_eq] at hstrong
  obtain ⟨inner, hinner, hsix⟩ := (emphasis_lexIn .markup _ t ht).2 hstrong.1
  rw [hstrong.2, Option.some.injEq] at hinner
  exact ⟨t, ht, hstrong.1, hstrong.2, hsix hinner.symm⟩

/-- Emphasis can be empty. -/
theorem not_emphasis_nonempty :
    ¬ ∀ t ∈ (lex "******").tokens, t.kind = .em ∨ t.kind = .strong → t.inner ≠ some "" := by
  have hany : ((lex "******").tokens.any fun t =>
      t.kind == .strong && t.inner == some "") = true := by
    decide +kernel
  obtain ⟨t, ht, hstrong⟩ := List.any_eq_true.1 hany
  simp only [Bool.and_eq_true, beq_iff_eq] at hstrong
  intro hall
  exact hall t ht (.inr hstrong.1) hstrong.2

end StoryScript
