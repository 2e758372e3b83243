/-
  What a token holds is not more of the mark that opens it.

  Many openers are one character, repeated (`Kind.mark`). What stands between such an
  opener and its closer has some other character in it. There are three reasons. Stars and
  backticks are read as far as they go. Quotes, slashes, tildes and carets come in twos,
  and two more right after an opener close it. A brace or a parenthesis inside another is
  an opener of its own, and what closes would close that one.
-/
import Mathlib
import StoryScript.Proofs.Token.Emphasis

namespace StoryScript

/-- The character that the opener of a folded kind repeats. -/
def Kind.mark : Kind → Option Char
  | em => some '*'
  | bold => some '\''
  | italic => some '/'
  | del => some '~'
  | sup => some '^'
  | verbatim => some (Char.ofNat 0x60)
  | collapsed => some '\x7b'
  | macroCall | grouping => some '('
  | _ => none

namespace Lexer

/-! ## Backticks -/

/-- A run of backticks ends where another character stands. -/
theorem head_of_verbatimOpener {capture : Capture} {rest : List Char}
    (h : Pattern.verbatimOpener.capture? (capture.text ++ rest) = some capture) :
    ∀ c ∈ rest.head?, c ≠ Char.ofNat 0x60 := by
  obtain ⟨left, hscan, htext, -⟩ := Pattern.capture?_eq_some.1 h
  simp only [Pattern.verbatimOpener, Pattern.scan, Scanner.bind_eq_some, Scanner.pure_eq_some,
    Prod.mk.injEq] at hscan
  obtain ⟨_, _, ⟨ticks, _, hticks, -, rfl⟩, -, rfl⟩ := hscan
  have happend := Scanner.append_of_takeWhile hticks
  rw [htext.trans (Pattern.take_of_append happend)] at happend
  have hrest := List.append_cancel_left happend
  simp only [Scanner.takeWhile, Option.some.injEq, Prod.mk.injEq] at hticks
  intro c hc hcontra
  rw [hrest, ← hticks.2] at hc
  have hstop := List.head?_dropWhile_not (· == Char.ofNat 0x60) (capture.text ++ rest)
  rw [Option.mem_def.1 hc] at hstop
  simp [hcontra] at hstop

theorem Folding.inner_of_verbatim {source : List Char} (g : Folding source)
    (h : g.kind = .verbatim) (hne : g.inner ≠ []) : ∃ d ∈ g.inner, d ≠ Char.ofNat 0x60 := by
  obtain ⟨hfront, -, -, -⟩ :=
    g.spelled (h ▸ rfl : g.kind.pairs = [(.verbatimOpener, .verbatimOpener)])
  obtain ⟨s, done, rule, capture, o⟩ := g.opened
  obtain ⟨hrule, hmatch⟩ := Rule.of_firstMatch o.matched.found
  have hcapture := Rule.capture?_of_match? hmatch
  rw [verbatimOpener_rule hrule (o.kind_eq.trans hfront)] at hcapture
  obtain ⟨c, cs, hinner⟩ := List.exists_cons_of_ne_nil hne
  refine ⟨c, by simp [hinner], ?_⟩
  exact head_of_verbatimOpener hcapture c (by simp [hinner])

/-! ## Marks in twos -/

namespace State

/-- A closer right after an opener that accepts it takes the opener off the stack. -/
theorem fronts_accept_opening (s : State) (whole : Mode) {front back : Rule}
    {opener closer : Capture} {children : List Token}
    (haccepts : foldKind? (build back closer (s.opening whole front opener).offset children)
      (build front opener s.offset []) ≠ none) :
    ((s.opening whole front opener).accept whole back closer children).fronts = s.fronts := by
  have hflush : (s.opening whole front opener).flush whole = s.opening whole front opener := by
    have hpending : (s.opening whole front opener).pending = [] := s.pending_flush whole
    simp [flush, hpending]
  have hframes : (s.opening whole front opener).frames =
      ⟨build front opener s.offset [], []⟩ :: (s.flush whole).frames := rfl
  rcases (s.opening whole front opener).accept_cases whole back closer children with
    ⟨above, f, below, kind, hsplit, hrefused, -, hnext⟩ | ⟨hrefused, -⟩
  · rw [hflush, hframes] at hsplit
    cases above with
    | nil =>
      obtain ⟨-, rfl⟩ := List.cons.inj hsplit
      rw [hnext, ← fronts_flush s whole]
      show ({ (s.opening whole front opener).flush whole with frames := _ }.add _).fronts = _
      rw [fronts_add]
      rfl
    | cons top above =>
      obtain ⟨rfl, -⟩ := List.cons.inj hsplit
      exact absurd (hrefused _ List.mem_cons_self) haccepts
  · rw [hflush, hframes] at hrefused
    exact absurd (hrefused _ List.mem_cons_self) haccepts

end State

/-- The rule of a mark in twos, which both opens and closes. -/
def doubledRule (kind : Kind) (mark : Char) : Rule :=
  { Rule.ofInline kind (String.ofList [mark]) (Pattern.exactly (String.ofList [mark, mark])) with
    isFront := true }

/-- A kind of opener that closes itself, with the character that it doubles. In prose no other rule
starts with this character. -/
structure IsDoubled (kind : Kind) (mark : Char) : Prop where
  spelling : kind.spelling = [mark, mark]
  closes : kind.fold? kind ≠ none
  notTicks : kind ≠ .verbatimOpener
  inline : Rule.all.all (fun rule => rule.kind != kind || rule.scope == .inline) = true
  mem_marks : mark ∈ Rule.marks .markup
  only : Rule.contenders .markup mark = [doubledRule kind mark]

namespace IsDoubled

variable {kind : Kind} {mark : Char}

theorem firstMatch (h : IsDoubled kind mark) {here : Situation} (hmode : here.mode = .markup)
    (cs : List Char) : Rule.firstMatch here (mark :: mark :: cs) =
      some (doubledRule kind mark, ⟨[mark, mark], {}, none⟩) := by
  have hfits : (doubledRule kind mark).fits here = true := by
    simp [Rule.fits, doubledRule, Rule.ofInline, hmode, Scope.activeIn]
  have hadmits : (doubledRule kind mark).admits (mark :: mark :: cs) = true := by
    simp [Rule.admits, doubledRule, Rule.ofInline]
  have hcapture : (doubledRule kind mark).pattern.capture? (mark :: mark :: cs) =
      some ⟨[mark, mark], {}, none⟩ := by
    have h := @Pattern.capture?_exactly (String.ofList [mark, mark]) (by simp) cs
    rwa [String.toList_ofList] at h
  rw [Rule.firstMatch_at_mark (by rw [hmode]; exact h.mem_marks), hmode, h.only,
    List.findSome?_cons, Rule.match?_of_fits hfits hadmits, hcapture]
  rfl

theorem foldKind?_ne_none (h : IsDoubled kind mark) {closer opener : Token}
    (hcloser : closer.kind = kind) (hopener : opener.kind = kind) :
    foldKind? closer opener ≠ none := by
  simpa [foldKind?, hcloser, hopener, h.notTicks] using h.closes

end IsDoubled

/-- Between two marks in twos stands something else, or nothing. -/
theorem Folding.inner_of_doubled {source : List Char} (g : Folding source) {kind : Kind}
    {mark : Char} (h : IsDoubled kind mark) (hpairs : g.kind.pairs = [(kind, kind)])
    (hne : g.inner ≠ []) : ∃ d ∈ g.inner, d ≠ mark := by
  obtain ⟨hfront, -, -, hcloser⟩ := g.spelled hpairs
  have hcloser : g.capture.text = [mark, mark] := by
    rw [hcloser (by simp [h.spelling]), h.spelling]
  obtain ⟨s, done, rule, capture, o⟩ := g.opened
  have hkind := o.kind_eq.trans hfront
  by_contra hall
  -- two more of the mark stand right after the opener
  obtain ⟨cs, hahead⟩ : ∃ cs, g.inner ++ (g.capture.text ++ g.rest) = mark :: mark :: cs := by
    have hmarks : ∀ d ∈ g.inner, d = mark := by simpa using hall
    rw [hcloser]
    match hinner : g.inner, hmarks with
    | [], _ => exact absurd hinner hne
    | [c], hmarks => exact ⟨mark :: g.rest, by simp [hmarks c]⟩
    | c :: d :: ds, hmarks =>
      exact ⟨ds ++ ([mark, mark] ++ g.rest), by simp [hmarks c, hmarks d]⟩
  rcases o.since with ⟨hempty, -⟩ | ⟨-, hsurvives⟩
  · exact hne hempty
  · -- and they would have closed it
    have hmode : ((s.opening g.whole rule capture).situation g.whole).mode = .markup := by
      have hscope : rule.scope = .inline := by
        have hentry := List.all_eq_true.1 h.inline rule (Rule.of_firstMatch o.matched.found).1
        simpa [hkind] using hentry
      show rule.scope.innerMode = .markup
      rw [hscope]
      rfl
    obtain ⟨children, hsuffix⟩ := hsurvives _ _ (hahead ▸ h.firstMatch hmode cs)
    rw [s.fronts_accept_opening g.whole (h.foldKind?_ne_none rfl hkind),
      State.fronts_opening] at hsuffix
    have hlength := hsuffix.length_le
    rw [List.length_cons] at hlength
    omega

theorem isDoubled_bold : IsDoubled .boldOpener '\'' :=
  ⟨rfl, by decide, by decide, by decide, by decide, rfl⟩

theorem isDoubled_italic : IsDoubled .italicOpener '/' :=
  ⟨rfl, by decide, by decide, by decide, by decide, rfl⟩

theorem isDoubled_del : IsDoubled .delOpener '~' :=
  ⟨rfl, by decide, by decide, by decide, by decide, rfl⟩

theorem isDoubled_sup : IsDoubled .supOpener '^' :=
  ⟨rfl, by decide, by decide, by decide, by decide, rfl⟩

/-! ## Brackets -/

end Lexer

/-- The bracket that an opener is. -/
def Kind.bracket : Kind → Option Char
  | collapsedFront => some '\x7b'
  | macroFront | groupingFront => some '('
  | _ => none

namespace Rule

variable {here : Situation}

/-- The modes in which brackets are read, inside brackets of their own kind. -/
def brackets : List (Mode × Char) :=
  [(.markup, '\x7b'), (.code, '(')]

theorem exists_firstMatch {source : List Char} {rule : Rule} {capture : Capture} (h : rule ∈ all)
    (hmatch : rule.match? here source = some capture) :
    ∃ found, firstMatch here source = some found := by
  rw [← Option.isSome_iff_exists, firstMatch, List.findSome?_isSome_iff]
  exact ⟨rule, h, by simp [hmatch]⟩

/-- A parenthesis in code opens a call, if the name of one follows, or else a grouping. -/
theorem exists_firstMatch_paren (hmode : here.mode = .code) (cs : List Char) :
    ∃ found, firstMatch here ('(' :: cs) = some found := by
  have hchar : Scanner.char '(' ('(' :: cs) = some ((), cs) := rfl
  cases hname : Pattern.calledName cs with
  | none =>
    have hscan : (Scanner.char '(' >>= fun _ => Scanner.notAhead Pattern.calledName) (['('] ++ cs) =
        some ((), cs) := by
      rw [List.singleton_append, Scanner.bind_of_eq_some hchar]
      simp [Scanner.notAhead, hname]
    refine @exists_firstMatch _ _ { ofCode .groupingFront "(" Pattern.groupingFront with
      isFront := true } ⟨['('], {}, none⟩ (by simp [all, codeRules]) ?_
    rw [match?_of_fits (by simp [fits, ofCode, hmode, Scope.activeIn]) rfl]
    exact @Pattern.capture?_plain _ ['('] cs hscan (by simp)
  | some called =>
    obtain ⟨⟨name, isMethod⟩, rest⟩ := called
    have hahead : Scanner.ahead Pattern.calledName cs = some ((name, isMethod), cs) := by
      simp [Scanner.ahead, hname]
    refine @exists_firstMatch _ _ { ofExpression .macroFront "(" Pattern.macroFront with
      isFront := true } ⟨['('], { name := some (String.ofList name) }, none⟩
      (by simp [all, expressionRules]) ?_
    rw [match?_of_fits (by simp [fits, ofExpression, Scope.activeIn]) rfl]
    refine @Pattern.capture?_leaf _ ['('] cs _ ?_ (by simp)
    refine (Scanner.bind_of_eq_some ?_).trans rfl
    rw [List.singleton_append, Scanner.bind_of_eq_some hchar, Scanner.bind_of_eq_some hahead]
    rfl

/-- In its mode a bracket is always an opener. -/
theorem firstMatch_bracket {c : Char} (h : (here.mode, c) ∈ brackets) (cs : List Char) :
    ∃ rule capture, firstMatch here (c :: cs) = some (rule, capture) ∧ rule.isFront = true := by
  have hmark : c ∈ marks here.mode := by
    have htable : brackets.all (fun (mode, c) => (marks mode).contains c) = true := rfl
    simpa using List.all_eq_true.1 htable _ h
  have hfronts : (contenders here.mode c).all (·.isFront) = true := by
    have htable : brackets.all (fun (mode, c) => (contenders mode c).all (·.isFront)) = true := rfl
    exact List.all_eq_true.1 htable _ h
  obtain ⟨⟨rule, capture⟩, hfound⟩ : ∃ found, firstMatch here (c :: cs) = some found := by
    simp only [brackets, List.mem_cons, Prod.mk.injEq, List.not_mem_nil, or_false] at h
    rcases h with ⟨hmode, rfl⟩ | ⟨hmode, rfl⟩
    · refine @exists_firstMatch _ _ { ofInline .collapsedFront "\x7b" (Pattern.exactly "\x7b") with
        isFront := true } ⟨['\x7b'], {}, none⟩ (by simp [all, inlineRules]) ?_
      rw [match?_of_fits (by simp [fits, ofInline, hmode, Scope.activeIn]) rfl]
      exact @Pattern.capture?_exactly "\x7b" (by decide) cs
    · exact exists_firstMatch_paren hmode cs
  refine ⟨rule, capture, hfound, ?_⟩
  rw [firstMatch_at_mark hmark] at hfound
  obtain ⟨other, hother, hmatch⟩ := List.exists_of_findSome?_eq_some hfound
  obtain ⟨_, -, heq⟩ := Option.map_eq_some_iff.1 hmatch
  rw [← (Prod.mk.inj heq).1]
  exact List.all_eq_true.1 hfronts other hother

end Rule

namespace Lexer

theorem mem_brackets_of_bracket {kind : Kind} {c : Char} (h : kind.bracket = some c) :
    c ∈ Rule.brackets.map (·.2) := by
  cases kind <;> cases h <;> decide

/-- No closer starts with a bracket. -/
theorem exists_ne_of_closer {here : Situation} {source : List Char} {rule : Rule}
    {capture : Capture} (found : Rule.firstMatch here source = some (rule, capture))
    (hback : rule.kind.isCloser = true) {kind : Kind} {c : Char} (hc : kind.bracket = some c) :
    ∃ d ∈ capture.text, d ≠ c := by
  have htable : Rule.all.all (fun rule => !rule.kind.isCloser || (!rule.starts.isEmpty &&
      (Rule.brackets.map (·.2)).all fun c => !rule.starts.contains c)) = true := by
    decide
  have hentry := List.all_eq_true.1 htable rule (Rule.of_firstMatch found).1
  simp only [hback, Bool.not_true, Bool.false_or, Bool.and_eq_true, Bool.not_eq_true',
    List.isEmpty_eq_false_iff] at hentry
  obtain ⟨d, ds, htext, hd⟩ := Rule.head_of_firstMatch found hentry.1
  refine ⟨d, by simp [htext], ?_⟩
  rintro rfl
  have hno := List.all_eq_true.1 hentry.2 d (mem_brackets_of_bracket hc)
  simp [hd] at hno

/-- Inside a bracket the text is read in the mode of that bracket. -/
theorem Reached.mem_brackets {whole : Mode} {base : Nat} {s : State} {done ahead : List Char}
    (h : Reached whole base s done ahead) {opener : Token} (hopener : opener ∈ s.fronts.head?)
    {c : Char} (hc : opener.kind.bracket = some c) :
    ((s.situation whole).mode, c) ∈ Rule.brackets := by
  obtain ⟨f, fs, hframes, rfl⟩ : ∃ f fs, s.frames = f :: fs ∧ f.opener = opener := by
    cases hframes : s.frames with
    | nil => simp [State.fronts, hframes] at hopener
    | cons f fs => exact ⟨f, fs, rfl, by simpa [State.fronts, hframes] using hopener⟩
  have hfronts : s.fronts = [] ++ f.opener :: fs.map (·.opener) := by
    rw [State.fronts, hframes]
    rfl
  have hmode : (s.situation whole).mode = f.opener.mode := by
    show s.mode whole = _
    rw [State.mode, hframes]
  rw [hmode]
  cases h.opened _ _ _ hfronts with
  | @intro s₀ done₀ rest rule capture matched front opener_eq below_eq text_eq since =>
    rw [opener_eq] at hc ⊢
    have htable : Rule.all.all (fun rule => rule.kind.bracket.all fun c =>
        Rule.brackets.contains (rule.scope.innerMode, c)) = true := by
      decide
    have hentry := List.all_eq_true.1 htable rule (Rule.of_firstMatch matched.found).1
    rw [show rule.kind.bracket = some c from hc] at hentry
    show (rule.scope.innerMode, c) ∈ Rule.brackets
    simpa using hentry

/-- The text has some other character than the bracket that an opener is, if it is one. -/
def LeavesBracket (opener : Token) (text : List Char) : Prop :=
  ∀ c ∈ opener.kind.bracket, ∃ d ∈ text, d ≠ c

/-- In brackets the tokens are not just more of them, and no bracket is left to the text. -/
structure State.Bracketed (s : State) : Prop where
  inside : ∀ f ∈ s.frames, ∀ t ∈ f.inside, LeavesBracket f.opener t.text.toList
  pending : ∀ f ∈ s.frames.head?, ∀ c ∈ f.opener.kind.bracket, c ∉ s.pending

namespace State

theorem Bracketed.add {s : State} (h : s.Bracketed) {t : Token}
    (ht : ∀ f ∈ s.frames.head?, LeavesBracket f.opener t.text.toList) : (s.add t).Bracketed := by
  have hinside := h.inside
  have hpending := h.pending
  cases hframes : s.frames with
  | nil => exact ⟨by simp [State.add, hframes], by simp [State.add, hframes]⟩
  | cons f fs =>
    rw [hframes] at hinside hpending ht
    refine ⟨?_, ?_⟩
    · intro g hg u hu
      simp only [State.add, hframes, List.mem_cons] at hg
      rcases hg with rfl | hg
      · rcases List.mem_cons.1 hu with rfl | hu
        · exact ht f rfl
        · exact hinside f List.mem_cons_self u hu
      · exact hinside g (List.mem_cons_of_mem f hg) u hu
    · intro g hg c hc
      simp only [State.add, hframes, List.head?_cons, Option.mem_def, Option.some.injEq] at hg
      subst hg
      simpa [State.add, hframes] using hpending f rfl c hc

theorem Bracketed.flush {s : State} (h : s.Bracketed) (whole : Mode) :
    (s.flush whole).Bracketed := by
  rcases s.flush_cases whole with ⟨-, hflush⟩ | ⟨hne, hflush⟩
  · rwa [hflush]
  · rw [hflush]
    refine Bracketed.add (s := { s with pending := [] }) ⟨h.inside, by simp⟩ ?_
    intro f hf c hc
    obtain ⟨d, ds, hpending⟩ := List.exists_cons_of_ne_nil hne
    refine ⟨d, ?_, ?_⟩
    · show d ∈ (String.ofList s.pending.reverse).toList
      simp [hpending]
    · rintro rfl
      exact h.pending f hf d hc (by simp [hpending])

/-- A match keeps brackets apart, if closers and whatever else stays inside have a character of
their own. -/
theorem Bracketed.accept {s : State} (h : s.Bracketed) {whole : Mode} {rule : Rule}
    {capture : Capture} {children : List Token}
    (hback : rule.kind.isCloser = true → ∀ opener, LeavesBracket opener capture.text)
    (hown : rule.isFront = false → ∀ opener ∈ s.fronts.head?, LeavesBracket opener capture.text) :
    (s.accept whole rule capture children).Bracketed := by
  have hflush := h.flush whole
  rcases s.accept_cases whole rule capture children with
    ⟨above, f, below, kind, hframes, -, haccepted, hnext⟩ | ⟨-, hnext⟩
  · -- the closer's text is part of the fold
    have hbelow : { s.flush whole with frames := below }.Bracketed := by
      refine ⟨fun g hg => hflush.inside g ?_, by simp⟩
      rw [hframes]
      simp [hg]
    have hfold : ({ s.flush whole with frames := below }.add
        (fold (build rule capture s.offset children) above f kind)).Bracketed := by
      refine hbelow.add fun g _ c hc => ?_
      obtain ⟨d, hd, hne⟩ := hback (isCloser_of_foldKind? haccepted) g.opener c hc
      refine ⟨d, ?_, hne⟩
      show d ∈ (f.opener.text ++ Token.textOf _ ++ String.ofList capture.text).toList
      simp [hd]
    rw [hnext]
    exact ⟨hfold.inside, hfold.pending⟩
  · rw [hnext]
    split
    · refine ⟨?_, by simp [State.advance, State.push]⟩
      intro g hg
      rcases List.mem_cons.1 hg with rfl | hg
      · simp
      · exact hflush.inside g hg
    · rename_i hfront
      have htext : (if rule.kind.isCloser then demote (build rule capture s.offset children)
          else build rule capture s.offset children).text.toList = capture.text := by
        split
        · rw [text_demote]
          exact String.toList_ofList
        · exact String.toList_ofList
      have hadd : ((s.flush whole).add (if rule.kind.isCloser
          then demote (build rule capture s.offset children)
          else build rule capture s.offset children)).Bracketed := by
        refine hflush.add fun g hg => ?_
        rw [htext]
        refine hown (Bool.not_eq_true _ ▸ hfront) g.opener ?_
        rw [← fronts_flush s whole, fronts, List.head?_map, Option.mem_def.1 hg]
        rfl
      exact ⟨hadd.inside, hadd.pending⟩

end State

/-- At every state of a run brackets are kept apart. -/
theorem Reached.bracketed {whole : Mode} {base : Nat} {s : State} {done ahead : List Char}
    (h : Reached whole base s done ahead) : s.Bracketed := by
  induction h with
  | start => exact ⟨by simp, by simp⟩
  | @defer s done c cs before unclaimed ih =>
    refine ⟨ih.inside, ?_⟩
    intro f hf b hb hmem
    rcases List.mem_cons.1 hmem with rfl | hmem
    · have hopener : f.opener ∈ s.fronts.head? := by
        rw [State.fronts, List.head?_map]
        exact Option.mem_map_of_mem _ hf
      obtain ⟨rule, capture, hfound, -⟩ :=
        Rule.firstMatch_bracket (before.mem_brackets hopener hb) cs
      rw [unclaimed] at hfound
      cases hfound
    · exact ih.pending f hf b hb hmem
  | @accept s done rest rule capture children before found leaf held ih =>
    refine ih.accept (fun hback opener c hc => exists_ne_of_closer found hback hc) ?_
    intro hfront opener hopener c hc
    obtain ⟨d, ds, htext⟩ := List.exists_cons_of_ne_nil (Rule.text_of_firstMatch found).1
    refine ⟨d, by simp [htext], ?_⟩
    rintro rfl
    -- what starts with the bracket would be an opener
    obtain ⟨other, _, hfound, hother⟩ :=
      Rule.firstMatch_bracket (before.mem_brackets hopener hc) (ds ++ rest)
    rw [← List.cons_append, ← htext, found, Option.some.injEq, Prod.mk.injEq] at hfound
    rw [← hfound.1, hfront] at hother
    cases hother

/-- What closes a bracket closes every opener that starts with this bracket. -/
theorem closes_of_bracket {front back kind : Kind} (h : (front, kind) ∈ back.folds) {c : Char}
    (hc : front.bracket = some c) :
    back ≠ .verbatimOpener ∧ Rule.all.all (fun rule => !rule.isFront || (!rule.starts.isEmpty &&
      (!rule.starts.contains c || (back.fold? rule.kind).isSome))) = true := by
  cases front <;> cases hc <;> cases back <;> simp [Kind.folds] at h <;> decide

theorem mem_textOf {t : Token} {ts : List Token} (ht : t ∈ ts) {d : Char}
    (hd : d ∈ t.text.toList) : d ∈ (Token.textOf ts).toList := by
  obtain ⟨before, after, rfl⟩ := List.append_of_mem ht
  induction before with
  | nil => simp [Token.textOf_cons, hd]
  | cons u before ih => simp [Token.textOf_cons, ih]

namespace Folding

variable {source : List Char} (g : Folding source)

/-- Between brackets stands something else than the opening bracket, or nothing. -/
theorem inner_of_bracket {c : Char} (hc : g.frame.opener.kind.bracket = some c)
    (hne : g.inner ≠ []) : ∃ d ∈ g.inner, d ≠ c := by
  by_contra hall
  have hmarks : ∀ t ∈ g.contents, ∀ d ∈ t.text.toList, d = c := by
    intro t ht d hd
    by_contra hother
    exact hall ⟨d, mem_textOf ht hd, hother⟩
  have hinside : g.frame.inside = [] := by
    rw [List.eq_nil_iff_forall_not_mem]
    intro t ht
    have hframe : g.frame ∈ (g.s.flush g.whole).frames := by simp [g.frames_eq]
    obtain ⟨d, hd, hother⟩ :=
      (g.matched.reached.bracketed.flush g.whole).inside g.frame hframe t ht c hc
    exact hother (hmarks t (by simp [contents, ht]) d hd)
  have habove : g.above = [] := by
    rw [List.eq_nil_iff_forall_not_mem]
    intro f hf
    have hfront : f.opener ∈ g.s.fronts := by
      rw [← State.fronts_flush g.s g.whole]
      exact List.mem_map_of_mem (by simp [g.frames_eq, hf])
    obtain ⟨above, below, hfronts⟩ := List.append_of_mem hfront
    cases g.matched.reached.opened _ _ _ hfronts with
    | @intro s₀ done₀ rest rule capture matched front opener_eq below_eq text_eq since =>
      obtain ⟨hticks, htable⟩ := closes_of_bracket g.mem_folds hc
      have hentry := List.all_eq_true.1 htable rule (Rule.of_firstMatch matched.found).1
      simp only [front, Bool.not_true, Bool.false_or, Bool.and_eq_true, Bool.not_eq_true',
        List.isEmpty_eq_false_iff] at hentry
      -- the opener above is the same bracket, so the closer would have closed it
      obtain ⟨d, ds, htext, hd⟩ := Rule.head_of_firstMatch matched.found hentry.1
      have hspill : demote f.opener ∈ g.contents := by
        simp only [contents, List.mem_reverse, List.mem_append, List.mem_flatMap]
        exact .inl ⟨f, hf, by simp [Frame.spill]⟩
      have hbracket : d = c := by
        refine hmarks _ hspill d ?_
        rw [text_demote, opener_eq]
        show d ∈ (String.ofList capture.text).toList
        simp [htext]
      have hrefused : g.rule.kind.fold? rule.kind = none := by
        have h := g.refused f hf
        rw [opener_eq, foldKind?] at h
        simpa [build, hticks] using h
      simp [← hbracket, hd, hrefused] at hentry
  refine hne ?_
  rw [inner, contents, habove, hinside]
  rfl

end Folding

/-! ## Kinds with a mark -/

/-- The ways in which an opener repeats a mark. -/
inductive Marked : Kind → Char → Prop where
  | stars : Marked .em '*'
  | ticks : Marked .verbatim (Char.ofNat 0x60)
  | doubled {kind opener : Kind} {c : Char} (twos : IsDoubled opener c)
      (pairs : kind.pairs = [(opener, opener)]) : Marked kind c
  | bracket {kind front back : Kind} {c : Char} (bracket : front.bracket = some c)
      (pairs : kind.pairs = [(front, back)]) : Marked kind c

theorem marked_of_mark {kind : Kind} {c : Char} (h : kind.mark = some c) : Marked kind c := by
  cases kind <;> cases h
  case em => exact .stars
  case verbatim => exact .ticks
  case bold => exact .doubled isDoubled_bold rfl
  case italic => exact .doubled isDoubled_italic rfl
  case del => exact .doubled isDoubled_del rfl
  case sup => exact .doubled isDoubled_sup rfl
  all_goals exact .bracket rfl rfl

namespace Folding

variable {source : List Char} (g : Folding source)

/-- The opener of a kind with a mark repeats the mark. -/
theorem opener_eq_replicate {c : Char} (h : g.kind.mark = some c) :
    ∃ n, g.frame.opener.text.toList = List.replicate n c := by
  have hmarked := marked_of_mark h
  generalize hkind : g.kind = kind at hmarked
  cases hmarked with
  | stars =>
    obtain ⟨-, -, hopener, -⟩ := g.spelled (hkind ▸ rfl : g.kind.pairs = [(.emFront, .emBack)])
    exact ⟨1, hopener (by decide)⟩
  | ticks =>
    obtain ⟨hfront, -, -, -⟩ :=
      g.spelled (hkind ▸ rfl : g.kind.pairs = [(.verbatimOpener, .verbatimOpener)])
    obtain ⟨s, done, rule, capture, o⟩ := g.opened
    obtain ⟨hrule, hmatch⟩ := Rule.of_firstMatch o.matched.found
    have hcapture := Rule.capture?_of_match? hmatch
    rw [verbatimOpener_rule hrule (o.kind_eq.trans hfront)] at hcapture
    exact ⟨_, o.text_eq.symm.trans (ticks_of_capture? hcapture)⟩
  | doubled twos pairs =>
    obtain ⟨-, -, hopener, -⟩ := g.spelled (hkind ▸ pairs)
    refine ⟨2, ?_⟩
    rw [hopener (by simp [twos.spelling]), twos.spelling]
    rfl
  | @bracket _ front _ _ hbracket pairs =>
    obtain ⟨-, -, hopener, -⟩ := g.spelled (hkind ▸ pairs)
    have hspelling : front.spelling = [c] := by cases front <;> cases hbracket <;> rfl
    refine ⟨1, ?_⟩
    rw [hopener (by simp [hspelling]), hspelling]
    rfl

/-- What a token of a kind with a mark holds is not more of the mark. -/
theorem exists_ne_mark {c : Char} (h : g.kind.mark = some c) (hne : g.inner ≠ []) :
    ∃ d ∈ g.inner, d ≠ c := by
  have hmarked := marked_of_mark h
  generalize hkind : g.kind = kind at hmarked
  cases hmarked with
  | stars =>
    obtain ⟨d, ds, hinner, hd⟩ := g.inner_of_em hkind
    exact ⟨d, by simp [hinner], hd⟩
  | ticks => exact g.inner_of_verbatim hkind hne
  | doubled twos pairs => exact g.inner_of_doubled twos (hkind ▸ pairs) hne
  | bracket hbracket pairs =>
    obtain ⟨hfront, -, -, -⟩ := g.spelled (hkind ▸ pairs)
    exact g.inner_of_bracket (hfront ▸ hbracket) hne

end Folding

end Lexer

end StoryScript
