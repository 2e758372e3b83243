/-
  Prose and code keep apart.

  Lexing prose goes through phases. It is in prose, where every open frame is one of
  markup; a parenthesis opens a call, and the name of the call stands right after it;
  then it is inside the call, where all is code, until the call is closed. `Phase` says
  so of a state, every step keeps it, and what a whole run gives is a row of prose
  (`ProseRow`). So markup never stands inside a call, and the syntax of code stands
  outside calls only where a call is left open.
-/
import Mathlib
import StoryScript.Proofs.Token.CodeRules
import StoryScript.Proofs.Token.Details
import StoryScript.Proofs.Token.Grouping
import StoryScript.Proofs.Token.Prose

namespace StoryScript

namespace Lexer

open Token (Nested Prose ProseRow IsUnclosedCall)

/-! ## Rules that are active in prose -/

/-- In prose no rule gives a token of code only; the one opener that leads to code is that of calls,
and what is lexed in its own right is prose. -/
theorem prose_rules {rule : Rule} (h : rule ∈ Rule.all)
    (hactive : rule.scope.activeIn .markup = true) :
    rule.kind.isProse = true ∧
    (rule.isFront = true → rule.scope.innerMode = .code → rule.kind = .macroFront) ∧
    (rule.scope.innerMode = .markup → rule.kind ≠ .macroFront ∧ rule.kind ≠ .groupingFront) ∧
    (rule.pattern.isLeaf = false → rule.kind.isWhole = true ∧ rule.scope.innerMode = .markup) := by
  -- a fact about each rule of the table
  have htable : Rule.all.all (fun rule => !rule.scope.activeIn .markup ||
      (rule.kind.isProse &&
      (!(rule.isFront && rule.scope.innerMode = .code) || rule.kind = .macroFront) &&
      (!(rule.scope.innerMode = .markup) ||
        (rule.kind ≠ .macroFront && rule.kind ≠ .groupingFront)) &&
      (rule.pattern.isLeaf || (rule.kind.isWhole && rule.scope.innerMode = .markup)))) = true := by
    decide
  have hrule := List.all_eq_true.1 htable rule h
  simp only [hactive, Bool.not_true, Bool.false_or, Bool.and_eq_true, Bool.or_eq_true,
    Bool.not_eq_true', decide_eq_true_eq, decide_eq_false_iff_not, Bool.and_eq_false_iff] at hrule
  obtain ⟨⟨⟨hkind, hfront⟩, hmarkup⟩, hleaf⟩ := hrule
  refine ⟨hkind, ?_, ?_, ?_⟩ <;> grind

-- the kinds of code only are those of the rules that are inactive in prose, marks apart
example : Rule.all.all (fun rule => rule.kind.isCodeOnly ==
    (!rule.scope.activeIn .markup && !rule.isFront && !rule.kind.isCloser)) = true := by decide

/-! ## The stack in prose -/

/-- A frame of markup, with prose inside. -/
structure Frame.IsProse (f : Frame) : Prop where
  mode : f.opener.mode = .markup
  bare : f.opener.children = []
  kind : f.opener.kind ≠ .macroFront ∧ f.opener.kind ≠ .groupingFront
  inside : ∀ t ∈ f.inside, Prose t

/-- The tokens outside every frame are prose, and so are the frames. -/
structure ProseStack (outer : List Token) (frames : List Frame) : Prop where
  outer : ∀ t ∈ outer, Prose t
  frames : ∀ f ∈ frames, f.IsProse

theorem prose_demote {t : Token} (hbare : t.children = []) : Prose (demote t) := by
  unfold demote
  split
  · exact .markup rfl (by simp [hbare])
  · exact .of_text rfl hbare

namespace ProseStack

variable {outer : List Token} {frames : List Frame}

/-- Frames of prose that are given up leave prose. -/
theorem spill (h : ∀ f ∈ frames, f.IsProse) : ∀ t ∈ frames.flatMap Frame.spill, Prose t := by
  intro t ht
  simp only [List.mem_flatMap, Frame.spill, List.mem_append, List.mem_singleton] at ht
  obtain ⟨f, hf, ht | rfl⟩ := ht
  · exact (h f hf).inside t ht
  · exact prose_demote (h f hf).bare

theorem prose_all (h : ProseStack outer frames) :
    ∀ t ∈ (frames.flatMap Frame.spill ++ outer).reverse, Prose t := by
  intro t ht
  rw [List.mem_reverse, List.mem_append] at ht
  exact ht.elim (spill h.frames t) (h.outer t)

variable {s : State}

theorem add (h : ProseStack s.outer s.frames) {t : Token} (ht : Prose t) :
    ProseStack (s.add t).outer (s.add t).frames := by
  cases hframes : s.frames with
  | nil =>
    simp only [State.add, hframes]
    exact ⟨List.forall_mem_cons.2 ⟨ht, h.outer⟩, by simp⟩
  | cons f fs =>
    have hfs := h.frames
    rw [hframes] at hfs
    obtain ⟨hf, hfs⟩ := List.forall_mem_cons.1 hfs
    simp only [State.add, hframes]
    refine ⟨h.outer, List.forall_mem_cons.2 ⟨?_, hfs⟩⟩
    exact ⟨hf.mode, hf.bare, hf.kind, List.forall_mem_cons.2 ⟨ht, hf.inside⟩⟩

theorem flush (h : ProseStack s.outer s.frames) (whole : Mode) :
    ProseStack (s.flush whole).outer (s.flush whole).frames := by
  rcases s.flush_cases whole with ⟨-, hflush⟩ | ⟨-, hflush⟩
  · rwa [hflush]
  · rw [hflush]
    exact add (s := { s with pending := [] }) h (.of_text rfl rfl)

theorem mode (h : ProseStack s.outer s.frames) : s.mode .markup = .markup := by
  cases hframes : s.frames with
  | nil => simp [State.mode, hframes]
  | cons f fs =>
    simp only [State.mode, hframes]
    exact (h.frames f (by simp [hframes])).mode

/-- A token of prose keeps the stack one of prose, unless it opens a call. -/
theorem place (h : ProseStack s.outer s.frames) {t : Token}
    (hbare : (t.isFront || t.kind.isCloser) = true → t.children = [])
    (hfront : t.isFront = true →
      t.mode = .markup ∧ t.kind ≠ .macroFront ∧ t.kind ≠ .groupingFront)
    (hprose : (t.isFront || t.kind.isCloser) = false → Prose t) :
    ProseStack (s.place t).value.outer (s.place t).value.frames := by
  rcases s.place_cases t with ⟨above, f, below, kind, hframes, hkind, hplace⟩ | ⟨hopens, hplace⟩ |
    ⟨-, hback, hplace⟩ | ⟨hopens, hback, hplace⟩
  · have hall := h.frames
    rw [hframes] at hall
    obtain ⟨habove, hfs⟩ := List.forall_mem_append.1 hall
    obtain ⟨hf, hbelow⟩ := List.forall_mem_cons.1 hfs
    rw [hplace]
    refine add (s := { s with frames := below }) ⟨h.outer, hbelow⟩ (.markup ?_ ?_)
    · exact Kind.isProse_of_mem_folds (mem_folds_of_foldKind? hkind) hf.kind.1 hf.kind.2
    · show ∀ c ∈ (above.flatMap Frame.spill ++ f.inside).reverse, Prose c
      exact prose_all ⟨hf.inside, habove⟩
  · obtain ⟨hmode, hkind⟩ := hfront hopens
    rw [hplace]
    refine ⟨h.outer, List.forall_mem_cons.2 ⟨?_, h.frames⟩⟩
    exact ⟨hmode, hbare (by simp [hopens]), hkind, by simp⟩
  · rw [hplace]
    exact h.add (prose_demote (hbare (by simp [hback])))
  · rw [hplace]
    exact h.add (hprose (by simp [hopens, hback]))

end ProseStack

/-! ## Phases -/

/-- The parenthesis that opens a call, while it waits. -/
structure IsCallFront (t : Token) : Prop where
  kind : t.kind = .macroFront
  mode : t.mode = .code
  text : t.text = "("
  bare : t.children = []

namespace State

/-- Where lexing prose is: in prose, right after the parenthesis of a call, or inside a call whose
name has been read. What is around the call is prose, and what is inside is code. -/
inductive Phase (s : State) (source : List Char) : Prop where
  | prose (stack : ProseStack s.outer s.frames)
  | opening {opener : Token} {outer : List Token} {below : List Frame} {offset : Nat}
      (around : ProseStack outer below) (front : IsCallFront opener)
      (embeds : Embeds opener outer below { offset } s)
      (named : (Pattern.calledName source).isSome = true)
  | call {opener name : Token} {outer : List Token} {below : List Frame} {i : State}
      (around : ProseStack outer below) (front : IsCallFront opener)
      (embeds : Embeds opener outer below i s) (nested : i.IsNested .code)
      (named : i.outer.getLast? = some name) (kind : name.kind = .macroName)

/-! ### The first token outside every frame -/

theorem getLast?_outer_add {i : State} {first : Token} (h : i.outer.getLast? = some first)
    (t : Token) : (i.add t).outer.getLast? = some first := by
  unfold add
  split
  · simp [List.getLast?_cons, h]
  · exact h

theorem getLast?_outer_flush {i : State} {first : Token} (h : i.outer.getLast? = some first)
    (whole : Mode) : (i.flush whole).outer.getLast? = some first := by
  rcases i.flush_cases whole with ⟨-, hflush⟩ | ⟨-, hflush⟩
  · rwa [hflush]
  · rw [hflush]
    exact getLast?_outer_add (i := { i with pending := [] }) h _

theorem getLast?_outer_place {i : State} {first : Token} (h : i.outer.getLast? = some first)
    (t : Token) : (i.place t).value.outer.getLast? = some first := by
  rcases i.place_cases t with ⟨above, f, below, kind, -, -, hplace⟩ | ⟨-, hplace⟩ | ⟨-, -, hplace⟩ |
    ⟨-, -, hplace⟩
  · rw [hplace]
    exact getLast?_outer_add (i := { i with frames := below }) h _
  · rwa [hplace]
  · rw [hplace]
    exact getLast?_outer_add h _
  · rw [hplace]
    exact getLast?_outer_add h _

theorem head?_finish {i : State} {first : Token} (h : i.outer.getLast? = some first)
    (whole : Mode) : (i.finish whole).value.head? = some first := by
  show ((i.flush whole).frames.flatMap Frame.spill ++ (i.flush whole).outer).reverse.head? = _
  rw [List.head?_reverse, List.getLast?_append, getLast?_outer_flush h, Option.some_or]

/-! ### One step -/

namespace Phase

variable {s : State}

/-- Right after the parenthesis the name of the call is read. -/
theorem macroName_of_opening {opener : Token} {outer : List Token} {below : List Frame}
    {offset : Nat} {source : List Char} (front : IsCallFront opener)
    (embeds : Embeds opener outer below { offset } s)
    (named : (Pattern.calledName source).isSome = true) :
    ∃ capture, Rule.firstMatch (s.situation .markup) source = some (Rule.nameRule, capture) := by
  obtain ⟨⟨⟨name, isMethod⟩, rest⟩, hcalled⟩ := Option.isSome_iff_exists.1 named
  have hlast : s.last = some .macroFront := by
    simp [last, embeds.pending, embeds.frames, front.kind]
  exact ⟨_, Rule.firstMatch_of_calledName (embeds.mode front.mode .markup) hlast hcalled⟩

theorem defer {c : Char} {cs : List Char} (h : s.Phase (c :: cs))
    (unclaimed : Rule.firstMatch (s.situation .markup) (c :: cs) = none) : (s.defer c).Phase cs := by
  cases h with
  | prose stack => exact .prose stack
  | opening around front embeds named =>
    obtain ⟨capture, hfound⟩ := macroName_of_opening front embeds named
    rw [hfound] at unclaimed
    cases unclaimed
  | call around front embeds nested named kind =>
    exact .call around front (embeds.defer c) ⟨nested.outer, nested.frames⟩ named kind

/-- A match in prose: it stays in prose, or it is the parenthesis of a call. -/
theorem accept_prose {rest : List Char} {rule : Rule} {capture : Capture} {children : List Token}
    (stack : ProseStack s.outer s.frames)
    (found : Rule.firstMatch (s.situation .markup) (capture.text ++ rest) = some (rule, capture))
    (leaf : capture.inside = none → children = [])
    (hprose : rule.scope.innerMode = .markup → ProseRow children) :
    (s.accept .markup rule capture children).Phase rest := by
  obtain ⟨hrule, hmatch⟩ := Rule.of_firstMatch found
  have hactive : rule.scope.activeIn .markup = true := by
    have := activeIn_of_match? hmatch
    rwa [show (s.situation .markup).mode = .markup from stack.mode] at this
  obtain ⟨hkind, hcode, hmarkup, hnest⟩ := prose_rules hrule hactive
  have hbare : (rule.isFront || rule.kind.isCloser) = true → children = [] :=
    fun hmark => (isMark_build 0 found leaf hmark).bare
  by_cases hopens : rule.isFront = true ∧ rule.scope.innerMode = .code
  · -- the parenthesis of a call: from here on what is inside is a state of its own
    have hfront := hcode hopens.1 hopens.2
    obtain ⟨htext, _, _, _, hahead, -⟩ := macroFront_of_firstMatch found rfl hfront
    refine .opening (stack.flush .markup) ?_ (embeds_of_paren htext hopens.1 ?_ s .markup children)
      (by rw [hahead]; rfl)
    · refine ⟨hfront, hopens.2, ?_, hbare (by simp [hopens.1])⟩
      show String.ofList capture.text = "("
      rw [htext]
    · simp [hfront, Kind.folds]
  · refine .prose ((stack.flush .markup).place hbare ?_ ?_)
    · intro hfront
      have hmode : rule.scope.innerMode = .markup := by
        cases hinner : rule.scope.innerMode with
        | markup => rfl
        | code => exact absurd ⟨hfront, hinner⟩ hopens
      exact ⟨hmode, hmarkup hmode⟩
    · intro _
      cases hleaf : rule.pattern.isLeaf with
      | true =>
        have hnone := inside_of_isLeaf hleaf (Rule.capture?_of_match? hmatch)
        exact .markup hkind (by simp [build, leaf hnone])
      | false =>
        obtain ⟨hwhole, hmode⟩ := hnest hleaf
        exact .of_row hwhole (hprose hmode)

/-- A match inside a call: it stays there, or it is the parenthesis that closes the call. -/
theorem accept_call {source rest : List Char} {rule : Rule} {capture : Capture}
    {children : List Token} {opener name : Token} {outer : List Token} {below : List Frame}
    {i : State} (around : ProseStack outer below) (front : IsCallFront opener)
    (embeds : Embeds opener outer below i s) (nested : i.IsNested .code)
    (named : i.outer.getLast? = some name) (kind : name.kind = .macroName)
    (found : Rule.firstMatch (s.situation .markup) source = some (rule, capture))
    (leaf : capture.inside = none → children = [])
    (hcode : ∀ c ∈ children, Nested rule.scope.innerMode c) :
    (s.accept .markup rule capture children).Phase rest := by
  obtain ⟨hrule, hmatch⟩ := Rule.of_firstMatch found
  have hmode : (s.situation .markup).mode = i.mode .code := embeds.mode front.mode .markup
  have hactive : rule.scope.activeIn .code = true := by
    have := activeIn_of_match? hmatch
    rwa [hmode, mode_eq_modeIn, nested.frames.modeIn_code] at this
  by_cases hstays : (splitFrames? (build rule capture i.offset children)
      (i.flush .code).frames).isSome = true ∨ rule.kind.folds = []
  · refine .call around front (embeds.accept front.mode .markup hstays)
      (nested.accept hmode found leaf hcode) ?_ kind
    exact getLast?_outer_place (getLast?_outer_flush named .code) _
  · -- a closer that nothing inside the call is waiting for closes the call itself
    obtain ⟨hsplit, hfolds⟩ := not_or.1 hstays
    rw [Option.not_isSome_iff_eq_none] at hsplit
    have hback : rule.kind = .groupingBack := by
      apply (code_rules hrule hactive).2.1
      simpa [Kind.isCloser] using hfolds
    have hfold : foldKind? (build rule capture i.offset children) opener = some .macroCall := by
      simp [foldKind?, build, hback, front.kind, Kind.fold?, Kind.folds]
    rw [embeds.accept_closer front.mode .markup hfold hsplit]
    have houter : (s.flush .markup).outer = outer := (embeds.flush front.mode .markup).outer
    refine .prose (ProseStack.add (s := { s.flush .markup with frames := below }) ?_ (.call rfl ?_))
    · exact houter ▸ around
    · show ∀ c ∈ (i.finish .code).value.reverse.reverse, Nested .code c
      rw [List.reverse_reverse]
      exact nested.finish

theorem accept {rest : List Char} {rule : Rule} {capture : Capture} {children : List Token}
    (h : s.Phase (capture.text ++ rest))
    (found : Rule.firstMatch (s.situation .markup) (capture.text ++ rest) = some (rule, capture))
    (leaf : capture.inside = none → children = [])
    (hcode : ∀ c ∈ children, Nested rule.scope.innerMode c)
    (hprose : rule.scope.innerMode = .markup → ProseRow children) :
    (s.accept .markup rule capture children).Phase rest := by
  cases h with
  | prose stack => exact accept_prose stack found leaf hprose
  | @opening opener outer below offset around front embeds named =>
    obtain ⟨capture', hfound⟩ := macroName_of_opening front embeds named
    rw [hfound, Option.some.injEq, Prod.mk.injEq] at found
    obtain ⟨rfl, rfl⟩ := found
    -- the name of the call is the first token inside it
    have hstart : State.IsNested .code { offset } := ⟨by simp, trivial⟩
    have hname : (State.accept { offset } .code Rule.nameRule capture' children).outer.getLast? =
        some (build Rule.nameRule capture' offset children) := rfl
    exact .call around front (embeds.accept front.mode .markup (.inr rfl))
      (hstart.accept (embeds.mode front.mode .markup) hfound leaf hcode) hname rfl
  | call around front embeds nested named kind =>
    exact accept_call around front embeds nested named kind found leaf hcode

/-- Where the source ends, a call that is still open is given up. -/
theorem finish (h : s.Phase []) : ProseRow (s.finish .markup).value := by
  cases h with
  | prose stack => exact .prose (stack.flush .markup).prose_all
  | opening around front embeds named =>
    -- the name is still to come, so the source cannot end here
    cases named
  | @call opener name outer below i around front embeds nested named kind =>
    rw [embeds.finish front.mode]
    have hcode := nested.finish
    obtain ⟨after, hafter⟩ := List.head?_eq_some_iff.1 (head?_finish named .code)
    rw [hafter] at hcode ⊢
    refine .unclosed around.prose_all ⟨?_, ?_, ⟨"", ?_⟩, kind⟩ hcode
    · simp [demote, front.kind]
    · simp [demote, front.kind, front.bare]
    · simp [demote, front.kind, front.text]

end Phase

end State

/-- Lexing prose gives a row of prose. -/
theorem Lexes.proseRow {whole : Mode} {s : State} {source : List Char} {tokens : List Token}
    (h : Lexes whole s source tokens) : whole = .markup → s.Phase source → ProseRow tokens := by
  induction h with
  | finish =>
    rintro rfl hs
    exact hs.finish
  | defer unclaimed _ ih =>
    rintro rfl hs
    exact ih rfl (hs.defer unclaimed)
  | @accept whole s source rest rule capture children tokens found split leaf held next ihHeld ih =>
    rintro rfl hs
    subst split
    -- what a match holds is a text of its own, which starts in prose or is code throughout
    refine ih rfl (hs.accept found leaf ?_ ?_)
    · cases hi : capture.inside with
      | none => simp [leaf hi]
      | some i => exact (held i hi).nested ⟨by simp, trivial⟩
    · intro hmode
      cases hi : capture.inside with
      | none => exact .prose (by simp [leaf hi])
      | some i => exact ihHeld i hi hmode (.prose ⟨by simp, by simp⟩)

end Lexer

/-! ## The two laws -/

/-- Lexing prose gives a tree of prose. -/
theorem prose_lex (source : String) : (lex source).Prose :=
  .of_row rfl (Lexer.proseRow_mergeAll
    ((Lexer.lexes_lexFrom .markup { offset := 0 } source.toList).proseRow rfl
      (.prose ⟨by simp, by simp⟩)))

/-- What is inside a call or a grouping is code, in prose as in an expression: no markup is ever
lexed there. -/
theorem isCode_inside_call (mode : Mode) (source : String) :
    ∀ t ∈ (Lexer.lexIn mode source).value.tokens, (t.kind = .macroCall ∨ t.kind = .grouping) →
      ∀ u ∈ Token.tokensIn t.children, u.kind.isCode = true ∧ u.kind.isMarkup = false := by
  intro t ht hkind u hu
  have hcode : u.kind.isCode = true := by
    cases mode with
    | markup => exact (prose_lex source).isCode_below t ht hkind u hu
    | code =>
      rcases Token.mem_tokens.1 ht with rfl | ⟨c, hc, ht⟩
      · simp [Lexer.lexIn] at hkind
      · have hu : u ∈ Token.tokensIn (lexExpression source).children :=
          Token.mem_tokensIn.2 ⟨c, hc, Token.mem_tokens_of_below ht hu⟩
        exact (allCode_lexExpression source u hu).kind
  exact ⟨hcode, Kind.isMarkup_of_isCode hcode⟩

/-- Brackets, which open a hook in prose, are text in the grouping of a call. -/
theorem isCode_inside_call_brackets :
    ∃ t ∈ (Lexer.lexIn .markup "''(b: //, (2 * [c]))''").value.tokens, t.kind = .grouping ∧
      ∃ u ∈ Token.tokensIn t.children, u.text = "[c]" ∧
        u.kind.isCode = true ∧ u.kind.isMarkup = false := by
  have hfound : ((Lexer.lexIn .markup "''(b: //, (2 * [c]))''").value.tokens.any fun t =>
      t.kind = .grouping && (Token.tokensIn t.children).any fun u => u.text = "[c]") = true := by
    decide +kernel
  obtain ⟨t, ht, hall⟩ := List.any_eq_true.1 hfound
  obtain ⟨hkind, hinside⟩ := Bool.and_eq_true_iff.1 hall
  obtain ⟨u, hu, htext⟩ := List.any_eq_true.1 hinside
  have hkind : t.kind = .grouping := of_decide_eq_true hkind
  exact ⟨t, ht, hkind, u, hu, of_decide_eq_true htext,
    isCode_inside_call .markup _ t ht (.inr hkind) u hu⟩

/-- The number in a call that is not closed is in no call: only the parenthesis becomes text again. -/
theorem not_inCall_unclosed :
    ¬ ∀ u ∈ (lex "(a: 1").tokens, u.kind.isCodeOnly = true → (lex "(a: 1").InCall u := by
  have hnumber : ((lex "(a: 1").tokens.any fun u => u.kind.isCodeOnly) = true := by decide +kernel
  have hcalls : ((lex "(a: 1").tokens.all fun t => t.kind ≠ .macroCall) = true := by decide +kernel
  obtain ⟨u, hu, honly⟩ := List.any_eq_true.1 hnumber
  intro h
  obtain ⟨call, hcall, hkind, -⟩ := h u hu honly
  exact of_decide_eq_true (List.all_eq_true.1 hcalls call hcall) hkind

/-- Syntax of code stands inside calls, or after the parenthesis of a call that is never closed. -/
theorem inCall_or_afterUnclosedCall_lex (source : String) :
    ∀ u ∈ (lex source).tokens, u.kind.isCodeOnly = true →
      (lex source).InCall u ∨ (lex source).AfterUnclosedCall u :=
  (prose_lex source).inCall_or_afterUnclosedCall

/-- The number in a list item comes after a call that the item does not close; the call behind the
item, which is closed, does not hold it. -/
theorem inCall_or_afterUnclosedCall_lex_listItem :
    ∃ u ∈ (lex "* x (a: 1\n''(b: $y + (2))''").tokens, u.text = "1" ∧ u.kind = .number ∧
      (lex "* x (a: 1\n''(b: $y + (2))''").AfterUnclosedCall u := by
  have hnumber : ((lex "* x (a: 1\n''(b: $y + (2))''").tokens.any fun u =>
      u.text = "1" && u.kind = .number) = true := by decide +kernel
  have hcalls : ((lex "* x (a: 1\n''(b: $y + (2))''").tokens.all fun t =>
      t.kind ≠ .macroCall || (Token.tokensIn t.children).all fun u => u.text ≠ "1") = true := by
    decide +kernel
  obtain ⟨u, hu, hall⟩ := List.any_eq_true.1 hnumber
  simp only [Bool.and_eq_true, decide_eq_true_eq] at hall
  obtain ⟨htext, hkind⟩ := hall
  refine ⟨u, hu, htext, hkind, ?_⟩
  rcases inCall_or_afterUnclosedCall_lex _ u hu (by rw [hkind]; rfl) with hinside | hafter
  · obtain ⟨call, hcall, hcalled, hinside⟩ := hinside
    have := List.all_eq_true.1 hcalls call hcall
    simp only [hcalled, ne_eq, not_true_eq_false, decide_false, Bool.false_or, List.all_eq_true] at this
    exact absurd htext (of_decide_eq_true (this u hinside))
  · exact hafter

end StoryScript
