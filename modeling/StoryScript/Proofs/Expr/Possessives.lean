/-
  Chains of computed properties.

  A reference is written as its variable and then each further key in parentheses, after `'s`.
  `Grouped` says what a text in parentheses reads as, wherever it stands outside of every
  frame, and `Possessed` builds the tokens of the chain from the variable outwards, together
  with the reference that they compile to.
-/
import Mathlib
import StoryScript.Proofs.Expr.Chains
import StoryScript.Proofs.Literal.RoundTrip

namespace StoryScript

open Lexer Rule

/-! ## Parentheses that open no call -/

namespace Pattern

/-- The name of a call holds no parenthesis. -/
theorem notMem_of_calledName {cs name rest : List Char} {isMethod : Bool}
    (h : calledName cs = some ((name, isMethod), rest)) : ')' ∉ name := by
  rcases Scanner.orElse_eq_some.1 h with h | ⟨-, h⟩
  · simp only [propertyName, Scanner.bind_eq_some, Scanner.require_eq_some, Scanner.pure_eq_some,
      Scanner.takeWhile, Option.some.injEq, Prod.mk.injEq] at h
    obtain ⟨_, r, -, _, _, ⟨_, _, ⟨rfl, -⟩, _, _, -, rfl, -⟩, _, _, -, ⟨rfl, -⟩, -⟩ := h
    intro hmem
    rcases List.mem_cons.1 hmem with heq | hmem
    · exact absurd heq (by decide)
    · exact absurd (List.mem_takeWhile_imp hmem) (by decide)
  · simp only [Scanner.bind_eq_some, Scanner.pure_eq_some, Scanner.takeWhile, Option.some.injEq,
      Prod.mk.injEq] at h
    obtain ⟨c, r, hc, _, _, ⟨rfl, -⟩, _, _, -, ⟨rfl, -⟩, -⟩ := h
    intro hmem
    rcases List.mem_cons.1 hmem with rfl | hmem
    · exact absurd (Scanner.append_of_satisfy hc).2 (by decide)
    · exact absurd (List.mem_takeWhile_imp hmem) (by decide)

/-- Where no colon stands before the closing parenthesis, no call is opened. -/
theorem calledName_eq_none {text : List Char} (h : ':' ∉ text) (rest : List Char) :
    calledName (text ++ ')' :: rest) = none := by
  cases hcalled : calledName (text ++ ')' :: rest) with
  | none => rfl
  | some found =>
    obtain ⟨⟨name, isMethod⟩, after⟩ := found
    have hname := notMem_of_calledName hcalled
    rcases List.append_eq_append_iff.1 (append_of_calledName hcalled) with
      ⟨more, rfl, hmore⟩ | ⟨more, rfl, hmore⟩
    · -- the name would reach to the parenthesis
      cases more with
      | nil => simp at hmore
      | cons c cs =>
        obtain ⟨rfl, -⟩ := List.cons.inj hmore
        exact absurd (List.mem_append_right text List.mem_cons_self) hname
    · cases more with
      | nil => simp at hmore
      | cons c cs =>
        obtain ⟨rfl, -⟩ := List.cons.inj hmore
        exact absurd (List.mem_append_right name List.mem_cons_self) h

/-- A quote starts no name of a call. -/
theorem calledName_quote (cs : List Char) : calledName ('"' :: cs) = none :=
  rfl

end Pattern

namespace Rule

/-- A parenthesis that opens no call. -/
def groupingRule : Rule :=
  { ofCode .groupingFront "(" Pattern.groupingFront with isFront := true }

/-- `'s` before a computed name. -/
def possessiveRule : Rule :=
  { ofCode .possessiveOperator "'" Pattern.possessiveOperator with follows := some withProperties }

section

variable {here : Situation}

theorem firstMatch_grouping (h : Between here) {rest : List Char}
    (hrest : Pattern.calledName rest = none) :
    firstMatch here (['('] ++ rest) = some (groupingRule, ⟨['('], {}, none⟩) := by
  have hfront : frontRule.match? here (['('] ++ rest) = none := by
    apply match?_of_capture?_eq_none
    refine Pattern.capture?_leaf_eq_none (Scanner.bind_of_eq_none ?_)
    have hahead : Scanner.ahead Pattern.calledName rest = none := by
      rw [Scanner.ahead, hrest, Option.map_none]
    exact (Scanner.bind_of_eq_some (Scanner.char_cons '(' rest)).trans
      (Scanner.bind_of_eq_none hahead)
  refine firstMatch_of_candidates h.mode [nameRule, frontRule, blankRule] ⟨_, rfl⟩
    ⟨nameRule_skip h, hfront, blankRule_skip (by simp; rfl)⟩ ?_
  have hfits : groupingRule.fits here = true := by
    simp [fits, groupingRule, ofCode, h.mode, Scope.activeIn]
  rw [match?_of_fits hfits (by rfl)]
  refine @Pattern.capture?_plain _ ['('] rest ?_ (by simp)
  have hahead : Scanner.notAhead Pattern.calledName rest = some ((), rest) := by
    simp [Scanner.notAhead, hrest]
  exact (Scanner.bind_of_eq_some (Scanner.char_cons '(' rest)).trans hahead

theorem firstMatch_possessive (h : Between here) (hlast : here.last ∈ withProperties)
    (rest : List Char) :
    firstMatch here (['\'', 's', ' '] ++ '(' :: rest) =
      some (possessiveRule, ⟨['\'', 's', ' '], {}, none⟩) := by
  have hliteral : Scanner.literal "'s" ('\'' :: 's' :: ' ' :: '(' :: rest) =
      some ((), ' ' :: '(' :: rest) := rfl
  have hblank := @blanks1_cons ('(' :: rest) (by simp; rfl)
  have hproperty : propertyRule.match? here (['\'', 's', ' '] ++ '(' :: rest) = none := by
    apply match?_of_capture?_eq_none
    refine Pattern.capture?_leaf_eq_none (Scanner.bind_of_eq_none ?_)
    refine (Scanner.bind_of_eq_some hliteral).trans ((Scanner.bind_of_eq_some hblank).trans ?_)
    exact propertyName_eq_none (by simp; rfl)
  refine firstMatch_of_candidates h.mode [nameRule, blankRule, propertyRule] ⟨_, rfl⟩
    ⟨nameRule_skip h, blankRule_skip (by simp; rfl), hproperty⟩ ?_
  have hfits : possessiveRule.fits here = true := by
    simp [fits, possessiveRule, ofCode, h.mode, Scope.activeIn, hlast]
  rw [match?_of_fits hfits (by rfl)]
  refine @Pattern.capture?_plain _ ['\'', 's', ' '] ('(' :: rest) ?_ (by simp)
  refine (Scanner.bind_of_eq_some hliteral).trans ((Scanner.bind_of_eq_some hblank).trans ?_)
  rfl

end

end Rule

/-! ## Groupings -/

/-- What a token that folds a grouping is: it holds the tokens inside, and it compiles to a group
of what they compile to. -/
theorem value_ofOperand_grouping {t : Token} (hkind : t.kind = .grouping) :
    (Expr.ofOperand t false).value =
      .group (Expr.ofRun (Expr.significant t.children) false).value := by
  rw [Expr.ofOperand, hkind]
  rfl

namespace Lexer.State

variable {s : State}

/-- A parenthesis that opens no call starts a frame of code. -/
theorem Outside.lexFrom_open (hs : s.Outside) {rest : List Char}
    (hrest : Pattern.calledName rest = none) :
    ∃ front : Token, front.kind = .groupingFront ∧
      ((s.push front).advance ['(']).IsReady .code ∧
      (lexFrom .code s ('(' :: rest)).value =
        (lexFrom .code ((s.push front).advance ['(']) rest).value := by
  refine ⟨leafOf groupingRule ['('] {} s.offset, rfl, ?_, value_lexFrom_open hs.pending
    (firstMatch_grouping hs.toIsReady.between hrest) (by rfl) (by rfl)⟩
  have hlast : ((s.push (leafOf groupingRule ['('] {} s.offset)).advance ['(']).last =
      some .groupingFront := by
    simp [State.last, State.advance, State.push, hs.pending]
    rfl
  exact ⟨hs.pending, rfl, by rw [hlast]; decide, by rw [hlast]; decide⟩

/-- The parenthesis that closes the only frame folds it, with what was read since. -/
theorem lexFrom_close_grouping (hmode : s.mode .code = .code) (hlast : s.last ≠ some .macroFront)
    {front : Token} {inside : List Token} (hfront : front.kind = .groupingFront)
    (hframes : (s.flush .code).frames = [⟨front, inside⟩]) (rest : List Char) :
    ∃ (s' : State) (t : Token), s'.Outside ∧ s'.outer = t :: (s.flush .code).outer ∧
      s'.last = some .grouping ∧ t.kind = .grouping ∧ t.children = inside.reverse ∧
      (lexFrom .code s (')' :: rest)).value = (lexFrom .code s' rest).value := by
  have found : firstMatch (s.situation .code) ([')'] ++ rest) =
      some (backRule, ⟨[')'], {}, none⟩) := by
    refine firstMatch_of_candidates hmode [nameRule] ⟨_, rfl⟩ (match?_of_not_fits ?_) ?_
    · simp [fits, nameRule, State.situation, hlast]
    · have hfits : backRule.fits (s.situation .code) = true := by
        simp [fits, backRule, ofExpression, Scope.activeIn]
      rw [match?_of_fits hfits (by rfl)]
      exact @Pattern.capture?_plain _ [')'] rest rfl (by simp)
  set back := build backRule ⟨[')'], {}, none⟩ s.offset [] with hback
  set t := fold back [] ⟨front, inside⟩ .grouping with ht
  have hfold : foldKind? back front = some .grouping := by
    rw [foldKind?, hfront]
    rfl
  have hplace : ((s.flush .code).place back).value =
      { s.flush .code with frames := [], outer := t :: (s.flush .code).outer } := by
    simp [State.place, hframes, splitFrames?, hfold, State.add, ht]
  have hlex := @value_lexFrom_append .code s backRule ⟨[')'], {}, none⟩ rest found
  rw [State.accept, childrenOf, ← hback, hplace] at hlex
  refine ⟨_, t, ⟨⟨?_, rfl, ?_, ?_⟩, rfl⟩, rfl, ?_, rfl, ?_, hlex⟩
  · exact State.pending_flush s .code
  · simp [State.last, State.advance, ht, fold]
  · simp [State.last, State.advance, ht, fold]
  · simp [State.last, State.advance, ht, fold]
  · simp [ht, fold]

end Lexer.State

/-- Text in parentheses that reads as a group of an expression, outside of every frame. -/
def Grouped (text : List Char) (e : Expr) : Prop :=
  ∀ (s : State) (rest : List Char), s.Outside →
    ∃ (s' : State) (t : Token), s'.Outside ∧ s'.outer = t :: s.outer ∧ s'.last = some .grouping ∧
      t.kind = .grouping ∧ mergeText t = t ∧ (Expr.ofOperand t false).value = .group e ∧
      (lexFrom .code s ('(' :: (text ++ ')' :: rest))).value = (lexFrom .code s' rest).value

theorem mergeText_of_children {t : Token} (h : mergeAll t.children = t.children) :
    mergeText t = t := by
  rw [mergeText_eq, h]
  cases t
  rfl

/-- A literal in parentheses reads as a group of it. -/
theorem Reads.grouped {text : List Char} {e : Expr} (h : Reads text e)
    (hcalled : ∀ rest, Pattern.calledName (text ++ ')' :: rest) = none) : Grouped text e := by
  intro s rest hs
  obtain ⟨front, hfront, hready, hopen⟩ := hs.lexFrom_open (hcalled rest)
  set s₁ := (s.push front).advance ['('] with hs₁
  have hends : Ends (')' :: rest) := fun c hc => .inr (Option.some.inj hc).symm
  obtain ⟨ts, hts, hlex⟩ := h.tokens hready (by rfl) hends
  have hready₂ : (s₁.passed text ts).IsReady .code := hready.passed _ hts.ready
  have hflush : (s₁.passed text ts).flush .code = s₁.passed text ts := by
    simp [State.flush, hready₂.pending]
  have hstate : s₁.passed text ts =
      { s₁ with frames := [⟨front, ts.reverse⟩] }.advance text := by
    have hframes : s₁.frames = ⟨front, []⟩ :: [] := by
      simp [hs₁, State.advance, State.push, hs.frames]
    rw [State.passed, State.addAll_of_frames hframes, List.append_nil]
  obtain ⟨s', t, hs', houter, hlast, hkind, hchildren, hclose⟩ :=
    State.lexFrom_close_grouping hready₂.mode hready₂.notFront hfront
      (by rw [hflush, hstate]; rfl) rest
  rw [List.reverse_reverse] at hchildren
  refine ⟨s', t, hs', ?_, hlast, hkind, mergeText_of_children ?_, ?_, ?_⟩
  · rw [houter, hflush, hstate]
    rfl
  · rw [hchildren]
    exact mergeAll_eq_self hts.merged fun u hu => (hts.ready u hu).1
  · rw [value_ofOperand_grouping hkind, hchildren, hts.significant, hts.value]
  · rw [hopen, hlex, hclose]

/-! ### Numbers without a numeral -/

namespace Rule

/-- There is no first match where no candidate matches. -/
theorem firstMatch_eq_none {here : Situation} (hmode : here.mode = .code) {c : Char}
    {cs : List Char} (rules : List Rule) (hcandidates : candidates c = rules)
    (h : rules.Forall fun rule => rule.match? here (c :: cs) = none) :
    firstMatch here (c :: cs) = none := by
  rw [firstMatch_code hmode, hcandidates, List.findSome?_eq_none_iff]
  intro rule hrule
  rw [List.forall_iff_forall_mem.1 h rule hrule, Option.map_none]

/-- `inf` is no word of the language. -/
theorem firstMatch_inf {here : Situation} (h : Between here) (rest : List Char) :
    firstMatch here ('i' :: 'n' :: 'f' :: ')' :: rest) = none := by
  obtain ⟨hit, hof, hcolour⟩ := @word_skip here ['i', 'n', 'f'] (')' :: rest) (by rfl) (by simp)
    (by simp; rfl) (by simp; rfl) (by rfl)
  have hkeyword {rule : Rule}
      (hnone : rule.pattern.capture? ('i' :: 'n' :: 'f' :: ')' :: rest) = none) :=
    @match?_of_capture?_eq_none rule here _ hnone
  refine firstMatch_eq_none h.mode
    [nameRule, blankRule, (ofCode .itsProperty "iI" Pattern.itsProperty).asKeyword,
      (ofCode .itsOperator "iI" Pattern.itsOperator).asKeyword, belongingItRule, belongingRule,
      colourRule, identifierRule, (ofCode .is "iI" Pattern.is).asKeyword,
      (ofCode .isIn "iI" Pattern.isIn).asKeyword, (ofCode .isNot "iI" Pattern.isNot).asKeyword,
      (ofCode .intoWord "iI" (Pattern.word "into")).asKeyword] rfl ?_
  exact ⟨nameRule_skip h, blankRule_skip (by simp; rfl), hkeyword rfl, hkeyword rfl, hit, hof,
    hcolour, hkeyword rfl, hkeyword rfl, hkeyword rfl, hkeyword rfl, hkeyword rfl⟩

/-- Whether a rule never continues a word that is left to the text. -/
def startsAfresh (rule : Rule) : Bool :=
  rule.wordStart || rule.avoids.contains (some .text) ||
    rule.follows.any fun kinds => !kinds.contains (some .text)

theorem match?_inWord {rule : Rule} (hrule : rule.startsAfresh = true) {here : Situation}
    (hlast : here.last = some .text) (hword : here.afterWord = true) (source : List Char) :
    rule.match? here source = none := by
  apply match?_of_not_fits
  rw [Bool.eq_false_iff]
  intro hfits
  simp only [fits, hlast, hword, Bool.and_eq_true, Bool.and_true, Bool.not_eq_true'] at hfits
  obtain ⟨⟨⟨⟨-, hstart⟩, hfollows⟩, havoids⟩, -⟩ := hfits
  simp only [startsAfresh, Bool.or_eq_true] at hrule
  rcases hrule with (hrule | hrule) | hrule
  · exact absurd hstart (by rw [hrule]; decide)
  · exact absurd havoids (by rw [hrule]; decide)
  · cases hkinds : rule.follows with
    | none => simp [hkinds] at hrule
    | some kinds => simp_all

/-- Inside a word that is left to the text nothing matches but what may continue it. -/
theorem firstMatch_inWord {here : Situation} (hmode : here.mode = .code)
    (hlast : here.last = some .text) (hword : here.afterWord = true) {c : Char}
    (hc : (candidates c).all startsAfresh = true) (cs : List Char) :
    firstMatch here (c :: cs) = none := by
  refine firstMatch_eq_none hmode _ rfl (List.forall_iff_forall_mem.2 fun rule hrule => ?_)
  exact match?_inWord (List.all_eq_true.1 hc rule hrule) hlast hword _

end Rule

/-- `inf` up to the closing parenthesis is left to the text, which is the last token inside. -/
theorem lexFrom_inf {s : State} (hs : s.IsReady .code) {front : Token} {inside : List Token}
    (hfront : front.kind = .groupingFront) (hframes : s.frames = [⟨front, inside⟩])
    (rest : List Char) :
    ∃ (s' : State) (t text : Token), s'.Outside ∧ s'.outer = t :: s.outer ∧
      s'.last = some .grouping ∧ t.kind = .grouping ∧ text.kind = .text ∧ text.text = "inf" ∧
      mergeText text = text ∧ t.children = inside.reverse ++ [text] ∧
      (lexFrom .code s ('i' :: 'n' :: 'f' :: ')' :: rest)).value =
        (lexFrom .code s' rest).value := by
  have hmode {s' : State} (h : s'.frames = s.frames) : s'.mode .code = .code := by
    rw [State.mode, h]
    exact hs.mode
  set s₁ := s.defer 'i' with hs₁
  set s₂ := s₁.defer 'n' with hs₂
  set s₃ := s₂.defer 'f' with hs₃
  have hn : firstMatch (s₁.situation .code) ('n' :: 'f' :: ')' :: rest) = none :=
    firstMatch_inWord (hmode rfl) rfl rfl (by rfl) _
  have hf : firstMatch (s₂.situation .code) ('f' :: ')' :: rest) = none :=
    firstMatch_inWord (hmode rfl) rfl rfl (by rfl) _
  have hflush : s₃.flush .code =
      { s₃ with pending := [], frames := [⟨front, s₃.pendingText .code :: inside⟩] } := by
    rcases s₃.flush_cases .code with ⟨hnil, -⟩ | ⟨-, hflush⟩
    · cases hnil
    · rw [hflush, State.add]
      simp [hs₁, hs₂, hs₃, State.defer, hframes]
  have hmode₃ : s₃.mode .code = .code := hmode rfl
  have hlast₃ : s₃.last ≠ some .macroFront := by simp [State.last, hs₃, State.defer]
  obtain ⟨s', t, hs', houter, hlast, hkind, hchildren, hclose⟩ :=
    State.lexFrom_close_grouping hmode₃ hlast₃ hfront (by rw [hflush]) rest
  have hspelled : (s₃.pendingText .code).text = "inf" := by
    simp [State.pendingText, hs₁, hs₂, hs₃, State.defer, hs.pending]
  refine ⟨s', t, s₃.pendingText .code, hs', ?_, hlast, hkind, rfl, hspelled, rfl, ?_, ?_⟩
  · rw [houter, hflush]
    rfl
  · rw [hchildren, List.reverse_cons]
  · rw [value_lexFrom_defer (firstMatch_inf hs.between rest), value_lexFrom_defer hn,
      value_lexFrom_defer hf, ← hs₃, hclose]

/-- What is left to the text is no code. -/
theorem value_ofRun_text {t : Token} (hkind : t.kind = .text) :
    (Expr.ofRun [t] false).value =
      .error .malformed ("`" ++ Text.trim t.text ++ "` isn't valid code here.") := by
  rw [Expr.ofRun_singleton (by rw [hkind]; decide), Expr.ofOperand, hkind]
  show (Expr.ofLeaf t false).value = _
  rw [Expr.ofLeaf, hkind]
  show (Expr.notCode t).value = _
  rw [Expr.notCode, hkind]
  rfl

/-- `inf` is text with a letter in it, so a run keeps it. -/
theorem isWhitespace_inf {t : Token} (hkind : t.kind = .text) (htext : t.text = "inf") :
    t.isWhitespace = false := by
  rw [Token.isWhitespace, hkind, htext]
  rfl

/-- What `inf` compiles to. -/
def infError : Expr :=
  .error .malformed "`inf` isn't valid code here."

theorem grouped_inf : Grouped ['i', 'n', 'f'] infError := by
  intro s rest hs
  obtain ⟨front, hfront, hready, hopen⟩ := hs.lexFrom_open
    (Pattern.calledName_eq_none (show ':' ∉ ['i', 'n', 'f'] by decide) rest)
  have hframes : ((s.push front).advance ['(']).frames = [⟨front, []⟩] := by
    simp [State.advance, State.push, hs.frames]
  obtain ⟨s', t, text, hs', houter, hlast, hkind, htext, hspelled, hmerged, hchildren, hlex⟩ :=
    lexFrom_inf hready hfront hframes rest
  rw [List.reverse_nil, List.nil_append] at hchildren
  refine ⟨s', t, hs', houter, hlast, hkind, mergeText_of_children ?_, ?_, hopen.trans hlex⟩
  · simp [hchildren, mergeAll, hmerged]
  · have hsignificant : Expr.significant [text] = [text] := by
      simp [Expr.significant, isWhitespace_inf htext hspelled]
    rw [value_ofOperand_grouping hkind, hchildren, hsignificant, value_ofRun_text htext, hspelled]
    rfl

theorem grouped_negative_inf :
    Grouped ['-', 'i', 'n', 'f'] (.binary (.number 0) .subtract infError) := by
  intro s rest hs
  obtain ⟨front, hfront, hready, hopen⟩ := hs.lexFrom_open
    (Pattern.calledName_eq_none (show ':' ∉ ['-', 'i', 'n', 'f'] by decide) rest)
  set s₁ := (s.push front).advance ['('] with hs₁
  have hframes : s₁.frames = ⟨front, []⟩ :: [] := by
    simp [hs₁, State.advance, State.push, hs.frames]
  have hminus := value_lexFrom_plain hready.pending
    (@firstMatch_minus _ hready.between ('i' :: 'n' :: 'f' :: ')' :: rest) (by simp)) (by rfl)
    (by rfl)
  set minus := leafOf minusRule ['-'] { operator := some .subtract } s₁.offset with hm
  have hready₂ : (s₁.passed ['-'] [minus]).IsReady .code :=
    hready.passed _ (by simp [hm, leafOf, build, minusRule, ofCode])
  have hframes₂ : (s₁.passed ['-'] [minus]).frames = [⟨front, [minus]⟩] := by
    rw [State.passed, State.addAll_of_frames hframes]
    rfl
  obtain ⟨s', t, text, hs', houter, hlast, hkind, htext, hspelled, hmerged, hchildren, hlex⟩ :=
    lexFrom_inf hready₂ hfront hframes₂ rest
  have hchildren : t.children = [minus, text] := hchildren
  refine ⟨s', t, hs', ?_, hlast, hkind, mergeText_of_children ?_, ?_,
    hopen.trans (hminus.trans hlex)⟩
  · rw [houter, State.passed, State.addAll_of_frames hframes]
    rfl
  · have hsign : mergeText minus = minus := rfl
    have hplain : minus.kind ≠ .text := by
      rw [show minus.kind = .subtraction from rfl]
      decide
    simp [hchildren, mergeAll, hmerged, hsign, hplain]
  · have hsignificant : Expr.significant [minus, text] = [minus, text] := by
      have hsign : minus.isWhitespace = false := rfl
      simp [Expr.significant, hsign, isWhitespace_inf htext hspelled]
    rw [value_ofOperand_grouping hkind, hchildren, hsignificant,
      value_ofRun_negative rfl rfl (by rw [htext]; decide), value_ofRun_text htext, hspelled]
    rfl

/-! ## Tokens that make a chain -/

/-- The tokens of a variable with properties in parentheses after it, and the reference that they
stand for. -/
inductive Possessed : List Token → Expr → Prop where
  | start {t : Token} {v : String} (hkind : t.kind = .storyVariable) (hname : t.name = some v) :
      Possessed [t] (.ref .story (.name v))
  | step {ts : List Token} {owner : Expr} {op t : Token} {e : Expr} (h : Possessed ts owner)
      (hop : op.kind = .possessiveOperator) (hkind : t.kind = .grouping)
      (hvalue : (Expr.ofOperand t false).value = .group e) :
      Possessed (ts ++ [op, t]) (.ref (.of owner) (.computed (.group e)))

namespace Possessed

open Precedence

variable {ts : List Token} {e : Expr}

theorem ne_nil (h : Possessed ts e) : ts ≠ [] := by
  cases h <;> simp

theorem kinds (h : Possessed ts e) :
    ∀ t ∈ ts, t.kind ∈ [Kind.storyVariable, .possessiveOperator, .grouping] := by
  induction h with
  | start hkind _ => simp [hkind]
  | step _ hop hkind _ ih =>
    intro t ht
    rcases List.mem_append.1 ht with ht | ht
    · exact ih t ht
    · rcases List.mem_pair.1 ht with rfl | rfl
      · simp [hop]
      · simp [hkind]

theorem significant (h : Possessed ts e) : Expr.significant ts = ts := by
  rw [Expr.significant, List.filter_eq_self]
  intro t ht
  have hkind := h.kinds t ht
  simp only [List.mem_cons, List.not_mem_nil, or_false] at hkind
  rcases hkind with hkind | hkind | hkind <;> simp [Token.isWhitespace, hkind]

/-- The last `'s` divides. -/
theorem divide_step (h : Possessed ts e) {op t : Token} (hop : op.kind = .possessiveOperator)
    (hkind : t.kind = .grouping) : divide (ts ++ [op, t]) = some ⟨ts, op, [t]⟩ := by
  refine @divide_of_divideBy (groups.take 19) [] ([.possessiveOperator, .itsOperator], .last)
    _ _ rfl ?_ ?_
  · intro u hu group hgroup
    have hmem : u.kind ∈ [Kind.storyVariable, .possessiveOperator, .grouping] := by
      rcases List.mem_append.1 hu with hu | hu
      · exact h.kinds u hu
      · rcases List.mem_pair.1 hu with rfl | rfl
        · simp [hop]
        · simp [hkind]
    generalize u.kind = kind at hmem
    revert kind group
    decide
  · refine divideLast_append ?_ ?_
    · simp [divides, isUsable, hop]
    · simp [hkind]

/-- A chain compiles to its reference. -/
theorem value_ofRun (h : Possessed ts e) : (Expr.ofRun ts true).value = e := by
  induction h with
  | start hkind hname =>
    rw [Expr.ofRun_singleton (by rw [hkind]; decide), Expr.ofOperand, hkind]
    simp [Expr.ofLeaf, hkind, Expr.nameOf, hname, Expr.reference]
  | @step ts owner op t e h hop hkind hvalue ih =>
    have hright : (Expr.ofRun [t] false).value = .group e := by
      rw [Expr.ofRun_singleton (by rw [hkind]; decide), hvalue]
    rw [Expr.ofRun_of_divide (h.divide_step hop hkind), Expr.ofOperator]
    simp [hop, h.ne_nil, ih, hright, Expr.reference]

end Possessed

/-- Properties in parentheses, each after `'s`. -/
def groupedText (texts : List (List Char)) : List Char :=
  texts.flatMap fun text => ['\'', 's', ' '] ++ '(' :: (text ++ [')'])

theorem head_groupedText (texts : List (List Char)) :
    ∀ c ∈ (groupedText texts).head?, Text.isWord c = false := by
  intro c hc
  cases texts with
  | nil => cases hc
  | cons => exact Option.some.inj hc ▸ rfl

/-- The reference to properties of properties that are computed by the given expressions. -/
def computedChain (v : String) (es : List Expr) : Expr :=
  es.foldl (fun owner e => .ref (.of owner) (.computed (.group e))) (.ref .story (.name v))

/-- Properties in parentheses lengthen the chain that was read before them. -/
theorem lexFrom_grouped {texts : List (List Char)} {es : List Expr}
    (h : List.Forall₂ Grouped texts es) {s : State} (hs : s.Outside) {owner : Expr}
    (hlast : s.last ∈ withProperties) (hchain : Possessed s.outer.reverse owner)
    (houter : ∀ t ∈ s.outer, mergeText t = t) :
    ∃ ts, (lexFrom .code s (groupedText texts)).value = ts ∧ (∀ t ∈ ts, mergeText t = t) ∧
      Possessed ts
        (es.foldl (fun owner e => .ref (.of owner) (.computed (.group e))) owner) := by
  induction h generalizing s owner with
  | nil =>
    refine ⟨_, hs.value_lexFrom_nil, ?_, hchain⟩
    exact fun t ht => houter t (List.mem_reverse.1 ht)
  | @cons text e texts es hgrouped _ ih =>
    obtain ⟨s₁, hs₁, houter₁, -, -, hlex₁⟩ := hs.step (firstMatch_possessive hs.toIsReady.between
      hlast (text ++ ')' :: groupedText texts)) (by rfl) (by rfl) (by decide)
    obtain ⟨s₂, t, hs₂, houter₂, hlast₂, hkind, hmerged, hvalue, hlex₂⟩ :=
      hgrouped s₁ (groupedText texts) hs₁
    have hchain₂ : Possessed s₂.outer.reverse (.ref (.of owner) (.computed (.group e))) := by
      rw [houter₂, houter₁, List.reverse_cons, List.reverse_cons, List.append_assoc]
      exact hchain.step rfl hkind hvalue
    obtain ⟨ts, hts, hmerged', hpossessed⟩ := ih hs₂ (by rw [hlast₂]; decide) hchain₂ (by
      rw [houter₂, houter₁]
      exact List.forall_mem_cons.2 ⟨hmerged, List.forall_mem_cons.2 ⟨rfl, houter⟩⟩)
    refine ⟨ts, ?_, hmerged', hpossessed⟩
    have htext : groupedText (text :: texts) =
        ['\'', 's', ' '] ++ '(' :: (text ++ ')' :: groupedText texts) := by simp [groupedText]
    rw [htext, hlex₁, hlex₂, hts]

/-- A variable with properties in parentheses after it compiles to the reference along them. -/
theorem compile_grouped {v : String} (hv : IsName v.toList) {texts : List (List Char)}
    {es : List Expr} (h : List.Forall₂ Grouped texts es) {source : String}
    (hsource : source.toList = '$' :: v.toList ++ groupedText texts) :
    compile (lexExpression source).children true = computedChain v es := by
  have hs : ({ offset := 0 } : State).Outside :=
    ⟨⟨rfl, rfl, by simp [State.last], by simp [State.last]⟩, rfl⟩
  obtain ⟨s, t, hs', houter, hkind, hname, hmerged, hlast, hlex⟩ :=
    lexFrom_variable hs hv (head_groupedText texts)
  obtain ⟨ts, hts, hmerged', hchain⟩ := lexFrom_grouped h hs' (by rw [hlast]; decide)
    (by rw [houter]; exact .start hkind hname) (by simp [houter, hmerged])
  have hchildren : (lexExpression source).children = ts := by
    refine children_lexExpression (by rw [hsource, hlex, hts]) fun u hu => ⟨hmerged' u hu, ?_⟩
    exact fun htext => absurd (htext ▸ hchain.kinds u hu) (by decide)
  rw [hchildren, compile, Expr.ofTokens, hchain.significant]
  exact hchain.value_ofRun

end StoryScript
