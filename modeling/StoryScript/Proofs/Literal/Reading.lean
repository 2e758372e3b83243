/-
  Reading literals.

  A text reads as an expression if lexing it, wherever a literal can stand, adds tokens
  that spell the expression. Each kind of literal does, and so does a call on texts
  that do.
-/
import Mathlib
import StoryScript.Proofs.Literal.FirstMatch
import StoryScript.Proofs.Literal.Spelling
import StoryScript.Proofs.Token.Forward
import StoryScript.Value.Printer

namespace StoryScript

open Lexer Rule

/-- A text that reads as an expression wherever a literal can stand. -/
structure Reads (text : List Char) (e : Expr) : Prop where
  ne_nil : text ≠ []
  noBlank : ∀ c ∈ text.head?, Text.isBlank c = false
  tokens : ∀ {whole : Mode} {s : State} {rest : List Char}, s.IsReady whole →
    s.previous.any Text.isWord = false → Ends rest →
    ∃ ts, Spells ts e ∧
      (lexFrom whole s (text ++ rest)).value = (lexFrom whole (s.passed text ts) rest).value

theorem Lexer.State.IsReady.between {s : State} {whole : Mode} (h : s.IsReady whole) :
    Between (s.situation whole) :=
  ⟨h.mode, h.notText, h.notFront⟩

theorem mergeText_leafOf (rule : Rule) (text : List Char) (detail : Detail) (start : Nat) :
    mergeText (leafOf rule text detail start) = leafOf rule text detail start :=
  rfl

/-! ## Literals of one token -/

section

variable {whole : Mode} {s : State} {text rest : List Char} {rule : Rule} {detail : Detail} {e : Expr}

/-- A match that is an operand by itself adds the token of its expression. -/
theorem lexFrom_operand (hs : s.pending = [])
    (found : firstMatch (s.situation whole) (text ++ rest) = some (rule, ⟨text, detail, none⟩))
    (hfront : rule.isFront = false) (hkind : rule.kind.isLiteral = true)
    (hcall : rule.kind ≠ .macroCall)
    (he : (Expr.ofLeaf (leafOf rule text detail s.offset) false).value = e) :
    ∃ t : Token, t.kind = rule.kind ∧ Spells [t] e ∧
      (lexFrom whole s (text ++ rest)).value = (lexFrom whole (s.passed text [t]) rest).value := by
  have hfolds : rule.kind.folds = [] := by
    cases hk : rule.kind <;> first | rfl | exact absurd (hk ▸ hkind) (by decide)
  have hoperand : Expr.ofOperand (leafOf rule text detail s.offset) false =
      Expr.ofLeaf (leafOf rule text detail s.offset) false := by
    have hk : (leafOf rule text detail s.offset).kind = rule.kind := rfl
    have hgrouping : rule.kind ≠ .grouping := by
      intro hgrouping
      rw [hgrouping] at hkind
      exact absurd hkind (by decide)
    rw [Expr.ofOperand, hk]
    split
    · contradiction
    · contradiction
    · rfl
  exact ⟨_, rfl, .operand hkind (mergeText_leafOf ..) (by rw [hoperand, he]),
    value_lexFrom_plain hs found hfront hfolds⟩

end

/-- A text that is the first match in every place reads as the operand that its token is. -/
theorem Reads.leaf {text : List Char} {e : Expr} {rule : Rule} {detail : Detail} (hne : text ≠ [])
    (hblank : ∀ c ∈ text.head?, Text.isBlank c = false) (hfront : rule.isFront = false)
    (hkind : rule.kind.isLiteral = true) (hcall : rule.kind ≠ .macroCall)
    (found : ∀ {here : Situation} {rest : List Char}, Between here → here.afterWord = false →
      Ends rest → firstMatch here (text ++ rest) = some (rule, ⟨text, detail, none⟩))
    (he : ∀ start, (Expr.ofLeaf (leafOf rule text detail start) false).value = e) :
    Reads text e := by
  refine ⟨hne, hblank, ?_⟩
  intro whole s rest hs hword hrest
  obtain ⟨t, -, ht, hlex⟩ := lexFrom_operand hs.pending (found hs.between hword hrest) hfront hkind
    hcall (he s.offset)
  exact ⟨[t], ht, hlex⟩

theorem reads_string (s : String) : Reads (Text.literal s).toList (.string s) := by
  have htext := Text.toList_literal s
  refine .leaf (by simp [htext]) ?_ (by rfl) (by rfl) (by decide)
    (fun h _ _ => firstMatch_string h s _) ?_
  · rw [htext]
    simp
    rfl
  · intro start
    have hbody : Expr.stringBody (Text.literal s).toList = s.toList.flatMap Text.literalChar := by
      rw [htext, Expr.stringBody]
      simp [show '"'.utf8Size = 1 from rfl]
    show Expr.string (String.ofList (Text.unescape
      (Expr.stringBody (String.ofList (Text.literal s).toList).toList))) = .string s
    rw [String.ofList_toList, hbody, Text.unescape_literal, String.ofList_toList]

theorem reads_boolean (b : Bool) : Reads (toString b).toList (.boolean b) := by
  refine .leaf ?_ ?_ (by rfl) (by rfl) (by decide)
    (fun h hword hrest => firstMatch_boolean h hword b hrest) ?_
  · cases b <;> decide
  · intro c hc
    cases b <;> exact Option.some.inj hc ▸ rfl
  · intro start
    show Expr.boolean (Text.sameIgnoringCase (String.ofList (toString b).toList) "true") = .boolean b
    rw [String.ofList_toList, Text.sameIgnoringCase, Text.lower, Text.lower]
    cases b <;> rfl

theorem reads_colour (c : Colour) : Reads c.toHex.toList (.colour c.toHex) := by
  have htext := Colour.toList_toHex c
  refine .leaf (by simp [htext]) ?_ (by rfl) (by rfl) (by decide)
    (fun h hword hrest => firstMatch_colour h hword c hrest) ?_
  · rw [htext]
    simp
    rfl
  · intro start
    rfl

theorem reads_numeral {text : List Char} (h : Decimal.IsNumeral text) :
    Reads text (.number (.ofFloat (Pattern.numberOf text))) := by
  obtain ⟨c, cs, rfl, hc⟩ := h.head
  refine .leaf (by simp) ?_ (by rfl) (by rfl) (by decide)
    (fun here hword hrest => firstMatch_number here hword h hrest) ?_
  · intro d hd
    rw [← Option.some.inj hd]
    simpa using @of_isDigit (fun c => !Text.isBlank c) (by rfl) c hc
  · intro start
    rfl

/-- A minus sign before a numeral. -/
theorem reads_negative {text : List Char} (h : Decimal.IsNumeral text) :
    Reads ('-' :: text) (.binary (.number 0) .subtract (.number (.ofFloat (Pattern.numberOf text)))) := by
  refine ⟨by simp, by simp; rfl, ?_⟩
  intro whole s rest hs hword hrest
  obtain ⟨c, cs, htext, hc⟩ := h.head
  have hequals : ∀ d ∈ (text ++ rest).head?, d ≠ '=' := by
    rintro d hd rfl
    rw [htext] at hd
    obtain rfl : c = '=' := Option.some.inj hd
    exact absurd hc (by decide)
  have hminus := value_lexFrom_plain hs.pending (firstMatch_minus hs.between hequals) (by rfl) (by rfl)
  set minus := leafOf minusRule ['-'] { operator := some .subtract } s.offset with hm
  have hs' : (s.passed ['-'] [minus]).IsReady whole :=
    hs.passed _ (by simp [hm, leafOf, build, minusRule, ofCode])
  obtain ⟨t, hkind, ht, hlex⟩ := lexFrom_operand hs'.pending
    (firstMatch_number hs'.between (by rfl) h hrest) (by rfl) (by rfl) (by decide) rfl
  refine ⟨[minus, t], .negative rfl rfl rfl (by rw [hkind]; rfl) ht, ?_⟩
  rw [List.cons_append, ← List.singleton_append, hminus, hlex,
    State.passed_passed _ _ (by simp [htext])]
  rfl

/-! ## Calls -/

/-- The text of arguments, each after a blank, with commas between. -/
def argsText : List (List Char) → List Char
  | [] => []
  | [a] => ' ' :: a
  | a :: b :: args => ' ' :: a ++ ',' :: argsText (b :: args)

theorem argsText_cons (a : List Char) (args : List (List Char)) :
    argsText (a :: args) = ' ' :: [',', ' '].intercalate (a :: args) := by
  induction args generalizing a with
  | nil => rw [argsText, List.intercalate_singleton]
  | cons b args ih =>
    rw [argsText, ih, List.intercalate_cons_cons]
    simp

theorem toList_macroSource (name : String) (args : List String) :
    (macroSource name args).toList =
      '(' :: (name.toList ++ ':' :: (argsText (args.map String.toList) ++ [')'])) := by
  cases args with
  | nil => simp [macroSource, argsText]
  | cons a args => simp [macroSource, argsText_cons]

theorem Spells.ready {ts : List Token} {e : Expr} (h : Spells ts e) :
    ∀ t ∈ ts, t.kind ≠ .text ∧ t.kind ≠ .macroFront := by
  intro t ht
  exact ⟨h.kind_ne rfl t ht, h.kind_ne rfl t ht⟩

section

variable {whole : Mode} {s : State} {rest : List Char}

/-- A blank and a literal. -/
theorem lexFrom_spaced (hs : s.IsReady whole) {a : List Char} {e : Expr} (ha : Reads a e)
    (hrest : Ends rest) :
    ∃ (blank : Token) (ts : List Token), blank.kind = .whitespace ∧ mergeText blank = blank ∧
      Spells ts e ∧ (s.passed (' ' :: a) (blank :: ts)).IsReady whole ∧
      (lexFrom whole s (' ' :: a ++ rest)).value =
        (lexFrom whole (s.passed (' ' :: a) (blank :: ts)) rest).value := by
  have hhead : ∀ c ∈ (a ++ rest).head?, Text.isBlank c = false := by
    intro c hc
    rw [List.head?_append_of_ne_nil _ ha.ne_nil] at hc
    exact ha.noBlank c hc
  have hblank := value_lexFrom_plain hs.pending (firstMatch_blank hs.between hhead) (by rfl) (by rfl)
  set blank := leafOf blankRule [' '] {} s.offset with hb
  have hs' : (s.passed [' '] [blank]).IsReady whole :=
    hs.passed _ (by simp [hb, leafOf, build, blankRule, ofCode])
  obtain ⟨ts, hts, hlex⟩ := ha.tokens hs' (by rfl) hrest
  have hpassed : (s.passed [' '] [blank]).passed a ts = s.passed (' ' :: a) (blank :: ts) :=
    State.passed_passed _ _ ha.ne_nil _ _
  refine ⟨blank, ts, rfl, rfl, hts, ?_, ?_⟩
  · rw [← hpassed]
    exact hs'.passed _ hts.ready
  · rw [List.cons_append, ← List.singleton_append, hblank, hlex, hpassed]

/-- The arguments of a call, up to its closer. -/
theorem lexFrom_args (hs : s.IsReady whole) {a : List Char} {e : Expr} {args : List (List Char)}
    {es : List Expr} (ha : Reads a e) (hargs : List.Forall₂ Reads args es) (hrest : Ends rest) :
    ∃ ts, SpellsArgs ts (e :: es) ∧ (s.passed (argsText (a :: args)) ts).IsReady whole ∧
      (lexFrom whole s (argsText (a :: args) ++ rest)).value =
        (lexFrom whole (s.passed (argsText (a :: args)) ts) rest).value := by
  -- an argument that is not the last one is followed by a comma, and then by the others
  induction hargs generalizing s a e with
  | nil =>
    obtain ⟨blank, ts, hblank, hmerged, hts, hready, hlex⟩ := lexFrom_spaced hs ha hrest
    exact ⟨_, .last hblank hmerged hts, hready, hlex⟩
  | @cons b e' args es hb hargs ih =>
    have hcomma : Ends (',' :: (argsText (b :: args) ++ rest)) := by
      intro c hc
      exact .inl (Option.some.inj hc).symm
    obtain ⟨blank, ts, hblank, hmerged, hts, hready, hlex⟩ := lexFrom_spaced hs ha hcomma
    set s' := s.passed (' ' :: a) (blank :: ts) with hs'
    have hlex' := value_lexFrom_plain hready.pending
      (firstMatch_comma hready.between (argsText (b :: args) ++ rest)) (by rfl) (by rfl)
    set comma := leafOf commaRule [','] {} s'.offset with hc
    have hready' : (s'.passed [','] [comma]).IsReady whole :=
      hready.passed _ (by simp [hc, leafOf, build, commaRule, ofCode])
    obtain ⟨us, hus, hready'', hlex''⟩ := ih hready' hb
    have hpassed : (s'.passed [','] [comma]).passed (argsText (b :: args)) us =
        s.passed (argsText (a :: b :: args)) (blank :: ts ++ comma :: us) := by
      have hne : argsText (b :: args) ≠ [] := by rw [argsText_cons]; simp
      rw [State.passed_passed _ _ hne, hs', State.passed_passed _ _ (by simp)]
      rfl
    rw [hpassed] at hready'' hlex''
    refine ⟨blank :: ts ++ comma :: us, .next hblank rfl ?_ hts hus, hready'', ?_⟩
    · intro t ht
      rcases List.mem_pair.1 ht with rfl | rfl
      · exact hmerged
      · rfl
    · have htext : argsText (a :: b :: args) ++ rest =
          ' ' :: a ++ ',' :: (argsText (b :: args) ++ rest) := by simp [argsText]
      rw [htext, hlex, ← List.singleton_append, hlex', hlex'']

/-- A closer folds the frame of a call. -/
theorem lexFrom_close (hs : s.IsReady whole) {front : Token} {inside : List Token}
    {frames : List Lexer.Frame} (hfront : front.kind = .macroFront)
    (hframes : s.frames = ⟨front, inside⟩ :: frames) :
    (lexFrom whole s (')' :: rest)).value =
      (lexFrom whole (({ s with frames }.add (fold (leafOf backRule [')'] {} s.offset) []
        ⟨front, inside⟩ .macroCall)).advance [')']) rest).value := by
  refine value_lexFrom_close hs.pending (firstMatch_back hs.between rest) hframes ?_
  rw [foldKind?, if_neg (by simp [leafOf, build, backRule, ofExpression]), hfront]
  rfl

/-- From the name of a call to its end: the frame becomes a call on the arguments. -/
theorem lexFrom_call (hs : s.IsReady whole) {front : Token} {inside : List Token}
    {frames : List Lexer.Frame} (hfront : front.kind = .macroFront)
    (hframes : s.frames = ⟨front, inside⟩ :: frames) {args : List (List Char)} {es : List Expr}
    (hargs : List.Forall₂ Reads args es) :
    ∃ (ts : List Token) (start : Nat), SpellsArgs ts es ∧
      (lexFrom whole s (argsText args ++ ')' :: rest)).value =
        (lexFrom whole (({ s with frames }.add (fold (leafOf backRule [')'] {} start) []
          ⟨front, ts.reverse ++ inside⟩ .macroCall)).advance (argsText args ++ [')'])) rest).value := by
  cases hargs with
  | nil => exact ⟨[], s.offset, .none, lexFrom_close hs hfront hframes⟩
  | @cons a e args es ha hargs =>
    have hends : Ends (')' :: rest) := by
      intro c hc
      exact .inr (Option.some.inj hc).symm
    obtain ⟨ts, hts, hready, hlex⟩ := lexFrom_args hs ha hargs hends
    have hframes' : (s.passed (argsText (a :: args)) ts).frames =
        ⟨front, ts.reverse ++ inside⟩ :: frames := by
      rw [State.passed, State.addAll_of_frames hframes]
      rfl
    have hstate : { s.passed (argsText (a :: args)) ts with frames } =
        { s with frames }.advance (argsText (a :: args)) := by
      rw [State.passed, State.addAll_of_frames hframes]
      rfl
    refine ⟨ts, (s.passed (argsText (a :: args)) ts).offset, hts, ?_⟩
    rw [hlex, lexFrom_close hready hfront hframes', hstate, State.add_advance,
      State.advance_advance _ _ (by simp)]

end

/-- A call on texts that read as expressions reads as the call on these. -/
theorem reads_call {name : String} (hname : IsPlainName name.toList) {args : List String}
    {es : List Expr} (hargs : List.Forall₂ (fun a e => Reads a.toList e) args es) :
    Reads (macroSource name args).toList (.call (.named name) (es.map .value)) := by
  rw [toList_macroSource]
  refine ⟨by simp, by simp; rfl, ?_⟩
  intro whole s rest hs hword hrest
  set text := argsText (args.map String.toList) with htext
  -- the opener waits for its closer, and the name follows it directly
  have hopen := value_lexFrom_open hs.pending
    (firstMatch_front hs.between hname (text ++ ')' :: rest)) (by rfl) (by rfl)
  set front := leafOf frontRule ['('] { name := some (String.ofList name.toList) } s.offset with hfront
  set s₁ := (s.push front).advance ['('] with hs₁
  have hframes : s₁.frames = ⟨front, []⟩ :: s.frames := rfl
  have hpending : s₁.pending = [] := hs.pending
  have hlast : s₁.last = some .macroFront := by
    simp [State.last, hpending, hframes, hfront, leafOf, build, frontRule, ofExpression]
  have hcalled := value_lexFrom_plain hpending
    (@firstMatch_name (s₁.situation whole) rfl hlast _ hname (text ++ ')' :: rest)) (by rfl) (by rfl)
  set called := leafOf nameRule (name.toList ++ [':']) { name := some (String.ofList name.toList) }
    s₁.offset with hc
  set s₂ := s₁.passed (name.toList ++ [':']) [called] with hs₂
  have hframes₂ : s₂.frames = ⟨front, [called]⟩ :: s.frames := rfl
  have hready : s₂.IsReady whole := by
    have hlast₂ : s₂.last = some .macroName := by
      simp [State.last, hframes₂, show s₂.pending = [] from hpending, hc, leafOf, build, nameRule,
        ofCode]
    exact ⟨hpending, rfl, by simp [hlast₂], by simp [hlast₂]⟩
  obtain ⟨ts, start, hts, hlex⟩ := @lexFrom_call whole s₂ rest hready front _ _ rfl hframes₂ _ _
    (List.forall₂_map_left_iff.2 hargs)
  -- the closer folds the frame to one token, with the name and the arguments as children
  set call := fold (leafOf backRule [')'] {} start) [] ⟨front, ts.reverse ++ [called]⟩ .macroCall
    with hcall
  have hchildren : call.children = called :: ts := by
    simp [hcall, fold]
  have hspells : Spells [call] (.call (.named name) (es.map .value)) :=
    .call rfl hchildren rfl rfl (by simp [hc, leafOf, build]) rfl hts
  have hstate : { s₂ with frames := s.frames } = s.advance (['('] ++ (name.toList ++ [':'])) := by
    rw [← State.advance_advance _ _ (by simp)]
    rfl
  refine ⟨[call], hspells, ?_⟩
  rw [hstate, State.add_advance, State.advance_advance _ _ (by simp)] at hlex
  have hsource : '(' :: (name.toList ++ ':' :: (text ++ [')'])) ++ rest =
      ['('] ++ (name.toList ++ ':' :: (text ++ ')' :: rest)) := by simp
  have hsource' : name.toList ++ ':' :: (text ++ ')' :: rest) =
      (name.toList ++ [':']) ++ (text ++ ')' :: rest) := by simp
  rw [hsource, hopen, hsource', hcalled, hlex]
  simp [State.passed, htext]

/-! ## Whole texts -/

/-- Tokens in which nothing is merged stay as they were read. -/
theorem children_lexExpression {source : String} {ts : List Token}
    (hlex : (lexFrom .code { offset := 0 } source.toList).value = ts)
    (hmerged : ∀ t ∈ ts, mergeText t = t ∧ t.kind ≠ .text) :
    (lexExpression source).children = ts := by
  have hmerge : mergeAll ts = ts :=
    mergeAll_eq_self (fun t ht => (hmerged t ht).1) fun t ht => (hmerged t ht).2
  simp [lexExpression, lexIn, hlex, hmerge]

theorem compileExpression_of_lexFrom {source : String} {ts : List Token}
    (hlex : (lexFrom .code { offset := 0 } source.toList).value = ts)
    (hmerged : ∀ t ∈ ts, mergeText t = t ∧ t.kind ≠ .text) :
    compileExpression source = (Expr.ofRun (Expr.significant ts) false).value := by
  rw [compileExpression, children_lexExpression hlex hmerged, compile, Expr.ofTokens]

/-- A text that reads as an expression compiles to it. -/
theorem Reads.compileExpression {source : String} {e : Expr} (h : Reads source.toList e) :
    compileExpression source = e := by
  have hready : ({ offset := 0 } : State).IsReady .code := ⟨rfl, rfl, by simp [State.last],
    by simp [State.last]⟩
  have hends : Ends [] := by intro c hc; cases hc
  obtain ⟨ts, hts, hlex⟩ := h.tokens hready rfl hends
  -- at the end no frame is open, so the tokens are those outside
  have hlexed : (lexFrom .code { offset := 0 } source.toList).value = ts := by
    rw [← List.append_nil source.toList, hlex, value_lexFrom_nil, State.passed,
      State.addAll_of_no_frames rfl]
    simp [State.finish, State.flush, State.advance]
  rw [compileExpression_of_lexFrom hlexed fun t ht => ⟨hts.merged t ht, (hts.ready t ht).1⟩,
    hts.significant, hts.value]

end StoryScript
