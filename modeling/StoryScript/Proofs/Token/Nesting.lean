/-
  Code inside code.

  A token stands in prose or in code, as the mode of what surrounds it says. The rules
  that are active in code give tokens of code only, and the openers among them open code.
  So everything inside code is code, down to the leaves: no markup, no links, and
  children only in groupings, calls and the names of method calls.
-/
import Mathlib
import StoryScript.Proofs.Token.NormalForm

namespace StoryScript

/-- The kinds of the tokens in code. -/
def Kind.isCode : Kind → Bool
  | text | whitespace | macroName | macroCall | grouping | hookRef | storyVariable | tempVariable
  | property | possessiveOperator | itsProperty | itsOperator | belongingItProperty
  | belongingItOperator | belongingProperty | belongingOperator | string | cssTime | colour | number
  | boolean | identifier | addition | subtraction | multiplication | division | inequality
  | augmentedAssign | is | isNot | isIn | contains | and | or | not | toWord | intoWord | whereWord
  | viaWord | withWord | makingWord | comma | spread => true
  | _ => false

/-- Openers of code fold into groupings and calls. -/
theorem Kind.code_folds {front back kind : Kind}
    (hfront : front ∈ [.macroFront, .groupingFront, .groupingBack]) (h : (front, kind) ∈ back.folds) :
    kind = .grouping ∨ kind = .macroCall := by
  simp only [List.mem_cons, List.not_mem_nil, or_false] at hfront
  cases back <;> rcases hfront with rfl | rfl | rfl <;> simp_all [folds]

namespace Token

/-- A token of code. Only groupings, calls and the names of method calls hold other tokens. -/
structure IsCode (t : Token) : Prop where
  kind : t.kind.isCode = true
  holds : t.children ≠ [] → t.mode = .code ∧
    (t.kind = .grouping ∨ t.kind = .macroCall ∨ t.kind = .macroName ∧ t.isMethod = true)
  quoted : t.kind = .string → ∃ quote body,
    t.text.toList = quote :: (body ++ [quote]) ∧ quote.utf8Size = 1

/-- All tokens of the trees in a row are code. -/
def AllCode (ts : List Token) : Prop :=
  ∀ t ∈ tokensIn ts, t.IsCode

theorem allCode_append {ts us : List Token} : AllCode (ts ++ us) ↔ AllCode ts ∧ AllCode us := by
  rw [AllCode, tokensIn_append, List.forall_mem_append]
  rfl

theorem allCode_cons {t : Token} {ts : List Token} :
    AllCode (t :: ts) ↔ t.IsCode ∧ AllCode t.children ∧ AllCode ts := by
  rw [AllCode, tokensIn, List.forall_mem_append, tokens_eq, List.forall_mem_cons, and_assoc]
  rfl

theorem AllCode.subset {ts us : List Token} (h : AllCode us) (hsub : ts ⊆ us) : AllCode ts := by
  intro u hu
  obtain ⟨t, ht, hu⟩ := mem_tokensIn.1 hu
  exact h u (mem_tokensIn.2 ⟨t, hsub ht, hu⟩)

/-- A tree that may stand where a mode applies: it is code if that is code, and so on for what
it holds. -/
inductive Nested : Mode → Token → Prop where
  | intro {mode : Mode} {t : Token} (own : mode = .code → t.IsCode)
      (children : ∀ c ∈ t.children, Nested t.mode c) : Nested mode t

namespace Nested

theorem own {mode : Mode} {t : Token} : Nested mode t → mode = .code → t.IsCode
  | intro own _ => own

theorem children {mode : Mode} {t : Token} : Nested mode t → ∀ c ∈ t.children, Nested t.mode c
  | intro _ children => children

/-- What may stand anywhere may stand in prose. -/
theorem markup {mode : Mode} {t : Token} (h : Nested mode t) : Nested .markup t :=
  intro (by simp) h.children

/-- A text without children may stand anywhere. -/
theorem of_text {mode : Mode} {t : Token} (hkind : t.kind = .text) (hchildren : t.children = []) :
    Nested mode t := by
  refine intro (fun _ => ⟨by rw [hkind]; rfl, ?_, ?_⟩) (by simp [hchildren])
  · intro h
    exact absurd hchildren h
  · intro h
    rw [hkind] at h
    simp at h

/-- Everything in code is code. -/
theorem isCode {t : Token} (h : Nested .code t) : ∀ u ∈ t.tokens, u.IsCode := by
  induction t using tree_induction with
  | h t ih =>
    rw [forall_mem_tokens]
    refine ⟨h.own rfl, ?_⟩
    intro c hc
    have hmode := ((h.own rfl).holds (List.ne_nil_of_mem hc)).1
    exact ih c hc (hmode ▸ h.children c hc)

end Nested

end Token

namespace Lexer

open Token (Nested IsCode)

/-! ## Rules that are active in code -/

theorem activeIn_of_match? {rule : Rule} {here : Situation} {source : List Char} {c : Capture}
    (h : rule.match? here source = some c) : rule.scope.activeIn here.mode = true := by
  simp only [Rule.match?] at h
  split at h
  · rename_i hfits
    simp only [Rule.fits, Bool.and_eq_true] at hfits
    exact hfits.1.1.1.1.1
  · simp at h

theorem innerMode_of_activeIn {scope : Scope} (h : scope.activeIn .code = true) :
    scope.innerMode = .code := by
  cases scope <;> simp_all [Scope.activeIn, Scope.innerMode]

/-- The openers of code are those of calls and groupings, they have one closer, and all other
tokens are of code. -/
theorem code_rules {rule : Rule} (h : rule ∈ Rule.all) (hactive : rule.scope.activeIn .code = true) :
    (rule.isFront = true → rule.kind = .macroFront ∨ rule.kind = .groupingFront) ∧
    (rule.kind.isCloser = true → rule.kind = .groupingBack) ∧
    ((rule.isFront || rule.kind.isCloser) = false → rule.kind.isCode = true) := by
  -- a fact about each rule of the table again
  have htable : Rule.all.all (fun rule => !rule.scope.activeIn .code ||
      ((!rule.isFront || rule.kind = .macroFront || rule.kind = .groupingFront) &&
      (!rule.kind.isCloser || rule.kind = .groupingBack) &&
      (rule.isFront || rule.kind.isCloser || rule.kind.isCode))) = true := by
    decide
  have hrule := List.all_eq_true.1 htable rule h
  simp only [hactive, Bool.not_true, Bool.false_or, Bool.and_eq_true, Bool.or_eq_true,
    Bool.not_eq_true', decide_eq_true_eq] at hrule
  obtain ⟨⟨hfront, hback⟩, hkind⟩ := hrule
  refine ⟨?_, ?_, ?_⟩ <;> grind

/-- In code only the name of a method call holds anything. -/
theorem macroName_of_inside {rule : Rule} (h : rule ∈ Rule.all)
    (hactive : rule.scope.activeIn .code = true) {source : List Char} {c : Capture}
    (hcapture : rule.pattern.capture? source = some c) (hinside : c.inside ≠ none) :
    rule.kind = .macroName ∧ c.detail.isMethod = true := by
  have hleaf : rule.pattern.isLeaf = false := by
    rw [Bool.eq_false_iff]
    intro hleaf
    exact hinside (inside_of_isLeaf hleaf hcapture)
  have hm : rule ∈ Rule.all.filter (fun rule => !rule.pattern.isLeaf) := by simp [h, hleaf]
  rw [Rule.nesting_rules] at hm
  simp only [List.mem_cons, List.not_mem_nil, or_false] at hm
  -- block markup and links are for prose
  rcases hm with rfl | rfl | rfl | rfl | rfl | rfl | rfl
  case inr.inr.inr.inr.inr.inr =>
    refine ⟨rfl, ?_⟩
    obtain ⟨rest, hscan, -, -⟩ := Pattern.capture?_eq_some.1 hcapture
    simp only [Rule.ofCode, Pattern.macroName, Pattern.scan, Scanner.bind_eq_some,
      Scanner.pure_eq_some, Prod.mk.injEq] at hscan
    obtain ⟨⟨name, isMethod⟩, r, -, ⟨hdetail, hi⟩, -⟩ := hscan
    rw [← hdetail]
    cases isMethod with
    | true => rfl
    | false => exact absurd hi.symm hinside
  all_goals simp [Rule.ofBlock, Rule.ofInline, Scope.activeIn] at hactive

theorem append_of_splitString {quote : Char} :
    ∀ {cs text rest : List Char}, Pattern.splitString quote cs = some (text, rest) →
      cs = text ++ quote :: rest := by
  intro cs
  fun_induction Pattern.splitString quote cs with
  | case1 => simp
  | case2 c cs ih =>
    intro text rest h
    simp only [Option.map_eq_some_iff, Prod.exists, Prod.mk.injEq] at h
    obtain ⟨text', rest', h, rfl, rfl⟩ := h
    rw [ih h]
    simp
  | case3 cs => simp
  | case4 c cs _ _ ih =>
    intro text rest h
    simp only [Option.map_eq_some_iff, Prod.exists, Prod.mk.injEq] at h
    obtain ⟨text', rest', h, rfl, rfl⟩ := h
    rw [ih h]
    simp

/-- A string is read with its quotes. -/
theorem quoted_of_capture? {source : List Char} {c : Capture}
    (h : Pattern.string.capture? source = some c) :
    ∃ quote body, c.text = quote :: (body ++ [quote]) ∧ quote.utf8Size = 1 := by
  obtain ⟨rest, hscan, htext, -⟩ := Pattern.capture?_eq_some.1 h
  simp only [Pattern.string, Pattern.plain, Pattern.scan, Scanner.bind_eq_some,
    Scanner.pure_eq_some, Prod.mk.injEq] at hscan
  obtain ⟨_, _, ⟨_, _, ⟨quote, cs, hquote, hsplit⟩, -, rfl⟩, -, rfl⟩ := hscan
  obtain ⟨rfl, hmark⟩ := Scanner.append_of_satisfy hquote
  have hwidth : quote.utf8Size = 1 := by
    simp only [Bool.or_eq_true, beq_iff_eq] at hmark
    rcases hmark with rfl | rfl <;> decide
  change (Scanner.ofSplit (Pattern.splitString quote) >>= fun _ => pure ()) cs = _ at hsplit
  simp only [Scanner.bind_eq_some, Scanner.pure_eq_some] at hsplit
  obtain ⟨body, r, hsplit, -, rfl⟩ := hsplit
  refine ⟨quote, body, ?_, hwidth⟩
  have hsource : quote :: cs = (quote :: (body ++ [quote])) ++ r := by
    rw [append_of_splitString hsplit]
    simp
  rw [htext, Pattern.take_of_append hsource]

theorem string_rule {rule : Rule} (h : rule ∈ Rule.all) (hk : rule.kind = .string) :
    rule.pattern = Pattern.string := by
  have htable : Rule.all.filter (fun rule => rule.kind = .string) =
      [Rule.ofCode .string "\"'" Pattern.string] := rfl
  rw [rule_of_kind h hk htable]
  rfl

/-- An opener or closer that may stand where a mode applies. In code it is one of code. -/
structure IsMarkIn (mode : Mode) (t : Token) : Prop where
  bare : t.children = []
  code : mode = .code → t.mode = .code ∧ t.kind ∈ [.macroFront, .groupingFront, .groupingBack]

/-- A match stands where its rule is active, if its children do. -/
theorem nested_build {here : Situation} {source : List Char} {rule : Rule} {capture : Capture}
    {children : List Token} (start : Nat)
    (found : Rule.firstMatch here source = some (rule, capture))
    (leaf : capture.inside = none → children = [])
    (hchildren : ∀ c ∈ children, Nested rule.scope.innerMode c)
    (hmark : (rule.isFront || rule.kind.isCloser) = false) :
    Nested here.mode (build rule capture start children) := by
  obtain ⟨hrule, hmatch⟩ := Rule.of_firstMatch found
  have hcapture := Rule.capture?_of_match? hmatch
  refine .intro ?_ hchildren
  -- in prose nothing is asked of the token itself
  intro hmode
  have hactive := activeIn_of_match? hmatch
  rw [hmode] at hactive
  refine ⟨(code_rules hrule hactive).2.2 hmark, ?_, ?_⟩
  · intro hne
    have hinside : capture.inside ≠ none := fun h => hne (leaf h)
    obtain ⟨hkind, hmethod⟩ := macroName_of_inside hrule hactive hcapture hinside
    exact ⟨innerMode_of_activeIn hactive, .inr (.inr ⟨hkind, hmethod⟩)⟩
  · intro hkind
    rw [string_rule hrule hkind] at hcapture
    show ∃ quote body, (String.ofList capture.text).toList = _ ∧ _
    rw [String.toList_ofList]
    exact quoted_of_capture? hcapture

/-- An opener or closer stands where its rule is active. -/
theorem isMarkIn_build {here : Situation} {source : List Char} {rule : Rule} {capture : Capture}
    {children : List Token} (start : Nat)
    (found : Rule.firstMatch here source = some (rule, capture))
    (leaf : capture.inside = none → children = [])
    (hmark : (rule.isFront || rule.kind.isCloser) = true) :
    IsMarkIn here.mode (build rule capture start children) := by
  obtain ⟨hrule, hmatch⟩ := Rule.of_firstMatch found
  refine ⟨(isMark_build start found leaf hmark).bare, ?_⟩
  intro hmode
  have hactive := activeIn_of_match? hmatch
  rw [hmode] at hactive
  obtain ⟨hfront, hback, -⟩ := code_rules hrule hactive
  refine ⟨innerMode_of_activeIn hactive, ?_⟩
  show rule.kind ∈ _
  rcases Bool.or_eq_true_iff.1 hmark with h | h
  · rcases hfront h with h | h <;> simp [h]
  · simp [hback h]

/-! ## The stack -/

/-- The mode inside some frames, the innermost first. -/
def modeIn (whole : Mode) : List Frame → Mode
  | [] => whole
  | f :: _ => f.opener.mode

/-- What waits in a frame may stand where it is. -/
structure Frame.IsNested (outside : Mode) (f : Frame) : Prop where
  opener : IsMarkIn outside f.opener
  inside : ∀ t ∈ f.inside, Nested f.opener.mode t

/-- Every frame of a stack is nested in the frames below it. -/
def FramesNested (whole : Mode) : List Frame → Prop
  | [] => True
  | f :: fs => f.IsNested (modeIn whole fs) ∧ FramesNested whole fs

theorem framesNested_append {whole : Mode} {above below : List Frame} :
    FramesNested whole (above ++ below) ↔
      FramesNested (modeIn whole below) above ∧ FramesNested whole below := by
  induction above with
  | nil => simp [FramesNested]
  | cons f fs ih =>
    have hmode : modeIn whole (fs ++ below) = modeIn (modeIn whole below) fs := by
      cases fs <;> rfl
    simp only [List.cons_append, FramesNested, ih, hmode, and_assoc]

/-- Inside code there is only code. -/
theorem FramesNested.modeIn_code {frames : List Frame} (h : FramesNested .code frames) :
    modeIn .code frames = .code := by
  induction frames with
  | nil => rfl
  | cons f fs ih => exact (h.1.opener.code (ih h.2)).1

/-- A mark that is given up may stand where it stood. -/
theorem IsMarkIn.demote {mode : Mode} {t : Token} (h : IsMarkIn mode t) : Nested mode (demote t) := by
  unfold Lexer.demote
  split
  · rename_i hkind
    refine .intro (fun hmode => ?_) (by simp [h.bare])
    have := (h.code hmode).2
    simp [hkind] at this
  · exact .of_text rfl h.bare

/-- Frames that are given up leave tokens that may stand outside them. -/
theorem FramesNested.spill {whole : Mode} {frames : List Frame} (h : FramesNested whole frames) :
    ∀ t ∈ frames.flatMap Frame.spill, Nested whole t := by
  induction frames with
  | nil => simp
  | cons f fs ih =>
    -- what may stand in the frame or right outside it may stand outside all of them
    have houtside : ∀ t, (Nested f.opener.mode t ∨ Nested (modeIn whole fs) t) → Nested whole t := by
      intro t ht
      cases whole with
      | markup => exact ht.elim (·.markup) (·.markup)
      | code =>
        have hmode := h.2.modeIn_code
        rw [(h.1.opener.code hmode).1, hmode, or_self] at ht
        exact ht
    intro t ht
    rw [List.flatMap_cons, Frame.spill, List.append_assoc, List.mem_append, List.singleton_append,
      List.mem_cons] at ht
    rcases ht with ht | rfl | ht
    · exact houtside t (.inl (h.1.inside t ht))
    · exact houtside _ (.inr h.1.opener.demote)
    · exact ih h.2 t ht

/-- What is off the stack may stand in the whole text, and the stack is nested. -/
structure State.IsNested (whole : Mode) (s : State) : Prop where
  outer : ∀ t ∈ s.outer, Nested whole t
  frames : FramesNested whole s.frames

namespace State

variable {whole : Mode} {s : State}

theorem mode_eq_modeIn (s : State) (whole : Mode) : s.mode whole = modeIn whole s.frames := by
  unfold mode
  cases s.frames <;> rfl

theorem IsNested.add (h : s.IsNested whole) {t : Token} (ht : Nested (s.mode whole) t) :
    (s.add t).IsNested whole := by
  obtain ⟨houter, hframes⟩ := h
  rw [mode_eq_modeIn] at ht
  simp only [State.add]
  split
  · rename_i hs
    rw [hs] at ht
    exact ⟨List.forall_mem_cons.2 ⟨ht, houter⟩, hframes⟩
  · rename_i f fs hs
    rw [hs] at ht hframes
    obtain ⟨⟨hopener, hinside⟩, hbelow⟩ := hframes
    exact ⟨houter, ⟨hopener, List.forall_mem_cons.2 ⟨ht, hinside⟩⟩, hbelow⟩

theorem IsNested.flush (h : s.IsNested whole) : (s.flush whole).IsNested whole := by
  rcases s.flush_cases whole with ⟨-, hflush⟩ | ⟨-, hflush⟩
  · rw [hflush]
    exact h
  · rw [hflush]
    have hs : ({ s with pending := [] } : State).IsNested whole := ⟨h.outer, h.frames⟩
    exact hs.add (.of_text rfl rfl)

/-- A closer folds with an opener into a token that may stand where the opener stood. -/
theorem nested_fold {t : Token} {above below : List Frame} {f : Frame} {kind : Kind}
    (hframes : FramesNested whole (above ++ f :: below)) (hkind : foldKind? t f.opener = some kind) :
    Nested (modeIn whole below) (Lexer.fold t above f kind) := by
  obtain ⟨habove, hf, -⟩ := framesNested_append.1 hframes
  refine .intro ?_ ?_
  · intro hmode
    -- the opener is one of code, so the fold is a grouping or a call
    obtain ⟨hinner, hfront⟩ := hf.opener.code hmode
    have hfold := Kind.code_folds hfront (mem_folds_of_foldKind? hkind)
    refine ⟨?_, fun _ => ⟨hinner, hfold.imp_right .inl⟩, ?_⟩
    · show kind.isCode = true
      rcases hfold with rfl | rfl <;> rfl
    · intro hstring
      rcases hfold with rfl | rfl <;> simp [Lexer.fold] at hstring
  · intro c hc
    rcases List.mem_append.1 (List.mem_reverse.1 hc) with hc | hc
    · exact habove.spill c hc
    · exact hf.inside c hc

theorem IsNested.place (h : s.IsNested whole) {t : Token}
    (ht : if t.isFront || t.kind.isCloser then IsMarkIn (s.mode whole) t
      else Nested (s.mode whole) t) :
    (s.place t).value.IsNested whole := by
  rcases s.place_cases t with ⟨above, f, below, kind, hframes, hkind, hplace⟩ | ⟨hfront, hplace⟩ |
    ⟨-, hback, hplace⟩ | ⟨hfront, hback, hplace⟩
  · have hs := h.frames
    rw [hframes] at hs
    have hbelow : ({ s with frames := below } : State).IsNested whole :=
      ⟨h.outer, (framesNested_append.1 hs).2.2⟩
    rw [hplace]
    refine hbelow.add ?_
    rw [mode_eq_modeIn]
    exact nested_fold hs hkind
  · rw [hfront, Bool.true_or, if_pos rfl, mode_eq_modeIn] at ht
    rw [hplace]
    exact ⟨h.outer, ⟨ht, by simp⟩, h.frames⟩
  · rw [hback, Bool.or_true, if_pos rfl] at ht
    rw [hplace]
    exact h.add ht.demote
  · rw [hfront, hback, Bool.false_or, if_neg Bool.false_ne_true] at ht
    rw [hplace]
    exact h.add ht

/-- A match in the mode of a nested state keeps it nested. -/
theorem IsNested.accept (h : s.IsNested whole) {here : Situation} (hmode : here.mode = s.mode whole)
    {source : List Char} {rule : Rule} {capture : Capture} {children : List Token}
    (found : Rule.firstMatch here source = some (rule, capture))
    (leaf : capture.inside = none → children = [])
    (hchildren : ∀ c ∈ children, Nested rule.scope.innerMode c) :
    (s.accept whole rule capture children).IsNested whole := by
  have hplaced : ((s.flush whole).place (build rule capture s.offset children)).value.IsNested
      whole := by
    refine h.flush.place ?_
    rw [mode_flush, ← hmode]
    show if rule.isFront || rule.kind.isCloser then IsMarkIn here.mode _ else Nested here.mode _
    split
    · exact isMarkIn_build _ found leaf ‹_›
    · exact nested_build _ found leaf hchildren (Bool.eq_false_iff.2 ‹_›)
  exact ⟨hplaced.outer, hplaced.frames⟩

theorem IsNested.finish (h : s.IsNested whole) : ∀ t ∈ (s.finish whole).value, Nested whole t := by
  have hs := h.flush
  intro t ht
  have ht : t ∈ ((s.flush whole).frames.flatMap Frame.spill ++ (s.flush whole).outer).reverse := ht
  rcases List.mem_append.1 (List.mem_reverse.1 ht) with ht | ht
  · exact hs.frames.spill t ht
  · exact hs.outer t ht

end State

/-- Lexing from a nested state gives tokens that may stand in the text. -/
theorem Lexes.nested {whole : Mode} {s : State} {source : List Char} {tokens : List Token}
    (h : Lexes whole s source tokens) : s.IsNested whole → ∀ t ∈ tokens, Nested whole t := by
  induction h with
  | finish =>
    intro hs
    exact hs.finish
  | defer _ _ ih =>
    intro hs
    exact ih ⟨hs.outer, hs.frames⟩
  | @accept whole s source rest rule capture children tokens found split leaf held next ihHeld ih =>
    intro hs
    refine ih (hs.accept rfl found leaf ?_)
    cases hi : capture.inside with
    | none => simp [leaf hi]
    | some i => exact ihHeld i hi ⟨by simp, trivial⟩

/-! ## Merging -/

theorem nested_mergeText {mode : Mode} {t : Token} (h : Nested mode t) : Nested mode (mergeText t) := by
  induction t using Token.tree_induction generalizing mode with
  | h t ih =>
    rw [mergeText_eq]
    refine .intro ?_ (forall_mem_mergeAll (fun _ hplain => .of_text hplain.1 hplain.2)
      fun c hc => ih c hc (h.children c hc))
    intro hmode
    obtain ⟨hkind, hholds, hquoted⟩ := h.own hmode
    refine ⟨hkind, ?_, hquoted⟩
    intro hne
    apply hholds
    intro hnil
    exact hne (by simp [hnil, mergeAll])

theorem nested_mergeAll {mode : Mode} {ts : List Token} (h : ∀ t ∈ ts, Nested mode t) :
    ∀ t ∈ mergeAll ts, Nested mode t :=
  forall_mem_mergeAll (fun _ hplain => .of_text hplain.1 hplain.2)
    fun t ht => nested_mergeText (h t ht)

end Lexer

/-- Every token of an expression is code. -/
theorem allCode_lexExpression (source : String) : Token.AllCode (lexExpression source).children := by
  have hnested : ∀ t ∈ (Lexer.lexFrom .code { offset := 0 } source.toList).value, Token.Nested .code t :=
    (Lexer.lexes_lexFrom .code _ _).nested ⟨by simp, trivial⟩
  intro u hu
  obtain ⟨t, ht, hu⟩ := Token.mem_tokensIn.1 hu
  exact (Lexer.nested_mergeAll hnested t ht).isCode u hu

end StoryScript
