/-
  The rules of the language, in order of priority.

  At every position the first rule that may stand there and whose pattern matches is
  taken. A rule may stand only in its modes, and some rules look at what came just
  before.
-/
import StoryScript.Token.Pattern.Block
import StoryScript.Token.Pattern.Code
import StoryScript.Token.Pattern.Inline

namespace StoryScript

/-- Where a rule is legal. -/
inductive Scope where
  | block
  | inline
  /-- In prose and in code. -/
  | expression
  /-- In code only. -/
  | codeOnly
  deriving DecidableEq

/-- Whether rules of a scope are active in a mode. -/
def Scope.activeIn : Scope → Mode → Bool
  | expression, _ => true
  | block, .markup | inline, .markup => true
  | codeOnly, .code => true
  | _, _ => false

/-- The mode inside a token of a rule with this scope. -/
def Scope.innerMode : Scope → Mode
  | block | inline => .markup
  | expression | codeOnly => .code

/-- What the rules look at besides the source ahead. -/
structure Situation where
  mode : Mode
  /-- Kind of the token just before, `none` at the start. -/
  last : Option Kind
  /-- Whether a word character stands just before. -/
  afterWord : Bool
  /-- Kinds of the open openers that are not directly before. -/
  openers : List Kind

/-- A rule of the language. -/
structure Rule where
  kind : Kind
  scope : Scope
  /-- Characters that a match can start with; none means any. -/
  starts : List Char := []
  pattern : Pattern
  /-- If given, the rule stands only after one of these. -/
  follows : Option (List (Option Kind)) := none
  /-- The rule never stands after one of these. -/
  avoids : List (Option Kind) := []
  /-- The rule does not stand right after a word character. -/
  wordStart : Bool := false
  /-- The token waits for a closer. -/
  isFront : Bool := false
  /-- The rule needs an opener to close that is not directly before. -/
  needsFront : Bool := false

namespace Rule

/-- Whether the rule may stand in a situation, whatever the source ahead. -/
def fits (rule : Rule) (here : Situation) : Bool :=
  rule.scope.activeIn here.mode &&
  !(rule.wordStart && here.afterWord) &&
  rule.follows.all (·.contains here.last) &&
  !rule.avoids.contains here.last &&
  (!rule.needsFront || here.openers.any fun opener => (rule.kind.fold? opener).isSome)

/-- Whether the source starts with a character that the rule can start with. -/
def admits (rule : Rule) (source : List Char) : Bool :=
  rule.starts.isEmpty || source.head?.any rule.starts.contains

/-- Tries the rule. -/
def match? (rule : Rule) (here : Situation) (source : List Char) : Option Capture :=
  if rule.fits here && rule.admits source then rule.pattern.capture? source else none

/-- Keywords neither continue a run of text nor start inside a word. -/
def asKeyword (rule : Rule) : Rule :=
  { rule with avoids := [some .text], wordStart := true }

/-! ## The table -/

/-- Block markup stands at the start of a line. -/
def lineStart : List (Option Kind) :=
  [none, some .lineBreak, some .horizontalRule, some .bulleted, some .numbered, some .heading,
   some .align]

/-- Tokens that a hook can be attached to. -/
def hookable : List (Option Kind) :=
  [some .macroCall, some .storyVariable, some .tempVariable]

/-- Tokens that `'s` can follow. -/
def withProperties : List (Option Kind) :=
  [some .storyVariable, some .tempVariable, some .hookRef, some .property, some .itsProperty,
   some .belongingItProperty, some .macroCall, some .grouping, some .string]

/-- A rule of block markup. -/
def ofBlock (kind : Kind) (pattern : Pattern) : Rule :=
  { kind, scope := .block, pattern, follows := some lineStart, avoids := [some .text] }

/-- A rule of inline markup. -/
def ofInline (kind : Kind) (starts : String) (pattern : Pattern) : Rule :=
  { kind, scope := .inline, starts := starts.toList, pattern }

/-- A rule that holds in prose and in code. -/
def ofExpression (kind : Kind) (starts : String) (pattern : Pattern) : Rule :=
  { kind, scope := .expression, starts := starts.toList, pattern }

/-- A rule that holds in code. -/
def ofCode (kind : Kind) (starts : String) (pattern : Pattern) : Rule :=
  { kind, scope := .codeOnly, starts := starts.toList, pattern }

/-- Rules of block markup. -/
def blockRules : List Rule :=
  [ofBlock .horizontalRule Pattern.horizontalRule,
   ofBlock .bulleted Pattern.bulleted,
   ofBlock .numbered Pattern.numbered,
   ofBlock .heading Pattern.heading,
   ofBlock .align Pattern.align]

/-- Rules of inline markup. -/
def inlineRules : List Rule :=
  [ofInline .error "<" Pattern.oldMacro,
   ofInline .lineBreak "\n" Pattern.lineBreak,
   { ofInline .emBack "*" (Pattern.exactly "*") with needsFront := true },
   { ofInline .strongBack "*" (Pattern.exactly "**") with needsFront := true },
   { ofInline .strongFront "*" (Pattern.exactly "**") with isFront := true },
   { ofInline .emFront "*" (Pattern.exactly "*") with isFront := true },
   { ofInline .boldOpener "'" (Pattern.exactly "''") with isFront := true },
   { ofInline .italicOpener "/" (Pattern.exactly "//") with isFront := true },
   { ofInline .delOpener "~" (Pattern.exactly "~~") with isFront := true },
   { ofInline .supOpener "^" (Pattern.exactly "^^") with isFront := true },
   { ofInline .commentFront "<" (Pattern.exactly "<!--") with isFront := true },
   ofInline .commentBack "-" (Pattern.exactly "-->"),
   ofInline .scriptStyleTag "<" Pattern.scriptStyleTag,
   ofInline .tag "<" Pattern.tag,
   ofInline .url "hHmMjJfFdD" Pattern.url,
   ofInline .link "[" Pattern.passageLink,
   ofInline .link "[" Pattern.simpleLink,
   ofInline .link "[" Pattern.barLink,
   { ofInline .hookPrependedFront "|" Pattern.hookPrependedFront with isFront := true },
   { ofInline .hookAnonymousFront "[" (Pattern.exactly "[") with
      isFront := true, follows := some hookable },
   { ofInline .hookAppendedFront "[" (Pattern.exactly "[") with
      isFront := true, avoids := hookable },
   ofInline .hookBack "]" Pattern.hookBack,
   ofInline .hookAppendedBack "]" Pattern.hookAppendedBack,
   { ofInline .verbatimOpener "`" Pattern.verbatimOpener with isFront := true },
   { ofInline .collapsedFront "\x7b" (Pattern.exactly "\x7b") with isFront := true },
   ofInline .collapsedBack "\x7d" (Pattern.exactly "\x7d"),
   ofInline .escapedLine "\\\n" Pattern.escapedLine]

/-- Rules of calls and variables. -/
def expressionRules : List Rule :=
  [{ ofCode .macroName "" Pattern.macroName with follows := some [some .macroFront] },
   { ofExpression .macroFront "(" Pattern.macroFront with isFront := true },
   ofExpression .groupingBack ")" (Pattern.exactly ")"),
   ofExpression .hookRef "?" Pattern.hookRef,
   ofExpression .storyVariable "$" Pattern.storyVariable,
   { ofExpression .tempVariable "_" Pattern.tempVariable with wordStart := true }]

/-- Rules of operands and operators. -/
def codeRules : List Rule :=
  [{ ofCode .whitespace "" Pattern.whitespace with avoids := [some .text] },
   { ofCode .groupingFront "(" Pattern.groupingFront with isFront := true },
   { ofCode .property "'" Pattern.property with follows := some withProperties },
   { ofCode .possessiveOperator "'" Pattern.possessiveOperator with
      follows := some withProperties },
   (ofCode .itsProperty "iI" Pattern.itsProperty).asKeyword,
   (ofCode .itsOperator "iI" Pattern.itsOperator).asKeyword,
   (ofCode .belongingItProperty "" Pattern.belongingItProperty).asKeyword,
   (ofCode .belongingItOperator "oO" Pattern.belongingItOperator).asKeyword,
   (ofCode .belongingProperty "" Pattern.belongingProperty).asKeyword,
   (ofCode .belongingOperator "oO" (Pattern.word "of")).asKeyword,
   ofCode .string "\"'" Pattern.string,
   { ofCode .cssTime ".0123456789" Pattern.cssTime with wordStart := true },
   (ofCode .colour "" Pattern.colour).asKeyword,
   { ofCode .number "0123456789nN" Pattern.number with wordStart := true },
   ofCode .addition "+" (Pattern.sign ['+']),
   ofCode .subtraction "-" (Pattern.sign ['-']),
   ofCode .multiplication "*" (Pattern.sign ['*']),
   ofCode .division "/%" (Pattern.sign ['/', '%']),
   ofCode .inequality "<>" Pattern.inequality,
   ofCode .augmentedAssign "+-*/%" Pattern.augmentedAssign,
   (ofCode .identifier "iItT" Pattern.identifier).asKeyword,
   (ofCode .boolean "tTfF" Pattern.boolean).asKeyword,
   (ofCode .is "iI" Pattern.is).asKeyword,
   (ofCode .isIn "iI" Pattern.isIn).asKeyword,
   (ofCode .isNot "iI" Pattern.isNot).asKeyword,
   (ofCode .contains "cCdD" Pattern.contains).asKeyword,
   { ofCode .toWord "tT=" Pattern.toWord with avoids := [some .text] },
   (ofCode .intoWord "iI" (Pattern.word "into")).asKeyword,
   (ofCode .and "aA" (Pattern.word "and")).asKeyword,
   (ofCode .or "oO" (Pattern.word "or")).asKeyword,
   (ofCode .not "nN" (Pattern.word "not")).asKeyword,
   (ofCode .whereWord "wW" (Pattern.word "where")).asKeyword,
   (ofCode .viaWord "vV" (Pattern.word "via")).asKeyword,
   (ofCode .withWord "wW" (Pattern.word "with")).asKeyword,
   (ofCode .makingWord "mM" (Pattern.word "making")).asKeyword,
   ofCode .comma "," (Pattern.exactly ","),
   ofCode .spread "." Pattern.spread]

/-- Every rule, highest priority first. -/
def all : List Rule :=
  blockRules ++ inlineRules ++ expressionRules ++ codeRules

/-- The rules whose matches can hold text to lex. -/
theorem nesting_rules : all.filter (fun rule => !rule.pattern.isLeaf) =
    [ofBlock .bulleted Pattern.bulleted, ofBlock .numbered Pattern.numbered,
     ofBlock .heading Pattern.heading, ofInline .link "[" Pattern.passageLink,
     ofInline .link "[" Pattern.simpleLink, ofInline .link "[" Pattern.barLink,
     { ofCode .macroName "" Pattern.macroName with follows := some [some .macroFront] }] :=
  rfl

/-- Whatever a rule leaves to be lexed is shorter than its match. -/
theorem shrinks_of_mem_all {rule : Rule} (h : rule ∈ all) : rule.pattern.Shrinks := by
  cases hl : rule.pattern.isLeaf with
  | true => exact Pattern.shrinks_of_isLeaf hl
  | false =>
    have hm : rule ∈ all.filter (fun rule => !rule.pattern.isLeaf) := by simp [h, hl]
    rw [nesting_rules] at hm
    simp only [List.mem_cons, List.not_mem_nil, or_false] at hm
    rcases hm with rfl | rfl | rfl | rfl | rfl | rfl | rfl
    · exact Pattern.shrinks_bulleted
    · exact Pattern.shrinks_numbered
    · exact Pattern.shrinks_heading
    · exact Pattern.shrinks_passageLink
    · exact Pattern.shrinks_simpleLink
    · exact Pattern.shrinks_barLink
    · exact Pattern.shrinks_macroName

/-- The first rule that matches, with its match. -/
def firstMatch (here : Situation) (source : List Char) : Option (Rule × Capture) :=
  all.findSome? fun rule => (rule.match? here source).map (rule, ·)

theorem of_firstMatch {here : Situation} {source : List Char} {rule : Rule} {c : Capture}
    (h : firstMatch here source = some (rule, c)) :
    rule ∈ all ∧ rule.match? here source = some c := by
  obtain ⟨r, hr, h⟩ := List.exists_of_findSome?_eq_some h
  simp only [Option.map_eq_some_iff, Prod.mk.injEq] at h
  obtain ⟨c', hc, rfl, rfl⟩ := h
  exact ⟨hr, hc⟩

theorem capture?_of_match? {rule : Rule} {here : Situation} {source : List Char} {c : Capture}
    (h : rule.match? here source = some c) : rule.pattern.capture? source = some c := by
  simp only [match?] at h
  split at h
  · exact h
  · simp at h

/-- The first match takes at least one character. -/
theorem text_of_firstMatch {here : Situation} {source : List Char} {rule : Rule} {c : Capture}
    (h : firstMatch here source = some (rule, c)) : c.text ≠ [] ∧ c.text <+: source :=
  Pattern.text_of_capture? (capture?_of_match? (of_firstMatch h).2)

/-- What the first match leaves to be lexed is shorter than the source. -/
theorem inside_of_firstMatch {here : Situation} {source : List Char} {rule : Rule} {c : Capture}
    (h : firstMatch here source = some (rule, c)) {inside : Inside} (hi : c.inside = some inside) :
    inside.body.length < source.length := by
  have hm := of_firstMatch h
  have hs := (shrinks_of_mem_all hm.1).of_capture? (capture?_of_match? hm.2) hi
  have hp := (text_of_firstMatch h).2.length_le
  omega

end Rule

end StoryScript
