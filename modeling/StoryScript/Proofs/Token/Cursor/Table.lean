/-
  The rules by byte offsets.

  Each rule of the language has a cursor that reads its tokens, and from every source that
  cursor captures what the rule's pattern captures, without a fault (`forall₂_readings`).
-/
import Mathlib
import StoryScript.Proofs.Token.Cursor.Block
import StoryScript.Proofs.Token.Cursor.Code

namespace StoryScript

namespace Cursor

/-- A kind of token and how it is read. -/
structure Reading where
  kind : Kind
  cursor : Cursor (Detail × Option Inside)

/-- How block markup is read. -/
def blockReadings : List Reading :=
  [⟨.horizontalRule, horizontalRule⟩,
   ⟨.bulleted, bulleted⟩,
   ⟨.numbered, numbered⟩,
   ⟨.heading, heading⟩,
   ⟨.align, align⟩]

/-- How inline markup is read. -/
def inlineReadings : List Reading :=
  [⟨.error, oldMacro⟩,
   ⟨.lineBreak, lineBreak⟩,
   ⟨.emBack, exactly "*"⟩,
   ⟨.strongBack, exactly "**"⟩,
   ⟨.strongFront, exactly "**"⟩,
   ⟨.emFront, exactly "*"⟩,
   ⟨.boldOpener, exactly "''"⟩,
   ⟨.italicOpener, exactly "//"⟩,
   ⟨.delOpener, exactly "~~"⟩,
   ⟨.supOpener, exactly "^^"⟩,
   ⟨.commentFront, exactly "<!--"⟩,
   ⟨.commentBack, exactly "-->"⟩,
   ⟨.scriptStyleTag, scriptStyleTag⟩,
   ⟨.tag, tag⟩,
   ⟨.url, url⟩,
   ⟨.link, passageLink⟩,
   ⟨.link, simpleLink⟩,
   ⟨.link, barLink⟩,
   ⟨.hookPrependedFront, hookPrependedFront⟩,
   ⟨.hookAnonymousFront, exactly "["⟩,
   ⟨.hookAppendedFront, exactly "["⟩,
   ⟨.hookBack, hookBack⟩,
   ⟨.hookAppendedBack, hookAppendedBack⟩,
   ⟨.verbatimOpener, verbatimOpener⟩,
   ⟨.collapsedFront, exactly "\x7b"⟩,
   ⟨.collapsedBack, exactly "\x7d"⟩,
   ⟨.escapedLine, escapedLine⟩]

/-- How calls and variables are read. -/
def expressionReadings : List Reading :=
  [⟨.macroName, macroName⟩,
   ⟨.macroFront, macroFront⟩,
   ⟨.groupingBack, exactly ")"⟩,
   ⟨.hookRef, hookRef⟩,
   ⟨.storyVariable, storyVariable⟩,
   ⟨.tempVariable, tempVariable⟩]

/-- How operands and operators are read. -/
def codeReadings : List Reading :=
  [⟨.whitespace, whitespace⟩,
   ⟨.groupingFront, groupingFront⟩,
   ⟨.property, property⟩,
   ⟨.possessiveOperator, possessiveOperator⟩,
   ⟨.itsProperty, itsProperty⟩,
   ⟨.itsOperator, itsOperator⟩,
   ⟨.belongingItProperty, belongingItProperty⟩,
   ⟨.belongingItOperator, belongingItOperator⟩,
   ⟨.belongingProperty, belongingProperty⟩,
   ⟨.belongingOperator, word "of"⟩,
   ⟨.string, string⟩,
   ⟨.cssTime, cssTime⟩,
   ⟨.colour, colour⟩,
   ⟨.number, number⟩,
   ⟨.addition, sign ['+']⟩,
   ⟨.subtraction, sign ['-']⟩,
   ⟨.multiplication, sign ['*']⟩,
   ⟨.division, sign ['/', '%']⟩,
   ⟨.inequality, inequality⟩,
   ⟨.augmentedAssign, augmentedAssign⟩,
   ⟨.identifier, identifier⟩,
   ⟨.boolean, boolean⟩,
   ⟨.is, is⟩,
   ⟨.isIn, isIn⟩,
   ⟨.isNot, isNot⟩,
   ⟨.contains, contains⟩,
   ⟨.toWord, toWord⟩,
   ⟨.intoWord, word "into"⟩,
   ⟨.and, word "and"⟩,
   ⟨.or, word "or"⟩,
   ⟨.not, word "not"⟩,
   ⟨.whereWord, word "where"⟩,
   ⟨.viaWord, word "via"⟩,
   ⟨.withWord, word "with"⟩,
   ⟨.makingWord, word "making"⟩,
   ⟨.comma, exactly ","⟩,
   ⟨.spread, spread⟩]

/-- How every kind of token is read, in the order of the rules. -/
def readings : List Reading :=
  blockReadings ++ inlineReadings ++ expressionReadings ++ codeReadings

end Cursor

namespace Rule

open Cursor

/-- From every source the reading captures what the rule's pattern captures, and comes to no
fault. -/
structure IsReadBy (rule : Rule) (reading : Reading) : Prop where
  kind : rule.kind = reading.kind
  capture (source : List Char) :
    capture? reading.cursor source = .ok (rule.pattern.capture? source)

theorem isReadBy_of_tracks {rule : Rule} {cursor : Cursor (Detail × Option Inside)}
    (h : ∀ source, Tracks [] source 0 cursor rule.pattern.scan) :
    rule.IsReadBy ⟨rule.kind, cursor⟩ :=
  ⟨rfl, fun source => capture?_of_tracks (h source)⟩

theorem isReadBy_of_mirrors {rule : Rule} {cursor : Cursor (Detail × Option Inside)}
    (h : Mirrors cursor rule.pattern.scan) : rule.IsReadBy ⟨rule.kind, cursor⟩ :=
  isReadBy_of_tracks (h [])

theorem forall₂_blockReadings : List.Forall₂ IsReadBy blockRules blockReadings :=
  .cons (isReadBy_of_mirrors mirrors_horizontalRule) <|
  .cons (isReadBy_of_tracks tracks_bulleted) <|
  .cons (isReadBy_of_tracks tracks_numbered) <|
  .cons (isReadBy_of_tracks tracks_heading) <|
  .cons (isReadBy_of_mirrors mirrors_align) .nil

theorem forall₂_inlineReadings : List.Forall₂ IsReadBy inlineRules inlineReadings :=
  .cons (isReadBy_of_mirrors mirrors_oldMacro) <|
  .cons (isReadBy_of_mirrors mirrors_lineBreak) <|
  .cons (isReadBy_of_mirrors (mirrors_exactly _)) <|
  .cons (isReadBy_of_mirrors (mirrors_exactly _)) <|
  .cons (isReadBy_of_mirrors (mirrors_exactly _)) <|
  .cons (isReadBy_of_mirrors (mirrors_exactly _)) <|
  .cons (isReadBy_of_mirrors (mirrors_exactly _)) <|
  .cons (isReadBy_of_mirrors (mirrors_exactly _)) <|
  .cons (isReadBy_of_mirrors (mirrors_exactly _)) <|
  .cons (isReadBy_of_mirrors (mirrors_exactly _)) <|
  .cons (isReadBy_of_mirrors (mirrors_exactly _)) <|
  .cons (isReadBy_of_mirrors (mirrors_exactly _)) <|
  .cons (isReadBy_of_mirrors mirrors_scriptStyleTag) <|
  .cons (isReadBy_of_mirrors mirrors_tag) <|
  .cons (isReadBy_of_mirrors mirrors_url) <|
  .cons (isReadBy_of_tracks tracks_passageLink) <|
  .cons (isReadBy_of_tracks tracks_simpleLink) <|
  .cons (isReadBy_of_tracks tracks_barLink) <|
  .cons (isReadBy_of_mirrors mirrors_hookPrependedFront) <|
  .cons (isReadBy_of_mirrors (mirrors_exactly _)) <|
  .cons (isReadBy_of_mirrors (mirrors_exactly _)) <|
  .cons (isReadBy_of_mirrors mirrors_hookBack) <|
  .cons (isReadBy_of_mirrors mirrors_hookAppendedBack) <|
  .cons (isReadBy_of_mirrors mirrors_verbatimOpener) <|
  .cons (isReadBy_of_mirrors (mirrors_exactly _)) <|
  .cons (isReadBy_of_mirrors (mirrors_exactly _)) <|
  .cons (isReadBy_of_mirrors mirrors_escapedLine) .nil

theorem forall₂_expressionReadings :
    List.Forall₂ IsReadBy expressionRules expressionReadings :=
  .cons (isReadBy_of_mirrors mirrors_macroName) <|
  .cons (isReadBy_of_mirrors mirrors_macroFront) <|
  .cons (isReadBy_of_mirrors (mirrors_exactly _)) <|
  .cons (isReadBy_of_mirrors mirrors_hookRef) <|
  .cons (isReadBy_of_mirrors mirrors_storyVariable) <|
  .cons (isReadBy_of_mirrors mirrors_tempVariable) .nil

theorem forall₂_codeReadings : List.Forall₂ IsReadBy codeRules codeReadings :=
  .cons (isReadBy_of_tracks tracks_whitespace) <|
  .cons (isReadBy_of_mirrors mirrors_groupingFront) <|
  .cons (isReadBy_of_mirrors mirrors_property) <|
  .cons (isReadBy_of_mirrors mirrors_possessiveOperator) <|
  .cons (isReadBy_of_mirrors mirrors_itsProperty) <|
  .cons (isReadBy_of_mirrors mirrors_itsOperator) <|
  .cons (isReadBy_of_mirrors mirrors_belongingItProperty) <|
  .cons (isReadBy_of_mirrors mirrors_belongingItOperator) <|
  .cons (isReadBy_of_mirrors mirrors_belongingProperty) <|
  .cons (isReadBy_of_mirrors (mirrors_word _)) <|
  .cons (isReadBy_of_mirrors mirrors_string) <|
  .cons (isReadBy_of_mirrors mirrors_cssTime) <|
  .cons (isReadBy_of_tracks tracks_colour) <|
  .cons (isReadBy_of_mirrors mirrors_number) <|
  .cons (isReadBy_of_tracks (tracks_sign _)) <|
  .cons (isReadBy_of_tracks (tracks_sign _)) <|
  .cons (isReadBy_of_tracks (tracks_sign _)) <|
  .cons (isReadBy_of_tracks (tracks_sign _)) <|
  .cons (isReadBy_of_tracks tracks_inequality) <|
  .cons (isReadBy_of_tracks tracks_augmentedAssign) <|
  .cons (isReadBy_of_mirrors mirrors_identifier) <|
  .cons (isReadBy_of_mirrors mirrors_boolean) <|
  .cons (isReadBy_of_mirrors mirrors_is) <|
  .cons (isReadBy_of_mirrors mirrors_isIn) <|
  .cons (isReadBy_of_mirrors mirrors_isNot) <|
  .cons (isReadBy_of_mirrors mirrors_contains) <|
  .cons (isReadBy_of_mirrors mirrors_toWord) <|
  .cons (isReadBy_of_mirrors (mirrors_word _)) <|
  .cons (isReadBy_of_mirrors (mirrors_word _)) <|
  .cons (isReadBy_of_mirrors (mirrors_word _)) <|
  .cons (isReadBy_of_mirrors (mirrors_word _)) <|
  .cons (isReadBy_of_mirrors (mirrors_word _)) <|
  .cons (isReadBy_of_mirrors (mirrors_word _)) <|
  .cons (isReadBy_of_mirrors (mirrors_word _)) <|
  .cons (isReadBy_of_mirrors (mirrors_word _)) <|
  .cons (isReadBy_of_mirrors (mirrors_exactly _)) <|
  .cons (isReadBy_of_tracks tracks_spread) .nil

/-- No rule comes to a fault. -/
theorem forall₂_readings : List.Forall₂ IsReadBy all readings :=
  List.rel_append (List.rel_append (List.rel_append forall₂_blockReadings forall₂_inlineReadings)
    forall₂_expressionReadings) forall₂_codeReadings

end Rule

end StoryScript
