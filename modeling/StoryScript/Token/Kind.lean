/-
  Kinds of tokens, and which closers fold with which openers.

  Openers and closers are provisional: a closer folds with an opener it accepts into
  one token of a finished kind, and whatever stays unmatched turns back into text.
-/
namespace StoryScript

/-- Which family of rules is active at a point of the source. -/
inductive Mode where
  /-- Prose: block and inline markup, and calls. -/
  | markup
  /-- Inside a call or a grouping: operands and operators. -/
  | code
  deriving DecidableEq

/-- The kind of a token. -/
inductive Kind where
  | root | text | error | whitespace
  -- block markup
  | lineBreak | horizontalRule | bulleted | numbered | heading | align
  -- inline markup
  | emFront | emBack | em
  | strongFront | strongBack | strong
  | boldOpener | bold | italicOpener | italic | delOpener | del | supOpener | sup
  | commentFront | commentBack | comment
  | scriptStyleTag | tag | url | link
  | hookPrependedFront | hookAnonymousFront | hookAppendedFront | hookBack | hookAppendedBack | hook
  | verbatimOpener | verbatim
  | collapsedFront | collapsedBack | collapsed
  | escapedLine
  -- expressions
  | macroFront | macroName | macroCall
  | groupingFront | groupingBack | grouping
  | hookRef | storyVariable | tempVariable
  | property | possessiveOperator | itsProperty | itsOperator
  | belongingItProperty | belongingItOperator | belongingProperty | belongingOperator
  | string | cssTime | colour | number | boolean | identifier
  | addition | subtraction | multiplication | division
  | inequality | augmentedAssign
  | is | isNot | isIn | contains | and | or | not
  | toWord | intoWord
  | whereWord | viaWord | withWord | makingWord
  | comma | spread
  deriving DecidableEq

namespace Kind

/-- The name of a kind. -/
def name : Kind → String
  | root => "root"
  | text => "text"
  | error => "error"
  | whitespace => "whitespace"
  | lineBreak => "br"
  | horizontalRule => "hr"
  | bulleted => "bulleted"
  | numbered => "numbered"
  | heading => "heading"
  | align => "align"
  | emFront => "emFront"
  | emBack => "emBack"
  | em => "em"
  | strongFront => "strongFront"
  | strongBack => "strongBack"
  | strong => "strong"
  | boldOpener => "boldOpener"
  | bold => "bold"
  | italicOpener => "italicOpener"
  | italic => "italic"
  | delOpener => "delOpener"
  | del => "del"
  | supOpener => "supOpener"
  | sup => "sup"
  | commentFront => "commentFront"
  | commentBack => "commentBack"
  | comment => "comment"
  | scriptStyleTag => "scriptStyleTag"
  | tag => "tag"
  | url => "url"
  | link => "twineLink"
  | hookPrependedFront => "hookPrependedFront"
  | hookAnonymousFront => "hookAnonymousFront"
  | hookAppendedFront => "hookAppendedFront"
  | hookBack => "hookBack"
  | hookAppendedBack => "hookAppendedBack"
  | hook => "hook"
  | verbatimOpener => "verbatimOpener"
  | verbatim => "verbatim"
  | collapsedFront => "collapsedFront"
  | collapsedBack => "collapsedBack"
  | collapsed => "collapsed"
  | escapedLine => "escapedLine"
  | macroFront => "macroFront"
  | macroName => "macroName"
  | macroCall => "macro"
  | groupingFront => "groupingFront"
  | groupingBack => "groupingBack"
  | grouping => "grouping"
  | hookRef => "hookRef"
  | storyVariable => "variable"
  | tempVariable => "tempVariable"
  | property => "property"
  | possessiveOperator => "possessiveOperator"
  | itsProperty => "itsProperty"
  | itsOperator => "itsOperator"
  | belongingItProperty => "belongingItProperty"
  | belongingItOperator => "belongingItOperator"
  | belongingProperty => "belongingProperty"
  | belongingOperator => "belongingOperator"
  | string => "string"
  | cssTime => "cssTime"
  | colour => "colour"
  | number => "number"
  | boolean => "boolean"
  | identifier => "identifier"
  | addition => "addition"
  | subtraction => "subtraction"
  | multiplication => "multiplication"
  | division => "division"
  | inequality => "inequality"
  | augmentedAssign => "augmentedAssign"
  | is => "is"
  | isNot => "isNot"
  | isIn => "isIn"
  | contains => "contains"
  | and => "and"
  | or => "or"
  | not => "not"
  | toWord => "to"
  | intoWord => "into"
  | whereWord => "where"
  | viaWord => "via"
  | withWord => "with"
  | makingWord => "making"
  | comma => "comma"
  | spread => "spread"

/-- Every kind. -/
def all : List Kind :=
  [root, text, error, whitespace,
   lineBreak, horizontalRule, bulleted, numbered, heading, align,
   emFront, emBack, em, strongFront, strongBack, strong,
   boldOpener, bold, italicOpener, italic, delOpener, del, supOpener, sup,
   commentFront, commentBack, comment, scriptStyleTag, tag, url, link,
   hookPrependedFront, hookAnonymousFront, hookAppendedFront, hookBack, hookAppendedBack, hook,
   verbatimOpener, verbatim, collapsedFront, collapsedBack, collapsed, escapedLine,
   macroFront, macroName, macroCall, groupingFront, groupingBack, grouping,
   hookRef, storyVariable, tempVariable, property, possessiveOperator, itsProperty, itsOperator,
   belongingItProperty, belongingItOperator, belongingProperty, belongingOperator,
   string, cssTime, colour, number, boolean, identifier,
   addition, subtraction, multiplication, division, inequality, augmentedAssign,
   is, isNot, isIn, contains, and, or, not, toWord, intoWord,
   whereWord, viaWord, withWord, makingWord, comma, spread]

theorem mem_all (kind : Kind) : kind ∈ all := by
  cases kind <;> decide

/-- The kind with a given name. -/
def ofName? (name : String) : Option Kind :=
  all.find? (·.name == name)

/-- The openers that a closer accepts, each with the kind the two fold into. -/
def folds : Kind → List (Kind × Kind)
  | groupingBack => [(groupingFront, grouping), (macroFront, macroCall)]
  | hookBack => [(hookPrependedFront, hook), (hookAnonymousFront, hook)]
  | hookAppendedBack => [(hookAppendedFront, hook)]
  | emBack => [(emFront, em)]
  | strongBack => [(strongFront, strong)]
  | boldOpener => [(boldOpener, bold)]
  | italicOpener => [(italicOpener, italic)]
  | delOpener => [(delOpener, del)]
  | supOpener => [(supOpener, sup)]
  | commentBack => [(commentFront, comment)]
  | collapsedBack => [(collapsedFront, collapsed)]
  | verbatimOpener => [(verbatimOpener, verbatim)]
  | _ => []

/-- The kind that a closer and an opener fold into. -/
def fold? (closer opener : Kind) : Option Kind :=
  (closer.folds.find? (·.1 = opener)).map (·.2)

/-- Whether tokens of this kind close something. -/
def isCloser (kind : Kind) : Bool :=
  !kind.folds.isEmpty

/-- Whether a token of this kind can end an operand, so that a sign after it is an operator. -/
def endsOperand : Kind → Bool
  | storyVariable | tempVariable | hookRef | string | number | boolean | identifier | colour | cssTime
  | macroCall | grouping | property | itsProperty | belongingItProperty | link | text => true
  | _ => false

/-- The comparisons, which can lend their operator to a bare operand after `and` or `or`. -/
def isComparison : Kind → Bool
  | is | isNot | contains | isIn | inequality => true
  | _ => false

end Kind

end StoryScript
