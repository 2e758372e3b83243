/-
  The first match on literals.

  Every token of a literal wins against all rules of higher priority: for each of them
  the candidates for its first character are listed, and those in front are shown not
  to match. What follows a literal is the end, a comma or a closing parenthesis.
-/
import Mathlib
import StoryScript.Proofs.Decimal.Numeral
import StoryScript.Proofs.Literal.Codes
import StoryScript.Proofs.Token.CodeRules

namespace StoryScript.Rule

open Decimal (IsNumeral)

/-! ## Rules that literals meet -/

/-- The opener of a call. -/
def frontRule : Rule :=
  { ofExpression .macroFront "(" Pattern.macroFront with isFront := true }

/-- The closer of a call. -/
def backRule : Rule :=
  ofExpression .groupingBack ")" (Pattern.exactly ")")

/-- Blanks. -/
def blankRule : Rule :=
  { ofCode .whitespace "" Pattern.whitespace with avoids := [some .text] }

/-- A property of `it`. -/
def belongingItRule : Rule :=
  (ofCode .belongingItProperty "" Pattern.belongingItProperty).asKeyword

/-- A property of what follows. -/
def belongingRule : Rule :=
  (ofCode .belongingProperty "" Pattern.belongingProperty).asKeyword

def stringRule : Rule :=
  ofCode .string "\"'" Pattern.string

def timeRule : Rule :=
  { ofCode .cssTime ".0123456789" Pattern.cssTime with wordStart := true }

def colourRule : Rule :=
  (ofCode .colour "" Pattern.colour).asKeyword

def numberRule : Rule :=
  { ofCode .number "0123456789nN" Pattern.number with wordStart := true }

def minusRule : Rule :=
  ofCode .subtraction "-" (Pattern.sign ['-'])

def identifierRule : Rule :=
  (ofCode .identifier "iItT" Pattern.identifier).asKeyword

def booleanRule : Rule :=
  (ofCode .boolean "tTfF" Pattern.boolean).asKeyword

def commaRule : Rule :=
  ofCode .comma "," (Pattern.exactly ",")

/-! ## Places where a literal can stand -/

/-- A place between tokens of code, where no call is just being opened. -/
structure Between (here : Situation) : Prop where
  mode : here.mode = .code
  notText : here.last ≠ some .text
  notFront : here.last ≠ some .macroFront

/-- What can follow a literal: the end, a comma or a closing parenthesis. -/
def Ends (rest : List Char) : Prop :=
  ∀ c ∈ rest.head?, c = ',' ∨ c = ')'

theorem Ends.head {rest : List Char} (h : Ends rest) {p : Char → Bool} (hcomma : p ',' = false)
    (hparen : p ')' = false) : ∀ c ∈ rest.head?, p c = false := by
  intro c hc
  rcases h c hc with rfl | rfl
  · exact hcomma
  · exact hparen

section

variable {here : Situation} {source : List Char}

/-- A rule of code without conditions stands between any tokens. -/
theorem fits_ofCode (h : Between here) (kind : Kind) (starts : String) (pattern : Pattern) :
    (ofCode kind starts pattern).fits here = true := by
  simp [fits, ofCode, h.mode, Scope.activeIn]

theorem fits_asKeyword (h : Between here) (hword : here.afterWord = false) (kind : Kind)
    (starts : String) (pattern : Pattern) : (ofCode kind starts pattern).asKeyword.fits here = true := by
  simp [fits, asKeyword, ofCode, h.mode, Scope.activeIn, hword, h.notText]

/-! ## Candidates that do not match -/

theorem nameRule_skip (h : Between here) : nameRule.match? here source = none := by
  apply match?_of_not_fits
  simp [fits, nameRule, h.notFront]

theorem blankRule_skip (h : ∀ c ∈ source.head?, Text.isBlank c = false) :
    blankRule.match? here source = none := by
  apply match?_of_capture?_eq_none
  refine Pattern.capture?_plain_eq_none ?_
  exact Scanner.discard_of_eq_none (Scanner.takeWhile1_eq_none h)

/-- A run of word characters that is no name, or that no blank follows, has no owner. -/
theorem belonging_skip (h : ∀ name rest, Pattern.propertyName source = some (name, rest) →
      ∀ c ∈ rest.head?, Text.isBlank c = false) :
    belongingItRule.match? here source = none ∧ belongingRule.match? here source = none := by
  constructor
  all_goals
    apply match?_of_capture?_eq_none
    refine Pattern.capture?_leaf_eq_none (Scanner.bind_of_eq_none ?_)
    cases hname : Pattern.propertyName source with
    | none => exact Scanner.bind_of_eq_none hname
    | some found =>
      obtain ⟨name, rest⟩ := found
      rw [Scanner.bind_of_eq_some hname]
      exact Scanner.bind_of_eq_none (Scanner.takeWhile1_eq_none (h name rest hname))

theorem colourRule_skip (hhash : ∀ c ∈ source.head?, c ≠ '#')
    (hname : Colour.codeOfName? (String.ofList (source.takeWhile Text.isWord)) = none) :
    colourRule.match? here source = none := by
  apply match?_of_capture?_eq_none
  refine Pattern.capture?_leaf_eq_none ?_
  rw [Scanner.orElse_of_eq_none (Scanner.bind_of_eq_none (Scanner.char_eq_none hhash))]
  have htake : Scanner.takeWhile Text.isWord source =
      some (source.takeWhile Text.isWord, source.dropWhile Text.isWord) := rfl
  rw [Scanner.bind_of_eq_some htake, hname]
  rfl

/-- Text that does not start with a word character is no name. -/
theorem propertyName_eq_none (h : ∀ c ∈ source.head?, Text.isWord c = false) :
    Pattern.propertyName source = none := by
  have hnil : Scanner.takeWhile Text.isWord source = some ([], source) :=
    @Scanner.takeWhile_append _ [] source (by simp) h
  rw [Pattern.propertyName, Scanner.bind_of_eq_some hnil]
  rfl

theorem takeWhile_isWord_eq_nil (h : ∀ c ∈ source.head?, Text.isWord c = false) :
    source.takeWhile Text.isWord = [] := by
  cases source with
  | nil => rfl
  | cons c cs => simp [h c rfl]

/-- The candidates for a character of no class pass over a sign. -/
theorem sign_skip {c : Char} (hword : Text.isWord c = false) (cs : List Char) :
    belongingItRule.match? here (c :: cs) = none ∧ belongingRule.match? here (c :: cs) = none ∧
      (c ≠ '#' → colourRule.match? here (c :: cs) = none) := by
  have hhead : ∀ d ∈ (c :: cs).head?, Text.isWord d = false := by
    intro d hd
    obtain rfl : c = d := Option.some.inj hd
    exact hword
  have hnone := propertyName_eq_none hhead
  obtain ⟨hit, hof⟩ := @belonging_skip here (c :: cs) (by simp [hnone])
  refine ⟨hit, hof, ?_⟩
  intro hhash
  refine colourRule_skip ?_ ?_
  · intro d hd
    obtain rfl : c = d := Option.some.inj hd
    exact hhash
  · rw [takeWhile_isWord_eq_nil hhead]
    rfl

/-! ## Calls, commas and blanks -/

/-- A name that a collection is called by. -/
def IsPlainName (name : List Char) : Prop :=
  name ≠ [] ∧ name.all Char.isAlpha = true

theorem isWord_of_isAlphanum {c : Char} (h : c.isAlphanum = true) : Text.isWord c = true := by
  rw [Text.isWord, Text.isAlphanumeric_of_isAlphanum h, Bool.true_or]

theorem isNameChar_of_isAlpha {c : Char} (h : c.isAlpha = true) : Text.isNameChar c = true :=
  Text.isNameChar_of_isWord (isWord_of_isAlphanum (by rw [Char.isAlphanum, h, Bool.true_or]))

theorem calledName_append {name : List Char} (hname : IsPlainName name) (rest : List Char) :
    Pattern.calledName (name ++ ':' :: rest) = some ((name, false), rest) := by
  obtain ⟨hne, halpha⟩ := hname
  obtain ⟨first, others, rfl⟩ := List.exists_cons_of_ne_nil hne
  rw [List.all_cons, Bool.and_eq_true, List.all_eq_true] at halpha
  have hdollar : ∀ d ∈ (first :: others ++ ':' :: rest).head?, d ≠ '$' := by
    rintro d hd rfl
    obtain rfl : first = '$' := Option.some.inj hd
    exact absurd halpha.1 (by decide)
  have hfirst : (Text.isNameChar first || first == '/') = true := by
    rw [isNameChar_of_isAlpha halpha.1, Bool.true_or]
  have hothers : Scanner.takeWhile Text.isNameChar (others ++ ':' :: rest) =
      some (others, ':' :: rest) := by
    refine Scanner.takeWhile_append ?_ ?_
    · intro c hc
      exact isNameChar_of_isAlpha (halpha.2 c hc)
    · intro c hc
      obtain rfl : ':' = c := Option.some.inj hc
      rfl
  -- no dollar sign, so this is not a variable
  rw [Pattern.calledName, Scanner.orElse_of_eq_none
    (Scanner.bind_of_eq_none (Scanner.char_eq_none hdollar)), List.cons_append,
    Scanner.bind_of_eq_some (Scanner.satisfy_cons hfirst _), Scanner.bind_of_eq_some hothers,
    Scanner.bind_of_eq_some (Scanner.char_cons ':' rest)]
  rfl

theorem firstMatch_front (h : Between here) {name : List Char} (hname : IsPlainName name)
    (rest : List Char) :
    firstMatch here (['('] ++ (name ++ ':' :: rest)) =
      some (frontRule, ⟨['('], { name := some (String.ofList name) }, none⟩) := by
  refine firstMatch_of_candidates h.mode [nameRule] ⟨_, rfl⟩ (nameRule_skip h) ?_
  have hfits : frontRule.fits here = true := by
    simp [fits, frontRule, ofExpression, Scope.activeIn]
  rw [match?_of_fits hfits (by rfl)]
  refine @Pattern.capture?_leaf _ ['('] _ _ ?_ (by simp)
  have hahead : Scanner.ahead Pattern.calledName (name ++ ':' :: rest) =
      some ((name, false), name ++ ':' :: rest) := by
    rw [Scanner.ahead, calledName_append hname, Option.map_some]
  refine Scanner.bind_of_eq_some (a := name) ?_
  exact (Scanner.bind_of_eq_some (Scanner.char_cons '(' _)).trans (Scanner.bind_of_eq_some hahead)

theorem firstMatch_back (h : Between here) (rest : List Char) :
    firstMatch here ([')'] ++ rest) = some (backRule, ⟨[')'], {}, none⟩) := by
  refine firstMatch_of_candidates h.mode [nameRule] ⟨_, rfl⟩ (nameRule_skip h) ?_
  have hfits : backRule.fits here = true := by
    simp [fits, backRule, ofExpression, Scope.activeIn]
  rw [match?_of_fits hfits (by rfl)]
  exact @Pattern.capture?_plain _ [')'] rest rfl (by simp)

theorem firstMatch_comma (h : Between here) (rest : List Char) :
    firstMatch here ([','] ++ rest) = some (commaRule, ⟨[','], {}, none⟩) := by
  obtain ⟨hit, hof, hcolour⟩ := @sign_skip here ',' rfl rest
  refine firstMatch_of_candidates h.mode
    [nameRule, blankRule, belongingItRule, belongingRule, colourRule] ⟨_, rfl⟩
    ⟨nameRule_skip h, blankRule_skip (by simp; rfl), hit, hof, hcolour (by decide)⟩ ?_
  have hfits : commaRule.fits here = true := fits_ofCode h _ _ _
  rw [match?_of_fits hfits (by rfl)]
  exact @Pattern.capture?_plain _ [','] rest rfl (by simp)

theorem firstMatch_blank (h : Between here) {rest : List Char}
    (hrest : ∀ c ∈ rest.head?, Text.isBlank c = false) :
    firstMatch here ([' '] ++ rest) = some (blankRule, ⟨[' '], {}, none⟩) := by
  refine firstMatch_of_candidates h.mode [nameRule] ⟨_, rfl⟩ (nameRule_skip h) ?_
  have hfits : blankRule.fits here = true := by
    simp [fits, blankRule, ofCode, h.mode, h.notText, Scope.activeIn]
  rw [match?_of_fits hfits (by rfl)]
  refine @Pattern.capture?_plain _ [' '] rest ?_ (by simp)
  refine Scanner.discard_of_eq_some (Scanner.takeWhile1_append ?_ (by simp) hrest)
  intro c hc
  rw [List.mem_singleton.1 hc]
  rfl

/-- Right after the opener of a call stands its name. -/
theorem firstMatch_name (hmode : here.mode = .code) (hlast : here.last = some .macroFront)
    {name : List Char} (hname : IsPlainName name) (rest : List Char) :
    firstMatch here ((name ++ [':']) ++ rest) =
      some (nameRule, ⟨name ++ [':'], { name := some (String.ofList name) }, none⟩) := by
  have hsource : (name ++ [':']) ++ rest = name ++ ':' :: rest := by simp
  rw [hsource]
  exact firstMatch_of_calledName hmode hlast (calledName_append hname rest)

/-! ## Strings -/

/-- The literal form of a text ends at the first quote that is not escaped. -/
theorem splitString_literal (text rest : List Char) :
    Pattern.splitString '"' (text.flatMap Text.literalChar ++ '"' :: rest) =
      some (text.flatMap Text.literalChar, rest) := by
  induction text with
  | nil => rfl
  | cons c cs ih =>
    rw [List.flatMap_cons, List.append_assoc]
    rcases Text.literalChar_cases c with ⟨hchar, hquote, hslash⟩ | ⟨d, hchar, -⟩
    · rw [hchar, List.singleton_append, Pattern.splitString, if_neg hquote, ih]
      · rfl
      · simp [hslash]
    · -- what is escaped does not end the literal, whatever it is
      rw [hchar, List.cons_append, List.singleton_append, Pattern.splitString, ih]
      simp

theorem firstMatch_string (h : Between here) (text : String) (rest : List Char) :
    firstMatch here ((Text.literal text).toList ++ rest) =
      some (stringRule, ⟨(Text.literal text).toList, {}, none⟩) := by
  rw [Text.toList_literal, List.cons_append]
  obtain ⟨hit, hof, -⟩ := @sign_skip here '"' rfl (text.toList.flatMap Text.literalChar ++ ['"'] ++ rest)
  refine firstMatch_of_candidates h.mode [nameRule, blankRule, belongingItRule, belongingRule]
    ⟨_, rfl⟩ ⟨nameRule_skip h, blankRule_skip (by simp; rfl), hit, hof⟩ ?_
  have hfits : stringRule.fits here = true := fits_ofCode h _ _ _
  rw [match?_of_fits hfits (by rfl), ← List.cons_append]
  refine Pattern.capture?_plain ?_ (by simp)
  rw [List.cons_append, List.append_assoc, List.singleton_append,
    Scanner.bind_of_eq_some (Scanner.satisfy_cons (by rfl) _)]
  exact Scanner.discard_of_eq_some (splitString_literal text.toList rest)

/-! ## Colours -/

theorem firstMatch_colour (h : Between here) (hword : here.afterWord = false) (c : Colour)
    {rest : List Char} (hrest : Ends rest) :
    firstMatch here (c.toHex.toList ++ rest) =
      some (colourRule, ⟨c.toHex.toList, { colour := some c.toHex }, none⟩) := by
  have htext := Colour.toList_toHex c
  generalize hdigits : Colour.hexPair c.red ++ Colour.hexPair c.green ++ Colour.hexPair c.blue = digits
    at htext
  have hlength : digits.length = 6 := by
    rw [← hdigits]
    rfl
  have hhex : ∀ d ∈ digits, Text.isHexDigit d = true := by
    intro d hd
    rw [← hdigits, List.mem_append, List.mem_append] at hd
    rcases hd with (hd | hd) | hd <;> exact Colour.isHexDigit_hexPair d hd
  have hname : c.toHex = String.ofList ('#' :: digits) :=
    String.ofList_toList.symm.trans (congrArg String.ofList htext)
  rw [htext, List.cons_append]
  obtain ⟨hit, hof, -⟩ := @sign_skip here '#' rfl (digits ++ rest)
  refine firstMatch_of_candidates h.mode [nameRule, blankRule, belongingItRule, belongingRule]
    ⟨_, rfl⟩ ⟨nameRule_skip h, blankRule_skip (by simp; rfl), hit, hof⟩ ?_
  have hfits : colourRule.fits here = true := fits_asKeyword h hword _ _ _
  rw [match?_of_fits hfits (by rfl), ← List.cons_append]
  refine Pattern.capture?_leaf (Scanner.orElse_of_eq_some ?_) (by simp)
  -- the run of digits ends where the literal ends
  have htake : (digits ++ rest).takeWhile Text.isHexDigit = digits := by
    have hrun := Scanner.takeWhile_append hhex (hrest.head (by rfl) (by rfl))
    rw [Scanner.takeWhile, Option.some.injEq, Prod.mk.injEq] at hrun
    exact hrun.1
  rw [List.cons_append, Scanner.bind_of_eq_some (Scanner.char_cons '#' _)]
  have hrun : Scanner.rest (digits ++ rest) = some (digits ++ rest, digits ++ rest) := rfl
  have hcount : Scanner.require (3 ≤ digits.length) (digits ++ rest) = some ((), digits ++ rest) := by
    simp [Scanner.require, hlength]
  have hskip : Scanner.skip 6 (digits ++ rest) = some ((), rest) := by
    simp [Scanner.skip, ← hlength]
  rw [Scanner.bind_of_eq_some hrun]
  simp only [htake]
  rw [Scanner.bind_of_eq_some hcount, if_pos (by omega), Scanner.bind_of_eq_some hskip, hname,
    List.take_of_length_le (by omega)]
  rfl

/-! ## Booleans -/

/-- A word that stands alone has no owner. -/
theorem word_skip {word : List Char} {rest : List Char} (hword : word.all Char.isAlphanum = true)
    (hne : word ≠ []) (hrest : ∀ c ∈ rest.head?, Text.isWord c = false)
    (hblank : ∀ c ∈ rest.head?, Text.isBlank c = false)
    (hcolour : Colour.codeOfName? (String.ofList word) = none) :
    belongingItRule.match? here (word ++ rest) = none ∧
    belongingRule.match? here (word ++ rest) = none ∧
    colourRule.match? here (word ++ rest) = none := by
  rw [List.all_eq_true] at hword
  have htake := Scanner.takeWhile_append (fun c hc => isWord_of_isAlphanum (hword c hc)) hrest
  have hrun : (word ++ rest).takeWhile Text.isWord = word := by
    rw [Scanner.takeWhile, Option.some.injEq, Prod.mk.injEq] at htake
    exact htake.1
  obtain ⟨hit, hof⟩ := @belonging_skip here (word ++ rest) (by
    intro name tail hname
    rw [Pattern.propertyName, Scanner.bind_of_eq_some htake] at hname
    simp only [Scanner.bind_eq_some, Scanner.require_eq_some, Scanner.pure_eq_some] at hname
    obtain ⟨_, _, ⟨-, rfl⟩, -, rfl⟩ := hname
    exact hblank)
  refine ⟨hit, hof, colourRule_skip ?_ (by rw [hrun, hcolour])⟩
  obtain ⟨first, others, rfl⟩ := List.exists_cons_of_ne_nil hne
  rintro c hc rfl
  obtain rfl : first = '#' := Option.some.inj hc
  exact absurd (hword '#' List.mem_cons_self) (by decide)

theorem firstMatch_boolean (h : Between here) (hword : here.afterWord = false) (b : Bool)
    {rest : List Char} (hrest : Ends rest) :
    firstMatch here ((toString b).toList ++ rest) =
      some (booleanRule, ⟨(toString b).toList, {}, none⟩) := by
  have hfits : booleanRule.fits here = true := fits_asKeyword h hword _ _ _
  have hend : Scanner.boundary rest = some ((), rest) :=
    Scanner.boundary_of_head (hrest.head (by rfl) (by rfl))
  cases b with
  | true =>
    have htext : (toString true).toList = ['t', 'r', 'u', 'e'] := rfl
    obtain ⟨hit, hof, hcolour⟩ := @word_skip here ['t', 'r', 'u', 'e'] rest (by rfl) (by simp)
      (hrest.head (by rfl) (by rfl)) (hrest.head (by rfl) (by rfl)) (by rfl)
    have hidentifier : identifierRule.match? here (['t', 'r', 'u', 'e'] ++ rest) = none := by
      apply match?_of_capture?_eq_none
      exact Pattern.capture?_leaf_eq_none rfl
    rw [htext, List.cons_append]
    refine firstMatch_of_candidates h.mode
      [nameRule, blankRule, belongingItRule, belongingRule, colourRule, identifierRule] ⟨_, rfl⟩
      ⟨nameRule_skip h, blankRule_skip (by simp; rfl), hit, hof, hcolour, hidentifier⟩ ?_
    rw [match?_of_fits hfits (by rfl), ← List.cons_append]
    refine Pattern.capture?_plain (Scanner.orElse_of_eq_some ?_) (by simp)
    have hliteral : Scanner.literal "true" (['t', 'r', 'u', 'e'] ++ rest) = some ((), rest) := rfl
    rw [Scanner.keyword, Scanner.bind_of_eq_some hliteral, hend]
  | false =>
    have htext : (toString false).toList = ['f', 'a', 'l', 's', 'e'] := rfl
    obtain ⟨hit, hof, hcolour⟩ := @word_skip here ['f', 'a', 'l', 's', 'e'] rest (by rfl)
      (by simp) (hrest.head (by rfl) (by rfl)) (hrest.head (by rfl) (by rfl)) (by rfl)
    rw [htext, List.cons_append]
    refine firstMatch_of_candidates h.mode
      [nameRule, blankRule, belongingItRule, belongingRule, colourRule] ⟨_, rfl⟩
      ⟨nameRule_skip h, blankRule_skip (by simp; rfl), hit, hof, hcolour⟩ ?_
    rw [match?_of_fits hfits (by rfl), ← List.cons_append]
    have htrue : Scanner.keyword "true" (['f', 'a', 'l', 's', 'e'] ++ rest) = none := rfl
    refine Pattern.capture?_plain ((Scanner.orElse_of_eq_none htrue).trans ?_) (by simp)
    have hliteral : Scanner.literal "false" (['f', 'a', 'l', 's', 'e'] ++ rest) = some ((), rest) := rfl
    rw [Scanner.keyword, Scanner.bind_of_eq_some hliteral, hend]

/-! ## Numbers -/

theorem isAlphanum_of_isDigit {c : Char} (h : c.isDigit = true) : c.isAlphanum = true := by
  rw [Char.isAlphanum, h, Bool.or_true]

theorem mem_digits_of_isDigit {c : Char} (h : c.isDigit = true) : c ∈ "0123456789".toList := by
  obtain ⟨hlow, hhigh⟩ := Char.isDigit_iff_toNat.1 h
  have hc : Char.ofNat c.toNat = c := Char.ofNat_toNat c
  have hlow : 48 ≤ c.toNat := hlow
  have hhigh : c.toNat ≤ 57 := hhigh
  generalize c.toNat = n at hc hlow hhigh
  subst hc
  interval_cases n <;> decide

theorem of_isDigit {p : Char → Bool} (h : "0123456789".toList.all p = true) {c : Char}
    (hc : c.isDigit = true) : p c = true :=
  List.all_eq_true.1 h c (mem_digits_of_isDigit hc)

/-- No colour has a name that starts with a digit. -/
theorem codeOfName?_digits {digits : List Char} (hne : digits ≠ [])
    (hdigits : digits.all Char.isDigit = true) :
    Colour.codeOfName? (String.ofList digits) = none := by
  obtain ⟨d, ds, rfl⟩ := List.exists_cons_of_ne_nil hne
  rw [List.all_cons, Bool.and_eq_true] at hdigits
  have htable : Colour.names.all (fun entry => !entry.1.toList.head?.any Char.isDigit) = true := by
    decide
  rw [Colour.codeOfName?, List.lookup_eq_none_iff]
  intro entry hentry
  have hhead := List.all_eq_true.1 htable entry hentry
  -- the case of a digit does not change
  have hlower : (Text.lower (String.ofList (d :: ds))).toList.head?.any Char.isDigit = true := by
    have hdigit : d.toLower.isDigit = true := @of_isDigit (fun c => c.toLower.isDigit) rfl _ hdigits.1
    simpa [Text.lower] using hdigit
  rw [bne_iff_ne]
  intro heq
  rw [← heq, hlower] at hhead
  exact absurd hhead (by decide)

theorem firstMatch_minus (h : Between here) {rest : List Char}
    (hrest : ∀ c ∈ rest.head?, c ≠ '=') :
    firstMatch here (['-'] ++ rest) =
      some (minusRule, ⟨['-'], { operator := some .subtract }, none⟩) := by
  obtain ⟨hit, hof, hcolour⟩ := @sign_skip here '-' rfl rest
  refine firstMatch_of_candidates h.mode
    [nameRule, blankRule, belongingItRule, belongingRule, colourRule] ⟨_, rfl⟩
    ⟨nameRule_skip h, blankRule_skip (by simp; rfl), hit, hof, hcolour (by decide)⟩ ?_
  have hfits : minusRule.fits here = true := fits_ofCode h _ _ _
  rw [match?_of_fits hfits (by rfl)]
  have hequals : Scanner.char '=' rest = none := Scanner.char_eq_none hrest
  refine @Pattern.capture?_leaf _ ['-'] rest _ ?_ (by simp)
  rw [List.singleton_append, Scanner.bind_of_eq_some (Scanner.satisfy_cons (by rfl) _)]
  have hahead : Scanner.notAhead (Scanner.char '=') rest = some ((), rest) := by
    simp [Scanner.notAhead, hequals]
  rw [Scanner.bind_of_eq_some hahead]
  rfl

/-- The digits of a numeral, and what comes before the end: the fraction, if there is one. -/
theorem split_numeral {text : List Char} (h : IsNumeral text) {rest : List Char} (hrest : Ends rest) :
    ∃ digits tail, text ++ rest = digits ++ tail ∧ digits ≠ [] ∧ digits.all Char.isDigit = true ∧
      ∀ c ∈ tail.head?, c = '.' ∨ c = ',' ∨ c = ')' := by
  cases h with
  | whole hne hdigits =>
    exact ⟨text, rest, rfl, hne, hdigits, fun c hc => .inr (hrest c hc)⟩
  | @fraction digits places hne hdigits hne' hplaces =>
    refine ⟨digits, '.' :: places ++ rest, by simp, hne, hdigits, ?_⟩
    intro c hc
    exact .inl (Option.some.inj hc).symm

/-- The candidates for a digit. -/
theorem candidates_digit {c : Char} (h : c.isDigit = true) :
    ∃ rules, candidates c =
      [nameRule, blankRule, belongingItRule, belongingRule, timeRule, colourRule] ++
        numberRule :: rules := by
  have hmem := mem_digits_of_isDigit h
  simp only [String.reduceToList, List.mem_cons, List.not_mem_nil, or_false] at hmem
  rcases hmem with rfl | rfl | rfl | rfl | rfl | rfl | rfl | rfl | rfl | rfl <;> exact ⟨_, rfl⟩

/-- A run of digits has no owner and is no colour. -/
theorem digits_skip {digits tail : List Char} (hne : digits ≠ [])
    (hdigits : digits.all Char.isDigit = true) (htail : ∀ c ∈ tail.head?, c = '.' ∨ c = ',' ∨ c = ')') :
    belongingItRule.match? here (digits ++ tail) = none ∧
    belongingRule.match? here (digits ++ tail) = none ∧
    colourRule.match? here (digits ++ tail) = none := by
  have halphanum : digits.all Char.isAlphanum = true := by
    rw [List.all_eq_true] at hdigits ⊢
    exact fun c hc => isAlphanum_of_isDigit (hdigits c hc)
  refine word_skip halphanum hne ?_ ?_ (codeOfName?_digits hne hdigits)
  · intro c hc
    rcases htail c hc with rfl | rfl | rfl <;> rfl
  · intro c hc
    rcases htail c hc with rfl | rfl | rfl <;> rfl

theorem fraction_eq_none {rest : List Char} (hrest : Ends rest) (digits : Scanner (List Char)) :
    Pattern.fraction digits rest = none := by
  refine Scanner.bind_of_eq_none (Scanner.char_eq_none ?_)
  rintro c hc rfl
  rcases hrest _ hc with h | h <;> exact absurd h (by decide)

theorem fraction_append {scan : Scanner (List Char)} {places rest : List Char}
    (h : scan (places ++ rest) = some (places, rest)) :
    Pattern.fraction scan ('.' :: (places ++ rest)) = some ('.' :: places, rest) := by
  rw [Pattern.fraction, Scanner.bind_of_eq_some (Scanner.char_cons '.' _), Scanner.bind_of_eq_some h]
  rfl

theorem pointedDigits_append {text rest : List Char} (h : IsNumeral text) (hrest : Ends rest) :
    Pattern.pointedDigits (text ++ rest) = some (text, rest) := by
  refine Scanner.orElse_of_eq_some ?_
  have hend : ∀ c ∈ rest.head?, c.isDigit = false := hrest.head (by rfl) (by rfl)
  cases h with
  | whole hne hdigits =>
    rw [List.all_eq_true] at hdigits
    rw [Scanner.bind_of_eq_some (Scanner.takeWhile1_append hdigits hne hend),
      Scanner.bind_of_eq_some (Scanner.orElse_pure_of_eq_none (fraction_eq_none hrest _))]
    simp
  | @fraction digits places hne hdigits hne' hplaces =>
    rw [List.all_eq_true] at hdigits hplaces
    have hpart := fraction_append (Scanner.takeWhile_append hplaces hend)
    rw [List.append_assoc, List.cons_append,
      Scanner.bind_of_eq_some (Scanner.takeWhile1_append hdigits hne (by simp)),
      Scanner.bind_of_eq_some (Scanner.orElse_of_eq_some hpart)]
    rfl

/-- A numeral without a unit is no time. -/
theorem timeRule_skip {text rest : List Char} (h : IsNumeral text) (hrest : Ends rest) :
    timeRule.match? here (text ++ rest) = none := by
  apply match?_of_capture?_eq_none
  refine Pattern.capture?_leaf_eq_none ?_
  have hmilli : Scanner.satisfy (fun c => c == 'm' || c == 'M') rest = none :=
    Scanner.satisfy_eq_none (hrest.head (by rfl) (by rfl))
  have hunit : Scanner.literal "s" rest = none := by
    cases rest with
    | nil => rfl
    | cons c cs => rcases hrest c rfl with rfl | rfl <;> rfl
  rw [Scanner.bind_of_eq_some (pointedDigits_append h hrest), Scanner.bind_of_eq_some
    (Scanner.orElse_pure_of_eq_none (Scanner.bind_of_eq_none (Scanner.discard_of_eq_none hmilli)))]
  exact Scanner.bind_of_eq_none hunit

/-- A numeral as the pattern of numbers reads it. -/
theorem number_append {text rest : List Char} (h : IsNumeral text) (hrest : Ends rest) :
    Pattern.number.capture? (text ++ rest) =
      some ⟨text, { value := some (.ofFloat (Pattern.numberOf text)) }, none⟩ := by
  obtain ⟨digits, tail, hsplit, hne, hdigits, -⟩ := split_numeral h hrest
  have hword : Scanner.literal "NaN" (text ++ rest) = none := by
    obtain ⟨d, ds, rfl⟩ := List.exists_cons_of_ne_nil hne
    rw [List.all_cons, Bool.and_eq_true] at hdigits
    have hmem := mem_digits_of_isDigit hdigits.1
    simp only [String.reduceToList, List.mem_cons, List.not_mem_nil, or_false] at hmem
    rw [hsplit]
    rcases hmem with rfl | rfl | rfl | rfl | rfl | rfl | rfl | rfl | rfl | rfl <;> rfl
  have hend : ∀ c ∈ rest.head?, c.isDigit = false := hrest.head (by rfl) (by rfl)
  have hexponent : Pattern.exponent rest = none :=
    Scanner.bind_of_eq_none (Scanner.satisfy_eq_none (hrest.head (by rfl) (by rfl)))
  have hboundary : Scanner.boundary rest = some ((), rest) :=
    Scanner.boundary_of_head (hrest.head (by rfl) (by rfl))
  refine Pattern.capture?_leaf ((Scanner.orElse_of_eq_none (Scanner.bind_of_eq_none
    (Scanner.bind_of_eq_none hword))).trans ?_) (by cases h <;> simp_all)
  cases h with
  | whole hne hdigits =>
    rw [List.all_eq_true] at hdigits
    rw [Scanner.bind_of_eq_some (Scanner.takeWhile1_append hdigits hne hend),
      Scanner.bind_of_eq_some (Scanner.orElse_pure_of_eq_none (fraction_eq_none hrest _)),
      Scanner.bind_of_eq_some (Scanner.orElse_pure_of_eq_none hexponent),
      Scanner.bind_of_eq_some hboundary]
    simp
  | @fraction digits places hne hdigits hne' hplaces =>
    rw [List.all_eq_true] at hdigits hplaces
    have hpart := fraction_append (Scanner.takeWhile1_append hplaces hne' hend)
    rw [List.append_assoc, List.cons_append,
      Scanner.bind_of_eq_some (Scanner.takeWhile1_append hdigits hne (by simp)),
      Scanner.bind_of_eq_some (Scanner.orElse_of_eq_some hpart),
      Scanner.bind_of_eq_some (Scanner.orElse_pure_of_eq_none hexponent),
      Scanner.bind_of_eq_some hboundary]
    simp

theorem firstMatch_number (h : Between here) (hword : here.afterWord = false) {text rest : List Char}
    (htext : IsNumeral text) (hrest : Ends rest) :
    firstMatch here (text ++ rest) =
      some (numberRule, ⟨text, { value := some (.ofFloat (Pattern.numberOf text)) }, none⟩) := by
  obtain ⟨digits, tail, hsplit, hne, hdigits, htail⟩ := split_numeral htext hrest
  obtain ⟨hit, hof, hcolour⟩ := @digits_skip here digits tail hne hdigits htail
  have htime := @timeRule_skip here text rest htext hrest
  have hnumber := number_append htext hrest
  rw [hsplit] at htime hnumber ⊢
  obtain ⟨d, ds, rfl⟩ := List.exists_cons_of_ne_nil hne
  rw [List.all_cons, Bool.and_eq_true] at hdigits
  have hblank : ∀ c ∈ (d :: ds ++ tail).head?, Text.isBlank c = false := by
    intro c hc
    obtain rfl : d = c := Option.some.inj hc
    have hdigit := @of_isDigit (fun c => !Text.isBlank c) rfl _ hdigits.1
    rwa [Bool.not_eq_true'] at hdigit
  have hadmits : numberRule.admits (d :: ds ++ tail) = true :=
    @of_isDigit (fun c => numberRule.admits [c]) rfl _ hdigits.1
  refine firstMatch_of_candidates h.mode _ (candidates_digit hdigits.1)
    ⟨nameRule_skip h, blankRule_skip hblank, hit, hof, htime, hcolour⟩ ?_
  have hfits : numberRule.fits here = true := by
    simp [fits, numberRule, ofCode, h.mode, hword, Scope.activeIn]
  exact (match?_of_fits hfits hadmits).trans hnumber

end

end StoryScript.Rule
