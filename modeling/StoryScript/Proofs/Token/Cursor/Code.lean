/-
  Expressions by byte offsets.

  Each pattern of expressions as a cursor, with the offsets that it keeps and the slices
  that it cuts, and that it mirrors the pattern.
-/
import Mathlib
import StoryScript.Proofs.Token.Cursor.Inline

namespace StoryScript

/-! ## Scanners in parts -/

namespace Pattern

open Scanner

/-- What names a call, without its colon. -/
def callee : Scanner (List Char × Bool) := do
  if ← test (char '$') then
    let name ← propertyName
    return ('$' :: name, true)
  else
    let first ← satisfy fun c => Text.isNameChar c || c == '/'
    let others ← takeWhile Text.isNameChar
    return (first :: others, false)

/-- A dollar sign stands in no other name, so it decides. -/
theorem calledName_eq : calledName = do
    let found ← callee
    char ':'
    return found := by
  funext cs
  cases hchar : char '$' cs with
  | none =>
    simp [calledName, callee, orElse_apply, bind_apply, map_apply, hchar, test_of_none hchar,
      Option.bind_assoc, Option.bind_map]
  | some found =>
    obtain rfl := append_of_char hchar
    have hother : satisfy (fun c => Text.isNameChar c || c == '/') ('$' :: found.2) = none := rfl
    simp [calledName, callee, orElse_apply, bind_apply, map_apply, hchar, test_of_some hchar,
      hother, Option.bind_map]

theorem append_of_callee {cs text rest : List Char} {isMethod : Bool}
    (h : callee cs = some ((text, isMethod), rest)) : cs = text ++ rest := by
  cases hchar : char '$' cs with
  | none =>
    rw [callee, bind_of_eq_some (test_of_none hchar), if_neg Bool.false_ne_true] at h
    simp only [bind_eq_some, pure_eq_some, Prod.mk.injEq] at h
    obtain ⟨first, r₁, h₁, others, r₂, h₂, ⟨rfl, -⟩, rfl⟩ := h
    rw [(append_of_satisfy h₁).1, append_of_takeWhile h₂]
    rfl
  | some found =>
    rw [callee, bind_of_eq_some (test_of_some hchar), if_pos rfl] at h
    simp only [bind_eq_some, pure_eq_some, Prod.mk.injEq] at h
    obtain ⟨name, r₁, h₁, ⟨rfl, -⟩, rfl⟩ := h
    rw [append_of_char hchar, append_of_propertyName h₁]
    rfl

/-- How many of a number of digits make a colour. -/
def codeSize (count : Nat) : Nat :=
  if 6 ≤ count then 6 else 3

theorem codeSize_le {count : Nat} (h : 3 ≤ count) : codeSize count ≤ count := by
  rw [codeSize]
  split <;> omega

/-- A colour after `#`, by the digits that follow. -/
def colourOf (digits : List Char) : Scanner Detail := do
  require (3 ≤ digits.length)
  skip (codeSize digits.length)
  return { colour := some (String.ofList ('#' :: digits.take (codeSize digits.length))) }

/-- A colour after `#`: six or three digits. -/
def colourCode : Scanner Detail := do
  colourOf ((← rest).takeWhile Text.isHexDigit)

/-- A colour by its name. -/
def colourName : Scanner Detail := do
  let name ← takeWhile Text.isWord
  match Colour.codeOfName? (String.ofList name) with
  | none => failure
  | some code => return { colour := some code }

/-- A mark and the digits that `more` reads after it, or nothing. -/
def markedDigits (mark more : Scanner (List Char)) : Scanner (List Char) :=
  (do return (← mark) ++ (← more)) <|> pure []

theorem markedDigits_of_some {mark more : Scanner (List Char)} {cs text mid digits rest : List Char}
    (hmark : mark cs = some (text, mid)) (hmore : more mid = some (digits, rest)) :
    markedDigits mark more cs = some (text ++ digits, rest) :=
  orElse_eq_some.2 (.inl ((bind_of_eq_some hmark).trans (bind_of_eq_some hmore)))

theorem markedDigits_of_none {mark more : Scanner (List Char)} {cs : List Char}
    (h : ∀ text mid, mark cs = some (text, mid) → more mid = none) :
    markedDigits mark more cs = some ([], cs) := by
  refine orElse_eq_some.2 (.inr ⟨?_, rfl⟩)
  cases hmark : mark cs with
  | none => exact bind_of_eq_none hmark
  | some found => exact (bind_of_eq_some hmark).trans (bind_of_eq_none (h _ _ hmark))

theorem exists_markedDigits (mark more : Scanner (List Char)) (cs : List Char) :
    ∃ found, markedDigits mark more cs = some found := by
  rw [markedDigits, orElse_apply, pure_apply]
  cases (do return (← mark) ++ (← more) : Scanner (List Char)) cs with
  | none => exact ⟨_, rfl⟩
  | some found => exact ⟨found, rfl⟩

/-- A point. -/
def point : Scanner (List Char) := do
  char '.'
  return ['.']

/-- The mark of an exponent and its sign. -/
def exponentMark : Scanner (List Char) := do
  let mark ← satisfy fun c => c == 'e' || c == 'E'
  let sign ← (do return [← satisfy fun c => c == '+' || c == '-']) <|> pure []
  return mark :: sign

theorem fraction_eq (digits : Scanner (List Char)) :
    (fraction digits <|> pure []) = markedDigits point digits := by
  rw [markedDigits, point]
  simp only [bind_assoc, pure_bind]
  rfl

theorem exponent_eq :
    (exponent <|> pure []) = markedDigits exponentMark (takeWhile1 Char.isDigit) := by
  rw [markedDigits, exponentMark]
  simp only [bind_assoc, pure_bind]
  rfl

/-- There is a digit or a point in what is read. -/
theorem ne_nil_of_pointedDigits {cs text rest : List Char}
    (h : pointedDigits cs = some (text, rest)) : text ≠ [] := by
  rcases orElse_eq_some.1 h with h | ⟨-, h⟩
  · obtain ⟨whole, _, hwhole, h⟩ := bind_eq_some.1 h
    obtain ⟨part, _, -, h⟩ := bind_eq_some.1 h
    obtain ⟨rfl, -⟩ := pure_eq_some.1 h
    rw [takeWhile1_apply, Option.ite_none_left_eq_some] at hwhole
    obtain ⟨hne, heq⟩ := hwhole
    obtain ⟨rfl, -⟩ := Prod.mk.inj (Option.some.inj heq)
    exact List.append_ne_nil_of_left_ne_nil hne part
  · simp only [fraction, bind_eq_some, pure_eq_some] at h
    obtain ⟨_, _, -, digits, _, -, rfl, -⟩ := h
    exact List.cons_ne_nil _ digits

theorem require_pointedDigits {α : Type} (f : List Char → Scanner α) :
    (do let digits ← pointedDigits <|> pure []; require (!digits.isEmpty); f digits) =
      pointedDigits >>= f := by
  funext cs
  cases h : pointedDigits cs with
  | none => simp [bind_apply, orElse_apply, pure_apply, h, require]
  | some found =>
    simp [bind_apply, orElse_apply, pure_apply, h, require, ne_nil_of_pointedDigits h]

theorem echoes_markedDigits {mark more : Scanner (List Char)} (hmark : mark.Echoes)
    (hmore : more.Echoes) : (markedDigits mark more).Echoes := by
  intro cs text rest h
  rcases orElse_eq_some.1 h with h | ⟨-, h⟩
  · simp only [bind_eq_some, pure_eq_some] at h
    obtain ⟨front, mid, hfront, back, _, hback, rfl, rfl⟩ := h
    rw [hmark _ _ _ hfront, hmore _ _ _ hback, List.append_assoc]
  · obtain ⟨rfl, rfl⟩ := pure_eq_some.1 h
    rfl

theorem echoes_point : point.Echoes := by
  intro cs text rest h
  simp only [point, bind_eq_some, pure_eq_some] at h
  obtain ⟨_, _, hchar, rfl, rfl⟩ := h
  exact append_of_char hchar

theorem echoes_exponentMark : exponentMark.Echoes := by
  intro cs text rest h
  simp only [exponentMark, bind_eq_some, pure_eq_some, orElse_eq_some] at h
  obtain ⟨mark, r₁, h₁, sign, r₂, h₂, rfl, rfl⟩ := h
  rw [(append_of_satisfy h₁).1]
  rcases h₂ with ⟨c, _, h₂, rfl, rfl⟩ | ⟨-, rfl, rfl⟩
  · rw [(append_of_satisfy h₂).1]
    rfl
  · rfl

theorem colour_eq : colour = .leaf ((do char '#'; colourCode) <|> colourName) := rfl

end Pattern

namespace Cursor

variable {α : Type}

/-! ## Calls and variables -/

/-- A leaf that reads a name. -/
def named (b : Cursor (List Char)) : Cursor (Detail × Option Inside) :=
  leaf do return { name := some (String.ofList (← b)) }

/-- A run of word characters with something besides ASCII digits. -/
def propertyName : Cursor (List Char) := do
  let name ← takeWhile Text.isWord
  require (!name.all Char.isDigit)
  return name

/-- What names a call: whether it is a variable. -/
def callee : Cursor Bool := do
  if ← test (char '$') then
    let _ ← propertyName
    return true
  else
    let _ ← satisfy fun c => Text.isNameChar c || c == '/'
    let _ ← takeWhile Text.isNameChar
    return false

/-- `name:` or `$variable:`; the second part tells which. -/
def calledName : Cursor (List Char × Bool) := do
  let start ← offset
  let isMethod ← callee
  let name ← since start
  char ':'
  return (name, isMethod)

/-- The parenthesis that opens a call. -/
def macroFront : Cursor (Detail × Option Inside) :=
  named do
    char '('
    let (name, _) ← ahead calledName
    return name

/-- The name of a call. A variable in its place is lexed in its own right. -/
def macroName : Cursor (Detail × Option Inside) := do
  let (name, isMethod) ← calledName
  let lead ← slice 0 0
  return ({ name := some (String.ofList name), isMethod },
    if isMethod then some { lead, body := name } else none)

/-- A parenthesis that opens no call. -/
def groupingFront : Cursor (Detail × Option Inside) :=
  plain do
    char '('
    refuse calledName

/-- `?name` -/
def hookRef : Cursor (Detail × Option Inside) :=
  named do
    char '?'
    takeWhile1 Text.isNameChar

/-- `$name` -/
def storyVariable : Cursor (Detail × Option Inside) :=
  named do
    char '$'
    propertyName

/-- `_name` -/
def tempVariable : Cursor (Detail × Option Inside) :=
  named do
    char '_'
    propertyName

/-- Blanks between operands, if the offset shows that there are any. -/
def whitespace : Cursor (Detail × Option Inside) :=
  plain do
    let _ ← blanks
    require ((← offset) != 0)

theorem mirrors_named {b : Cursor (List Char)} {x : Scanner (List Char)} (h : Mirrors b x) :
    Mirrors (named b) (Pattern.named x).scan :=
  mirrors_leaf (h.bind fun _ => mirrors_pure _)

theorem mirrors_propertyName : Mirrors propertyName Pattern.propertyName :=
  (mirrors_takeWhile _).bind fun _ => (mirrors_require _).bind fun _ => mirrors_pure _

theorem mirrors_callee : Mirrors callee (Prod.snd <$> Pattern.callee) := by
  have hmap : Prod.snd <$> Pattern.callee = do
      if ← Scanner.test (Scanner.char '$') then
        let _ ← Pattern.propertyName
        return true
      else
        let _ ← Scanner.satisfy fun c => Text.isNameChar c || c == '/'
        let _ ← Scanner.takeWhile Text.isNameChar
        return false := by
    rw [Pattern.callee, map_bind]
    congr
    funext found
    cases found <;> simp
  rw [hmap]
  exact (mirrors_char _).ite (mirrors_propertyName.bind fun _ => mirrors_pure _)
    ((mirrors_satisfy _).bind fun _ => (mirrors_takeWhile _).bind fun _ => mirrors_pure _)

theorem mirrors_calledName : Mirrors calledName Pattern.calledName := by
  rw [Pattern.calledName_eq]
  intro before after
  refine .move offset_ok ((mirrors_callee before after).bindMap fun found used rest hused hread => ?_)
  obtain rfl : used = found.1 :=
    List.append_cancel_right (hused.symm.trans (Pattern.append_of_callee hread))
  refine .move (since_ok before found.1 rest rfl rfl rfl) ?_
  exact ((mirrors_char _).bind fun _ => mirrors_pure _) _ _

theorem mirrors_macroFront : Mirrors macroFront Pattern.macroFront.scan :=
  mirrors_named ((mirrors_char _).bind fun _ => mirrors_calledName.ahead.bind fun _ =>
    mirrors_pure _)

theorem mirrors_macroName : Mirrors macroName Pattern.macroName.scan := by
  refine mirrors_calledName.bind fun _ before after => ?_
  exact .move (slice_ok [] [] (before ++ after) rfl rfl rfl) tracks_pure

theorem mirrors_groupingFront : Mirrors groupingFront Pattern.groupingFront.scan :=
  mirrors_plain ((mirrors_char _).bind fun _ => mirrors_calledName.refuse)

theorem mirrors_hookRef : Mirrors hookRef Pattern.hookRef.scan :=
  mirrors_named ((mirrors_char _).bind fun _ => mirrors_takeWhile1 _)

theorem mirrors_storyVariable : Mirrors storyVariable Pattern.storyVariable.scan :=
  mirrors_named ((mirrors_char _).bind fun _ => mirrors_propertyName)

theorem mirrors_tempVariable : Mirrors tempVariable Pattern.tempVariable.scan :=
  mirrors_named ((mirrors_char _).bind fun _ => mirrors_propertyName)

theorem tracks_whitespace (source : List Char) :
    Tracks [] source 0 whitespace Pattern.whitespace.scan := by
  refine Tracks.plain (Tracks.congr (x := do
    let run ← Scanner.blanks
    Scanner.require (!run.isEmpty)) ?_ ?_)
  · refine (mirrors_blanks [] source).bindText (Scanner.echoes_takeWhile _)
      fun run rest _ => .move offset_ok ?_
    have hread : (Text.width ([] ++ run) != 0) = !run.isEmpty := by
      rw [List.nil_append, Bool.eq_iff_iff]
      simp [Text.width_eq_zero]
    rw [hread]
    exact mirrors_require _ _ _
  · refine (Scanner.map_apply _ _ _).trans ?_
    simp only [Scanner.blanks, Scanner.blanks1, Scanner.takeWhile1, Scanner.takeWhile,
      Scanner.bind_apply, Option.bind_some]
    cases (source.takeWhile Text.isBlank).isEmpty <;> rfl

/-! ## Properties -/

/-- `'s name` -/
def property : Cursor (Detail × Option Inside) :=
  named do
    literal "'s"
    let _ ← blanks1
    propertyName

/-- `'s ` before a computed name. -/
def possessiveOperator : Cursor (Detail × Option Inside) :=
  plain do
    literal "'s"
    let _ ← blanks1

/-- `its name` -/
def itsProperty : Cursor (Detail × Option Inside) :=
  named do
    literal "its"
    let _ ← blanks1
    propertyName

/-- `its ` before a computed name. -/
def itsOperator : Cursor (Detail × Option Inside) :=
  plain do
    literal "its"
    let _ ← blanks1

/-- `of it` -/
def ofIt : Cursor Unit := do
  keyword "of"
  let _ ← blanks1
  keyword "it"

/-- `name of it` -/
def belongingItProperty : Cursor (Detail × Option Inside) :=
  named do
    let name ← propertyName
    let _ ← blanks1
    ofIt
    return name

/-- `of it` after a computed name. -/
def belongingItOperator : Cursor (Detail × Option Inside) :=
  plain ofIt

/-- `name of` -/
def belongingProperty : Cursor (Detail × Option Inside) :=
  named do
    let name ← propertyName
    let _ ← blanks1
    keyword "of"
    return name

theorem mirrors_property : Mirrors property Pattern.property.scan :=
  mirrors_named ((mirrors_literal _).bind fun _ => mirrors_blanks1.bind fun _ =>
    mirrors_propertyName)

theorem mirrors_possessiveOperator : Mirrors possessiveOperator Pattern.possessiveOperator.scan :=
  mirrors_plain ((mirrors_literal _).bind fun _ => mirrors_blanks1.bind fun _ => mirrors_pure _)

theorem mirrors_itsProperty : Mirrors itsProperty Pattern.itsProperty.scan :=
  mirrors_named ((mirrors_literal _).bind fun _ => mirrors_blanks1.bind fun _ =>
    mirrors_propertyName)

theorem mirrors_itsOperator : Mirrors itsOperator Pattern.itsOperator.scan :=
  mirrors_plain ((mirrors_literal _).bind fun _ => mirrors_blanks1.bind fun _ => mirrors_pure _)

theorem mirrors_ofIt : Mirrors ofIt Pattern.ofIt :=
  (mirrors_keyword _).bind fun _ => mirrors_blanks1.bind fun _ => mirrors_keyword _

theorem mirrors_belongingItProperty :
    Mirrors belongingItProperty Pattern.belongingItProperty.scan :=
  mirrors_named (mirrors_propertyName.bind fun _ => mirrors_blanks1.bind fun _ =>
    mirrors_ofIt.bind fun _ => mirrors_pure _)

theorem mirrors_belongingItOperator :
    Mirrors belongingItOperator Pattern.belongingItOperator.scan :=
  mirrors_plain mirrors_ofIt

theorem mirrors_belongingProperty : Mirrors belongingProperty Pattern.belongingProperty.scan :=
  mirrors_named (mirrors_propertyName.bind fun _ => mirrors_blanks1.bind fun _ =>
    (mirrors_keyword _).bind fun _ => mirrors_pure _)

/-! ## Literals -/

/-- A string in single or double quotes. Its contents end one byte before it does. -/
def string : Cursor (Detail × Option Inside) :=
  plain do
    let quote ← satisfy fun c => c == '"' || c == '\''
    let start ← offset
    loop (quotedStep quote)
    let _ ← slice start (← minus (← offset) 1)

theorem mirrors_string : Mirrors string Pattern.string.scan := by
  refine mirrors_plain fun before after => ?_
  refine tracks_satisfy fun quote rest _ hquote => ?_
  have hslash : quote ≠ '\\' := by
    rintro rfl
    cases hquote
  have hwidth : Text.width [quote] = 1 := by
    simp only [Bool.or_eq_true, beq_iff_eq] at hquote
    rcases hquote with rfl | rfl <;> rfl
  refine .move offset_ok (Tracks.congr (x := Pattern.skipQuoted quote) ?_ (Scanner.map_apply _ _ _))
  rw [← bind_pure (Pattern.skipQuoted quote)]
  refine (mirrors_quoted hslash _ rest).bind fun _ read rest' hread hskip => ?_
  obtain ⟨⟨text, tail⟩, hsplit, heq⟩ := Option.map_eq_some_iff.1 hskip
  obtain rfl : tail = rest' := (Prod.mk.inj heq).2
  obtain rfl : read = text ++ [quote] := by
    refine List.append_cancel_right (hread.symm.trans ?_)
    rw [Lexer.append_of_splitString hsplit, List.append_assoc]
    rfl
  -- the closing quote is of one byte
  have hend : Text.width (before ++ [quote] ++ (text ++ [quote])) =
      Text.width (before ++ [quote] ++ text) + 1 := by
    rw [← List.append_assoc, Text.width_append, hwidth]
  refine .move offset_ok (.move (minus_ok (by omega) _) (.move (slice_ok (before ++ [quote]) text
    ([quote] ++ tail) ?_ rfl ?_) tracks_pure))
  · simp only [List.append_assoc]
  · rw [hend, Nat.add_sub_cancel]

/-- A mark and the digits after it. Where there are no digits, goes back to a place, if one is
given. -/
def digitsAfter (mark : Cursor Unit) (back : Option Nat) : Cursor Unit := do
  if ← test mark then
    let digits ← takeWhile Char.isDigit
    if digits.isEmpty then back.elim (pure ()) seek else pure ()
  else pure ()

/-- Digits with an optional point. A point alone is given back: the offset of the point is then
the offset of the start. -/
def decimal : Cursor (List Char) := do
  let start ← offset
  let _ ← takeWhile Char.isDigit
  let point ← offset
  digitsAfter (char '.') (if point = start then some start else none)
  since start

/-- A time in seconds or milliseconds; its value is in milliseconds. -/
def cssTime : Cursor (Detail × Option Inside) :=
  leaf do
    let digits ← decimal
    require (!digits.isEmpty)
    let start ← offset
    let milli ← test (satisfy fun c => c == 'm' || c == 'M')
    literal "s"
    boundary
    let _ ← since start
    let value := if milli then Pattern.numberOf digits else Pattern.numberOf digits * 1000
    return { value := some (.ofFloat value) }

/-- A colour after `#`, which takes one byte: six or three digits. -/
def colourCode : Cursor Detail := do
  let digits ← takeWhile Text.isHexDigit
  require (3 ≤ Text.width digits)
  let stop := Pattern.codeSize (Text.width digits) + 1
  let text ← slice 0 stop
  seek stop
  return { colour := some (String.ofList text) }

/-- A colour by its name. -/
def colourName : Cursor Detail := do
  let name ← takeWhile Text.isWord
  match Colour.codeOfName? (String.ofList name) with
  | none => failure
  | some code => return { colour := some code }

/-- A colour: `#` and six or three digits, or a name. -/
def colour : Cursor (Detail × Option Inside) :=
  leaf do if ← test (char '#') then colourCode else colourName

/-- The mark of an exponent and its sign. -/
def exponentMark : Cursor Unit := do
  let _ ← satisfy fun c => c == 'e' || c == 'E'
  let _ ← test (satisfy fun c => c == '+' || c == '-')

/-- Digits, a fraction and an exponent. What stands after the digits is given back if it has no
digits of its own. -/
def numeral : Cursor (List Char) := do
  let start ← offset
  let _ ← takeWhile1 Char.isDigit
  digitsAfter (char '.') (some (← offset))
  digitsAfter exponentMark (some (← offset))
  boundary
  since start

/-- A number, or the word `NaN`. -/
def number : Cursor (Detail × Option Inside) :=
  leaf ((do keyword "NaN"; return { value := some (.ofFloat (0 / 0)) }) <|>
    (do return { value := some (.ofFloat (Pattern.numberOf (← numeral))) }))

section Marks

variable {mark : Cursor Unit} {x : Scanner (List Char)} {before used tail : List Char}

/-- After a mark the digits are read, and if there are none, the place given is gone back to. -/
theorem digitsAfter_ok (back : Option Nat)
    (hrun : mark (before ++ (used ++ tail)) (Text.width before) =
      .ok (some ((), Text.width (before ++ used)))) :
    digitsAfter mark back (before ++ (used ++ tail)) (Text.width before) =
      .ok (some ((), if tail.takeWhile Char.isDigit = [] then back.getD (Text.width (before ++ used))
        else Text.width (before ++ (used ++ tail.takeWhile Char.isDigit)))) := by
  have hdigits := takeWhile_ok Char.isDigit (before ++ used) tail
  rw [List.append_assoc] at hdigits
  rw [digitsAfter, bind_of_ok (test_of_ok hrun), if_pos rfl, bind_of_ok hdigits]
  by_cases hempty : tail.takeWhile Char.isDigit = []
  · rw [if_pos hempty, hempty, List.append_nil]
    cases back <;> rfl
  · rw [if_neg hempty, if_neg (by simpa using hempty), List.append_assoc]
    rfl

theorem mark_cases (hmark : Mirrors mark ((fun _ => ()) <$> x)) (before after : List Char) :
    (x after = none ∧ mark (before ++ after) (Text.width before) = .ok none) ∨
    ∃ text used tail, after = used ++ tail ∧ x after = some (text, tail) ∧
      mark (before ++ after) (Text.width before) = .ok (some ((), Text.width (before ++ used))) := by
  rcases hmark before after with ⟨hnone, hrun⟩ | ⟨_, used, rest, hused, hsome, hrun⟩
  · rw [Scanner.map_apply, Option.map_eq_none_iff] at hnone
    exact .inl ⟨hnone, hrun⟩
  · rw [Scanner.map_apply, Option.map_eq_some_iff] at hsome
    obtain ⟨⟨text, tail⟩, hx, heq⟩ := hsome
    obtain rfl : tail = rest := (Prod.mk.inj heq).2
    exact .inr ⟨text, used, tail, hused, hx, hrun⟩

/-- A mark without digits after it is given back. -/
theorem tracks_digitsAfter (hmark : Mirrors mark ((fun _ => ()) <$> x)) (before after : List Char) :
    Tracks before after (Text.width before) (digitsAfter mark (some (Text.width before)))
      ((fun _ => ()) <$> Pattern.markedDigits x (Scanner.takeWhile1 Char.isDigit)) := by
  rcases mark_cases hmark before after with ⟨hx, hrun⟩ | ⟨text, used, tail, rfl, hx, hrun⟩
  · refine .move (test_of_none hrun) (tracks_pure.congr ?_)
    rw [Scanner.map_apply, Pattern.markedDigits_of_none fun _ _ h => by rw [hx] at h; cases h]
    rfl
  · have hdigits := digitsAfter_ok (some (Text.width before)) hrun
    by_cases hempty : tail.takeWhile Char.isDigit = []
    · have hmore : Scanner.takeWhile1 Char.isDigit tail = none := by
        rw [Scanner.takeWhile1_apply, if_pos hempty]
      refine .inr ⟨(), [], used ++ tail, rfl, ?_, ?_⟩
      · rw [Scanner.map_apply, Pattern.markedDigits_of_none fun _ _ h => by
          rw [hx] at h
          cases h
          exact hmore]
        rfl
      · rw [hdigits, if_pos hempty, List.append_nil]
        rfl
    · have hmore : Scanner.takeWhile1 Char.isDigit tail =
          some (tail.takeWhile Char.isDigit, tail.dropWhile Char.isDigit) := by
        rw [Scanner.takeWhile1_apply, if_neg hempty]
      refine .inr ⟨(), used ++ tail.takeWhile Char.isDigit, tail.dropWhile Char.isDigit, ?_, ?_, ?_⟩
      · rw [List.append_assoc, List.takeWhile_append_dropWhile]
      · rw [Scanner.map_apply, Pattern.markedDigits_of_some hx hmore]
        rfl
      · rw [hdigits, if_neg hempty]

/-- A mark without digits after it may stand. -/
theorem mirrors_digitsAfter (hmark : Mirrors mark ((fun _ => ()) <$> x)) :
    Mirrors (digitsAfter mark none)
      ((fun _ => ()) <$> Pattern.markedDigits x (Scanner.takeWhile Char.isDigit)) := by
  intro before after
  rcases mark_cases hmark before after with ⟨hx, hrun⟩ | ⟨text, used, tail, rfl, hx, hrun⟩
  · refine .move (test_of_none hrun) (tracks_pure.congr ?_)
    rw [Scanner.map_apply, Pattern.markedDigits_of_none fun _ _ h => by rw [hx] at h; cases h]
    rfl
  · have hdigits := digitsAfter_ok none hrun
    refine .inr ⟨(), used ++ tail.takeWhile Char.isDigit, tail.dropWhile Char.isDigit, ?_, ?_, ?_⟩
    · rw [List.append_assoc, List.takeWhile_append_dropWhile]
    · have hmore : Scanner.takeWhile Char.isDigit tail = some (_, _) := rfl
      rw [Scanner.map_apply, Pattern.markedDigits_of_some hx hmore]
      rfl
    · rw [hdigits]
      split
      · rename_i hempty
        rw [hempty, List.append_nil]
        rfl
      · rfl

end Marks

theorem mirrors_point : Mirrors (char '.') ((fun _ => ()) <$> Pattern.point) := by
  have hmap : (fun _ => ()) <$> Pattern.point = Scanner.char '.' := by
    rw [Pattern.point, map_bind]
    simp only [map_pure]
    exact bind_pure _
  rw [hmap]
  exact mirrors_char '.'

theorem mirrors_exponentMark : Mirrors exponentMark ((fun _ => ()) <$> Pattern.exponentMark) := by
  have hmap : (fun _ => ()) <$> Pattern.exponentMark = (do
      let _ ← Scanner.satisfy fun c => c == 'e' || c == 'E'
      let _ ← Scanner.test (Scanner.satisfy fun c => c == '+' || c == '-')) := by
    rw [Pattern.exponentMark, map_bind]
    congr
    funext _ cs
    cases hsign : Scanner.satisfy (fun c => c == '+' || c == '-') cs <;>
      simp [Scanner.test, Scanner.orElse_apply, Scanner.bind_apply, Scanner.map_apply,
        Scanner.pure_apply, hsign]
  rw [hmap]
  exact (mirrors_satisfy _).bind fun _ => (mirrors_satisfy _).test.bind fun _ => mirrors_pure _

/-- Digits alone, digits and a point with or without digits, or a point with digits. -/
theorem mirrors_decimal : Mirrors decimal (Pattern.pointedDigits <|> pure []) := by
  intro before after
  refine .move offset_ok (.move (takeWhile_ok _ before after) (.move offset_ok ?_))
  have hdigits := Scanner.takeWhile1_apply Char.isDigit after
  by_cases hwhole : after.takeWhile Char.isDigit = []
  · rw [if_pos hwhole] at hdigits
    rw [hwhole, List.append_nil, if_pos rfl]
    refine Tracks.congr ((tracks_digitsAfter mirrors_point before after).since
      (Pattern.echoes_markedDigits Pattern.echoes_point (Scanner.echoes_takeWhile1 _))) ?_
    rw [← Pattern.fraction_eq, Pattern.pointedDigits]
    simp only [Scanner.orElse_apply, Scanner.bind_of_eq_none hdigits, Option.none_or]
  · rw [if_neg hwhole] at hdigits
    have hafter : after = after.takeWhile Char.isDigit ++ after.dropWhile Char.isDigit :=
      List.takeWhile_append_dropWhile.symm
    generalize after.takeWhile Char.isDigit = whole at *
    generalize after.dropWhile Char.isDigit = rest at *
    subst hafter
    -- with a digit before it the point may end the text
    have hmoved : ¬ Text.width (before ++ whole) = Text.width before := by
      have := mt Text.width_eq_zero.1 hwhole
      rw [Text.width_append]
      omega
    rw [if_neg hmoved]
    refine Tracks.shift (y := do
      let part ← Pattern.markedDigits Pattern.point (Scanner.takeWhile Char.isDigit)
      return whole ++ part) ?_ ?_
    · refine (mirrors_digitsAfter mirrors_point _ rest).bindEcho
        (Pattern.echoes_markedDigits Pattern.echoes_point (Scanner.echoes_takeWhile _))
        fun part rest' _ => ?_
      refine tracks_value (since_ok before (whole ++ part) rest' ?_ rfl ?_) <;>
        simp only [List.append_assoc]
    · obtain ⟨found, hpart⟩ := Pattern.exists_markedDigits Pattern.point
        (Scanner.takeWhile Char.isDigit) rest
      rw [Pattern.pointedDigits, Pattern.fraction_eq]
      simp only [Scanner.orElse_apply, Scanner.bind_of_eq_some hdigits, Scanner.bind_of_eq_some hpart,
        Scanner.pure_apply, Option.some_or]

theorem mirrors_cssTime : Mirrors cssTime Pattern.cssTime.scan := by
  have hmilli : Scanner.test (Scanner.satisfy fun c => c == 'm' || c == 'M') =
      ((do discard (Scanner.satisfy fun c => c == 'm' || c == 'M'); return true) <|>
        pure false) := by
    rw [Scanner.test, discard, map_const, Function.comp_apply, bind_map_left]
  refine mirrors_leaf ?_
  rw [← Pattern.require_pointedDigits, ← hmilli]
  refine mirrors_decimal.bind fun digits => (mirrors_require _).bind fun _ before after =>
    .move offset_ok ?_
  refine ((mirrors_satisfy _).test before after).bind fun milli letter r₁ _ _ => ?_
  refine (mirrors_literal "s" _ r₁).bind fun _ unit r₂ _ _ => ?_
  refine .boundary (.move (since_ok before (letter ++ unit) r₂ ?_ rfl ?_) tracks_pure) <;>
    simp only [List.append_assoc]

/-- Each part of a numeral starts where the one before it ends. -/
theorem mirrors_numeral : Mirrors numeral (do
    let whole ← Scanner.takeWhile1 Char.isDigit
    let part ← Pattern.fraction (Scanner.takeWhile1 Char.isDigit) <|> pure []
    let power ← Pattern.exponent <|> pure []
    Scanner.boundary
    return whole ++ part ++ power) := by
  rw [Pattern.fraction_eq, Pattern.exponent_eq]
  intro before after
  have hdigits := Scanner.echoes_takeWhile1 Char.isDigit
  refine .move offset_ok ?_
  refine (mirrors_takeWhile1 _ before after).bindText hdigits fun whole r₁ _ => .move offset_ok ?_
  refine (tracks_digitsAfter mirrors_point _ r₁).bindEcho
    (Pattern.echoes_markedDigits Pattern.echoes_point hdigits) fun part r₂ _ => .move offset_ok ?_
  refine (tracks_digitsAfter mirrors_exponentMark _ r₂).bindEcho
    (Pattern.echoes_markedDigits Pattern.echoes_exponentMark hdigits) fun power r₃ _ => ?_
  refine .boundary (tracks_value (since_ok before (whole ++ part ++ power) r₃ ?_ rfl ?_)) <;>
    simp only [List.append_assoc]

theorem mirrors_number : Mirrors number Pattern.number.scan := by
  have hnumeral := mirrors_numeral.bind fun digits =>
    mirrors_pure ({ value := some (.ofFloat (Pattern.numberOf digits)) } : Detail)
  simp only [bind_assoc, pure_bind] at hnumeral
  exact mirrors_leaf (((mirrors_keyword _).bind fun _ => mirrors_pure _).orElse hnumeral)

theorem tracks_colourCode (rest : List Char) :
    Tracks ['#'] rest (Text.width ['#']) colourCode Pattern.colourCode := by
  have hnarrow : ∀ c ∈ rest.takeWhile Text.isHexDigit, c.utf8Size = 1 :=
    fun c hc => Text.utf8Size_of_isHexDigit (List.mem_takeWhile_imp hc)
  have hrest : rest = rest.takeWhile Text.isHexDigit ++ rest.dropWhile Text.isHexDigit :=
    List.takeWhile_append_dropWhile.symm
  refine .move (takeWhile_ok _ ['#'] rest)
    (Tracks.congr (x := Pattern.colourOf (rest.takeWhile Text.isHexDigit)) ?_ rfl)
  generalize rest.takeWhile Text.isHexDigit = digits at *
  rw [Text.width_eq_length hnarrow]
  refine .require fun hthree => ?_
  -- the digits of the code are as wide as they are many
  have hle := Pattern.codeSize_le (of_decide_eq_true hthree)
  generalize Pattern.codeSize digits.length = size at *
  have hcode : (digits.take size).length = size := by rw [List.length_take, Nat.min_eq_left hle]
  have hwidth : Text.width ('#' :: digits.take size) = size + 1 := by
    rw [Text.width_cons, Text.width_eq_length fun c hc => hnarrow c (List.mem_of_mem_take hc), hcode,
      Nat.add_comm]
    rfl
  have hsplit : rest = digits.take size ++ (digits.drop size ++ rest.dropWhile Text.isHexDigit) := by
    rw [← List.append_assoc, List.take_append_drop, ← hrest]
  refine .move (slice_ok [] ('#' :: digits.take size) _ (congrArg _ hsplit) rfl hwidth.symm) ?_
  have hseek : Tracks ['#'] rest (Text.width (['#'] ++ digits)) (seek (size + 1))
      (Scanner.skip (digits.take size).length) := tracks_seek hsplit hwidth.symm
  rw [hcode] at hseek
  exact hseek.bind fun _ _ _ _ _ => tracks_pure

theorem mirrors_colourName : Mirrors colourName Pattern.colourName := by
  refine (mirrors_takeWhile _).bind fun name => ?_
  cases Colour.codeOfName? (String.ofList name) with
  | none => exact mirrors_failure
  | some code => exact mirrors_pure _

theorem tracks_colour (source : List Char) : Tracks [] source 0 colour Pattern.colour.scan := by
  rw [Pattern.colour_eq]
  refine Tracks.leaf ?_
  rcases mirrors_char '#' [] source with ⟨hchar, hrun⟩ | ⟨_, used, rest, rfl, hchar, hrun⟩
  · refine .move (test_of_none hrun) ((mirrors_colourName [] source).congr ?_)
    rw [Scanner.orElse_apply, Scanner.bind_of_eq_none hchar, Option.none_or]
  · obtain rfl : used = ['#'] := List.append_cancel_right (Scanner.append_of_char hchar)
    refine .move (test_of_ok hrun) ((tracks_colourCode rest).shift ?_)
    -- what starts with `#` is no name
    have hname : Pattern.colourName (['#'] ++ rest) = none := rfl
    rw [Scanner.orElse_apply, Scanner.bind_of_eq_some hchar, hname, Option.or_none]

/-- `it` or `time` -/
def identifier : Cursor (Detail × Option Inside) :=
  leaf ((do keyword "it"; return { name := some "it" }) <|>
    (do keyword "time"; return { name := some "time" }))

/-- `true` or `false` -/
def boolean : Cursor (Detail × Option Inside) :=
  plain (keyword "true" <|> keyword "false")

theorem mirrors_identifier : Mirrors identifier Pattern.identifier.scan :=
  mirrors_leaf (((mirrors_keyword _).bind fun _ => mirrors_pure _).orElse
    ((mirrors_keyword _).bind fun _ => mirrors_pure _))

theorem mirrors_boolean : Mirrors boolean Pattern.boolean.scan :=
  mirrors_plain ((mirrors_keyword _).orElse (mirrors_keyword _))

/-! ## Operators -/

/-- A pattern that is one word. -/
def word (text : String) : Cursor (Detail × Option Inside) :=
  plain (keyword text)

/-- One of the given signs, not followed by an equals sign; the sign is cut out of the match. -/
def sign (signs : List Char) : Cursor (Detail × Option Inside) :=
  leaf do
    let c ← satisfy signs.contains
    require ((← peek) != some '=')
    let text ← since 0
    return { operator := BinaryOp.ofSign? (← cut text 0 c.utf8Size) }

/-- `<`, `<=`, `>` or `>=` -/
def inequality : Cursor (Detail × Option Inside) :=
  leaf do
    let _ ← satisfy fun c => c == '<' || c == '>'
    let _ ← test (char '=')
    return { operator := BinaryOp.ofSign? (← since 0) }

/-- A sign and an equals sign, as in `+=`. -/
def augmentedAssign : Cursor (Detail × Option Inside) :=
  leaf do
    let c ← satisfy ['+', '-', '*', '/', '%'].contains
    char '='
    let text ← since 0
    return { operator := BinaryOp.ofSign? (← cut text 0 c.utf8Size) }

/-- `is`, unless it goes on as `is not` or `is in`. -/
def is : Cursor (Detail × Option Inside) :=
  plain do
    keyword "is"
    refuse (do let _ ← blanks1; keyword "not" <|> keyword "in")

/-- `is not` -/
def isNot : Cursor (Detail × Option Inside) :=
  plain do
    keyword "is"
    let _ ← blanks1
    keyword "not"

/-- `is in` or `is not in` -/
def isIn : Cursor (Detail × Option Inside) :=
  leaf do
    keyword "is"
    let _ ← blanks1
    let negate ← test (do keyword "not"; blanks1)
    keyword "in"
    return { negate }

/-- `contains` or `does not contain` -/
def contains : Cursor (Detail × Option Inside) :=
  leaf ((do keyword "contains"; return {}) <|>
  (do
    keyword "does"
    let _ ← blanks1
    keyword "not"
    let _ ← blanks1
    keyword "contain"
    return { negate := true }))

/-- `to` or an equals sign. -/
def toWord : Cursor (Detail × Option Inside) :=
  plain (keyword "to" <|> literal "=")

/-- Three points, and no fourth after their three bytes. -/
def spread : Cursor (Detail × Option Inside) :=
  plain do
    literal "..."
    let source ← whole
    let after ← slice 3 (Text.width source)
    require (after.head? != some '.')

theorem mirrors_word (text : String) : Mirrors (word text) (Pattern.word text).scan :=
  mirrors_plain (mirrors_keyword text)

theorem tracks_sign (signs : List Char) (source : List Char) :
    Tracks [] source 0 (sign signs) (Pattern.sign signs).scan := by
  refine Tracks.leaf (tracks_satisfy fun c rest _ _ => ?_)
  refine .move peek_ok (Tracks.congr (.require fun _ => ?_)
    (Scanner.bind_congr (Scanner.notAhead_char '=' rest)))
  refine .move (since_ok [] [c] rest rfl rfl rfl) ?_
  exact .move (cut_ok [] [c] [] rfl rfl rfl) tracks_pure

theorem tracks_inequality (source : List Char) :
    Tracks [] source 0 inequality Pattern.inequality.scan := by
  refine Tracks.leaf (tracks_satisfy fun c rest _ _ => ?_)
  rcases mirrors_char '=' [c] rest with ⟨hchar, hrun⟩ | ⟨_, used, rest', rfl, hchar, hrun⟩
  · refine .move (test_of_none hrun) (.move (since_ok [] [c] rest rfl rfl rfl) ?_)
    refine Tracks.congr (x := pure { operator := BinaryOp.ofSign? [c] }) tracks_pure ?_
    simp [Scanner.bind_apply, Scanner.orElse_apply, Scanner.map_apply, hchar, Scanner.pure_apply]
  · obtain rfl : used = ['='] := List.append_cancel_right (Scanner.append_of_char hchar)
    refine .move (test_of_ok hrun) (.move (since_ok [] [c, '='] rest' rfl rfl rfl) ?_)
    exact Tracks.shift (y := pure { operator := BinaryOp.ofSign? [c, '='] }) tracks_pure rfl

theorem tracks_augmentedAssign (source : List Char) :
    Tracks [] source 0 augmentedAssign Pattern.augmentedAssign.scan := by
  refine Tracks.leaf (tracks_satisfy fun c rest _ _ => ?_)
  refine (mirrors_char '=' _ rest).bind fun _ equals rest' _ _ => ?_
  refine .move (since_ok [] ([c] ++ equals) rest' rfl rfl rfl) ?_
  exact .move (cut_ok [] [c] equals rfl rfl rfl) tracks_pure

theorem mirrors_isIn : Mirrors isIn Pattern.isIn.scan := by
  have hnegate : Scanner.test (do Scanner.keyword "not"; Scanner.blanks1) =
      ((do Scanner.keyword "not"; let _ ← Scanner.blanks1; return true) <|> pure false) := by
    rw [Scanner.test, bind_assoc]
  refine mirrors_leaf ((mirrors_keyword _).bind fun _ => mirrors_blanks1.bind fun _ => ?_)
  rw [← hnegate]
  exact (Mirrors.test ((mirrors_keyword _).bind fun _ => mirrors_blanks1)).bind fun _ =>
    (mirrors_keyword _).bind fun _ => mirrors_pure _

theorem tracks_spread (source : List Char) : Tracks [] source 0 spread Pattern.spread.scan := by
  refine Tracks.plain (tracks_literal (by decide) fun rest _ => .move rfl ?_)
  refine .move (slice_ok "...".toList rest [] (List.append_nil _).symm rfl rfl) ?_
  exact (mirrors_require _ _ rest).congr (Scanner.notAhead_char '.' rest)

theorem mirrors_is : Mirrors is Pattern.is.scan :=
  mirrors_plain ((mirrors_keyword _).bind fun _ => Mirrors.refuse (mirrors_blanks1.bind fun _ =>
    (mirrors_keyword _).orElse (mirrors_keyword _)))

theorem mirrors_isNot : Mirrors isNot Pattern.isNot.scan :=
  mirrors_plain ((mirrors_keyword _).bind fun _ => mirrors_blanks1.bind fun _ => mirrors_keyword _)

theorem mirrors_contains : Mirrors contains Pattern.contains.scan :=
  mirrors_leaf (((mirrors_keyword _).bind fun _ => mirrors_pure _).orElse
    ((mirrors_keyword _).bind fun _ => mirrors_blanks1.bind fun _ =>
      (mirrors_keyword _).bind fun _ => mirrors_blanks1.bind fun _ =>
      (mirrors_keyword _).bind fun _ => mirrors_pure _))

theorem mirrors_toWord : Mirrors toWord Pattern.toWord.scan :=
  mirrors_plain ((mirrors_keyword _).orElse (mirrors_literal _))

end Cursor

end StoryScript
