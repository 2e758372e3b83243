/-
  Patterns of expressions: names, literals, properties and operators.
-/
import StoryScript.Colour
import StoryScript.Decimal.Reader
import StoryScript.Token.Scanner

namespace StoryScript.Pattern

open Scanner

/-- A run of word characters with something besides ASCII digits. -/
def propertyName : Scanner (List Char) := do
  let name ← takeWhile Text.isWord
  require (!name.all Char.isDigit)
  return name

theorem length_of_propertyName {cs name rest : List Char}
    (h : propertyName cs = some (name, rest)) : name.length + rest.length = cs.length := by
  simp only [propertyName, bind_eq_some, require_eq_some, pure_eq_some] at h
  obtain ⟨n, mid, h, _, _, ⟨-, rfl⟩, rfl, rfl⟩ := h
  exact length_of_takeWhile h

/-- A leaf that reads a name. -/
def named (scan : Scanner (List Char)) : Pattern :=
  .leaf do return { name := some (String.ofList (← scan)) }

/-! ## Calls and variables -/

/-- `name:` or `$variable:`; the second part tells which. -/
def calledName : Scanner (List Char × Bool) :=
  (do
    char '$'
    let name ← propertyName
    char ':'
    return ('$' :: name, true)) <|>
  (do
    let first ← satisfy fun c => Text.isNameChar c || c == '/'
    let others ← takeWhile Text.isNameChar
    char ':'
    return (first :: others, false))

/-- The parenthesis that opens a call. -/
def macroFront : Pattern :=
  named do
    char '('
    let (name, _) ← ahead calledName
    return name

/-- The name of a call. A variable in its place is lexed in its own right. -/
def macroName : Pattern :=
  .nest do
    let (name, isMethod) ← calledName
    return ({ name := some (String.ofList name), isMethod },
      if isMethod then some { lead := [], body := name } else none)

/-- A called name is followed by a colon, so it is shorter than what was read. -/
theorem length_of_calledName {cs name rest : List Char} {isMethod : Bool}
    (h : calledName cs = some ((name, isMethod), rest)) :
    name.length + rest.length < cs.length := by
  rcases orElse_eq_some.1 h with h | ⟨-, h⟩
  · simp only [bind_eq_some, pure_eq_some, Prod.mk.injEq] at h
    obtain ⟨_, r₁, h₁, n, r₂, h₂, _, r₃, h₃, ⟨rfl, -⟩, rfl⟩ := h
    have a₁ := length_of_char h₁
    have a₂ := length_of_propertyName h₂
    have a₃ := length_of_char h₃
    simp only [List.length_cons]
    omega
  · simp only [bind_eq_some, pure_eq_some, Prod.mk.injEq] at h
    obtain ⟨c, r₁, h₁, cs', r₂, h₂, _, r₃, h₃, ⟨rfl, -⟩, rfl⟩ := h
    have a₁ := length_of_satisfy h₁
    have a₂ := length_of_takeWhile h₂
    have a₃ := length_of_char h₃
    simp only [List.length_cons]
    omega

theorem shrinks_macroName : macroName.Shrinks := by
  intro source detail inside rest h
  simp only [macroName, scan, bind_eq_some, pure_eq_some, Prod.mk.injEq] at h
  obtain ⟨⟨name, isMethod⟩, r, h₁, ⟨-, hi⟩, rfl⟩ := h
  have a := length_of_calledName h₁
  split at hi
  · simp only [Option.some.injEq] at hi
    subst hi
    exact a
  · simp at hi

/-- A parenthesis that opens no call. -/
def groupingFront : Pattern :=
  .plain do
    char '('
    notAhead calledName

/-- `?name` -/
def hookRef : Pattern :=
  named do
    char '?'
    takeWhile1 Text.isNameChar

/-- `$name` -/
def storyVariable : Pattern :=
  named do
    char '$'
    propertyName

/-- `_name` -/
def tempVariable : Pattern :=
  named do
    char '_'
    propertyName

/-- Blanks between operands. -/
def whitespace : Pattern :=
  .plain (discard blanks1)

/-! ## Properties -/

/-- `'s name` -/
def property : Pattern :=
  named do
    literal "'s"
    let _ ← blanks1
    propertyName

/-- `'s ` before a computed name. -/
def possessiveOperator : Pattern :=
  .plain do
    literal "'s"
    let _ ← blanks1

/-- `its name` -/
def itsProperty : Pattern :=
  named do
    literal "its"
    let _ ← blanks1
    propertyName

/-- `its ` before a computed name. -/
def itsOperator : Pattern :=
  .plain do
    literal "its"
    let _ ← blanks1

/-- `of it` -/
def ofIt : Scanner Unit := do
  keyword "of"
  let _ ← blanks1
  keyword "it"

/-- `name of it` -/
def belongingItProperty : Pattern :=
  named do
    let name ← propertyName
    let _ ← blanks1
    ofIt
    return name

/-- `of it` after a computed name. -/
def belongingItOperator : Pattern :=
  .plain ofIt

/-- `name of` -/
def belongingProperty : Pattern :=
  named do
    let name ← propertyName
    let _ ← blanks1
    keyword "of"
    return name

/-! ## Literals -/

/-- Text up to the closing `quote`, and what follows it. A backslash hides the next character. -/
def splitString (quote : Char) : List Char → Option (List Char × List Char)
  | [] => none
  | '\\' :: c :: cs => (splitString quote cs).map fun (text, rest) => ('\\' :: c :: text, rest)
  | c :: cs =>
    if c = quote then some ([], cs)
    else (splitString quote cs).map fun (text, rest) => (c :: text, rest)

/-- A string in single or double quotes. -/
def string : Pattern :=
  .plain do
    let quote ← satisfy fun c => c == '"' || c == '\''
    discard (ofSplit (splitString quote))

/-- A point and the digits after it. -/
def fraction (digits : Scanner (List Char)) : Scanner (List Char) := do
  char '.'
  return '.' :: (← digits)

/-- Digits with an optional point; there is a digit on one side of it. -/
def pointedDigits : Scanner (List Char) :=
  (do
    let whole ← takeWhile1 Char.isDigit
    let part ← fraction (takeWhile Char.isDigit) <|> pure []
    return whole ++ part) <|>
  fraction (takeWhile1 Char.isDigit)

/-- The number that a text of digits denotes. -/
def numberOf (text : List Char) : Float :=
  (Decimal.read? text).getD (0 / 0)

/-- A time in seconds or milliseconds; its value is in milliseconds. -/
def cssTime : Pattern :=
  .leaf do
    let digits ← pointedDigits
    let milli ← (do discard (satisfy fun c => c == 'm' || c == 'M'); return true) <|> pure false
    literal "s"
    boundary
    let value := if milli then numberOf digits else numberOf digits * 1000
    return { value := some (.ofFloat value) }

/-- A colour: `#` and six or three digits, or a name. -/
def colour : Pattern :=
  .leaf ((do
    char '#'
    let digits := (← rest).takeWhile Text.isHexDigit
    require (3 ≤ digits.length)
    let count := if 6 ≤ digits.length then 6 else 3
    skip count
    return { colour := some (String.ofList ('#' :: digits.take count)) }) <|>
  (do
    let name ← takeWhile Text.isWord
    match Colour.codeOfName? (String.ofList name) with
    | none => failure
    | some code => return { colour := some code }))

/-- The mark of an exponent, its sign and its digits. -/
def exponent : Scanner (List Char) := do
  let mark ← satisfy fun c => c == 'e' || c == 'E'
  let sign ← (do return [← satisfy fun c => c == '+' || c == '-']) <|> pure []
  let digits ← takeWhile1 Char.isDigit
  return mark :: sign ++ digits

/-- A number, or the word `NaN`. -/
def number : Pattern :=
  .leaf ((do
    keyword "NaN"
    return { value := some (.ofFloat (0 / 0)) }) <|>
  (do
    let whole ← takeWhile1 Char.isDigit
    let part ← fraction (takeWhile1 Char.isDigit) <|> pure []
    let power ← exponent <|> pure []
    boundary
    return { value := some (.ofFloat (numberOf (whole ++ part ++ power))) }))

/-- `it` or `time` -/
def identifier : Pattern :=
  .leaf ((do keyword "it"; return { name := some "it" }) <|>
    (do keyword "time"; return { name := some "time" }))

/-- `true` or `false` -/
def boolean : Pattern :=
  .plain (keyword "true" <|> keyword "false")

/-! ## Operators -/

/-- A pattern that is one word. -/
def word (text : String) : Pattern :=
  .plain (keyword text)

/-- One of the given signs, not followed by an equals sign. -/
def sign (signs : List Char) : Pattern :=
  .leaf do
    let c ← satisfy signs.contains
    notAhead (char '=')
    return { operator := BinaryOp.ofSign? [c] }

/-- `<`, `<=`, `>` or `>=` -/
def inequality : Pattern :=
  .leaf do
    let c ← satisfy fun c => c == '<' || c == '>'
    let equals ← (do char '='; return ['=']) <|> pure []
    return { operator := BinaryOp.ofSign? (c :: equals) }

/-- A sign and an equals sign, as in `+=`. -/
def augmentedAssign : Pattern :=
  .leaf do
    let c ← satisfy ['+', '-', '*', '/', '%'].contains
    char '='
    return { operator := BinaryOp.ofSign? [c] }

/-- `is`, unless it goes on as `is not` or `is in`. -/
def is : Pattern :=
  .plain do
    keyword "is"
    notAhead (do let _ ← blanks1; keyword "not" <|> keyword "in")

/-- `is not` -/
def isNot : Pattern :=
  .plain do
    keyword "is"
    let _ ← blanks1
    keyword "not"

/-- `is in` or `is not in` -/
def isIn : Pattern :=
  .leaf do
    keyword "is"
    let _ ← blanks1
    let negate ← (do keyword "not"; let _ ← blanks1; return true) <|> pure false
    keyword "in"
    return { negate }

/-- `contains` or `does not contain` -/
def contains : Pattern :=
  .leaf ((do keyword "contains"; return {}) <|>
  (do
    keyword "does"
    let _ ← blanks1
    keyword "not"
    let _ ← blanks1
    keyword "contain"
    return { negate := true }))

/-- `to` or an equals sign. -/
def toWord : Pattern :=
  .plain (keyword "to" <|> literal "=")

/-- Three points, and no fourth. -/
def spread : Pattern :=
  .plain do
    literal "..."
    notAhead (char '.')

end StoryScript.Pattern
