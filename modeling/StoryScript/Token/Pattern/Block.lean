/-
  Patterns of block markup: each takes a whole line.

  Lists, headings, alignment and rules stand at the start of a line and reach to its
  end. A line break that is escaped does not end the line.
-/
import StoryScript.Decimal.Exact
import StoryScript.Token.Scanner

namespace StoryScript.Pattern

open Scanner

/-- The rest of a line and what follows it. A backslash next to a line break joins the lines. -/
def splitLine : List Char → List Char × List Char
  | '\\' :: '\n' :: '\\' :: cs => let (line, rest) := splitLine cs; ('\\' :: '\n' :: '\\' :: line, rest)
  | '\\' :: '\n' :: cs => let (line, rest) := splitLine cs; ('\\' :: '\n' :: line, rest)
  | '\n' :: '\\' :: cs => let (line, rest) := splitLine cs; ('\n' :: '\\' :: line, rest)
  | [] => ([], [])
  | c :: cs =>
    if c = '\n' then ([], c :: cs)
    else let (line, rest) := splitLine cs; (c :: line, rest)

theorem splitLine_append (cs : List Char) : (splitLine cs).1 ++ (splitLine cs).2 = cs := by
  fun_induction splitLine cs <;> simp_all

/-- Repeated `0.` marks and what follows them. -/
def splitZeroDots : List Char → List Char × List Char
  | '0' :: '.' :: cs => let (marks, rest) := splitZeroDots cs; ('0' :: '.' :: marks, rest)
  | cs => ([], cs)

theorem splitZeroDots_append (cs : List Char) :
    (splitZeroDots cs).1 ++ (splitZeroDots cs).2 = cs := by
  fun_induction splitZeroDots cs <;> simp_all

/-- At most `count` characters that satisfy `p`, and what follows them. -/
def splitAtMost (p : Char → Bool) (count : Nat) (cs : List Char) : List Char × List Char :=
  let run := (cs.take count).takeWhile p
  (run, cs.drop run.length)

theorem splitAtMost_append (p : Char → Bool) (count : Nat) (cs : List Char) :
    (splitAtMost p count cs).1 ++ (splitAtMost p count cs).2 = cs :=
  List.prefix_iff_eq_append.1
    ((List.takeWhile_prefix p).trans (List.take_prefix count cs))

/-- A line with marks in front of its text. -/
def markedLine (marks : List Char → List Char × List Char) (gap : Scanner (List Char))
    (depth : List Char → Nat) : Scanner (Detail × Option Inside) := do
  let indent ← blanks
  let mark ← ofSplit (some ∘ marks)
  require (!mark.isEmpty)
  let space ← gap
  let body ← ofSplit (some ∘ splitLine)
  require (!body.isEmpty)
  endOfLine
  return ({ depth := depth mark }, some { lead := indent ++ mark ++ space, body })

/-- The text of a marked line is shorter than the line, because a mark stands before it. -/
theorem shrinks_markedLine {marks : List Char → List Char × List Char}
    {gap : Scanner (List Char)} {depth : List Char → Nat}
    (hmarks : ∀ cs, (marks cs).1 ++ (marks cs).2 = cs) (hgap : Advances gap) :
    (Pattern.nest (markedLine marks gap depth)).Shrinks := by
  intro source detail inside rest h
  simp only [scan, markedLine, bind_eq_some, require_eq_some, pure_eq_some, ofSplit,
    Function.comp_apply, Option.some.injEq, Prod.mk.injEq] at h
  obtain ⟨indent, r₁, h₁, mark, r₂, h₂, _, _, ⟨hne, rfl⟩, space, r₃, h₃, body, r₄, h₄, _, _,
    ⟨-, rfl⟩, _, r₅, h₅, ⟨-, rfl⟩, rfl⟩ := h
  have a₁ := advances_takeWhile _ _ _ _ h₁
  have a₂ := congrArg List.length (hmarks r₁)
  have a₃ := hgap _ _ _ h₃
  have a₄ := congrArg List.length (splitLine_append r₃)
  have a₅ := advances_endOfLine _ _ _ h₅
  rw [h₂] at a₂
  rw [h₄] at a₄
  simp only [List.length_append] at a₂ a₄
  have a₆ : 0 < mark.length := by
    cases mark with
    | nil => simp at hne
    | cons => simp
  show body.length + r₅.length < source.length
  omega

/-- Three hyphens or more. -/
def horizontalRule : Pattern :=
  .plain do
    let _ ← blanks
    let dashes ← takeWhile (· == '-')
    require (3 ≤ dashes.length)
    let _ ← blanks
    endOfLine

/-- `* item`, one star a level. -/
def bulleted : Pattern :=
  .nest (markedLine (fun cs => (cs.takeWhile (· == '*'), cs.dropWhile (· == '*'))) blanks1
    List.length)

/-- `0. item`, one `0.` a level. -/
def numbered : Pattern :=
  .nest (markedLine splitZeroDots blanks1 (·.length / 2))

/-- `# title`, one to six hashes. -/
def heading : Pattern :=
  .nest (markedLine (splitAtMost (· == '#') 6) blanks List.length)

theorem shrinks_bulleted : bulleted.Shrinks :=
  shrinks_markedLine (fun _ => List.takeWhile_append_dropWhile) (advances_takeWhile1 _)

theorem shrinks_numbered : numbered.Shrinks :=
  shrinks_markedLine splitZeroDots_append (advances_takeWhile1 _)

theorem shrinks_heading : heading.Shrinks :=
  shrinks_markedLine (splitAtMost_append _ _) (advances_takeWhile _)

/-- The alignment that an arrow with `left` and `right` signs around its middle asks for: the
place of the middle as a percentage. -/
def arrowBalance (left right : Nat) : String :=
  let ratio := Decimal.nearest (Float.ofNat (left + 1) / Float.ofNat (left + right + 2) * 100)
  if ratio = 50 then "center" else toString ratio ++ "%"

/-- `==>` -/
def rightArrow : Scanner String := do
  let shaft ← takeWhile (· == '=')
  require (2 ≤ shaft.length)
  char '>'
  return "right"

/-- `<==` -/
def leftArrow : Scanner String := do
  char '<'
  let _ ← takeWhile1 (· == '=')
  return "left"

/-- `=><=` -/
def balancedArrow : Scanner String := do
  let left ← takeWhile1 (· == '=')
  literal "><"
  let right ← takeWhile1 (· == '=')
  return arrowBalance left.length right.length

/-- `<==>` -/
def doubleArrow : Scanner String := do
  char '<'
  let shaft ← takeWhile (· == '=')
  require (2 ≤ shaft.length)
  char '>'
  return "justify"

/-- A line that holds one arrow. -/
def arrowLine (arrow : Scanner String) : Scanner Detail := do
  let _ ← blanks
  let align ← arrow
  let _ ← blanks
  endOfLine
  return { align := some align }

/-- An alignment arrow of any form. -/
def align : Pattern :=
  .leaf (arrowLine rightArrow <|> arrowLine leftArrow <|> arrowLine balancedArrow <|>
    arrowLine doubleArrow)

end StoryScript.Pattern
