/-
  Block markup by byte offsets.

  Each pattern of block markup as a cursor, with the offsets that it keeps and the slices
  that it cuts, and that it tracks the pattern.
-/
import Mathlib
import StoryScript.Proofs.Token.Cursor.Search

namespace StoryScript.Cursor

/-- One step along a line, or its end. -/
def lineStep : Cursor (Option Unit) := do
  if ← test (literal "\\\n") then
    let _ ← test (char '\\')
    return none
  else if ← test (literal "\n\\") then
    return none
  else
    let next ← peek
    if next.all (· == '\n') then return some ()
    else
      let _ ← bump
      return none

/-- The rest of a line. -/
def line : Cursor (List Char) := sliced (loop lineStep)

/-- Repeated `0.` marks. -/
def zeroDots : Cursor (List Char) := sliced (whileTrue (test (literal "0.")))

/-- One more hash, unless six bytes are read since `start`. -/
def hashStep (start : Nat) : Cursor (Option Unit) := do
  let count ← minus (← offset) start
  if count < 6 then
    if ← test (char '#') then return none else return some ()
  else return some ()

/-- At most six hashes. -/
def hashes : Cursor (List Char) := do
  let start ← offset
  loop (hashStep start)
  since start

/-- A line with marks in front of its text. What stands before the text is known by the offset
of the text. -/
def markedLine (marks gap : Cursor (List Char)) (depth : List Char → Nat) :
    Cursor (Detail × Option Inside) := do
  let _ ← blanks
  let mark ← marks
  require (!mark.isEmpty)
  let _ ← gap
  let start ← offset
  let body ← line
  require (!body.isEmpty)
  endOfLine
  return ({ depth := depth mark }, some { lead := ← slice 0 start, body })

/-- Three hyphens or more. -/
def horizontalRule : Cursor (Detail × Option Inside) :=
  plain do
    let _ ← blanks
    let dashes ← takeWhile (· == '-')
    require (3 ≤ Text.width dashes)
    let _ ← blanks
    endOfLine

/-- `* item`, one star a level. -/
def bulleted : Cursor (Detail × Option Inside) :=
  markedLine (takeWhile (· == '*')) blanks1 List.length

/-- `0. item`, one `0.` a level. -/
def numbered : Cursor (Detail × Option Inside) :=
  markedLine zeroDots blanks1 (·.length / 2)

/-- `# title`, one to six hashes. -/
def heading : Cursor (Detail × Option Inside) :=
  markedLine hashes blanks List.length

/-- `==>` -/
def rightArrow : Cursor String := do
  let shaft ← takeWhile (· == '=')
  require (2 ≤ Text.width shaft)
  char '>'
  return "right"

/-- `<==` -/
def leftArrow : Cursor String := do
  char '<'
  let _ ← takeWhile1 (· == '=')
  return "left"

/-- `=><=` -/
def balancedArrow : Cursor String := do
  let left ← takeWhile1 (· == '=')
  literal "><"
  let right ← takeWhile1 (· == '=')
  return Pattern.arrowBalance left.length right.length

/-- `<==>` -/
def doubleArrow : Cursor String := do
  char '<'
  let shaft ← takeWhile (· == '=')
  require (2 ≤ Text.width shaft)
  char '>'
  return "justify"

/-- A line that holds one arrow, which is cut out of it. -/
def arrowLine (arrow : Cursor String) : Cursor Detail := do
  let _ ← blanks
  let start ← offset
  let align ← arrow
  let _ ← since start
  let _ ← blanks
  endOfLine
  return { align := some align }

/-- An alignment arrow of any form. -/
def align : Cursor (Detail × Option Inside) :=
  leaf (arrowLine rightArrow <|> arrowLine leftArrow <|> arrowLine balancedArrow <|>
    arrowLine doubleArrow)

theorem mirrors_lineStep : Mirrors lineStep Pattern.lineStep :=
  (mirrors_literal _).ite ((mirrors_char _).test.bind fun _ => mirrors_pure _)
    ((mirrors_literal _).ite (mirrors_pure _) (mirrors_peek.bind fun _ =>
      mirrors_if (fun _ => mirrors_pure _) fun _ => mirrors_bump.bind fun _ => mirrors_pure _))

theorem mirrors_line : Mirrors line (Scanner.ofSplit (some ∘ Pattern.splitLine)) :=
  mirrors_split (mirrors_loop mirrors_lineStep Pattern.unrolls_skipLine) Pattern.splitLine_append

theorem mirrors_zeroDots : Mirrors zeroDots (Scanner.ofSplit (some ∘ Pattern.splitZeroDots)) := by
  refine mirrors_split (mirrors_whileTrue (mirrors_literal _) fun cs => ?_)
    Pattern.splitZeroDots_append
  fun_cases Pattern.splitZeroDots cs with
  | case1 cs line rest hsplit =>
    have hread : Scanner.literal "0." ('0' :: '.' :: cs) = some ((), cs) := rfl
    exact .inr ⟨(), cs, hread, by simp only [List.length_cons]; omega, by rw [hsplit]⟩
  | case2 cs hother =>
    refine .inl ⟨Scanner.literal_of_not_prefix (by decide) ?_, rfl⟩
    rintro ⟨rest, h⟩
    exact hother rest h.symm

theorem hashStep_ok (before source : List Char) {run : List Char}
    (hrun : Text.width run = run.length) :
    hashStep (Text.width before) source (Text.width (before ++ run)) =
      (if run.length < 6 then do if ← test (char '#') then return none else return some ()
        else pure (some ())) source (Text.width (before ++ run)) := by
  have hle : Text.width before ≤ Text.width (before ++ run) := by
    rw [Text.width_append]
    omega
  have hcount : Text.width (before ++ run) - Text.width before = run.length := by
    rw [Text.width_append, hrun, Nat.add_sub_cancel_left]
  rw [hashStep, bind_of_ok offset_ok, bind_of_ok (minus_ok hle source), hcount]

/-- After some hashes, counting goes on with those that are still to come. -/
theorem tracks_hashes (before : List Char) : ∀ count run after, Text.width run = run.length →
    after.length < count →
    Tracks (before ++ run) after (Text.width (before ++ run))
      (loopFor (hashStep (Text.width before)) count)
      fun cs => some ((), (Pattern.splitAtMost (· == '#') (6 - run.length) cs).2) := by
  intro count
  induction count with
  | zero => intro run after hrun hlength; omega
  | succ count ih =>
    intro run after hrun hlength
    have hstep := hashStep_ok before (before ++ run ++ after) hrun
    rcases Nat.lt_or_ge run.length 6 with hlt | hge
    · obtain ⟨most, hmost⟩ : ∃ most, 6 - run.length = most + 1 := ⟨5 - run.length, by omega⟩
      rw [if_pos hlt] at hstep
      rcases mirrors_char '#' (before ++ run) after with
        ⟨hchar, hnone⟩ | ⟨_, used, rest, hused, hchar, hsome⟩
      · rw [bind_of_ok (test_of_none hnone)] at hstep
        refine .move hstep (tracks_pure.congr ?_)
        rw [hmost]
        cases after with
        | nil => rfl
        | cons c cs =>
          have hc : c ≠ '#' := by
            rintro rfl
            cases hchar
          simp [Pattern.splitAtMost, hc, Scanner.pure_apply]
      · obtain rfl : used = ['#'] :=
          List.append_cancel_right (hused.symm.trans (Scanner.append_of_char hchar))
        rw [bind_of_ok (test_of_ok hsome)] at hstep
        refine .move hstep ?_
        have hnext := ih (run ++ ['#']) rest (by simp [hrun]; rfl) (by simp [hused] at hlength; omega)
        subst hused
        rw [← List.append_assoc] at hnext
        refine hnext.shift ?_
        have hfewer : 6 - (run ++ ['#']).length = most := by
          rw [List.length_append, List.length_singleton]
          omega
        rw [hmost, hfewer]
        simp [Pattern.splitAtMost]
    · rw [if_neg (by omega)] at hstep
      refine .move hstep (tracks_pure.congr ?_)
      rw [show 6 - run.length = 0 by omega]
      rfl

theorem mirrors_hashes :
    Mirrors hashes (Scanner.ofSplit (some ∘ Pattern.splitAtMost (· == '#') 6)) := by
  intro before after
  have hloop := tracks_hashes before ((before ++ after).length + 1) [] after rfl
    (by rw [List.length_append]; omega)
  rw [List.append_nil] at hloop
  exact .move offset_ok (hloop.since (Scanner.echoes_ofSplit (Pattern.splitAtMost_append _ _)))

theorem tracks_markedLine {marks gap : Cursor (List Char)}
    {split : List Char → List Char × List Char} {space : Scanner (List Char)}
    (depth : List Char → Nat) (hmarks : Mirrors marks (Scanner.ofSplit (some ∘ split)))
    (hsplit : ∀ cs, (split cs).1 ++ (split cs).2 = cs) (hgap : Mirrors gap space)
    (hspace : space.Echoes) (source : List Char) :
    Tracks [] source 0 (markedLine marks gap depth) (Pattern.markedLine split space depth) := by
  refine (mirrors_blanks [] source).bindText (Scanner.echoes_takeWhile _) fun indent r₁ _ => ?_
  refine (hmarks _ r₁).bindText (Scanner.echoes_ofSplit hsplit)
    fun mark r₂ _ => .require fun _ => ?_
  refine (hgap _ r₂).bindText hspace fun gapText r₃ _ => .move offset_ok ?_
  refine (mirrors_line _ r₃).bindText (Scanner.echoes_ofSplit Pattern.splitLine_append)
    fun body r₄ _ => .require fun _ => ?_
  refine (mirrors_endOfLine _ r₄).bind fun _ ending r₅ h₅ _ => ?_
  -- the text starts where the indent, the marks and the gap end
  have hlead : slice 0 (Text.width ([] ++ indent ++ mark ++ gapText))
      ([] ++ indent ++ mark ++ gapText ++ body ++ ending ++ r₅)
      (Text.width ([] ++ indent ++ mark ++ gapText ++ body ++ ending)) =
      .ok (some (indent ++ mark ++ gapText, _)) :=
    slice_ok [] _ (body ++ ending ++ r₅) (by simp) rfl (by simp)
  exact .move hlead tracks_pure

theorem tracks_bulleted (source : List Char) :
    Tracks [] source 0 bulleted Pattern.bulleted.scan :=
  tracks_markedLine _ (mirrors_takeWhile _) (fun _ => List.takeWhile_append_dropWhile)
    mirrors_blanks1 (Scanner.echoes_takeWhile1 _) source

theorem tracks_numbered (source : List Char) :
    Tracks [] source 0 numbered Pattern.numbered.scan :=
  tracks_markedLine _ mirrors_zeroDots Pattern.splitZeroDots_append mirrors_blanks1
    (Scanner.echoes_takeWhile1 _) source

theorem tracks_heading (source : List Char) : Tracks [] source 0 heading Pattern.heading.scan :=
  tracks_markedLine _ mirrors_hashes (Pattern.splitAtMost_append _ _) mirrors_blanks
    (Scanner.echoes_takeWhile _) source

/-- The length of a run is measured in bytes. -/
theorem mirrors_run {c : Char} (hc : c.utf8Size = 1) {n : Nat} {f : Unit → Cursor α}
    {g : Unit → Scanner α} (h : Mirrors (f ()) (g ())) :
    Mirrors (do let run ← takeWhile (· == c); require (n ≤ Text.width run) >>= f)
      (do let run ← Scanner.takeWhile (· == c); Scanner.require (n ≤ run.length) >>= g) := by
  intro before after
  refine (mirrors_takeWhile _ before after).bind fun run used rest _ hrun => ?_
  have hwidth : Text.width run = run.length := by
    refine Text.width_eq_length fun d hd => ?_
    rw [← (Prod.mk.inj (Option.some.inj hrun)).1] at hd
    have hsame := List.mem_takeWhile_imp hd
    rw [eq_of_beq hsame, hc]
  rw [hwidth]
  exact .require fun _ => h _ _

theorem mirrors_horizontalRule : Mirrors horizontalRule Pattern.horizontalRule.scan :=
  mirrors_plain (mirrors_blanks.bind fun _ => mirrors_run rfl
    (mirrors_blanks.bind fun _ => mirrors_endOfLine))

theorem mirrors_rightArrow : Mirrors rightArrow Pattern.rightArrow :=
  mirrors_run rfl ((mirrors_char _).bind fun _ => mirrors_pure _)

theorem mirrors_leftArrow : Mirrors leftArrow Pattern.leftArrow :=
  (mirrors_char _).bind fun _ => (mirrors_takeWhile1 _).bind fun _ => mirrors_pure _

theorem mirrors_balancedArrow : Mirrors balancedArrow Pattern.balancedArrow :=
  (mirrors_takeWhile1 _).bind fun _ => (mirrors_literal _).bind fun _ =>
    (mirrors_takeWhile1 _).bind fun _ => mirrors_pure _

theorem mirrors_doubleArrow : Mirrors doubleArrow Pattern.doubleArrow :=
  (mirrors_char _).bind fun _ => mirrors_run rfl ((mirrors_char _).bind fun _ => mirrors_pure _)

theorem mirrors_arrowLine {arrow : Cursor String} {x : Scanner String} (h : Mirrors arrow x) :
    Mirrors (arrowLine arrow) (Pattern.arrowLine x) := by
  refine mirrors_blanks.bind fun _ before after => .move offset_ok ?_
  refine (h before after).bind fun align used rest _ _ =>
    .move (since_ok before used rest rfl rfl rfl) ?_
  exact (mirrors_blanks.bind fun _ => mirrors_endOfLine.bind fun _ => mirrors_pure _) _ _

theorem mirrors_align : Mirrors align Pattern.align.scan :=
  mirrors_leaf ((mirrors_arrowLine mirrors_rightArrow).orElse
    ((mirrors_arrowLine mirrors_leftArrow).orElse
      ((mirrors_arrowLine mirrors_balancedArrow).orElse (mirrors_arrowLine mirrors_doubleArrow))))

end StoryScript.Cursor
