/-
  Inline markup by byte offsets.

  Each pattern of inline markup as a cursor, with the offsets that it keeps and the slices
  that it cuts, and that it tracks the pattern.
-/
import Mathlib
import StoryScript.Proofs.Token.Cursor.Search

namespace StoryScript.Cursor

/-- A fixed text. -/
def exactly (text : String) : Cursor (Detail × Option Inside) :=
  plain (literal text)

/-- A line break that is not escaped on the next line. -/
def lineBreak : Cursor (Detail × Option Inside) :=
  plain do
    char '\n'
    require ((← peek) != some '\\')

/-- A line break escaped by a backslash before it, after it, or both. -/
def escapedLine : Cursor (Detail × Option Inside) :=
  plain ((do literal "\\\n"; let _ ← test (char '\\')) <|> literal "\n\\")

/-- One step of quoted text, or the quote that ends it. -/
def quotedStep (quote : Char) : Cursor (Option Unit) := do
  let c ← bump
  if c = '\\' then
    let _ ← bump
    return none
  else if c = quote then return some ()
  else return none

/-- One step through an old macro, or its end. -/
def oldMacroStep : Cursor (Option Unit) := do
  if ← test (literal ">>") then return some ()
  else
    let c ← bump
    if c = '\\' then
      let _ ← bump
      return none
    else if c = '\'' || c = '"' then
      loop (quotedStep c)
      return none
    else return none

/-- `<<name …>>`, which older stories used for macros. -/
def oldMacro : Cursor (Detail × Option Inside) :=
  leaf do
    literal "<<"
    let _ ← takeWhile1 fun c => c != '>' && !Text.isSpace c
    loop oldMacroStep
    return { message := some "Twine 1 macro syntax isn't supported." }

/-- One step towards a closing tag, or the tag. -/
def closeStep (word : String) : Cursor (Option Unit) := do
  if ← test (literal word) then return some ()
  else
    let _ ← bump
    return none

/-- A script or style element, up to its closing tag. -/
def scriptStyleTag : Cursor (Detail × Option Inside) :=
  plain do
    char '<'
    let name := String.ofList (← takeWhile Char.isAlpha)
    require (Text.sameIgnoringCase name "script" || Text.sameIgnoringCase name "style")
    let _ ← takeWhile (· != '>')
    char '>'
    loop (closeStep ("</" ++ name ++ ">"))

/-- One step through a tag, or its end. Quoted text is one step. -/
def tagStep : Cursor (Option Unit) := do
  let c ← bump
  if c = '>' then return some ()
  else if c = '<' || c = '\n' then failure
  else if c = '\'' || c = '"' then
    let _ ← takeWhile (· != c)
    let _ ← bump
    return none
  else return none

/-- The name of a tag. It starts one byte before the end of its first letter. -/
def tagName : Cursor (List Char) := do
  let _ ← satisfy Char.isAlpha
  let start ← minus (← offset) 1
  let _ ← takeWhile Text.isNameChar
  since start

/-- An opening or closing tag. -/
def tag : Cursor (Detail × Option Inside) :=
  leaf do
    char '<'
    let _ ← test (char '/')
    let name ← tagName
    loop tagStep
    return { name := some (String.ofList name) }

/-- A run of characters without those at its end that satisfy `q`: goes back to where the run
started, and on by what is left of it. -/
def trimmedRun (p q : Char → Bool) : Cursor Unit := do
  let run ← takeWhile p
  let trimmed := Text.dropEndWhile q run
  require (!trimmed.isEmpty)
  seek ((← minus (← offset) (Text.width run)) + Text.width trimmed)

/-- A web address. -/
def url : Cursor (Detail × Option Inside) :=
  plain do
    literal "https" <|> literal "http" <|> literal "mailto" <|> literal "javascript" <|>
      literal "ftp" <|> literal "data"
    literal "://"
    trimmedRun (fun c => !Text.isSpace c && c != '<') Pattern.isTrailing

/-- The later of the two places of an arrow and a bar, with the width of what stands there. -/
def laterPlace (arrow bar : Option Nat) : Option (Nat × Nat) :=
  match arrow, bar with
  | some place, some place' => if place ≤ place' then some (place', 1) else some (place, 2)
  | some place, none => some (place, 2)
  | none, some place => some (place, 1)
  | none, none => none

/-- The text before the sign at a place, and the passage after it. -/
def forwardParts (inner : List Char) (place size : Nat) : Cursor (Detail × Option Inside) := do
  let text ← cut inner 0 place
  let passage ← cut inner (place + size) (Text.width inner)
  return ({ passage := some (String.ofList passage) }, some { lead := ← slice 0 2, body := text })

/-- The passage before the backward arrow at a place, and the text after it. -/
def backwardParts (inner : List Char) (place : Nat) : Cursor (Detail × Option Inside) := do
  let text ← cut inner (place + 2) (Text.width inner)
  let passage ← cut inner 0 place
  return ({ passage := some (String.ofList passage) },
    some { lead := ← slice 0 (2 + (place + 2)), body := text })

/-- The parts of a link, by the places of the signs in what stands between its brackets. -/
def linkParts (inner : List Char) : Cursor (Detail × Option Inside) :=
  match laterPlace (Text.findLast? ['-', '>'] inner) (Text.findLast? ['|'] inner) with
  | some (place, size) => forwardParts inner place size
  | none =>
    match Text.find? ['<', '-'] inner with
    | some place => backwardParts inner place
    | none => failure

/-- A link whose first closing bracket is at an offset of what follows the opening brackets. The
brackets take two bytes on either side. -/
def closedLink (body : List Char) (close : Nat) : Cursor (Detail × Option Inside) := do
  let closing ← cut body close (Text.width body)
  require ("]]".toList.isPrefixOf closing)
  let inner ← cut body 0 close
  seek (close + 4)
  linkParts inner

/-- `[[text->passage]]`, `[[passage<-text]]` or `[[text|passage]]`. -/
def passageLink : Cursor (Detail × Option Inside) := do
  literal "[["
  let body ← rest
  require (body.head? != some '[')
  match Text.find? [']'] body with
  | some close => closedLink body close
  | none => failure

/-- One step through the text of a link, or its end. -/
def linkStep : Cursor (Option Unit) := do
  let next ← peek
  let second ← peekSecond
  if next.all (· == '|') || (next == some ']' && second == some ']') then return some ()
  else
    let _ ← bump
    return none

/-- Link text, at least one character. -/
def linkText : Cursor (List Char) := do
  let text ← sliced (loop linkStep)
  require (!text.isEmpty)
  return text

/-- `[[passage]]` -/
def simpleLink : Cursor (Detail × Option Inside) := do
  literal "[["
  let start ← offset
  let text ← linkText
  literal "]]"
  return ({ passage := some (String.ofList text) }, some { lead := ← slice 0 start, body := text })

/-- `[[text|passage]]` with brackets allowed in the text. -/
def barLink : Cursor (Detail × Option Inside) := do
  literal "[["
  let start ← offset
  let text ← linkText
  char '|'
  let passage ← linkText
  literal "]]"
  return ({ passage := some (String.ofList passage) },
    some { lead := ← slice 0 start, body := text })

/-- `|name>[` -/
def hookPrependedFront : Cursor (Detail × Option Inside) :=
  leaf do
    char '|'
    let name ← takeWhile Text.isNameChar
    literal ">["
    return { name := some (String.ofList name), tag := some .prepended }

/-- `<name|` -/
def nameTag : Cursor (List Char) := do
  char '<'
  let name ← takeWhile Text.isNameChar
  char '|'
  return name

/-- `]` without a name tag. -/
def hookBack : Cursor (Detail × Option Inside) :=
  plain do
    char ']'
    refuse nameTag

/-- `]<name|` -/
def hookAppendedBack : Cursor (Detail × Option Inside) :=
  leaf do
    char ']'
    let name ← nameTag
    return { name := some (String.ofList name), tag := some .appended }

/-- A run of backticks. -/
def verbatimOpener : Cursor (Detail × Option Inside) :=
  leaf do
    let ticks ← takeWhile (· == Char.ofNat 0x60)
    return { depth := ticks.length }

theorem mirrors_exactly (text : String) : Mirrors (exactly text) (Pattern.exactly text).scan :=
  mirrors_plain (mirrors_literal text)

theorem mirrors_lineBreak : Mirrors lineBreak Pattern.lineBreak.scan := by
  refine mirrors_plain ((mirrors_char _).bind fun _ before after => .move peek_ok ?_)
  exact (mirrors_require _ before after).congr (Scanner.notAhead_char _ _)

theorem mirrors_escapedLine : Mirrors escapedLine Pattern.escapedLine.scan :=
  mirrors_plain (.orElse
    ((mirrors_literal _).bind fun _ => (mirrors_char _).bindOptional (mirrors_pure _))
    (mirrors_literal _))

theorem mirrors_quoted {quote : Char} (hquote : quote ≠ '\\') :
    Mirrors (loop (quotedStep quote)) (Pattern.skipQuoted quote) :=
  mirrors_loop (mirrors_bump.bind fun _ =>
    mirrors_if (fun _ => mirrors_bump.bind fun _ => mirrors_pure _) fun _ =>
    mirrors_if (fun _ => mirrors_pure _) fun _ => mirrors_pure _)
    (Pattern.unrolls_skipQuoted hquote)

theorem mirrors_oldMacroStep : Mirrors oldMacroStep Pattern.oldMacroStep :=
  (mirrors_literal _).ite (mirrors_pure _) (mirrors_bump.bind fun _ =>
    mirrors_if (fun _ => mirrors_bump.bind fun _ => mirrors_pure _) fun hslash =>
    mirrors_if (fun _ => (mirrors_quoted hslash).bind fun _ => mirrors_pure _) fun _ =>
    mirrors_pure _)

theorem mirrors_oldMacro : Mirrors oldMacro Pattern.oldMacro.scan :=
  mirrors_leaf ((mirrors_literal _).bind fun _ => (mirrors_takeWhile1 _).bind fun _ =>
    (mirrors_loop mirrors_oldMacroStep Pattern.unrolls_skipMacro).bind fun _ => mirrors_pure _)

theorem mirrors_closeStep (word : String) : Mirrors (closeStep word) (Pattern.closeStep word) :=
  (mirrors_literal _).ite (mirrors_pure _) (mirrors_bump.bind fun _ => mirrors_pure _)

theorem mirrors_scriptStyleTag : Mirrors scriptStyleTag Pattern.scriptStyleTag.scan :=
  mirrors_plain ((mirrors_char _).bind fun _ => (mirrors_takeWhile _).bind fun _ =>
    (mirrors_require _).bind fun _ => (mirrors_takeWhile _).bind fun _ =>
    (mirrors_char _).bind fun _ =>
    mirrors_loop (mirrors_closeStep _) (Pattern.unrolls_skipClose _))

theorem mirrors_tagStep : Mirrors tagStep Pattern.tagStep :=
  mirrors_bump.bind fun _ => mirrors_if (fun _ => mirrors_pure _) fun _ =>
    mirrors_if (fun _ => mirrors_failure) fun _ =>
    mirrors_if (fun _ => (mirrors_takeWhile _).bind fun _ => mirrors_bump.bind fun _ =>
      mirrors_pure _) fun _ => mirrors_pure _

/-- The first letter of a tag is of one byte, so the name starts where it does. -/
theorem mirrors_tagName : Mirrors tagName (do
    let first ← Scanner.satisfy Char.isAlpha
    let others ← Scanner.takeWhile Text.isNameChar
    return first :: others) := by
  intro before after
  refine tracks_satisfy fun first rest _ halpha => ?_
  have hwidth : Text.width (before ++ [first]) = Text.width before + 1 := by
    rw [Text.width_append, Text.width_cons, Text.utf8Size_of_isAlpha halpha, Text.width_nil]
  refine .move offset_ok (.move (minus_ok (by omega) _) ?_)
  refine (mirrors_takeWhile _ _ rest).bindText (Scanner.echoes_takeWhile _)
    fun others rest' _ => tracks_value (since_ok before (first :: others) rest' ?_ ?_ ?_)
  · simp
  · omega
  · simp

-- One byte back from a wider letter lies inside it.
example : (do let _ ← bump; since (← minus (← offset) 1) : Cursor (List Char)) ['é'] 0 =
    .error (.slice 1 2) := rfl

theorem mirrors_tag : Mirrors tag Pattern.tag.scan := by
  refine mirrors_leaf ((mirrors_char _).bind fun _ => (mirrors_char _).bindOptional ?_)
  have hname := mirrors_tagName.bind fun name =>
    (mirrors_loop mirrors_tagStep Pattern.unrolls_skipTagEnd).bind fun _ =>
      mirrors_pure { name := some (String.ofList name) : Detail }
  simp only [bind_assoc, pure_bind] at hname
  exact hname

theorem mirrors_trimmedRun (p q : Char → Bool) : Mirrors (trimmedRun p q) (do
    let run := (← Scanner.rest).takeWhile p
    let trimmed := Text.dropEndWhile q run
    Scanner.require (!trimmed.isEmpty)
    Scanner.skip trimmed.length) := by
  intro before after
  obtain ⟨dropped, hrun⟩ : Text.dropEndWhile q (after.takeWhile p) <+: after.takeWhile p := by
    rw [← List.reverse_suffix, Text.dropEndWhile, List.reverse_reverse]
    exact List.dropWhile_suffix q
  have hafter : after = Text.dropEndWhile q (after.takeWhile p) ++ (dropped ++ after.dropWhile p) := by
    rw [← List.append_assoc, hrun, List.takeWhile_append_dropWhile]
  have hle : Text.width (after.takeWhile p) ≤ Text.width (before ++ after.takeWhile p) := by
    rw [Text.width_append]
    omega
  refine Tracks.congr (x := Scanner.require
    (!(Text.dropEndWhile q (after.takeWhile p)).isEmpty) >>= fun _ =>
      Scanner.skip (Text.dropEndWhile q (after.takeWhile p)).length) ?_ rfl
  refine .move (takeWhile_ok p before after) (.require fun _ =>
    .move offset_ok (.move (minus_ok hle _) ?_))
  exact tracks_seek hafter (by rw [Text.width_append, Text.width_append]; omega)

theorem mirrors_url : Mirrors url Pattern.url.scan :=
  mirrors_plain (((mirrors_literal _).orElse ((mirrors_literal _).orElse ((mirrors_literal _).orElse
    ((mirrors_literal _).orElse ((mirrors_literal _).orElse (mirrors_literal _)))))).bind fun _ =>
    (mirrors_literal _).bind fun _ => mirrors_trimmedRun _ _)

/-- What follows a literal starts right after it. -/
theorem tracks_literal {word : String} {f : Unit → Cursor α} {g : Unit → Scanner α}
    (hword : word.toList.all (fun c => !c.isAlpha) = true) {source : List Char}
    (h : ∀ rest, source = word.toList ++ rest →
      Tracks word.toList rest (Text.width word.toList) (f ()) (g ())) :
    Tracks [] source 0 (literal word >>= f) (Scanner.literal word >>= g) := by
  refine (mirrors_literal word [] source).bind fun _ used rest hused hread => ?_
  have hsource := Scanner.append_of_literal hword hread
  obtain rfl : used = word.toList := List.append_cancel_right (hused.symm.trans hsource)
  exact h rest hsource

/-- Between its brackets, a link has its parts around a sign. -/
theorem tracks_forwardParts {text sign passage rest : List Char} {size : Nat}
    (hsize : size = Text.width sign) :
    Tracks (['[', '['] ++ (text ++ sign ++ passage) ++ [']', ']']) rest
      (Text.width (['[', '['] ++ (text ++ sign ++ passage) ++ [']', ']']))
      (forwardParts (text ++ sign ++ passage) (Text.width text) size)
      (pure ({ passage := some (String.ofList passage) },
        some { lead := ['[', '['], body := text })) := by
  refine .move (cut_ok [] _ (sign ++ passage) (by simp) rfl rfl) ?_
  refine .move (cut_ok (text ++ sign) _ [] (by simp) (by rw [hsize, Text.width_append]) rfl) ?_
  exact .move (slice_ok [] _ (text ++ sign ++ passage ++ [']', ']'] ++ rest) (by simp) rfl rfl)
    tracks_pure

theorem tracks_backwardParts {text passage rest : List Char} :
    Tracks (['[', '['] ++ (passage ++ ['<', '-'] ++ text) ++ [']', ']']) rest
      (Text.width (['[', '['] ++ (passage ++ ['<', '-'] ++ text) ++ [']', ']']))
      (backwardParts (passage ++ ['<', '-'] ++ text) (Text.width passage))
      (pure ({ passage := some (String.ofList passage) },
        some { lead := '[' :: '[' :: (passage ++ ['<', '-']), body := text })) := by
  have hsigns : Text.width ['<', '-'] = 2 := rfl
  have hbrackets : Text.width (['[', '['] ++ (passage ++ ['<', '-'])) =
      2 + (Text.width passage + 2) := by
    rw [Text.width_append, Text.width_append, hsigns]
    rfl
  refine .move (cut_ok (passage ++ ['<', '-']) _ [] (by simp)
    (by rw [Text.width_append, hsigns]) rfl) ?_
  refine .move (cut_ok [] _ (['<', '-'] ++ text) (by simp) rfl rfl) ?_
  exact .move (slice_ok [] _ (text ++ [']', ']'] ++ rest) (by simp) rfl hbrackets.symm) tracks_pure

/-- Of an arrow and a bar, the one at the higher offset has more characters before it. -/
theorem width_le_iff_length_lt {inner text text' passage passage' : List Char}
    (harrow : text ++ ['-', '>'] ++ passage = inner) (hbar : text' ++ ['|'] ++ passage' = inner) :
    Text.width text ≤ Text.width text' ↔ text.length < text'.length := by
  have hboth := harrow.trans hbar.symm
  rw [List.append_assoc, List.append_assoc, List.append_eq_append_iff] at hboth
  -- one of the signs stands within what is before the other
  rcases hboth with ⟨between, rfl, hrest⟩ | ⟨between, rfl, hrest⟩
  · cases between with
    | nil => cases hrest
    | cons c between =>
      rw [Text.width_append, List.length_append, List.length_cons]
      omega
  · cases between with
    | nil => cases hrest
    | cons c between =>
      have hpos := c.utf8Size_pos
      rw [Text.width_append, Text.width_cons, List.length_append, List.length_cons]
      omega

theorem tracks_linkParts (inner rest : List Char) :
    Tracks (['[', '['] ++ inner ++ [']', ']']) rest (Text.width (['[', '['] ++ inner ++ [']', ']']))
      (linkParts inner) (Pattern.linkFound inner) := by
  simp only [linkParts, Text.findLast?, Text.find?, Pattern.linkFound, Pattern.splitLink]
  cases harrow : Text.splitAtLast ['-', '>'] inner with
  | none =>
    cases hbar : Text.splitAtLast ['|'] inner with
    | none =>
      cases hback : Text.splitAtFirst ['<', '-'] inner with
      | none => exact tracks_failure
      | some back =>
        rw [← Text.append_of_splitAtFirst hback]
        exact tracks_backwardParts
    | some bar =>
      rw [← Text.append_of_splitAtLast hbar]
      exact tracks_forwardParts rfl
  | some arrow =>
    cases hbar : Text.splitAtLast ['|'] inner with
    | none =>
      rw [← Text.append_of_splitAtLast harrow]
      exact tracks_forwardParts rfl
    | some bar =>
      have horder := width_le_iff_length_lt (Text.append_of_splitAtLast harrow)
        (Text.append_of_splitAtLast hbar)
      by_cases hlater : arrow.1.length < bar.1.length
      · simp only [Option.map_some, laterPlace, if_pos hlater, if_pos (horder.2 hlater)]
        rw [← Text.append_of_splitAtLast hbar]
        exact tracks_forwardParts rfl
      · simp only [Option.map_some, laterPlace, if_neg hlater, if_neg (mt horder.1 hlater)]
        rw [← Text.append_of_splitAtLast harrow]
        exact tracks_forwardParts rfl

/-- From the first closing bracket on. The cursor is still at the end of the opening brackets,
from where the offsets count. -/
theorem tracks_closedLink (inner after : List Char) :
    Tracks (['[', '['] ++ inner) (']' :: after) (Text.width ['[', '['])
      (closedLink (inner ++ ']' :: after) (Text.width inner))
      (Scanner.literal "]]" >>= fun _ => Pattern.linkFound inner) := by
  refine .move (cut_ok inner _ [] (by simp) rfl rfl) ?_
  by_cases hclose : "]]".toList <+: ']' :: after
  · obtain ⟨rest, hrest⟩ := hclose
    obtain rfl : ']' :: rest = after := (List.cons.inj hrest).2
    refine .move (require_ok rfl _) (.move (cut_ok [] _ (']' :: ']' :: rest) rfl rfl rfl) ?_)
    have hread : Scanner.literal "]]" ([']', ']'] ++ rest) = some ((), rest) := rfl
    refine .move rfl (Tracks.shift ?_ (Scanner.bind_of_eq_some hread))
    have hwidth : Text.width (['[', '['] ++ inner ++ [']', ']']) = Text.width inner + 4 := by
      rw [Text.width_append, Text.width_append, Nat.add_comm (Text.width ['[', '['])]
      rfl
    rw [← hwidth]
    exact tracks_linkParts inner rest
  · refine .inl ⟨Scanner.bind_of_eq_none (Scanner.literal_of_not_prefix (by decide) hclose), ?_⟩
    exact bind_of_none (require_none (Bool.eq_false_iff.2 (mt List.isPrefixOf_iff_prefix.1 hclose)) _)

theorem tracks_passageLink (source : List Char) :
    Tracks [] source 0 passageLink Pattern.passageLink.scan := by
  refine tracks_literal (by decide) fun body _ => .move rest_ok ?_
  refine Tracks.congr ?_ (Scanner.bind_congr (Scanner.notAhead_char '[' body))
  refine .require fun _ => ?_
  rcases Text.splitAtFirst_singleton ']' body with ⟨hfind, hdrop⟩ | ⟨after, hfind, hdrop⟩
  · simp only [Text.find?, hfind]
    refine .inl ⟨?_, rfl⟩
    rw [Scanner.bind_apply, Scanner.takeWhile, hdrop]
    rfl
  · have hread : Scanner.takeWhile (· != ']') body =
        some (body.takeWhile (· != ']'), ']' :: after) := by rw [Scanner.takeWhile, hdrop]
    simp only [Text.find?, hfind]
    generalize body.takeWhile (· != ']') = inner at hread
    obtain rfl := Scanner.append_of_takeWhile hread
    exact (tracks_closedLink inner after).shift (Scanner.bind_of_eq_some hread)

theorem mirrors_linkText : Mirrors linkText Pattern.linkText :=
  (mirrors_split (mirrors_loop (mirrors_peek.bind fun _ => mirrors_peekSecond.bind fun _ =>
    mirrors_if (fun _ => mirrors_pure _) fun _ => mirrors_bump.bind fun _ => mirrors_pure _)
    Pattern.unrolls_skipLinkText) Pattern.splitLinkText_append).bind fun _ =>
  (mirrors_require _).bind fun _ => mirrors_pure _

theorem tracks_simpleLink (source : List Char) :
    Tracks [] source 0 simpleLink Pattern.simpleLink.scan := by
  refine tracks_literal (by decide) fun r₁ _ => .move offset_ok ?_
  refine (mirrors_linkText _ r₁).bind fun text used r₂ _ _ => ?_
  refine (mirrors_literal _ _ r₂).bind fun _ closing r₃ _ _ => ?_
  exact .move (slice_ok [] _ (used ++ closing ++ r₃)
    (by simp only [List.append_assoc]; rfl) rfl rfl) tracks_pure

theorem tracks_barLink (source : List Char) :
    Tracks [] source 0 barLink Pattern.barLink.scan := by
  refine tracks_literal (by decide) fun r₁ _ => .move offset_ok ?_
  refine (mirrors_linkText _ r₁).bind fun text used r₂ _ _ => ?_
  refine (mirrors_char _ _ r₂).bind fun _ bar r₃ _ _ => ?_
  refine (mirrors_linkText _ r₃).bind fun passage used' r₄ _ _ => ?_
  refine (mirrors_literal _ _ r₄).bind fun _ closing r₅ _ _ => ?_
  exact .move (slice_ok [] _ (used ++ bar ++ used' ++ closing ++ r₅)
    (by simp only [List.append_assoc]; rfl) rfl rfl) tracks_pure

theorem mirrors_hookPrependedFront :
    Mirrors hookPrependedFront Pattern.hookPrependedFront.scan :=
  mirrors_leaf ((mirrors_char _).bind fun _ => (mirrors_takeWhile _).bind fun _ =>
    (mirrors_literal _).bind fun _ => mirrors_pure _)

theorem mirrors_nameTag : Mirrors nameTag Pattern.nameTag :=
  (mirrors_char _).bind fun _ => (mirrors_takeWhile _).bind fun _ =>
    (mirrors_char _).bind fun _ => mirrors_pure _

theorem mirrors_hookBack : Mirrors hookBack Pattern.hookBack.scan :=
  mirrors_plain ((mirrors_char _).bind fun _ => mirrors_nameTag.refuse)

theorem mirrors_hookAppendedBack : Mirrors hookAppendedBack Pattern.hookAppendedBack.scan :=
  mirrors_leaf ((mirrors_char _).bind fun _ => mirrors_nameTag.bind fun _ => mirrors_pure _)

theorem mirrors_verbatimOpener : Mirrors verbatimOpener Pattern.verbatimOpener.scan :=
  mirrors_leaf ((mirrors_takeWhile _).bind fun _ => mirrors_pure _)

end StoryScript.Cursor
