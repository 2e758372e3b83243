/-
  Patterns of inline markup: emphasis, tags, links, hooks, verbatim text.
-/
import StoryScript.Text.Search
import StoryScript.Token.Scanner

namespace StoryScript.Pattern

open Scanner

/-- A fixed text. -/
def exactly (text : String) : Pattern :=
  .plain (literal text)

/-- A line break that is not escaped on the next line. -/
def lineBreak : Pattern :=
  .plain do
    char '\n'
    notAhead (char '\\')

/-- A line break escaped by a backslash before it, after it, or both. -/
def escapedLine : Pattern :=
  .plain ((do literal "\\\n"; let _ ← optional (char '\\')) <|> literal "\n\\")

/-! ## Tags -/

/-- Skips to just past `>>`. Inside quotes, `quote` being the one open, only the same quote is
looked for; a backslash hides the character after it. -/
def skipOldMacro : (quote : Option Char) → List Char → Option (List Char)
  | _, [] => none
  | none, '>' :: '>' :: cs => some cs
  | quote, '\\' :: _ :: cs => skipOldMacro quote cs
  | none, c :: cs => skipOldMacro (if c = '\'' || c = '"' then some c else none) cs
  | some q, c :: cs => skipOldMacro (if c = q then none else some q) cs

/-- `<<name …>>`, which older stories used for macros. -/
def oldMacro : Pattern :=
  .leaf do
    literal "<<"
    let _ ← takeWhile1 fun c => c != '>' && !Text.isSpace c
    ofSplit fun cs => (skipOldMacro none cs).map fun rest => ((), rest)
    return { message := some "Twine 1 macro syntax isn't supported." }

/-- Skips to just past the first place where `word` stands, in any case. -/
def skipPast (word : List Char) : List Char → Option (List Char)
  | [] => if word.isEmpty then some [] else none
  | c :: cs =>
    if Text.startsWithIgnoringCase word (c :: cs) then some ((c :: cs).drop word.length)
    else skipPast word cs

/-- A script or style element, up to its closing tag. -/
def scriptStyleTag : Pattern :=
  .plain do
    char '<'
    let name := String.ofList (← takeWhile Char.isAlpha)
    require (Text.sameIgnoringCase name "script" || Text.sameIgnoringCase name "style")
    let _ ← takeWhile (· != '>')
    char '>'
    ofSplit fun cs => (skipPast ("</" ++ name ++ ">").toList cs).map fun rest => ((), rest)

/-- Skips to just past the `>` that ends a tag. Quoted text, `quote` being the open quote, may
hold anything. -/
def skipTag : (quote : Option Char) → List Char → Option (List Char)
  | _, [] => none
  | some q, c :: cs => skipTag (if c = q then none else some q) cs
  | none, c :: cs =>
    if c = '>' then some cs
    else if c = '<' || c = '\n' then none
    else skipTag (if c = '\'' || c = '"' then some c else none) cs

/-- An opening or closing tag. -/
def tag : Pattern :=
  .leaf do
    char '<'
    let _ ← optional (char '/')
    let first ← satisfy Char.isAlpha
    let others ← takeWhile Text.isNameChar
    ofSplit fun cs => (skipTag none cs).map fun rest => ((), rest)
    return { name := some (String.ofList (first :: others)) }

/-! ## Links -/

/-- Punctuation that ends a sentence rather than an address. -/
def isTrailing (c : Char) : Bool :=
  ".,:;\"')]".toList.contains c

/-- A web address. -/
def url : Pattern :=
  .plain do
    literal "https" <|> literal "http" <|> literal "mailto" <|> literal "javascript" <|>
      literal "ftp" <|> literal "data"
    literal "://"
    let body := (← rest).takeWhile fun c => !Text.isSpace c && c != '<'
    let address := Text.dropEndWhile isTrailing body
    require (!address.isEmpty)
    skip address.length

/-- The parts of a link between its brackets: the text before the shown part, the shown part, and
the passage. The last arrow or bar divides; a backward arrow only where there is neither. -/
def splitLink (inner : List Char) : Option (List Char × List Char × List Char) :=
  match Text.splitAtLast ['-', '>'] inner, Text.splitAtLast ['|'] inner with
  | some (text, passage), some (text', passage') =>
    if text.length < text'.length then some ([], text', passage') else some ([], text, passage)
  | some (text, passage), none => some ([], text, passage)
  | none, some (text, passage) => some ([], text, passage)
  | none, none =>
    (Text.splitAtFirst ['<', '-'] inner).map fun (passage, text) =>
      (passage ++ ['<', '-'], text, passage)

/-- `[[text->passage]]`, `[[passage<-text]]` or `[[text|passage]]`. -/
def passageLink : Pattern :=
  .nest do
    literal "[["
    notAhead (char '[')
    let inner ← takeWhile (· != ']')
    literal "]]"
    match splitLink inner with
    | none => failure
    | some (lead, text, passage) =>
      return ({ passage := some (String.ofList passage) },
        some { lead := '[' :: '[' :: lead, body := text })

/-- Text up to a bar or two closing brackets, and what follows it. -/
def splitLinkText : List Char → List Char × List Char
  | [] => ([], [])
  | ']' :: ']' :: cs => ([], ']' :: ']' :: cs)
  | c :: cs =>
    if c = '|' then ([], c :: cs)
    else let (text, rest) := splitLinkText cs; (c :: text, rest)

theorem splitLinkText_append (cs : List Char) :
    (splitLinkText cs).1 ++ (splitLinkText cs).2 = cs := by
  fun_induction splitLinkText cs <;> simp_all

/-- Link text, at least one character. -/
def linkText : Scanner (List Char) := do
  let text ← ofSplit (some ∘ splitLinkText)
  require (!text.isEmpty)
  return text

/-- `[[passage]]` -/
def simpleLink : Pattern :=
  .nest do
    literal "[["
    let text ← linkText
    literal "]]"
    return ({ passage := some (String.ofList text) }, some { lead := ['[', '['], body := text })

/-- `[[text|passage]]` with brackets allowed in the text. -/
def barLink : Pattern :=
  .nest do
    literal "[["
    let text ← linkText
    char '|'
    let passage ← linkText
    literal "]]"
    return ({ passage := some (String.ofList passage) }, some { lead := ['[', '['], body := text })

theorem length_of_linkText {cs text rest : List Char} (h : linkText cs = some (text, rest)) :
    text.length + rest.length = cs.length := by
  simp only [linkText, bind_eq_some, require_eq_some, pure_eq_some, ofSplit, Function.comp_apply,
    Option.some.injEq] at h
  obtain ⟨text', mid, h, _, _, ⟨-, rfl⟩, rfl, rfl⟩ := h
  have := congrArg List.length (splitLinkText_append cs)
  rw [h] at this
  simpa using this

/-- The shown part of a link is no longer than what stands between the brackets. -/
theorem length_of_splitLink {inner lead text passage : List Char}
    (h : splitLink inner = some (lead, text, passage)) : text.length ≤ inner.length := by
  have le {a b c : List Char} (h : a ++ b ++ c = inner) :
      a.length ≤ inner.length ∧ c.length ≤ inner.length := by
    have := congrArg List.length h
    simp only [List.length_append] at this
    omega
  simp only [splitLink] at h
  split at h
  · rename_i ha hb
    split at h <;> simp only [Option.some.injEq, Prod.mk.injEq] at h
    · exact h.2.1 ▸ (le (Text.append_of_splitAtLast hb)).1
    · exact h.2.1 ▸ (le (Text.append_of_splitAtLast ha)).1
  · rename_i ha hb
    simp only [Option.some.injEq, Prod.mk.injEq] at h
    exact h.2.1 ▸ (le (Text.append_of_splitAtLast ha)).1
  · rename_i ha hb
    simp only [Option.some.injEq, Prod.mk.injEq] at h
    exact h.2.1 ▸ (le (Text.append_of_splitAtLast hb)).1
  · simp only [Option.map_eq_some_iff, Prod.mk.injEq, Prod.exists] at h
    obtain ⟨a, b, hab, -, rfl, -⟩ := h
    exact (le (Text.append_of_splitAtFirst hab)).2

theorem shrinks_passageLink : passageLink.Shrinks := by
  intro source detail inside rest h
  simp only [passageLink, scan, bind_eq_some] at h
  obtain ⟨_, r₁, h₁, _, r₂, h₂, inner, r₃, h₃, _, r₄, h₄, h⟩ := h
  have a₁ := length_of_literal h₁
  have a₂ : r₂ = r₁ := by
    simp only [notAhead] at h₂
    split at h₂ <;> simp_all
  have a₃ := length_of_takeWhile h₃
  have a₄ := length_of_literal h₄
  cases hs : splitLink inner with
  | none => simp [hs, failure, StateT.failure] at h
  | some parts =>
    obtain ⟨lead, text, passage⟩ := parts
    simp only [hs, pure_eq_some, Prod.mk.injEq, Option.some.injEq] at h
    obtain ⟨⟨-, rfl⟩, rfl⟩ := h
    have a₅ := length_of_splitLink hs
    simp only [show "[[".length = 2 from rfl] at a₁
    subst a₂
    simp only
    omega

theorem shrinks_simpleLink : simpleLink.Shrinks := by
  intro source detail inside rest h
  simp only [simpleLink, scan, bind_eq_some, pure_eq_some, Prod.mk.injEq, Option.some.injEq] at h
  obtain ⟨_, r₁, h₁, text, r₂, h₂, _, r₃, h₃, ⟨-, rfl⟩, rfl⟩ := h
  have a₁ := length_of_literal h₁
  have a₂ := length_of_linkText h₂
  have a₃ := length_of_literal h₃
  simp only [show "[[".length = 2 from rfl] at a₁
  simp only
  omega

theorem shrinks_barLink : barLink.Shrinks := by
  intro source detail inside rest h
  simp only [barLink, scan, bind_eq_some, pure_eq_some, Prod.mk.injEq, Option.some.injEq] at h
  obtain ⟨_, r₁, h₁, text, r₂, h₂, _, r₃, h₃, passage, r₄, h₄, _, r₅, h₅, ⟨-, rfl⟩, rfl⟩ := h
  have a₁ := length_of_literal h₁
  have a₂ := length_of_linkText h₂
  have a₃ := advances_char _ _ _ _ h₃
  have a₄ := length_of_linkText h₄
  have a₅ := length_of_literal h₅
  simp only [show "[[".length = 2 from rfl] at a₁
  simp only
  omega

/-! ## Hooks -/

/-- `|name>[` -/
def hookPrependedFront : Pattern :=
  .leaf do
    char '|'
    let name ← takeWhile Text.isNameChar
    literal ">["
    return { name := some (String.ofList name), tag := some .prepended }

/-- `<name|` -/
def nameTag : Scanner (List Char) := do
  char '<'
  let name ← takeWhile Text.isNameChar
  char '|'
  return name

/-- `]` without a name tag. -/
def hookBack : Pattern :=
  .plain do
    char ']'
    notAhead nameTag

/-- `]<name|` -/
def hookAppendedBack : Pattern :=
  .leaf do
    char ']'
    let name ← nameTag
    return { name := some (String.ofList name), tag := some .appended }

/-- A run of backticks. -/
def verbatimOpener : Pattern :=
  .leaf do
    let ticks ← takeWhile (· == Char.ofNat 0x60)
    return { depth := ticks.length }

end StoryScript.Pattern
