/-
  Scanners: what rules use to recognise the text in front of them.

  A scanner consumes a stretch of the source and gives a result, or fails. What it
  consumed is cut off the source by length, so a capture is a non-empty prefix of
  the source whatever the scanner does.
-/
import StoryScript.Text.Blank
import StoryScript.Text.Word
import StoryScript.Token.Basic

namespace StoryScript

/-- Recognises text at the start of the remaining source. -/
abbrev Scanner := StateT (List Char) Option

namespace Scanner

variable {α : Type}

/-- The remaining source, without consuming any of it. -/
def rest : Scanner (List Char) := get

/-- One character that satisfies `p`. -/
def satisfy (p : Char → Bool) : Scanner Char
  | c :: cs => if p c then some (c, cs) else none
  | [] => none

/-- The character `c`. -/
def char (c : Char) : Scanner Unit
  | d :: cs => if d = c then some ((), cs) else none
  | [] => none

/-- The longest run of characters that satisfy `p`. -/
def takeWhile (p : Char → Bool) : Scanner (List Char) :=
  fun cs => some (cs.takeWhile p, cs.dropWhile p)

/-- Succeeds, without consuming, where a condition holds. -/
def require (condition : Bool) : Scanner Unit :=
  fun cs => if condition then some ((), cs) else none

/-- The longest run of characters that satisfy `p`, at least one. -/
def takeWhile1 (p : Char → Bool) : Scanner (List Char) := do
  let cs ← takeWhile p
  require (!cs.isEmpty)
  return cs

/-- The given text, in any case. -/
def literal (word : String) : Scanner Unit :=
  fun cs =>
    if Text.startsWithIgnoringCase word.toList cs then some ((), cs.drop word.length) else none

/-- Succeeds where no word character follows. -/
def boundary : Scanner Unit :=
  fun cs => if cs.head?.any Text.isWord then none else some ((), cs)

/-- A word in any case, which must end there. -/
def keyword (word : String) : Scanner Unit := do
  literal word
  boundary

/-- Blanks, if any. -/
def blanks : Scanner (List Char) := takeWhile Text.isBlank

/-- At least one blank. -/
def blanks1 : Scanner (List Char) := takeWhile1 Text.isBlank

/-- Succeeds where the source ends. -/
def atEnd : Scanner Unit :=
  fun cs => if cs.isEmpty then some ((), cs) else none

/-- A line break, or the end of the source. -/
def endOfLine : Scanner Unit :=
  char '\n' <|> atEnd

/-- Consumes a fixed number of characters. -/
def skip (count : Nat) : Scanner Unit :=
  fun cs => if count ≤ cs.length then some ((), cs.drop count) else none

/-- Runs `p` without consuming. -/
def ahead (p : Scanner α) : Scanner α :=
  fun cs => (p cs).map fun (a, _) => (a, cs)

/-- Succeeds, without consuming, where `p` fails. -/
def notAhead (p : Scanner α) : Scanner Unit :=
  fun cs => if (p cs).isSome then none else some ((), cs)

/-- Runs a function that gives a result and what is left. -/
def ofSplit (f : List Char → Option (α × List Char)) : Scanner α := f

/-! ## What a scanner leaves -/

theorem bind_eq_some {β : Type} {x : Scanner α} {f : α → Scanner β} {cs rest : List Char} {b : β} :
    (x >>= f) cs = some (b, rest) ↔ ∃ a mid, x cs = some (a, mid) ∧ f a mid = some (b, rest) := by
  simp [bind, StateT.bind, Option.bind_eq_some_iff]

theorem pure_eq_some {a b : α} {cs rest : List Char} :
    (pure a : Scanner α) cs = some (b, rest) ↔ a = b ∧ cs = rest := by
  show some (a, cs) = some (b, rest) ↔ _
  simp

theorem require_eq_some {b : Bool} {u : Unit} {cs rest : List Char} :
    require b cs = some (u, rest) ↔ b = true ∧ cs = rest := by
  cases b <;> simp [require]

/-- A scanner that never puts anything back. -/
def Advances (x : Scanner α) : Prop :=
  ∀ cs a rest, x cs = some (a, rest) → rest.length ≤ cs.length

theorem advances_takeWhile (p : Char → Bool) : Advances (takeWhile p) := by
  intro cs a rest h
  simp only [takeWhile, Option.some.injEq, Prod.mk.injEq] at h
  obtain ⟨-, rfl⟩ := h
  exact (List.dropWhile_sublist p).length_le

theorem advances_takeWhile1 (p : Char → Bool) : Advances (takeWhile1 p) := by
  intro cs a rest h
  simp only [takeWhile1, bind_eq_some, require_eq_some, pure_eq_some] at h
  obtain ⟨b, mid, hb, -, mid', ⟨-, rfl⟩, -, rfl⟩ := h
  exact advances_takeWhile p _ _ _ hb

theorem length_of_satisfy {p : Char → Bool} {cs rest : List Char} {c : Char}
    (h : satisfy p cs = some (c, rest)) : rest.length + 1 = cs.length := by
  cases cs with
  | nil => simp [satisfy] at h
  | cons d cs =>
    simp only [satisfy] at h
    split at h
    · simp only [Option.some.injEq, Prod.mk.injEq] at h
      simp [h.2]
    · simp at h

theorem length_of_char {c : Char} {cs rest : List Char} {u : Unit}
    (h : char c cs = some (u, rest)) : rest.length + 1 = cs.length := by
  cases cs with
  | nil => simp [char] at h
  | cons d cs =>
    simp only [char] at h
    split at h
    · simp only [Option.some.injEq, Prod.mk.injEq, true_and] at h
      simp [h]
    · simp at h

theorem advances_char (c : Char) : Advances (char c) := by
  intro cs a rest h
  have := length_of_char h
  omega

/-- A literal consumes as many characters as it has. -/
theorem length_of_literal {word : String} {cs rest : List Char} {u : Unit}
    (h : literal word cs = some (u, rest)) : rest.length + word.length = cs.length := by
  simp only [literal] at h
  split at h
  · rename_i hw
    simp only [Option.some.injEq, Prod.mk.injEq, true_and] at h
    have := Text.length_le_of_startsWithIgnoringCase hw
    simp only [String.length_toList] at this
    simp only [← h, List.length_drop]
    omega
  · simp at h

/-- A run and what follows it make up the source. -/
theorem length_of_takeWhile {p : Char → Bool} {cs run rest : List Char}
    (h : takeWhile p cs = some (run, rest)) : run.length + rest.length = cs.length := by
  simp only [takeWhile, Option.some.injEq, Prod.mk.injEq] at h
  rw [← h.1, ← h.2, ← List.length_append, List.takeWhile_append_dropWhile]

theorem orElse_eq_some {x y : Scanner α} {cs rest : List Char} {a : α} :
    (x <|> y) cs = some (a, rest) ↔
      x cs = some (a, rest) ∨ (x cs = none ∧ y cs = some (a, rest)) := by
  cases h : x cs <;> simp [HOrElse.hOrElse, OrElse.orElse, Alternative.orElse, StateT.orElse, h]

theorem Advances.orElse {x y : Scanner α} (hx : Advances x) (hy : Advances y) :
    Advances (x <|> y) := by
  intro cs a rest h
  rcases orElse_eq_some.1 h with h | ⟨-, h⟩
  · exact hx _ _ _ h
  · exact hy _ _ _ h

theorem advances_endOfLine : Advances endOfLine := by
  refine (advances_char '\n').orElse fun cs a rest h => ?_
  simp only [atEnd] at h
  split at h
  · simp only [Option.some.injEq, Prod.mk.injEq] at h
    simp [h.2]
  · simp at h

end Scanner

/-- The part of a match that is lexed in its own right: `body`, after `lead`. -/
structure Inside where
  lead : List Char
  body : List Char

/-- A pattern of the source: a leaf, or one whose match can hold text to lex in its turn. -/
inductive Pattern where
  | leaf (scan : Scanner Detail)
  | nest (scan : Scanner (Detail × Option Inside))

/-- A successful match. -/
structure Capture where
  text : List Char
  detail : Detail
  inside : Option Inside

namespace Pattern

/-- A pattern that tells nothing but how far it reaches. -/
def plain (scan : Scanner Unit) : Pattern :=
  .leaf (do scan; return {})

/-- The pattern as one scanner. -/
def scan : Pattern → Scanner (Detail × Option Inside)
  | leaf scan => do return (← scan, none)
  | nest scan => scan

/-- Matches a pattern at the start of the source. An empty match is none. -/
def capture? (p : Pattern) (source : List Char) : Option Capture :=
  match p.scan source with
  | none => none
  | some ((detail, inside), rest) =>
    let text := source.take (source.length - rest.length)
    if text.isEmpty then none else some { text, detail, inside }

/-- A capture is a non-empty prefix of the source. -/
theorem text_of_capture? {p : Pattern} {source : List Char} {c : Capture}
    (h : p.capture? source = some c) : c.text ≠ [] ∧ c.text <+: source := by
  simp only [capture?] at h
  split at h
  · simp at h
  · split at h
    · simp at h
    · rename_i hne
      simp only [Option.some.injEq] at h
      subst h
      exact ⟨by simpa [List.isEmpty_iff] using hne, List.take_prefix _ _⟩

/-- What a pattern leaves to be lexed is shorter than what it matched. -/
def Shrinks (p : Pattern) : Prop :=
  ∀ source detail inside rest, p.scan source = some ((detail, some inside), rest) →
    inside.body.length + rest.length < source.length

/-- Whether a pattern leaves nothing to be lexed. -/
def isLeaf : Pattern → Bool
  | leaf _ => true
  | nest _ => false

theorem shrinks_of_isLeaf {p : Pattern} (hp : p.isLeaf = true) : p.Shrinks := by
  intro source detail inside rest h
  cases p with
  | nest => simp [isLeaf] at hp
  | leaf s =>
    simp only [Pattern.scan, Scanner.bind_eq_some, Scanner.pure_eq_some, Prod.mk.injEq] at h
    obtain ⟨_, _, -, ⟨-, hi⟩, -⟩ := h
    simp at hi

theorem Shrinks.of_capture? {p : Pattern} (hp : p.Shrinks) {source : List Char} {c : Capture}
    (h : p.capture? source = some c) {inside : Inside} (hi : c.inside = some inside) :
    inside.body.length < c.text.length := by
  simp only [capture?] at h
  split at h
  · simp at h
  · rename_i detail i rest hs
    split at h
    · simp at h
    · simp only [Option.some.injEq] at h
      subst h
      simp only at hi
      subst hi
      have := hp _ _ _ _ hs
      simp only [List.length_take]
      omega

end Pattern

end StoryScript
