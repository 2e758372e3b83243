/-
  Lexing with other tables of rules.

  The lexer is written down once more with the table as a parameter. Two tables whose
  rules find the same matches, and make the same tokens of them, give the same trees and
  the same notices. The table without the first characters of its rules is such a table:
  every match starts with one of the characters that its rule names, so the look at the
  first character only saves time.
-/
import Mathlib
import StoryScript.Proofs.Token.Starts
import StoryScript.Token.Lexer

namespace StoryScript

/-- The rule without the look at the first character. -/
def Rule.unfiltered (rule : Rule) : Rule :=
  { rule with starts := [] }

namespace Lexer

/-- What lexing does with a match, given how it goes on. -/
def proceed (next : Mode → State → List Char → Noted (List Token)) (whole : Mode) (s : State)
    (source : List Char) (rule : Rule) (capture : Capture) : Noted (List Token) := do
  let children ← match capture.inside with
    | none => pure []
    | some i => next rule.scope.innerMode { offset := s.offset + Text.width i.lead } i.body
  let s ← (s.flush whole).place (build rule capture s.offset children)
  next whole (s.advance capture.text) (source.drop capture.text.length)

theorem lexFrom_cons (whole : Mode) (s : State) (c : Char) (cs : List Char) :
    lexFrom whole s (c :: cs) =
      match Rule.firstMatch (s.situation whole) (c :: cs) with
      | none => lexFrom whole (s.defer c) cs
      | some (rule, capture) => proceed lexFrom whole s (c :: cs) rule capture := by
  rw [lexFrom]
  split
  · rename_i hfound
    rw [hfound]
  · rename_i rule capture hfound
    rw [hfound]
    simp only [proceed]
    split <;> simp_all

/-- Only the kind, the scope and the role of a rule bear on what lexing does with a match. -/
theorem proceed_congr {next other : Mode → State → List Char → Noted (List Token)} {whole : Mode}
    {s : State} {source : List Char} {rule own : Rule} {capture : Capture}
    (hrule : own.unfiltered = rule.unfiltered)
    (hinside : ∀ i, capture.inside = some i →
      next rule.scope.innerMode { offset := s.offset + Text.width i.lead } i.body =
        other rule.scope.innerMode { offset := s.offset + Text.width i.lead } i.body)
    (hrest : ∀ s : State, next whole (s.advance capture.text) (source.drop capture.text.length) =
      other whole (s.advance capture.text) (source.drop capture.text.length)) :
    proceed next whole s source own capture = proceed other whole s source rule capture := by
  have hscope : own.scope = rule.scope := by
    show own.unfiltered.scope = rule.unfiltered.scope
    rw [hrule]
  have hbuild (children : List Token) :
      build own capture s.offset children = build rule capture s.offset children := by
    show build own.unfiltered capture s.offset children =
      build rule.unfiltered capture s.offset children
    rw [hrule]
  simp only [proceed, hscope, hbuild, hrest]
  cases hi : capture.inside with
  | none => rfl
  | some i => simp only [hinside i hi]

end Lexer

/-- Rules in order of priority. What their matches leave to be lexed is shorter than the match. -/
structure Table where
  rules : List Rule
  shrinks : ∀ rule ∈ rules, rule.pattern.Shrinks

namespace Table

open Lexer

/-- The first rule of the table that matches, with its match. -/
def firstMatch (table : Table) (here : Situation) (source : List Char) : Option (Rule × Capture) :=
  table.rules.findSome? fun rule => (rule.match? here source).map (rule, ·)

variable {table : Table} {here : Situation} {source : List Char} {rule : Rule} {capture : Capture}

theorem capture?_of_firstMatch (h : table.firstMatch here source = some (rule, capture)) :
    rule ∈ table.rules ∧ rule.pattern.capture? source = some capture := by
  obtain ⟨r, hr, h⟩ := List.exists_of_findSome?_eq_some h
  simp only [Option.map_eq_some_iff, Prod.mk.injEq] at h
  obtain ⟨c, hc, rfl, rfl⟩ := h
  exact ⟨hr, Rule.capture?_of_match? hc⟩

theorem text_of_firstMatch (h : table.firstMatch here source = some (rule, capture)) :
    capture.text ≠ [] ∧ capture.text <+: source :=
  Pattern.text_of_capture? (capture?_of_firstMatch h).2

theorem inside_of_firstMatch (h : table.firstMatch here source = some (rule, capture))
    {inside : Inside} (hinside : capture.inside = some inside) :
    inside.body.length < source.length := by
  obtain ⟨hrule, hcapture⟩ := capture?_of_firstMatch h
  have hbody := (table.shrinks rule hrule).of_capture? hcapture hinside
  have htext := (text_of_firstMatch h).2.length_le
  omega

/-- Lexes the rest of a text with the rules of the table. -/
def lexFrom (table : Table) (whole : Mode) (s : State) (source : List Char) : Noted (List Token) :=
  match source with
  | [] => s.finish whole
  | c :: cs =>
    match _found : table.firstMatch (s.situation whole) (c :: cs) with
    | none => table.lexFrom whole (s.defer c) cs
    | some (rule, capture) => do
      let children ← match _held : capture.inside with
        | none => pure []
        | some i => table.lexFrom rule.scope.innerMode { offset := s.offset + Text.width i.lead } i.body
      let s ← (s.flush whole).place (build rule capture s.offset children)
      table.lexFrom whole (s.advance capture.text) ((c :: cs).drop capture.text.length)
termination_by source.length
decreasing_by
  · simp
  · have := List.length_pos_iff.2 (text_of_firstMatch _found).1
    simp only [List.length_drop, List.length_cons]
    omega
  · exact inside_of_firstMatch _found _held

theorem lexFrom_cons (table : Table) (whole : Mode) (s : State) (c : Char) (cs : List Char) :
    table.lexFrom whole s (c :: cs) =
      match table.firstMatch (s.situation whole) (c :: cs) with
      | none => table.lexFrom whole (s.defer c) cs
      | some (rule, capture) => proceed table.lexFrom whole s (c :: cs) rule capture := by
  rw [lexFrom]
  split
  · rename_i hfound
    rw [hfound]
  · rename_i rule capture hfound
    rw [hfound]
    simp only [proceed]
    split <;> simp_all

/-- Lexes a text in a mode with the rules of the table. -/
def lexIn (table : Table) (mode : Mode) (source : String) : Noted Token := do
  let children ← table.lexFrom mode { offset := 0 } source.toList
  return {
    kind := .root
    text := source
    inner := some source
    children := mergeAll children
    mode }

/-- The rules of the language. -/
def standard : Table where
  rules := Rule.all
  shrinks _ := Rule.shrinks_of_mem_all

/-- The table without the looks at the first character. -/
def unfiltered (table : Table) : Table where
  rules := table.rules.map Rule.unfiltered
  shrinks := by
    intro rule hrule
    obtain ⟨filtered, hfiltered, rfl⟩ := List.mem_map.1 hrule
    exact table.shrinks filtered hfiltered

/-! ## Tables that agree -/

/-- The table finds what the rules of the language find, by rules that differ from those in no more
than the first characters. -/
def Agrees (table : Table) : Prop :=
  ∀ here source, (table.firstMatch here source).map (fun found => (found.1.unfiltered, found.2)) =
    (Rule.firstMatch here source).map (fun found => (found.1.unfiltered, found.2))

theorem Agrees.firstMatch_eq_none (h : table.Agrees) (hfound : Rule.firstMatch here source = none) :
    table.firstMatch here source = none := by
  have hagree := h here source
  rw [hfound] at hagree
  exact Option.map_eq_none_iff.1 hagree

theorem Agrees.firstMatch_eq_some (h : table.Agrees)
    (hfound : Rule.firstMatch here source = some (rule, capture)) :
    ∃ own, table.firstMatch here source = some (own, capture) ∧
      own.unfiltered = rule.unfiltered := by
  have hagree := h here source
  rw [hfound] at hagree
  obtain ⟨⟨own, capture'⟩, hown, heq⟩ := Option.map_eq_some_iff.1 hagree
  obtain ⟨hrule, rfl⟩ := Prod.mk.inj heq
  exact ⟨own, hown, hrule⟩

/-- A table that finds the same matches makes the same tokens of a text, with the same notices. -/
theorem Agrees.lexFrom_eq (h : table.Agrees) (whole : Mode) (s : State) (source : List Char) :
    table.lexFrom whole s source = Lexer.lexFrom whole s source := by
  induction whole, s, source using Lexer.lexFrom.induct with
  | case1 whole s => rw [lexFrom, Lexer.lexFrom]
  | case2 whole s c cs unclaimed ih =>
    rw [lexFrom_cons, h.firstMatch_eq_none unclaimed, Lexer.lexFrom_cons, unclaimed]
    exact ih
  | case3 whole s c cs rule capture found leaf ih =>
    obtain ⟨own, hown, hrule⟩ := h.firstMatch_eq_some found
    rw [lexFrom_cons, hown, Lexer.lexFrom_cons, found]
    refine proceed_congr hrule ?_ ih
    intro i held
    simp [leaf] at held
  | case4 whole s c cs rule capture found i held ih ihInside =>
    obtain ⟨own, hown, hrule⟩ := h.firstMatch_eq_some found
    rw [lexFrom_cons, hown, Lexer.lexFrom_cons, found]
    refine proceed_congr hrule ?_ ih
    intro j held'
    rw [held, Option.some.injEq] at held'
    subst held'
    exact ihInside

theorem Agrees.lexIn_eq (h : table.Agrees) (mode : Mode) (source : String) :
    table.lexIn mode source = Lexer.lexIn mode source := by
  rw [lexIn, Lexer.lexIn, h.lexFrom_eq]

theorem agrees_standard : standard.Agrees :=
  fun _ _ => rfl

/-- Without the look at the first character a rule matches where it matches with it. -/
theorem match?_unfiltered (h : rule ∈ Rule.all) (here : Situation) (source : List Char) :
    rule.unfiltered.match? here source = rule.match? here source := by
  show (if rule.fits here && true then rule.pattern.capture? source else none) = _
  rw [Rule.match?]
  cases hcapture : rule.pattern.capture? source with
  | none => simp
  | some capture => rw [Rule.admits_of_capture? h hcapture]

theorem agrees_unfiltered : standard.unfiltered.Agrees := by
  intro here source
  have hsame : ∀ rule ∈ Rule.all, rule.unfiltered.match? here source = rule.match? here source :=
    fun rule h => match?_unfiltered h here source
  show ((Rule.all.map Rule.unfiltered).findSome? _).map _ = (Rule.all.findSome? _).map _
  -- the search is the same over any rules with this property
  generalize Rule.all = rules at hsame
  induction rules with
  | nil => rfl
  | cons rule rules ih =>
    obtain ⟨hrule, hrules⟩ := List.forall_mem_cons.1 hsame
    rw [List.map_cons, List.findSome?_cons, List.findSome?_cons, hrule]
    cases rule.match? here source with
    | none => exact ih hrules
    | some capture => rfl

end Table

/-- The look at the first character only saves time: a rule that names first characters matches
nothing that starts with another, and without any of these looks every text has the same tree, with
the same notices. -/
theorem unfiltered_lexIn_eq :
    (∀ rule ∈ Rule.all, rule.starts ≠ [] → ∀ source capture,
      rule.pattern.capture? source = some capture → ∃ c cs, source = c :: cs ∧ c ∈ rule.starts) ∧
    ∀ mode source, Table.standard.lexIn mode source = Lexer.lexIn mode source ∧
      Table.standard.unfiltered.lexIn mode source = Lexer.lexIn mode source := by
  refine ⟨?_, fun mode source => ⟨?_, ?_⟩⟩
  · intro rule hrule hstarts source capture hcapture
    exact Rule.mem_starts_of_capture? hrule hstarts hcapture
  · exact Table.agrees_standard.lexIn_eq mode source
  · exact Table.agrees_unfiltered.lexIn_eq mode source

/-- An address whose scheme is in capitals. -/
theorem unfiltered_lexIn_eq_address :
    Rule.ofInline .url "hHmMjJfFdD" Pattern.url ∈ Rule.all ∧
    Pattern.url.capture? "MAILTO://a b".toList = some ⟨"MAILTO://a".toList, {}, none⟩ ∧
    (∃ c cs, "MAILTO://a b".toList = c :: cs ∧ c ∈ "hHmMjJfFdD".toList) ∧
    (Table.standard.unfiltered.lexIn .markup "MAILTO://a b").value = lex "MAILTO://a b" := by
  have hrule : Rule.ofInline .url "hHmMjJfFdD" Pattern.url ∈ Rule.all := by
    simp [Rule.all, Rule.inlineRules]
  have hcapture : Pattern.url.capture? "MAILTO://a b".toList =
      some ⟨"MAILTO://a".toList, {}, none⟩ := rfl
  refine ⟨hrule, hcapture, ?_, ?_⟩
  · exact unfiltered_lexIn_eq.1 _ hrule (by decide) _ _ hcapture
  · rw [(unfiltered_lexIn_eq.2 .markup "MAILTO://a b").2]
    rfl

end StoryScript
