/-
  What lexing makes of each step.

  No rule comes to a fault when it is read by byte offsets (`forall₂_readings`), and no rule
  loses its place (`consumes_of_mem_all`). So a match is a slice at the start of the source,
  the text inside it is a shorter slice of the match (`isSound_of_mem_all`), and lexing takes
  at most as many steps as there are characters, those inside matches among them
  (`exists_lexesIn`).
-/
import Mathlib
import StoryScript.Proofs.Text.Slice
import StoryScript.Proofs.Token.Consumption
import StoryScript.Proofs.Token.Cursor.Table
import StoryScript.Proofs.Token.Derivation

namespace StoryScript

/-! ## Slices -/

namespace Pattern

/-- What a pattern reports are slices of the source between places where characters start. -/
structure IsSound (p : Pattern) : Prop where
  /-- A match is a slice at the start of the source, with something in it, up to where the scan
  stopped. -/
  text {source : List Char} {c : Capture} (captured : p.capture? source = some c) :
    c.text ≠ [] ∧ Text.slice? source 0 (Text.width c.text) = some c.text ∧
      ∃ rest, p.scan source = some ((c.detail, c.inside), rest) ∧ source = c.text ++ rest
  /-- What is inside a match is a slice of it, shorter than the match. -/
  inside {source : List Char} {c : Capture} {i : Inside} (captured : p.capture? source = some c)
    (held : c.inside = some i) :
    Text.slice? c.text (Text.width i.lead) (Text.width i.lead + Text.width i.body) = some i.body ∧
      i.body.length < c.text.length

theorem isSound_of_consumes {p : Pattern} {n : Nat} (hconsumes : Scanner.Consumes n p.scan)
    (hencloses : p.Encloses) (hshrinks : p.Shrinks) : p.IsSound where
  text := by
    intro source c hcapture
    obtain ⟨rest, hscan, htext, hne⟩ := capture?_eq_some.1 hcapture
    obtain ⟨used, hsource, -⟩ := hconsumes source _ rest hscan
    have hused : c.text = used := htext.trans (take_of_append hsource)
    refine ⟨hne, ?_, rest, hscan, by rw [hused, hsource]⟩
    exact Text.slice?_eq_some_iff.2 ⟨[], rest, by rw [hused, hsource]; rfl, rfl, by omega⟩
  inside := by
    intro source c i hcapture hinside
    obtain ⟨trail, htrail⟩ := hencloses.of_capture? hcapture hinside
    refine ⟨?_, hshrinks.of_capture? hcapture hinside⟩
    exact Text.slice?_eq_some_iff.2 ⟨i.lead, trail, htrail, rfl, rfl⟩

end Pattern

theorem Rule.isSound_of_mem_all {rule : Rule} (h : rule ∈ all) : rule.pattern.IsSound :=
  Pattern.isSound_of_consumes (consumes_of_mem_all h) (encloses_of_mem_all h) (shrinks_of_mem_all h)

/-! ## Steps of lexing -/

namespace Lexer

/-- Lexing the source from a state gives the tokens in a number of steps, counting those inside
matches. -/
inductive LexesIn : Nat → Mode → State → List Char → List Token → Prop where
  | finish {whole : Mode} {s : State} : LexesIn 0 whole s [] (s.finish whole).value
  | defer {n : Nat} {whole : Mode} {s : State} {c : Char} {cs : List Char} {tokens : List Token}
      (unclaimed : Rule.firstMatch (s.situation whole) (c :: cs) = none)
      (next : LexesIn n whole (s.defer c) cs tokens) : LexesIn (n + 1) whole s (c :: cs) tokens
  | leaf {n : Nat} {whole : Mode} {s : State} {source rest : List Char} {rule : Rule}
      {capture : Capture} {tokens : List Token}
      (found : Rule.firstMatch (s.situation whole) source = some (rule, capture))
      (split : source = capture.text ++ rest) (empty : capture.inside = none)
      (next : LexesIn n whole (s.accept whole rule capture []) rest tokens) :
      LexesIn (n + 1) whole s source tokens
  | nest {m n : Nat} {whole : Mode} {s : State} {source rest : List Char} {rule : Rule}
      {capture : Capture} {i : Inside} {children tokens : List Token}
      (found : Rule.firstMatch (s.situation whole) source = some (rule, capture))
      (split : source = capture.text ++ rest) (held : capture.inside = some i)
      (inside : LexesIn m rule.scope.innerMode { offset := s.offset + Text.width i.lead } i.body
        children)
      (next : LexesIn n whole (s.accept whole rule capture children) rest tokens) :
      LexesIn (m + n + 1) whole s source tokens

/-- A step that takes a match goes on with less, both after the match and inside it. -/
theorem step_of_firstMatch {whole : Mode} {s : State} {source : List Char} {rule : Rule}
    {capture : Capture}
    (found : Rule.firstMatch (s.situation whole) source = some (rule, capture)) :
    ∃ rest, source = capture.text ++ rest ∧ rest.length < source.length ∧
      (∀ i, capture.inside = some i → i.body.length + rest.length < source.length) ∧
      (lexFrom whole s source).value = (lexFrom whole
        (s.accept whole rule capture (childrenOf rule capture s.offset)) rest).value := by
  obtain ⟨hmem, hmatch⟩ := Rule.of_firstMatch found
  have hsound := Rule.isSound_of_mem_all hmem
  have hcapture := Rule.capture?_of_match? hmatch
  obtain ⟨hne, -, rest, -, rfl⟩ := hsound.text hcapture
  have hpos := List.length_pos_iff.2 hne
  refine ⟨rest, rfl, ?_, ?_, value_lexFrom_append found⟩
  · rw [List.length_append]
    omega
  · intro i held
    have hshorter := (hsound.inside hcapture held).2
    rw [List.length_append]
    omega

/-- Lexing takes at most one step for each character. -/
theorem exists_lexesIn (whole : Mode) (s : State) (source : List Char) :
    ∃ n ≤ source.length, LexesIn n whole s source (lexFrom whole s source).value := by
  induction whole, s, source using lexFrom.induct with
  | case1 whole s =>
    rw [value_lexFrom_nil]
    exact ⟨0, Nat.zero_le _, .finish⟩
  | case2 whole s c cs unclaimed ih =>
    obtain ⟨n, hn, hnext⟩ := ih
    rw [value_lexFrom_defer unclaimed]
    exact ⟨n + 1, Nat.succ_le_succ hn, .defer unclaimed hnext⟩
  | case3 whole s c cs rule capture found leaf ih =>
    obtain ⟨rest, split, hrest, -, hvalue⟩ := step_of_firstMatch found
    rw [split, List.drop_left] at ih
    have hchildren : childrenOf rule capture s.offset = [] := by simp only [childrenOf, leaf]
    rw [hchildren] at hvalue
    obtain ⟨n, hn, hnext⟩ := ih ((s.flush whole).place (build rule capture s.offset [])).value
    refine ⟨n + 1, by omega, ?_⟩
    rw [hvalue]
    exact .leaf found split leaf hnext
  | case4 whole s c cs rule capture found i held ih ihInside =>
    obtain ⟨rest, split, hrest, hshorter, hvalue⟩ := step_of_firstMatch found
    rw [split, List.drop_left] at ih
    have hchildren : childrenOf rule capture s.offset = (lexFrom rule.scope.innerMode
        { offset := s.offset + Text.width i.lead } i.body).value := by simp only [childrenOf, held]
    obtain ⟨m, hm, hinside⟩ := ihInside
    rw [← hchildren] at hinside
    obtain ⟨n, hn, hnext⟩ := ih ((s.flush whole).place
      (build rule capture s.offset (childrenOf rule capture s.offset))).value
    -- the steps inside and after the match share the characters that the match leaves them
    have hshare := hshorter i held
    refine ⟨m + n + 1, by omega, ?_⟩
    rw [hvalue]
    exact .nest found split held hinside hnext

/-- Every rule is read by byte offsets without a fault, what it reads is a slice of the source, and
lexing goes forward with each: a step takes at least one character, what is lexed inside a match
is shorter than the match, and all steps together are no more than the characters. -/
theorem lexing_progress (whole : Mode) (s : State) (source : List Char) :
    List.Forall₂ Rule.IsReadBy Rule.all Cursor.readings ∧
    (∀ rule ∈ Rule.all, rule.pattern.IsSound ∧
      ∀ found rest, rule.admits source = true → rule.pattern.scan source = some (found, rest) →
        rest.length < source.length) ∧
    (∀ rule capture, Rule.firstMatch (s.situation whole) source = some (rule, capture) →
      ∃ rest, source = capture.text ++ rest ∧ rest.length < source.length ∧
        (∀ i, capture.inside = some i → i.body.length + rest.length < source.length) ∧
        (lexFrom whole s source).value = (lexFrom whole
          (s.accept whole rule capture (childrenOf rule capture s.offset)) rest).value) ∧
    ∃ n ≤ source.length, LexesIn n whole s source (lexFrom whole s source).value := by
  refine ⟨Rule.forall₂_readings,
    fun rule hmem => ⟨Rule.isSound_of_mem_all hmem, fun found rest hadmits hscan => ?_⟩,
    fun rule capture found => step_of_firstMatch found, exists_lexesIn whole s source⟩
  exact Rule.length_lt_of_scan hmem hadmits hscan

/-- A link whose shown part is one character of two bytes, after two brackets. -/
theorem lexing_progress_link :
    Rule.ofInline .link "[" Pattern.passageLink ∈ Rule.all ∧
    (∃ c, Cursor.capture? Cursor.passageLink ['[', '[', 'é', '-', '>', 'b', ']', ']', '!'] =
        .ok (some c) ∧
      c.inside = some { lead := ['[', '['], body := ['é'] } ∧
      Text.slice? c.text 2 4 = some ['é'] ∧ 1 < c.text.length) ∧
    ∃ n ≤ 9, LexesIn n .markup { offset := 0 } ['[', '[', 'é', '-', '>', 'b', ']', ']', '!']
      (lexFrom .markup { offset := 0 } ['[', '[', 'é', '-', '>', 'b', ']', ']', '!']).value := by
  have hmem : Rule.ofInline .link "[" Pattern.passageLink ∈ Rule.all := by
    simp [Rule.all, Rule.inlineRules]
  obtain ⟨hread, hsound, -, hsteps⟩ :=
    lexing_progress .markup { offset := 0 } ['[', '[', 'é', '-', '>', 'b', ']', ']', '!']
  have hlink : (Rule.ofInline .link "[" Pattern.passageLink).IsReadBy ⟨.link, Cursor.passageLink⟩ :=
    hread.get (i := 20) (by decide) (by decide)
  obtain ⟨c, hcapture, hinside⟩ : ∃ c,
      Pattern.passageLink.capture? ['[', '[', 'é', '-', '>', 'b', ']', ']', '!'] = some c ∧
        c.inside = some { lead := ['[', '['], body := ['é'] } := ⟨_, rfl, rfl⟩
  refine ⟨hmem, ⟨c, ?_, hinside, (hsound _ hmem).1.inside hcapture hinside⟩, hsteps⟩
  rw [← hcapture]
  exact hlink.capture _

end Lexer

end StoryScript
