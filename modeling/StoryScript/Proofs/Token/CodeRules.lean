/-
  Which rule matches in code.

  In code the rules of markup are out, and the character in front rules out most of
  the others. `firstMatch_code` leaves the few candidates for a character, in order;
  the lemmas before it run scanners forward on a text whose end is left open.
-/
import Mathlib
import StoryScript.Proofs.Token.Capture

namespace StoryScript

/-! ## Running scanners forward -/

namespace Scanner

variable {α β : Type}

theorem bind_of_eq_some {x : Scanner α} {f : α → Scanner β} {cs mid : List Char} {a : α}
    (h : x cs = some (a, mid)) : (x >>= f) cs = f a mid := by
  simp [bind, StateT.bind, h]

theorem bind_of_eq_none {x : Scanner α} {f : α → Scanner β} {cs : List Char} (h : x cs = none) :
    (x >>= f) cs = none := by
  simp [bind, StateT.bind, h]

theorem discard_of_eq_some {x : Scanner α} {cs rest : List Char} {a : α} (h : x cs = some (a, rest)) :
    (discard x : Scanner Unit) cs = some ((), rest) := by
  show (x cs).bind (fun p => some ((), p.2)) = some ((), rest)
  rw [h]
  rfl

theorem discard_of_eq_none {x : Scanner α} {cs : List Char} (h : x cs = none) :
    (discard x : Scanner Unit) cs = none := by
  show (x cs).bind (fun p => some ((), p.2)) = none
  rw [h]
  rfl

@[simp] theorem pure_apply (a : α) (cs : List Char) : (pure a : Scanner α) cs = some (a, cs) := rfl

theorem orElse_of_eq_some {x y : Scanner α} {cs : List Char} {r : α × List Char}
    (h : x cs = some r) : (x <|> y) cs = some r := by
  show (x cs <|> y cs) = some r
  rw [h]
  rfl

theorem orElse_of_eq_none {x y : Scanner α} {cs : List Char} (h : x cs = none) :
    (x <|> y) cs = y cs := by
  show (x cs <|> y cs) = y cs
  rw [h]
  rfl

/-- An optional part that is not there. -/
theorem orElse_pure_of_eq_none {x : Scanner α} {a : α} {cs : List Char} (h : x cs = none) :
    (x <|> pure a) cs = some (a, cs) :=
  orElse_of_eq_none h

@[simp] theorem char_cons (c : Char) (cs : List Char) : char c (c :: cs) = some ((), cs) := by
  simp [char]

theorem char_eq_none {c : Char} {cs : List Char} (h : ∀ d ∈ cs.head?, d ≠ c) : char c cs = none := by
  cases cs with
  | nil => rfl
  | cons d cs => simp [char, h d rfl]

theorem satisfy_cons {p : Char → Bool} {c : Char} (h : p c = true) (cs : List Char) :
    satisfy p (c :: cs) = some (c, cs) := by
  simp [satisfy, h]

theorem satisfy_eq_none {p : Char → Bool} {cs : List Char} (h : ∀ c ∈ cs.head?, p c = false) :
    satisfy p cs = none := by
  cases cs with
  | nil => rfl
  | cons c cs => simp [satisfy, h c rfl]

/-- A run ends where the next character does not belong to it. -/
theorem takeWhile_append {p : Char → Bool} {run rest : List Char} (hrun : ∀ c ∈ run, p c = true)
    (hrest : ∀ c ∈ rest.head?, p c = false) : takeWhile p (run ++ rest) = some (run, rest) := by
  have htake : rest.takeWhile p = [] ∧ rest.dropWhile p = rest := by
    cases rest with
    | nil => simp
    | cons c cs => simp [hrest c rfl]
  rw [takeWhile, List.takeWhile_append_of_pos hrun, List.dropWhile_append_of_pos hrun, htake.1,
    htake.2, List.append_nil]

theorem takeWhile1_append {p : Char → Bool} {run rest : List Char} (hrun : ∀ c ∈ run, p c = true)
    (hne : run ≠ []) (hrest : ∀ c ∈ rest.head?, p c = false) :
    takeWhile1 p (run ++ rest) = some (run, rest) := by
  rw [takeWhile1, bind_of_eq_some (takeWhile_append hrun hrest)]
  simp [bind, StateT.bind, require, hne]

theorem takeWhile1_eq_none {p : Char → Bool} {cs : List Char} (h : ∀ c ∈ cs.head?, p c = false) :
    takeWhile1 p cs = none := by
  have hnil : takeWhile p cs = some ([], cs) := @takeWhile_append p [] cs (by simp) h
  rw [takeWhile1, bind_of_eq_some hnil]
  simp [bind, StateT.bind, require]

theorem boundary_of_head {cs : List Char} (h : ∀ c ∈ cs.head?, Text.isWord c = false) :
    boundary cs = some ((), cs) := by
  cases cs with
  | nil => rfl
  | cons c cs => simp [boundary, h c rfl]

end Scanner

namespace Pattern

/-- A pattern captures what its scanner reads. -/
theorem capture?_of_scan {p : Pattern} {text rest : List Char} {detail : Detail}
    {inside : Option Inside} (h : p.scan (text ++ rest) = some ((detail, inside), rest))
    (hne : text ≠ []) : p.capture? (text ++ rest) = some ⟨text, detail, inside⟩ :=
  capture?_eq_some.2 ⟨rest, h, by simp, hne⟩

theorem capture?_leaf {scan : Scanner Detail} {text rest : List Char} {detail : Detail}
    (h : scan (text ++ rest) = some (detail, rest)) (hne : text ≠ []) :
    (Pattern.leaf scan).capture? (text ++ rest) = some ⟨text, detail, none⟩ := by
  refine capture?_of_scan ?_ hne
  rw [Pattern.scan, Scanner.bind_of_eq_some h]
  rfl

theorem capture?_plain {scan : Scanner Unit} {text rest : List Char}
    (h : scan (text ++ rest) = some ((), rest)) (hne : text ≠ []) :
    (Pattern.plain scan).capture? (text ++ rest) = some ⟨text, {}, none⟩ :=
  capture?_leaf (by rw [Scanner.bind_of_eq_some h]; rfl) hne

theorem capture?_leaf_eq_none {scan : Scanner Detail} {source : List Char} (h : scan source = none) :
    (Pattern.leaf scan).capture? source = none := by
  have hscan : (Pattern.leaf scan).scan source = none := by
    rw [Pattern.scan, Scanner.bind_of_eq_none h]
  rw [capture?, hscan]

theorem capture?_plain_eq_none {scan : Scanner Unit} {source : List Char} (h : scan source = none) :
    (Pattern.plain scan).capture? source = none :=
  capture?_leaf_eq_none (Scanner.bind_of_eq_none h)

end Pattern

/-! ## Candidates -/

namespace Rule

/-- The rules of code that a text with this first character can match, in order. -/
def candidates (c : Char) : List Rule :=
  (expressionRules ++ codeRules).filter (·.admits [c])

theorem match?_of_not_fits {rule : Rule} {here : Situation} {source : List Char}
    (h : rule.fits here = false) : rule.match? here source = none := by
  simp [match?, h]

theorem match?_of_capture?_eq_none {rule : Rule} {here : Situation} {source : List Char}
    (h : rule.pattern.capture? source = none) : rule.match? here source = none := by
  simp [match?, h]

theorem match?_of_fits {rule : Rule} {here : Situation} {source : List Char}
    (hfits : rule.fits here = true) (hadmits : rule.admits source = true) :
    rule.match? here source = rule.pattern.capture? source := by
  simp [match?, hfits, hadmits]

/-- In code the first match is that of the first candidate that matches. -/
theorem firstMatch_code {here : Situation} (hmode : here.mode = .code) (c : Char) (cs : List Char) :
    firstMatch here (c :: cs) =
      (candidates c).findSome? fun rule => (rule.match? here (c :: cs)).map (rule, ·) := by
  have hmarkup : ∀ rule ∈ blockRules ++ inlineRules, rule.fits here = false := by
    have htable : (blockRules ++ inlineRules).all (fun rule => !rule.scope.activeIn .code) = true :=
      rfl
    intro rule hrule
    have hscope := List.all_eq_true.1 htable rule hrule
    rw [Bool.not_eq_true'] at hscope
    simp [fits, hmode, hscope]
  have hnone : (blockRules ++ inlineRules).findSome?
      (fun rule => (rule.match? here (c :: cs)).map (rule, ·)) = none := by
    rw [List.findSome?_eq_none_iff]
    intro rule hrule
    rw [match?_of_not_fits (hmarkup rule hrule), Option.map_none]
  rw [firstMatch, all, List.append_assoc _ expressionRules, List.findSome?_append, hnone,
    Option.none_or, candidates]
  -- a rule that the filter drops does not admit the source
  induction expressionRules ++ codeRules with
  | nil => rfl
  | cons rule rules ih =>
    rw [List.filter_cons, List.findSome?_cons, ih]
    by_cases h : rule.admits [c] = true
    · rw [if_pos h, List.findSome?_cons]
    · rw [if_neg h]
      have hadmits : rule.admits (c :: cs) = false := by simpa [admits] using h
      simp [match?, hadmits]

/-- The first match is that of a candidate if those in front of it do not match. -/
theorem firstMatch_of_candidates {here : Situation} {c : Char} {cs : List Char}
    (hmode : here.mode = .code) (skipped : List Rule) {rule : Rule} {capture : Capture}
    (hcandidates : ∃ rules, candidates c = skipped ++ rule :: rules)
    (hskipped : skipped.Forall fun other => other.match? here (c :: cs) = none)
    (hmatch : rule.match? here (c :: cs) = some capture) :
    firstMatch here (c :: cs) = some (rule, capture) := by
  obtain ⟨rules, hcandidates⟩ := hcandidates
  have hnone : skipped.findSome? (fun other => (other.match? here (c :: cs)).map (other, ·)) = none := by
    rw [List.findSome?_eq_none_iff]
    intro other hother
    rw [List.forall_iff_forall_mem.1 hskipped other hother, Option.map_none]
  rw [firstMatch_code hmode, hcandidates, List.findSome?_append, hnone, Option.none_or,
    List.findSome?_cons, hmatch, Option.map_some]

/-- The name of a call. -/
def nameRule : Rule :=
  { ofCode .macroName "" Pattern.macroName with follows := some [some .macroFront] }

/-- Right after the opener of a call the name of the call is read. -/
theorem firstMatch_of_calledName {here : Situation} (hmode : here.mode = .code)
    (hlast : here.last = some .macroFront) {source name rest : List Char} {isMethod : Bool}
    (h : Pattern.calledName source = some ((name, isMethod), rest)) :
    firstMatch here source = some (nameRule,
      { text := name ++ [':']
        detail := { name := some (String.ofList name), isMethod }
        inside := if isMethod then some { lead := [], body := name } else none }) := by
  have hsource : source = (name ++ [':']) ++ rest := by simpa using Pattern.append_of_calledName h
  obtain ⟨c, cs, hcons⟩ := List.exists_cons_of_ne_nil (l := source) (by simp [hsource])
  have hfits : nameRule.fits here = true := by
    simp [fits, nameRule, ofCode, hmode, hlast, Scope.activeIn]
  rw [hcons]
  refine firstMatch_of_candidates hmode [] ⟨_, rfl⟩ trivial ?_
  rw [match?_of_fits hfits (by rfl), ← hcons, hsource]
  refine Pattern.capture?_of_scan ?_ (by simp)
  rw [← hsource]
  exact Scanner.bind_of_eq_some h

end Rule

end StoryScript
