/-
  The marks that open and close.

  A folded kind comes from few pairs of an opener and a closer (`Kind.pairs`), and most
  of these have one spelling (`Kind.spelling`). At a mark that only some rules name, the
  search for a match is a search among those (`firstMatch_at_mark`), and what comes
  before the rule that matched does not match (`match?_of_earlier`).
-/
import Mathlib
import StoryScript.Proofs.Token.Details
import StoryScript.Proofs.Token.Origins
import StoryScript.Proofs.Token.Starts

namespace StoryScript

namespace Kind

/-- The openers and closers that fold into a kind. -/
def pairs : Kind → List (Kind × Kind)
  | em => [(emFront, emBack)]
  | strong => [(strongFront, strongBack)]
  | bold => [(boldOpener, boldOpener)]
  | italic => [(italicOpener, italicOpener)]
  | del => [(delOpener, delOpener)]
  | sup => [(supOpener, supOpener)]
  | comment => [(commentFront, commentBack)]
  | hook => [(hookPrependedFront, hookBack), (hookAnonymousFront, hookBack),
      (hookAppendedFront, hookAppendedBack)]
  | verbatim => [(verbatimOpener, verbatimOpener)]
  | collapsed => [(collapsedFront, collapsedBack)]
  | macroCall => [(macroFront, groupingBack)]
  | grouping => [(groupingFront, groupingBack)]
  | _ => []

theorem mem_pairs_of_mem_folds {front back kind : Kind} (h : (front, kind) ∈ back.folds) :
    (front, back) ∈ kind.pairs := by
  cases back <;> simp only [folds, List.mem_cons, List.not_mem_nil, or_false, Prod.mk.injEq] at h
  -- these two closers have two openers each, and all others one
  case groupingBack | hookBack => rcases h with ⟨rfl, rfl⟩ | ⟨rfl, rfl⟩ <;> decide
  all_goals obtain ⟨rfl, rfl⟩ := h; decide

/-- The spelling of some openers and closers that have only one. -/
def spelling : Kind → List Char
  | emFront | emBack => ['*']
  | strongFront | strongBack => ['*', '*']
  | boldOpener => ['\'', '\'']
  | italicOpener => ['/', '/']
  | delOpener => ['~', '~']
  | supOpener => ['^', '^']
  | collapsedFront => ['\x7b']
  | macroFront | groupingFront => ['(']
  | _ => []

end Kind

/-- A text without letters is matched as it is spelled. -/
theorem Pattern.text_of_exactly {text : String} {source : List Char} {capture : Capture}
    (hletters : text.toList.all (fun c => !c.isAlpha) = true)
    (h : (exactly text).capture? source = some capture) : capture.text = text.toList := by
  obtain ⟨rest, hscan, htext, -⟩ := capture?_eq_some.1 h
  rw [htext, take_of_append (Scanner.append_of_literal hletters (of_scan_plain hscan))]

theorem Text.startsWithIgnoringCase_self (word cs : List Char) :
    startsWithIgnoringCase word (word ++ cs) = true := by
  induction word with
  | nil => rfl
  | cons w word ih => simp [startsWithIgnoringCase, ih]

theorem Pattern.capture?_exactly {text : String} (hne : text.toList ≠ []) (cs : List Char) :
    (exactly text).capture? (text.toList ++ cs) = some ⟨text.toList, {}, none⟩ := by
  refine capture?_plain ?_ hne
  rw [Scanner.literal, Text.startsWithIgnoringCase_self, if_pos rfl, ← String.length_toList,
    List.drop_left]

namespace Rule

variable {here : Situation} {source : List Char} {rule : Rule} {capture : Capture}

/-- The rules of marks with one spelling, but for the parentheses. -/
theorem spelled_rules :
    all.filter (fun rule => !rule.kind.spelling.isEmpty && rule.kind.spelling != ['(']) =
    [{ ofInline .emBack "*" (Pattern.exactly "*") with needsFront := true },
     { ofInline .strongBack "*" (Pattern.exactly "**") with needsFront := true },
     { ofInline .strongFront "*" (Pattern.exactly "**") with isFront := true },
     { ofInline .emFront "*" (Pattern.exactly "*") with isFront := true },
     { ofInline .boldOpener "'" (Pattern.exactly "''") with isFront := true },
     { ofInline .italicOpener "/" (Pattern.exactly "//") with isFront := true },
     { ofInline .delOpener "~" (Pattern.exactly "~~") with isFront := true },
     { ofInline .supOpener "^" (Pattern.exactly "^^") with isFront := true },
     { ofInline .collapsedFront "\x7b" (Pattern.exactly "\x7b") with isFront := true }] :=
  rfl

/-- A mark is matched as it is spelled. -/
theorem text_eq_spelling (found : firstMatch here source = some (rule, capture))
    (h : rule.kind.spelling ≠ []) : capture.text = rule.kind.spelling := by
  obtain ⟨hrule, hmatch⟩ := of_firstMatch found
  by_cases hparen : rule.kind.spelling = ['(']
  · have hkind : rule.kind = .macroFront ∨ rule.kind = .groupingFront := by
      revert hparen
      cases rule.kind <;> decide
    rw [hparen]
    rcases hkind with hkind | hkind
    · obtain ⟨rest, hsource⟩ := (text_of_firstMatch found).2
      exact (Lexer.macroFront_of_firstMatch found hsource.symm hkind).1
    · exact (Lexer.of_groupingFront found hkind).1
  · have hmem : rule ∈
        all.filter (fun rule => !rule.kind.spelling.isEmpty && rule.kind.spelling != ['(']) := by
      simp [hrule, h, hparen]
    have hcapture := capture?_of_match? hmatch
    rw [spelled_rules] at hmem
    simp only [List.mem_cons, List.not_mem_nil, or_false] at hmem
    rcases hmem with rfl | rfl | rfl | rfl | rfl | rfl | rfl | rfl | rfl <;>
      exact Pattern.text_of_exactly rfl hcapture

/-- A match starts with one of the characters that its rule names. -/
theorem head_of_firstMatch (found : firstMatch here source = some (rule, capture))
    (hstarts : rule.starts ≠ []) : ∃ c cs, capture.text = c :: cs ∧ c ∈ rule.starts := by
  obtain ⟨hrule, hmatch⟩ := of_firstMatch found
  obtain ⟨hne, rest, hprefix⟩ := text_of_firstMatch found
  obtain ⟨c, cs, hsource, hc⟩ := mem_starts_of_capture? hrule hstarts (capture?_of_match? hmatch)
  obtain ⟨d, ds, htext⟩ := List.exists_cons_of_ne_nil hne
  rw [htext, hsource, List.cons_append, List.cons.injEq] at hprefix
  exact ⟨d, ds, htext, hprefix.1 ▸ hc⟩

/-- The rules in front of the one that matches do not match. -/
theorem match?_of_earlier (found : firstMatch here source = some (rule, capture)) (count : Nat)
    (hlater : (all.take count).all (fun other => other.kind != rule.kind) = true) :
    ∀ other ∈ all.take count, other.match? here source = none := by
  have hnone : (all.take count).findSome? (fun rule => (rule.match? here source).map (rule, ·)) =
      none := by
    rw [firstMatch, ← List.take_append_drop count all, List.findSome?_append] at found
    cases hsome : (all.take count).findSome?
        (fun rule => (rule.match? here source).map (rule, ·)) with
    | none => rfl
    | some earlier =>
      rw [hsome, Option.some_or, Option.some.injEq] at found
      obtain ⟨other, hother, hmatch⟩ := List.exists_of_findSome?_eq_some hsome
      obtain ⟨_, -, heq⟩ := Option.map_eq_some_iff.1 hmatch
      have hsame : other = rule := (Prod.mk.inj (heq.trans found)).1
      simpa [hsame] using List.all_eq_true.1 hlater other hother
  intro other hother
  exact Option.map_eq_none_iff.1 (List.findSome?_eq_none_iff.1 hnone other hother)

theorem fits_of_match? (h : rule.match? here source = some capture) : rule.fits here = true := by
  by_contra hfits
  rw [match?_of_not_fits (Bool.not_eq_true _ ▸ hfits)] at h
  cases h

/-- A rule of inline markup matches in prose only. -/
theorem mode_of_inline (hrule : rule ∈ all) (h : rule.match? here source = some capture)
    (hinline : all.all (fun other => other.kind != rule.kind || other.scope == .inline) = true) :
    here.mode = .markup := by
  have hscope : rule.scope = .inline := by simpa using List.all_eq_true.1 hinline rule hrule
  have hactive := Lexer.activeIn_of_match? h
  rw [hscope] at hactive
  cases hmode : here.mode with
  | markup => rfl
  | code => simp [hmode, Scope.activeIn] at hactive

/-- The rules of a mode that name a first character, in order. -/
def contenders (mode : Mode) (c : Char) : List Rule :=
  all.filter fun rule => rule.scope.activeIn mode && rule.starts.contains c

/-- At a mark the first match is that of the first contender that matches. -/
theorem firstMatch_at_mark {c : Char} (hc : c ∈ marks here.mode) (cs : List Char) :
    firstMatch here (c :: cs) = (contenders here.mode c).findSome? fun rule =>
      (rule.match? here (c :: cs)).map (rule, ·) := by
  have hdropped : ∀ rule ∈ all,
      (rule.scope.activeIn here.mode && rule.starts.contains c) = false →
        (rule.match? here (c :: cs)).map (rule, ·) = none := by
    intro rule hrule hno
    cases hmatch : rule.match? here (c :: cs) with
    | none => rfl
    | some capture =>
      have hactive := Lexer.activeIn_of_match? hmatch
      have hstarts := mem_starts_of_mark hrule hactive hc (capture?_of_match? hmatch)
      simp [hactive, hstarts] at hno
  rw [firstMatch, contenders]
  generalize all = rules at hdropped
  induction rules with
  | nil => rfl
  | cons rule rules ih =>
    obtain ⟨hrule, hrules⟩ := List.forall_mem_cons.1 hdropped
    rw [List.findSome?_cons, List.filter_cons, ih hrules]
    cases hkeep : (rule.scope.activeIn here.mode && rule.starts.contains c) with
    | true => rw [if_pos rfl, List.findSome?_cons]
    | false => rw [if_neg Bool.false_ne_true, hrule hkeep]

end Rule

namespace Lexer

/-- An opener that waits is spelled as its kind says. -/
theorem Reached.spelled {whole : Mode} {base : Nat} {s : State} {done ahead : List Char}
    (h : Reached whole base s done ahead) {opener : Token} (hopener : opener ∈ s.fronts)
    (hspelling : opener.kind.spelling ≠ []) : opener.text.toList = opener.kind.spelling := by
  obtain ⟨above, below, hfronts⟩ := List.append_of_mem hopener
  obtain ⟨matched, -, rfl, -, -, -⟩ := h.opened above opener below hfronts
  exact String.toList_ofList.trans (Rule.text_eq_spelling matched.found hspelling)

namespace Folding

variable {source : List Char} (g : Folding source)

theorem mem_pairs : (g.frame.opener.kind, g.rule.kind) ∈ g.kind.pairs :=
  Kind.mem_pairs_of_mem_folds g.mem_folds

/-- The opener and the closer of a kind that has one pair of them, both with one spelling. -/
theorem spelled {front back : Kind} (hpairs : g.kind.pairs = [(front, back)]) :
    g.frame.opener.kind = front ∧ g.rule.kind = back ∧
    (front.spelling ≠ [] → g.frame.opener.text.toList = front.spelling) ∧
    (back.spelling ≠ [] → g.capture.text = back.spelling) := by
  have hmem := g.mem_pairs
  rw [hpairs, List.mem_singleton, Prod.mk.injEq] at hmem
  obtain ⟨rfl, rfl⟩ := hmem
  have hopener : g.frame.opener ∈ g.s.fronts := by
    rw [← State.fronts_flush g.s g.whole, State.fronts, g.frames_eq]
    simp
  exact ⟨rfl, rfl, g.matched.reached.spelled hopener, Rule.text_eq_spelling g.matched.found⟩

variable {g} {s : State} {done : List Char} {rule : Rule} {capture : Capture}

theorem OpenedAt.kind_eq (o : g.OpenedAt s done rule capture) :
    rule.kind = g.frame.opener.kind := by
  rw [o.opener_eq]
  rfl

theorem OpenedAt.text_eq (o : g.OpenedAt s done rule capture) :
    capture.text = g.frame.opener.text.toList := by
  rw [o.opener_eq]
  exact String.toList_ofList.symm

end Folding

end Lexer

end StoryScript
