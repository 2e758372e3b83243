/-
  The characters that rules start with.

  A scanner leads with a class of characters if it never succeeds where the source does
  not start with one of them, and it opens with the class if it may also succeed without
  reading anything. A match is never empty, so both give its first character. Every rule
  that names first characters starts with one of them (`mem_starts_of_capture?`), and the
  rules that name none do not start with a quote, a slash, a tilde, a caret, a brace or a
  parenthesis (`mem_starts_of_mark`).
-/
import Mathlib
import StoryScript.Proofs.Literal.FirstMatch
import StoryScript.Proofs.Token.Capture

namespace StoryScript

/-! ## Scanners -/

namespace Text

/-- A character is one of the two spellings of any character that is equal to it up to case. -/
theorem eq_toLower_or_eq_toUpper {w c : Char} (h : w.toLower = c.toLower) :
    c = w.toLower ∨ c = w.toUpper := by
  by_cases hc : c.isUpper = true
  · right
    have hlower : ¬ c.isLower = true := fun hl => by simp [Char.not_isLower_of_isUpper hc] at hl
    rw [← Char.toUpper_toLower_eq_toUpper, h, Char.toUpper_toLower_eq_toUpper,
      Char.toUpper_eq_of_not_isLower hlower]
  · left
    rw [h, Char.toLower_eq_of_not_isUpper hc]

end Text

namespace Scanner

variable {α β : Type} {p q : Char → Bool}

/-- Succeeds only where the source starts with a character of a class. -/
def Leads (q : Char → Bool) (x : Scanner α) : Prop :=
  ∀ cs a rest, x cs = some (a, rest) → cs.head?.any q = true

/-- Reads nothing, or starts with a character of a class. -/
def Opens (q : Char → Bool) (x : Scanner α) : Prop :=
  ∀ cs a rest, x cs = some (a, rest) → rest = cs ∨ cs.head?.any q = true

theorem Leads.opens {x : Scanner α} (h : Leads q x) : Opens q x :=
  fun cs a rest hx => .inr (h cs a rest hx)

/-- What is read after the first character does not matter. -/
theorem Leads.bind {x : Scanner α} {f : α → Scanner β} (h : Leads q x) : Leads q (x >>= f) := by
  intro cs b rest hx
  obtain ⟨a, mid, hx, -⟩ := bind_eq_some.1 hx
  exact h cs a mid hx

theorem Leads.discard {x : Scanner α} (h : Leads q x) : Leads q (Functor.discard x) := by
  intro cs u rest hx
  cases hread : x cs with
  | none =>
    have hnone : (Functor.discard x) cs = (x cs).bind fun r => some ((), r.2) := rfl
    simp [hnone, hread] at hx
  | some r => exact h cs r.1 r.2 hread

theorem Leads.orElse {x y : Scanner α} (hx : Leads q x) (hy : Leads q y) : Leads q (x <|> y) := by
  intro cs a rest h
  rcases orElse_eq_some.1 h with h | ⟨-, h⟩
  · exact hx cs a rest h
  · exact hy cs a rest h

theorem Opens.bind {x : Scanner α} {f : α → Scanner β} (hx : Opens q x) (hf : ∀ a, Opens q (f a)) :
    Opens q (x >>= f) := by
  intro cs b rest h
  obtain ⟨a, mid, h, hb⟩ := bind_eq_some.1 h
  rcases hx cs a mid h with rfl | hfirst
  · exact hf a mid b rest hb
  · exact .inr hfirst

theorem Opens.orElse {x y : Scanner α} (hx : Opens q x) (hy : Opens q y) : Opens q (x <|> y) := by
  intro cs a rest h
  rcases orElse_eq_some.1 h with h | ⟨-, h⟩
  · exact hx cs a rest h
  · exact hy cs a rest h

theorem opens_pure (a : α) : Opens q (pure a : Scanner α) :=
  fun _ _ _ h => .inl (pure_eq_some.1 h).2.symm

theorem opens_failure : Opens q (failure : Scanner α) := by
  intro cs a rest h
  cases h

theorem opens_require (condition : Bool) : Opens q (require condition) :=
  fun _ _ _ h => .inl (require_eq_some.1 h).2.symm

theorem leads_satisfy (h : ∀ c, p c = true → q c = true) : Leads q (satisfy p) := by
  intro cs c rest hx
  obtain ⟨rfl, hc⟩ := append_of_satisfy hx
  exact h c hc

theorem leads_char {c : Char} (h : q c = true) : Leads q (char c) := by
  intro cs a rest hx
  rw [append_of_char hx]
  exact h

theorem opens_takeWhile (h : ∀ c, p c = true → q c = true) : Opens q (takeWhile p) := by
  intro cs run rest hx
  simp only [takeWhile, Option.some.injEq, Prod.mk.injEq] at hx
  obtain ⟨rfl, rfl⟩ := hx
  cases cs with
  | nil => exact .inl rfl
  | cons c cs =>
    by_cases hc : p c = true
    · exact .inr (h c hc)
    · exact .inl (List.dropWhile_cons_of_neg hc)

theorem leads_takeWhile1 (h : ∀ c, p c = true → q c = true) : Leads q (takeWhile1 p) := by
  intro cs run rest hx
  simp only [takeWhile1, takeWhile, bind_eq_some, require_eq_some, pure_eq_some, Option.some.injEq,
    Prod.mk.injEq] at hx
  obtain ⟨_, _, ⟨rfl, rfl⟩, _, _, ⟨hne, -⟩, -⟩ := hx
  cases cs with
  | nil => simp at hne
  | cons c cs =>
    by_cases hc : p c = true
    · exact h c hc
    · simp [List.takeWhile_cons_of_neg hc] at hne

/-- A word starts with its first letter, in one of two spellings. -/
theorem leads_literal {word : String}
    (h : word.toList.head?.any (fun w => q w.toLower && q w.toUpper) = true) :
    Leads q (literal word) := by
  intro cs a rest hx
  obtain ⟨w, ws, hword⟩ : ∃ w ws, word.toList = w :: ws := by
    cases hword : word.toList with
    | nil => simp [hword] at h
    | cons w ws => exact ⟨w, ws, rfl⟩
  rw [hword] at h
  simp only [List.head?_cons, Option.any_some, Bool.and_eq_true] at h
  simp only [literal, hword] at hx
  cases cs with
  | nil => simp [Text.startsWithIgnoringCase] at hx
  | cons c cs =>
    have hsame : w.toLower = c.toLower := by
      by_contra hne
      simp [Text.startsWithIgnoringCase, hne] at hx
    rcases Text.eq_toLower_or_eq_toUpper hsame with rfl | rfl
    · exact h.1
    · exact h.2

theorem leads_keyword {word : String}
    (h : word.toList.head?.any (fun w => q w.toLower && q w.toUpper) = true) :
    Leads q (keyword word) :=
  (leads_literal h).bind

end Scanner

/-! ## Patterns -/

namespace Pattern

open Scanner

variable {q : Char → Bool}

/-- A match starts with a character of a class. -/
def StartsIn (q : Char → Bool) (p : Pattern) : Prop :=
  ∀ source capture, p.capture? source = some capture → source.head?.any q = true

/-- A match is not empty, so a scanner that may read nothing reads something. -/
theorem startsIn_of_opens {p : Pattern} (h : Opens q p.scan) : p.StartsIn q := by
  intro source capture hcapture
  obtain ⟨rest, hscan, htext, hne⟩ := capture?_eq_some.1 hcapture
  rcases h _ _ _ hscan with rfl | hfirst
  · simp [htext] at hne
  · exact hfirst

theorem startsIn_leaf {x : Scanner Detail} (h : Leads q x) : (Pattern.leaf x).StartsIn q :=
  startsIn_of_opens (Leads.opens h.bind)

theorem startsIn_plain {x : Scanner Unit} (h : Leads q x) : (Pattern.plain x).StartsIn q :=
  startsIn_leaf h.bind

theorem startsIn_nest {x : Scanner (Detail × Option Inside)} (h : Leads q x) :
    (Pattern.nest x).StartsIn q :=
  startsIn_of_opens h.opens

theorem startsIn_named {x : Scanner (List Char)} (h : Leads q x) : (named x).StartsIn q :=
  startsIn_leaf h.bind

theorem startsIn_exactly {text : String}
    (h : text.toList.head?.any (fun w => q w.toLower && q w.toUpper) = true) :
    (exactly text).StartsIn q :=
  startsIn_plain (leads_literal h)

theorem startsIn_word {text : String}
    (h : text.toList.head?.any (fun w => q w.toLower && q w.toUpper) = true) :
    (word text).StartsIn q :=
  startsIn_plain (leads_keyword h)

theorem startsIn_sign {signs : List Char} (h : ∀ c, signs.contains c = true → q c = true) :
    (sign signs).StartsIn q :=
  startsIn_leaf (leads_satisfy h).bind

theorem leads_propertyName (h : ∀ c, Text.isWord c = true → q c = true) : Leads q propertyName := by
  intro cs name rest hx
  simp only [propertyName, bind_eq_some, require_eq_some, pure_eq_some] at hx
  obtain ⟨run, mid, hrun, _, _, ⟨hne, -⟩, -⟩ := hx
  rcases opens_takeWhile h _ _ _ hrun with rfl | hfirst
  · have hempty : run = [] := by simpa using append_of_takeWhile hrun
    simp [hempty] at hne
  · exact hfirst

theorem startsIn_colour (hword : ∀ c, Text.isWord c = true → q c = true) (hhash : q '#' = true) :
    colour.StartsIn q := by
  refine startsIn_of_opens (.bind (.orElse (leads_char hhash).bind.opens ?_) fun _ => opens_pure _)
  refine .bind (opens_takeWhile hword) fun name => ?_
  cases Colour.codeOfName? (String.ofList name) with
  | none => exact opens_failure
  | some code => exact opens_pure _

/-! ### Marks in front of a line -/

theorem opens_markedLine {marks : List Char → List Char × List Char} {gap : Scanner (List Char)}
    {depth : List Char → Nat} (hblank : ∀ c, Text.isBlank c = true → q c = true)
    (hmarks : ∀ cs, (marks cs).1 ++ (marks cs).2 = cs ∧ ((marks cs).1.head?.all q) = true) :
    Opens q (markedLine marks gap depth) := by
  intro source found rest h
  simp only [markedLine, bind_eq_some, require_eq_some, ofSplit, Function.comp_apply,
    Option.some.injEq] at h
  obtain ⟨indent, r₁, h₁, mark, r₂, h₂, _, _, ⟨hne, -⟩, -⟩ := h
  rcases opens_takeWhile hblank _ _ _ h₁ with rfl | hfirst
  · -- without an indent the line starts with the mark
    right
    obtain ⟨happend, hhead⟩ := hmarks r₁
    rw [h₂] at happend hhead
    cases mark with
    | nil => simp at hne
    | cons c cs =>
      rw [← happend]
      simpa using hhead
  · exact .inr hfirst

/-- A line with marks of one character in front. -/
theorem startsIn_markedLine {m : Char → Bool} {marks : List Char → List Char × List Char}
    {gap : Scanner (List Char)} {depth : List Char → Nat}
    (hblank : ∀ c, Text.isBlank c = true → q c = true) (hq : ∀ c, m c = true → q c = true)
    (hmarks : ∀ cs, (marks cs).1 ++ (marks cs).2 = cs)
    (hhead : ∀ cs, (marks cs).1.head?.all m = true) :
    (Pattern.nest (markedLine marks gap depth)).StartsIn q := by
  refine startsIn_of_opens (opens_markedLine hblank fun cs => ⟨hmarks cs, ?_⟩)
  have hm := hhead cs
  cases h : (marks cs).1.head? with
  | none => rfl
  | some c =>
    rw [h] at hm
    exact hq c hm

theorem head?_takeWhile_all (p : Char → Bool) (cs : List Char) :
    (cs.takeWhile p).head?.all p = true := by
  cases cs with
  | nil => rfl
  | cons c cs => by_cases hc : p c = true <;> simp [hc]

theorem head?_splitAtMost (p : Char → Bool) (count : Nat) (cs : List Char) :
    (splitAtMost p count cs).1.head?.all p = true :=
  head?_takeWhile_all p _

theorem head?_splitZeroDots (cs : List Char) :
    (splitZeroDots cs).1.head?.all (· == '0') = true := by
  fun_cases splitZeroDots cs <;> rfl

end Pattern

/-! ## The table -/

namespace Rule

/-- Characters that start no rule of a mode but those that name them. -/
def marks : Mode → List Char
  | .markup => ['\'', '/', '~', '^', '\x7b']
  | .code => ['(']

/-- The characters that a match can start with. -/
def first (rule : Rule) (c : Char) : Bool :=
  if rule.starts.isEmpty then !(marks rule.scope.innerMode).contains c else rule.starts.contains c

open Scanner Pattern

theorem outside {p : Char → Bool} {marks : List Char} (h : marks.all (fun m => !p m) = true)
    (c : Char) (hc : p c = true) : (!marks.contains c) = true := by
  rw [Bool.not_eq_true', List.contains_eq_mem, decide_eq_false_iff_not]
  intro hmem
  simpa [hc] using List.all_eq_true.1 h c hmem

theorem opens_blanks {q : Char → Bool} (h : ∀ c, Text.isBlank c = true → q c = true) :
    Opens q blanks :=
  opens_takeWhile h

theorem opens_endOfLine {q : Char → Bool} (h : q '\n' = true) : Opens q endOfLine := by
  refine .orElse (leads_char h).opens ?_
  intro cs u rest hx
  simp only [atEnd] at hx
  split at hx
  · exact .inl (congrArg Prod.snd (Option.some.inj hx)).symm
  · cases hx

theorem opens_arrowLine {q : Char → Bool} {arrow : Scanner String}
    (hblank : ∀ c, Text.isBlank c = true → q c = true) (hline : q '\n' = true)
    (harrow : Opens q arrow) : Opens q (arrowLine arrow) :=
  .bind (opens_blanks hblank) fun _ => .bind harrow fun _ => .bind (opens_blanks hblank) fun _ =>
    .bind (opens_endOfLine hline) fun _ => opens_pure _

/-- The rules of block markup start with a blank or with a mark of their own. -/
theorem startsIn_block : ∀ rule ∈ blockRules, rule.pattern.StartsIn rule.first := by
  have hblank : ∀ c, Text.isBlank c = true → (!(marks .markup).contains c) = true :=
    outside (by decide)
  simp only [blockRules, List.forall_mem_cons, List.not_mem_nil, false_implies, implies_true,
    and_true]
  refine ⟨?_, ?_, ?_, ?_, ?_⟩
  · refine startsIn_of_opens (.bind (.bind (.bind (opens_blanks hblank) fun _ => ?_) fun _ =>
      opens_pure _) fun _ => opens_pure _)
    exact .bind (opens_takeWhile (outside (by decide))) fun _ => .bind (opens_require _) fun _ =>
      .bind (opens_blanks hblank) fun _ => opens_endOfLine rfl
  · exact startsIn_markedLine hblank (outside (by decide))
      (fun _ => List.takeWhile_append_dropWhile) (head?_takeWhile_all (· == '*'))
  · exact startsIn_markedLine hblank (outside (by decide)) splitZeroDots_append head?_splitZeroDots
  · exact startsIn_markedLine hblank (outside (by decide)) (splitAtMost_append _ _)
      (head?_splitAtMost (· == '#') 6)
  · have harrow {arrow : Scanner String} :=
      @opens_arrowLine (fun c => !(marks .markup).contains c) arrow hblank rfl
    have hshaft : Opens (fun c => !(marks .markup).contains c) (takeWhile (· == '=')) :=
      opens_takeWhile (outside (by decide))
    refine startsIn_of_opens (.bind (.orElse (harrow ?_) (.orElse (harrow ?_)
      (.orElse (harrow ?_) (harrow ?_)))) fun _ => opens_pure _)
    · exact .bind hshaft fun _ => .bind (opens_require _) fun _ =>
        .bind (leads_char rfl).opens fun _ => opens_pure _
    · exact (leads_char rfl).bind.opens
    · exact (leads_takeWhile1 (outside (by decide))).bind.opens
    · exact (leads_char rfl).bind.opens

theorem startsIn_inline : ∀ rule ∈ inlineRules, rule.pattern.StartsIn rule.first := by
  simp only [inlineRules, List.forall_mem_cons, List.not_mem_nil, false_implies, implies_true,
    and_true]
  exact ⟨startsIn_leaf (leads_literal (by decide)).bind, startsIn_plain (leads_char rfl).bind,
    startsIn_exactly (by decide), startsIn_exactly (by decide), startsIn_exactly (by decide),
    startsIn_exactly (by decide), startsIn_exactly (by decide), startsIn_exactly (by decide),
    startsIn_exactly (by decide), startsIn_exactly (by decide), startsIn_exactly (by decide),
    startsIn_exactly (by decide), startsIn_plain (leads_char rfl).bind,
    startsIn_leaf (leads_char rfl).bind,
    startsIn_plain (.bind (.orElse (leads_literal (by decide)) (.orElse (leads_literal (by decide))
      (.orElse (leads_literal (by decide)) (.orElse (leads_literal (by decide))
        (.orElse (leads_literal (by decide)) (leads_literal (by decide)))))))),
    startsIn_nest (leads_literal (by decide)).bind, startsIn_nest (leads_literal (by decide)).bind,
    startsIn_nest (leads_literal (by decide)).bind, startsIn_leaf (leads_char rfl).bind,
    startsIn_exactly (by decide), startsIn_exactly (by decide),
    startsIn_plain (leads_char rfl).bind, startsIn_leaf (leads_char rfl).bind,
    startsIn_of_opens (.bind (.bind (opens_takeWhile (by simp; decide)) fun _ => opens_pure _)
      fun _ => opens_pure _),
    startsIn_exactly (by decide), startsIn_exactly (by decide),
    startsIn_plain (.orElse (leads_literal (by decide)).bind (leads_literal (by decide)))⟩

theorem startsIn_expression : ∀ rule ∈ expressionRules, rule.pattern.StartsIn rule.first := by
  simp only [expressionRules, List.forall_mem_cons, List.not_mem_nil, false_implies, implies_true,
    and_true]
  exact ⟨startsIn_nest (.bind (.orElse (leads_char rfl).bind
      (leads_satisfy (outside (by decide))).bind)),
    startsIn_named (leads_char rfl).bind, startsIn_exactly (by decide),
    startsIn_named (leads_char rfl).bind, startsIn_named (leads_char rfl).bind,
    startsIn_named (leads_char rfl).bind⟩

theorem startsIn_code : ∀ rule ∈ codeRules, rule.pattern.StartsIn rule.first := by
  have hword : ∀ c, Text.isWord c = true → (!(marks .code).contains c) = true := outside (by decide)
  simp only [codeRules, List.forall_mem_cons, List.not_mem_nil, false_implies, implies_true,
    and_true]
  exact ⟨startsIn_plain (leads_takeWhile1 (outside (by decide))).discard,
    startsIn_plain (leads_char rfl).bind, startsIn_named (leads_literal (by decide)).bind,
    startsIn_plain (leads_literal (by decide)).bind,
    startsIn_named (leads_literal (by decide)).bind,
    startsIn_plain (leads_literal (by decide)).bind,
    startsIn_named (leads_propertyName hword).bind, startsIn_plain (leads_keyword (by decide)).bind,
    startsIn_named (leads_propertyName hword).bind, startsIn_word (by decide),
    startsIn_plain (leads_satisfy (by simp; decide)).bind,
    startsIn_leaf (.bind (.orElse (leads_takeWhile1 fun _ => of_isDigit (by decide)).bind
      (leads_char rfl).bind)),
    startsIn_colour hword (by decide),
    startsIn_leaf (.orElse (leads_keyword (by decide)).bind
      (leads_takeWhile1 fun _ => of_isDigit (by decide)).bind),
    startsIn_sign (by simp; decide), startsIn_sign (by simp; decide),
    startsIn_sign (by simp; decide), startsIn_sign (by simp; decide),
    startsIn_leaf (leads_satisfy (by simp; decide)).bind,
    startsIn_leaf (leads_satisfy (by simp; decide)).bind,
    startsIn_leaf (.orElse (leads_keyword (by decide)).bind (leads_keyword (by decide)).bind),
    startsIn_plain (.orElse (leads_keyword (by decide)) (leads_keyword (by decide))),
    startsIn_plain (leads_keyword (by decide)).bind, startsIn_leaf (leads_keyword (by decide)).bind,
    startsIn_plain (leads_keyword (by decide)).bind,
    startsIn_leaf (.orElse (leads_keyword (by decide)).bind (leads_keyword (by decide)).bind),
    startsIn_plain (.orElse (leads_keyword (by decide)) (leads_literal (by decide))),
    startsIn_word (by decide), startsIn_word (by decide), startsIn_word (by decide),
    startsIn_word (by decide), startsIn_word (by decide), startsIn_word (by decide),
    startsIn_word (by decide), startsIn_word (by decide), startsIn_exactly (by decide),
    startsIn_plain (leads_literal (by decide)).bind⟩

/-- A match starts with one of the characters that its rule can start with. -/
theorem startsIn_first {rule : Rule} (h : rule ∈ all) : rule.pattern.StartsIn rule.first := by
  simp only [all, List.mem_append] at h
  rcases h with ((h | h) | h) | h
  · exact startsIn_block rule h
  · exact startsIn_inline rule h
  · exact startsIn_expression rule h
  · exact startsIn_code rule h

/-- A rule that names first characters starts with one of them. -/
theorem mem_starts_of_capture? {rule : Rule} (h : rule ∈ all) (hstarts : rule.starts ≠ [])
    {source : List Char} {capture : Capture}
    (hcapture : rule.pattern.capture? source = some capture) :
    ∃ c cs, source = c :: cs ∧ c ∈ rule.starts := by
  have hfirst := startsIn_first h source capture hcapture
  cases source with
  | nil => simp at hfirst
  | cons c cs =>
    refine ⟨c, cs, rfl, ?_⟩
    simpa [first, hstarts] using hfirst

/-- The look at the first character turns no match away. -/
theorem admits_of_capture? {rule : Rule} (h : rule ∈ all) {source : List Char} {capture : Capture}
    (hcapture : rule.pattern.capture? source = some capture) : rule.admits source = true := by
  by_cases hstarts : rule.starts = []
  · simp [admits, hstarts]
  · obtain ⟨c, cs, rfl, hc⟩ := mem_starts_of_capture? h hstarts hcapture
    simp [admits, hc]

/-- In a mode only a rule that names a mark starts with it. -/
theorem mem_starts_of_mark {rule : Rule} (h : rule ∈ all) {mode : Mode}
    (hactive : rule.scope.activeIn mode = true) {c : Char} {cs : List Char} (hc : c ∈ marks mode)
    {capture : Capture} (hcapture : rule.pattern.capture? (c :: cs) = some capture) :
    c ∈ rule.starts := by
  have hfirst := startsIn_first h _ capture hcapture
  by_cases hstarts : rule.starts = []
  · -- a rule that names none is active in one mode only, the one inside it
    have htable : all.all (fun rule => !rule.starts.isEmpty || rule.scope != .expression) = true :=
      rfl
    have hscope := List.all_eq_true.1 htable rule h
    have hmode : rule.scope.innerMode = mode := by
      simp only [hstarts, List.isEmpty_nil, Bool.not_true, Bool.false_or, bne_iff_ne] at hscope
      revert hactive hscope
      cases rule.scope <;> cases mode <;> simp [Scope.activeIn, Scope.innerMode]
    simp [first, hstarts, hmode, hc] at hfirst
  · simpa [first, hstarts] using hfirst

end Rule

end StoryScript
