/-
  Names in code.

  A name is a run of word characters with something besides digits. It is read whole as
  a variable after a dollar sign, as a property after `'s`, and as a property before
  `of`. The last of these competes with every rule that a word can start: it wins unless
  the name starts with an underscore, is `its`, or stands before `of it`.
-/
import Mathlib
import StoryScript.Proofs.Literal.FirstMatch

namespace StoryScript

/-! ## Word characters and blanks -/

namespace Text

/-- The word characters of ASCII lie between `0` and `z`. -/
theorem bounds_of_isAlphanum {c : Char} (h : c.isAlphanum = true) :
    48 ≤ c.toNat ∧ c.toNat ≤ 122 := by
  have hval : c.toNat = c.val.toNat := rfl
  simp only [Char.isAlphanum, Char.isAlpha, Char.isUpper, Char.isLower, Char.isDigit,
    Bool.or_eq_true, Bool.and_eq_true, decide_eq_true_eq, ge_iff_le, UInt32.le_iff_toNat_le] at h
  simp at h
  omega

theorem range_of_isWord {c : Char} (h : isWord c = true) :
    ∃ r ∈ (48, 122) :: alphanumericRanges, r.1 ≤ c.toNat ∧ c.toNat ≤ r.2 := by
  rw [isWord, Bool.or_eq_true, isAlphanumeric, Bool.or_eq_true, Bool.and_eq_true, beq_iff_eq] at h
  rcases h with (hascii | ⟨-, htable⟩) | rfl
  · exact ⟨_, List.mem_cons_self, bounds_of_isAlphanum hascii⟩
  · obtain ⟨r, hr, hbounds⟩ := Ranges.contains_iff.1 htable
    exact ⟨r, List.mem_cons_of_mem _ hr, hbounds⟩
  · exact ⟨_, List.mem_cons_self, by decide⟩

/-- No character is both a word character and a blank. -/
theorem isBlank_of_isWord {c : Char} (h : isWord c = true) : isBlank c = false := by
  -- the two tables have no code point in common
  have hapart : (((48, 122) :: alphanumericRanges).all fun r =>
      blankRanges.all fun b => r.2 < b.1 || b.2 < r.1) = true := by decide +kernel
  obtain ⟨r, hr, hlow, hhigh⟩ := range_of_isWord h
  rw [Bool.eq_false_iff, ne_eq, isBlank, Ranges.contains_iff]
  rintro ⟨b, hb, hlow', hhigh'⟩
  have hrb := List.all_eq_true.1 (List.all_eq_true.1 hapart r hr) b hb
  rw [Bool.or_eq_true, decide_eq_true_eq, decide_eq_true_eq] at hrb
  omega

end Text

/-! ## Names -/

/-- A run of word characters with something besides digits. -/
structure IsName (name : List Char) : Prop where
  word : ∀ c ∈ name, Text.isWord c = true
  notDigits : name.all Char.isDigit = false

theorem IsName.ne_nil {name : List Char} (h : IsName name) : name ≠ [] := by
  rintro rfl
  exact absurd h.notDigits (by decide)

theorem IsName.head {name : List Char} (h : IsName name) (rest : List Char) :
    ∀ c ∈ (name ++ rest).head?, Text.isWord c = true := by
  obtain ⟨first, others, rfl⟩ := List.exists_cons_of_ne_nil h.ne_nil
  intro c hc
  obtain rfl : first = c := Option.some.inj hc
  exact h.word first List.mem_cons_self

theorem propertyName_append {name rest : List Char} (h : IsName name)
    (hrest : ∀ c ∈ rest.head?, Text.isWord c = false) :
    Pattern.propertyName (name ++ rest) = some (name, rest) := by
  rw [Pattern.propertyName, Scanner.bind_of_eq_some (Scanner.takeWhile_append h.word hrest),
    h.notDigits]
  rfl

/-- One blank before something else. -/
theorem blanks1_cons {rest : List Char} (hrest : ∀ c ∈ rest.head?, Text.isBlank c = false) :
    Scanner.blanks1 (' ' :: rest) = some ([' '], rest) := by
  refine @Scanner.takeWhile1_append _ [' '] rest ?_ (by simp) hrest
  intro c hc
  rw [List.mem_singleton.1 hc]
  rfl

/-! ## Words that a name is not -/

section

variable {word : String} {name rest : List Char} (hname : ∀ c ∈ name, Text.isWord c = true)
  (hne : name.map Char.toLower ≠ word.toList.map Char.toLower)
  (hword : word.toList.all (·.toLower != ' ') = true)
include hname

/-- A literal that is read up to the end of a word is that word. -/
theorem map_toLower_of_startsWith {cs : List Char} (hcs : cs.all (·.toLower != ' ') = true)
    (h : Text.startsWithIgnoringCase cs (name ++ ' ' :: rest) = true)
    (hend : ∀ c ∈ ((name ++ ' ' :: rest).drop cs.length).head?, Text.isWord c = false) :
    name.map Char.toLower = cs.map Char.toLower := by
  induction cs generalizing name with
  | nil =>
    cases name with
    | nil => rfl
    | cons c name =>
      have hc := hend c rfl
      rw [hname c List.mem_cons_self] at hc
      exact absurd hc (by decide)
  | cons d cs ih =>
    rw [List.all_cons, Bool.and_eq_true, bne_iff_ne] at hcs
    cases name with
    | nil =>
      rw [List.nil_append, Text.startsWithIgnoringCase, Bool.and_eq_true, beq_iff_eq] at h
      exact absurd h.1 hcs.1
    | cons c name =>
      rw [List.cons_append, Text.startsWithIgnoringCase, Bool.and_eq_true, beq_iff_eq] at h
      have htail := ih (fun a ha => hname a (List.mem_cons_of_mem c ha)) hcs.2 h.2
        (by simpa using hend)
      rw [List.map_cons, List.map_cons, htail, h.1]

include hne hword

/-- A literal that is not the name ends inside the name, if it is read at all. -/
theorem head_of_literal {mid : List Char}
    (h : Scanner.literal word (name ++ ' ' :: rest) = some ((), mid)) :
    ∃ c ∈ mid.head?, Text.isWord c = true := by
  rw [Scanner.literal] at h
  split at h
  · rename_i hstarts
    obtain rfl : (name ++ ' ' :: rest).drop word.length = mid := by simpa using h
    by_contra hnone
    push Not at hnone
    refine hne (map_toLower_of_startsWith hname hword hstarts fun c hc => ?_)
    rw [String.length_toList] at hc
    exact Bool.eq_false_iff.2 (hnone c hc)
  · simp at h

theorem keyword_eq_none : Scanner.keyword word (name ++ ' ' :: rest) = none := by
  rw [Scanner.keyword]
  cases hliteral : Scanner.literal word (name ++ ' ' :: rest) with
  | none => exact Scanner.bind_of_eq_none hliteral
  | some found =>
    obtain ⟨⟨⟩, mid⟩ := found
    obtain ⟨c, hc, hc'⟩ := head_of_literal hname hne hword hliteral
    rw [Scanner.bind_of_eq_some hliteral, Scanner.boundary, Option.mem_def.1 hc, Option.any_some,
      hc']
    rfl

/-- A literal that is not the name is not followed by a blank. -/
theorem literal_blanks_eq_none {α : Type} (f : List Char → Scanner α) :
    (Scanner.literal word >>= fun _ => Scanner.blanks1 >>= f) (name ++ ' ' :: rest) = none := by
  cases hliteral : Scanner.literal word (name ++ ' ' :: rest) with
  | none => exact Scanner.bind_of_eq_none hliteral
  | some found =>
    obtain ⟨⟨⟩, mid⟩ := found
    obtain ⟨c, hc, hc'⟩ := head_of_literal hname hne hword hliteral
    rw [Scanner.bind_of_eq_some hliteral]
    refine Scanner.bind_of_eq_none (Scanner.takeWhile1_eq_none fun d hd => ?_)
    obtain rfl : c = d := Option.some.inj (hc.symm.trans hd)
    exact Text.isBlank_of_isWord hc'

end

namespace Rule

/-- A story variable. -/
def variableRule : Rule :=
  ofExpression .storyVariable "$" Pattern.storyVariable

/-- A property of what comes before. -/
def propertyRule : Rule :=
  { ofCode .property "'" Pattern.property with follows := some withProperties }

section

variable {here : Situation} {name rest : List Char}

theorem firstMatch_variable (h : Between here) (hname : IsName name)
    (hrest : ∀ c ∈ rest.head?, Text.isWord c = false) :
    firstMatch here (('$' :: name) ++ rest) =
      some (variableRule, ⟨'$' :: name, { name := some (String.ofList name) }, none⟩) := by
  refine firstMatch_of_candidates h.mode [nameRule] ⟨_, rfl⟩ (nameRule_skip h) ?_
  have hfits : variableRule.fits here = true := by
    simp [fits, variableRule, ofExpression, Scope.activeIn]
  rw [match?_of_fits hfits (by rfl)]
  refine @Pattern.capture?_leaf _ ('$' :: name) rest _ (Scanner.bind_of_eq_some ?_) (by simp)
  exact (Scanner.bind_of_eq_some (Scanner.char_cons '$' _)).trans (propertyName_append hname hrest)

theorem firstMatch_property (h : Between here) (hlast : here.last ∈ withProperties)
    (hname : IsName name) (hrest : ∀ c ∈ rest.head?, Text.isWord c = false) :
    firstMatch here (('\'' :: 's' :: ' ' :: name) ++ rest) =
      some (propertyRule,
        ⟨'\'' :: 's' :: ' ' :: name, { name := some (String.ofList name) }, none⟩) := by
  refine firstMatch_of_candidates h.mode [nameRule, blankRule] ⟨_, rfl⟩
    ⟨nameRule_skip h, blankRule_skip (by simp; rfl)⟩ ?_
  have hfits : propertyRule.fits here = true := by
    simp [fits, propertyRule, ofCode, h.mode, Scope.activeIn, hlast]
  rw [match?_of_fits hfits (by rfl)]
  refine @Pattern.capture?_leaf _ ('\'' :: 's' :: ' ' :: name) rest _ (Scanner.bind_of_eq_some ?_)
    (by simp)
  have hliteral : Scanner.literal "'s" ('\'' :: 's' :: ' ' :: name ++ rest) =
      some ((), ' ' :: (name ++ rest)) := rfl
  have hblank := @blanks1_cons (name ++ rest) fun c hc =>
    Text.isBlank_of_isWord (hname.head rest c hc)
  rw [Scanner.bind_of_eq_some hliteral, Scanner.bind_of_eq_some hblank]
  exact propertyName_append hname hrest

end

/-! ## Properties before their owner -/

/-- Which names are read as properties before `of`: any but those that a rule of higher priority
takes for a temp variable, for `it` or for `its`. -/
structure Belongs (name : List Char) : Prop extends IsName name where
  notTemp : name.head? ≠ some '_'
  notIt : name.map Char.toLower ≠ "it".toList
  notIts : name.map Char.toLower ≠ "its".toList

/-- A rule whose matches start with another character does not match. -/
theorem match?_of_ne {rule : Rule} {here : Situation} {c d : Char} {cs : List Char} (hne : c ≠ d)
    (hstarts : rule.starts = [d]) : rule.match? here (c :: cs) = none := by
  have hadmits : rule.admits (c :: cs) = false := by simp [admits, hstarts, hne]
  simp [match?, hadmits]

/-- The first match is that of a rule if those in front of it do not match. -/
theorem firstMatch_of_rules {here : Situation} {c : Char} {cs : List Char}
    (hmode : here.mode = .code) (skipped : List Rule) {rule : Rule} {capture : Capture}
    (hrules : ∃ rules, expressionRules ++ codeRules = skipped ++ rule :: rules)
    (hskipped : skipped.Forall fun other => other.match? here (c :: cs) = none)
    (hmatch : rule.match? here (c :: cs) = some capture) :
    firstMatch here (c :: cs) = some (rule, capture) := by
  obtain ⟨rules, hrules⟩ := hrules
  have hadmits : rule.admits [c] = true := by
    by_contra hnot
    have hnot' : rule.admits (c :: cs) = false := by simpa [admits] using hnot
    simp [match?, hnot'] at hmatch
  refine firstMatch_of_candidates hmode (skipped.filter (·.admits [c]))
    ⟨rules.filter (·.admits [c]), ?_⟩ ?_ hmatch
  · rw [candidates, hrules, List.filter_append, List.filter_cons, if_pos hadmits]
  · rw [List.forall_iff_forall_mem] at hskipped ⊢
    exact fun other hother => hskipped other (List.mem_of_mem_filter hother)

section

variable {here : Situation} {name next : List Char}

/-- `of it` is not read at a name with an owner, be it `of` itself. -/
theorem ofIt_eq_none (hname : IsName name) (next : List Char) :
    Pattern.ofIt (name ++ ' ' :: 'o' :: 'f' :: next) = none := by
  by_cases hof : name.map Char.toLower = "of".toList.map Char.toLower
  · obtain ⟨a, b, rfl⟩ : ∃ a b, name = [a, b] := by
      have hlength := congrArg List.length hof
      rw [List.length_map] at hlength
      exact List.length_eq_two.1 hlength
    have hkeyword : Scanner.keyword "of" ([a, b] ++ ' ' :: 'o' :: 'f' :: next) =
        some ((), ' ' :: 'o' :: 'f' :: next) := by
      obtain ⟨ha, hb⟩ : a.toLower = 'o' ∧ b.toLower = 'f' := by simpa using hof
      have hliteral : Scanner.literal "of" ([a, b] ++ ' ' :: 'o' :: 'f' :: next) =
          some ((), ' ' :: 'o' :: 'f' :: next) := by
        have hstarts : Text.startsWithIgnoringCase "of".toList
            ([a, b] ++ ' ' :: 'o' :: 'f' :: next) = true := by
          simp [Text.startsWithIgnoringCase, ha, hb]
        rw [Scanner.literal, if_pos hstarts]
        rfl
      rw [Scanner.keyword, Scanner.bind_of_eq_some hliteral]
      rfl
    have hblank := @blanks1_cons ('o' :: 'f' :: next) (by simp; rfl)
    rw [Pattern.ofIt, Scanner.bind_of_eq_some hkeyword, Scanner.bind_of_eq_some hblank]
    exact Scanner.bind_of_eq_none rfl
  · exact Scanner.bind_of_eq_none (keyword_eq_none hname.word hof rfl)

/-- A name and `of` are read together, unless `it` follows. -/
theorem firstMatch_belonging (h : Between here) (hword : here.afterWord = false)
    (hname : Belongs name) (hnext : ∀ c ∈ next.head?, Text.isBlank c = false)
    (hit : Scanner.keyword "it" next = none) :
    firstMatch here ((name ++ [' ', 'o', 'f']) ++ ' ' :: next) =
      some (belongingRule,
        ⟨name ++ [' ', 'o', 'f'], { name := some (String.ofList name) }, none⟩) := by
  have hsource : (name ++ [' ', 'o', 'f']) ++ ' ' :: next =
      name ++ ' ' :: 'o' :: 'f' :: ' ' :: next := by simp
  have hscan : Pattern.propertyName (name ++ ' ' :: 'o' :: 'f' :: ' ' :: next) =
      some (name, ' ' :: 'o' :: 'f' :: ' ' :: next) :=
    propertyName_append hname.toIsName (by simp; rfl)
  have hblank := @blanks1_cons ('o' :: 'f' :: ' ' :: next) (by simp; rfl)
  have hof : Scanner.keyword "of" ('o' :: 'f' :: ' ' :: next) = some ((), ' ' :: next) := rfl
  have hmatch : belongingRule.match? here ((name ++ [' ', 'o', 'f']) ++ ' ' :: next) =
      some ⟨name ++ [' ', 'o', 'f'], { name := some (String.ofList name) }, none⟩ := by
    have hfits : belongingRule.fits here = true := fits_asKeyword h hword _ _ _
    rw [match?_of_fits hfits (by rfl)]
    refine Pattern.capture?_leaf (Scanner.bind_of_eq_some ?_) (by simp)
    rw [hsource, Scanner.bind_of_eq_some hscan, Scanner.bind_of_eq_some hblank,
      Scanner.bind_of_eq_some hof]
    rfl
  have hbelongingIt :
      belongingItRule.match? here ((name ++ [' ', 'o', 'f']) ++ ' ' :: next) = none := by
    apply match?_of_capture?_eq_none
    refine Pattern.capture?_leaf_eq_none (Scanner.bind_of_eq_none ?_)
    have hofIt : Pattern.ofIt ('o' :: 'f' :: ' ' :: next) = none := by
      rw [Pattern.ofIt, Scanner.bind_of_eq_some hof, Scanner.bind_of_eq_some (blanks1_cons hnext),
        hit]
    rw [hsource, Scanner.bind_of_eq_some hscan, Scanner.bind_of_eq_some hblank]
    exact Scanner.bind_of_eq_none hofIt
  rw [hsource] at hmatch hbelongingIt ⊢
  obtain ⟨c, cs, hcons⟩ := List.exists_cons_of_ne_nil hname.ne_nil
  have hc : Text.isWord c = true := hname.word c (hcons ▸ List.mem_cons_self)
  have htemp : c ≠ '_' := by
    rintro rfl
    exact hname.notTemp (by rw [hcons]; rfl)
  have hsign : ∀ d, Text.isWord d = false → c ≠ d := by
    rintro d hd rfl
    rw [hc] at hd
    exact absurd hd (by decide)
  have hits : ∀ {α : Type} (f : List Char → Scanner α), (Scanner.literal "its" >>= fun _ =>
      Scanner.blanks1 >>= f) (name ++ ' ' :: 'o' :: 'f' :: ' ' :: next) = none :=
    fun f => @literal_blanks_eq_none "its" _ _ hname.word hname.notIts rfl _ f
  subst hcons
  refine firstMatch_of_rules h.mode ((expressionRules ++ codeRules).take 14) ⟨_, rfl⟩ ?_ hmatch
  -- no word starts with one of the signs, and the words among the rules are not this one
  refine ⟨nameRule_skip h, match?_of_ne (hsign '(' rfl) rfl, match?_of_ne (hsign ')' rfl) rfl,
    match?_of_ne (hsign '?' rfl) rfl, match?_of_ne (hsign '$' rfl) rfl, match?_of_ne htemp rfl,
    blankRule_skip ?_, match?_of_ne (hsign '(' rfl) rfl, match?_of_ne (hsign '\'' rfl) rfl,
    match?_of_ne (hsign '\'' rfl) rfl, ?_, ?_, hbelongingIt, ?_⟩
  · intro d hd
    exact Text.isBlank_of_isWord (hname.head _ d hd)
  · apply match?_of_capture?_eq_none
    exact Pattern.capture?_leaf_eq_none (Scanner.bind_of_eq_none (hits _))
  · apply match?_of_capture?_eq_none
    exact Pattern.capture?_plain_eq_none (hits _)
  · apply match?_of_capture?_eq_none
    exact Pattern.capture?_plain_eq_none (ofIt_eq_none hname.toIsName _)

end

end Rule

end StoryScript
