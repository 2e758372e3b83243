/-
  The delimiters of a token, and the texts around its contents.

  `delimiters` looks for the inner text of a token in its text, from the start on, so it
  finds the contents unless the inner text stands further in front as well. For most
  kinds it cannot: the opener repeats one mark, and what is inside is more than this mark.
  Where an opener has a name or other text in it, or may be followed by itself, it can,
  and then the delimiters are not what stands around the contents.
-/
import Mathlib
import StoryScript.Proofs.Token.Contents
import StoryScript.Proofs.Token.Offsets

namespace StoryScript

/-! ## The first occurrence of a text -/

namespace Text

/-- A search finds the parts around the first occurrence. -/
theorem splitAtFirst_eq_some_iff {needle cs before after : List Char} :
    splitAtFirst needle cs = some (before, after) ↔
      cs = before ++ needle ++ after ∧ ∀ n < before.length, ¬ needle <+: cs.drop n := by
  constructor
  · intro h
    refine ⟨(append_of_splitAtFirst h).symm, ?_⟩
    induction cs generalizing before with
    | nil =>
      have hnil := append_of_splitAtFirst h
      simp only [List.append_eq_nil_iff] at hnil
      simp [hnil.1.1]
    | cons c cs ih =>
      simp only [splitAtFirst] at h
      split at h
      · simp only [Option.some.injEq, Prod.mk.injEq] at h
        simp [← h.1]
      · rename_i hno
        simp only [Option.map_eq_some_iff, Prod.exists, Prod.mk.injEq] at h
        obtain ⟨b, a, hsplit, rfl, rfl⟩ := h
        intro n hn
        cases n with
        | zero => exact fun hprefix => hno (List.isPrefixOf_iff_prefix.2 hprefix)
        | succ n => exact ih hsplit n (by simpa using hn)
  · rintro ⟨rfl, hfirst⟩
    induction before with
    | nil =>
      cases hcs : [] ++ needle ++ after with
      | nil =>
        simp only [List.nil_append, List.append_eq_nil_iff] at hcs
        simp [splitAtFirst, hcs.1, hcs.2]
      | cons c cs =>
        have hprefix : needle.isPrefixOf (c :: cs) = true := by
          rw [← hcs, List.isPrefixOf_iff_prefix, List.nil_append]
          exact List.prefix_append needle after
        rw [splitAtFirst, if_pos hprefix, ← hcs, List.nil_append, List.drop_left]
    | cons c before ih =>
      have hno : ¬ needle.isPrefixOf (c :: (before ++ needle ++ after)) = true := by
        rw [List.isPrefixOf_iff_prefix]
        exact hfirst 0 (by simp)
      have hrest := ih fun n hn => hfirst (n + 1) (by simpa using hn)
      rw [List.cons_append, List.cons_append, splitAtFirst, if_neg hno, hrest]
      rfl

/-- A text that occurs is found, there or further in front. -/
theorem exists_splitAtFirst (needle before after : List Char) :
    ∃ b a, splitAtFirst needle (before ++ needle ++ after) = some (b, a) ∧
      b.length ≤ before.length := by
  induction before with
  | nil => exact ⟨[], after, splitAtFirst_eq_some_iff.2 ⟨rfl, by simp⟩, Nat.le_refl _⟩
  | cons c before ih =>
    obtain ⟨b, a, hsplit, hlength⟩ := ih
    rw [List.cons_append, List.cons_append, splitAtFirst]
    split
    · exact ⟨[], _, rfl, Nat.zero_le _⟩
    · exact ⟨c :: b, a, by rw [hsplit]; rfl, by simpa using hlength⟩

/-- After a row of one character, a text that has another character does not occur further in
front. -/
theorem not_prefix_of_replicate {inner after : List Char} {c d : Char} (hd : d ∈ inner)
    (hne : d ≠ c) {count n : Nat} (hn : n < count) :
    ¬ inner <+: (List.replicate count c ++ inner ++ after).drop n := by
  -- the first character that is another
  have hother : inner.dropWhile (· == c) ≠ [] := by
    intro hnil
    exact hne (by simpa using List.dropWhile_eq_nil_iff.1 hnil d hd)
  obtain ⟨e, rest, hdrop⟩ := List.exists_cons_of_ne_nil hother
  have he : e ≠ c := by
    have hstop := List.head?_dropWhile_not (· == c) inner
    rw [hdrop] at hstop
    simpa using hstop
  have htake : inner.takeWhile (· == c) =
      List.replicate (inner.takeWhile (· == c)).length c := by
    refine List.eq_replicate_iff.2 ⟨rfl, fun x hx => ?_⟩
    simpa using List.mem_takeWhile_imp hx
  generalize (inner.takeWhile (· == c)).length = p at htake
  have hinner : inner = List.replicate p c ++ e :: rest := by
    rw [← htake, ← hdrop, List.takeWhile_append_dropWhile]
  -- further in front it would have to stand where the row still goes on
  rintro ⟨tail, htail⟩
  have hrow : (List.replicate count c ++ inner ++ after).drop n =
      List.replicate (count - n + p) c ++ (e :: rest ++ after) := by
    rw [List.append_assoc, List.drop_append_of_le_length (by simp; omega), List.drop_replicate,
      hinner, List.append_assoc, ← List.append_assoc, List.replicate_append_replicate]
  have hmore : List.replicate (count - n + p) c =
      List.replicate p c ++ c :: List.replicate (count - n - 1) c := by
    rw [← List.replicate_succ, List.replicate_append_replicate]
    congr 1
    omega
  rw [hrow, hmore, hinner, List.append_assoc, List.append_assoc] at htail
  exact he (List.cons.inj (List.append_cancel_left htail)).1

end Text

/-! ## The texts around the contents -/

namespace Token

/-- What stands in the source before the first child of a token and after its last child. -/
def around? (source : List Char) (t : Token) : Option (List Char × List Char) := do
  let first ← t.children.head?
  let last ← t.children.getLast?
  let before ← Text.slice? source t.start first.start
  let after ← Text.slice? source last.stop t.stop
  return (before, after)

/-- The delimiters are the texts around the contents. -/
def IsDelimited (source : String) (t : Token) : Prop :=
  t.around? source.toList = some (t.delimiters.1.toList, t.delimiters.2.toList)

instance (source : String) (t : Token) : Decidable (t.IsDelimited source) :=
  inferInstanceAs (Decidable (_ = _))

theorem isDelimited_iff {source : String} {t : Token} {before after : List Char}
    (h : t.around? source.toList = some (before, after)) :
    t.IsDelimited source ↔ t.delimiters = (String.ofList before, String.ofList after) := by
  rw [IsDelimited, h, Option.some.injEq, Prod.mk.injEq, Prod.ext_iff, ← String.toList_inj,
    ← String.toList_inj, String.toList_ofList, String.toList_ofList]
  exact and_congr eq_comm eq_comm

end Token

namespace Lexer

theorem Tiles.stop_of_getLast? {start : Nat} {text : List Char} {ts : List Token} {last : Token}
    (h : Tiles start text ts) (hlast : last ∈ ts.getLast?) :
    last.stop = start + Text.width text := by
  obtain ⟨ts, rfl⟩ := List.getLast?_eq_some_iff.1 hlast
  obtain ⟨a, b, rfl, -, hone⟩ := h.split
  obtain ⟨hplaced, hstart, rfl⟩ := hone.placed
  rw [hplaced.stop_eq, hstart, Text.width_append]
  omega

/-- The texts around the contents are what a token has besides them. -/
theorem around?_eq {source : List Char} {t : Token} {lead body trail : List Char}
    (hcovers : t.Covers source) (htext : t.text.toList = lead ++ body ++ trail)
    (hchildren : Tiles (t.start + Text.width lead) body t.children) (hne : t.children ≠ []) :
    t.around? source = some (lead, trail) := by
  obtain ⟨before, after, hsource, hstart, hstop⟩ := Text.slice?_eq_some_iff.1 hcovers.text_eq
  obtain ⟨first, others, hfirst⟩ := List.exists_cons_of_ne_nil hne
  have hhead : t.children.head? = some first := by rw [hfirst, List.head?_cons]
  obtain ⟨last, hlast⟩ : ∃ last, t.children.getLast? = some last :=
    Option.isSome_iff_exists.1 (by simpa using hne)
  have hfirstStart : first.start = t.start + Text.width lead := by
    rw [hfirst] at hchildren
    cases hchildren with
    | cons hstart => exact hstart
  have hlastStop := hchildren.stop_of_getLast? hlast
  have hopen : Text.slice? source t.start first.start = some lead := by
    refine Text.slice?_eq_some_iff.2 ⟨before, body ++ trail ++ after, ?_, hstart, hfirstStart⟩
    rw [hsource, htext]
    simp
  have hclose : Text.slice? source last.stop t.stop = some trail := by
    refine Text.slice?_eq_some_iff.2 ⟨before ++ lead ++ body, after, ?_, ?_, ?_⟩
    · rw [hsource, htext]
      simp
    · rw [hlastStop, hstart, Text.width_append, Text.width_append]
    · rw [hstop, hlastStop, htext, Text.width_append, Text.width_append]
      omega
  simp [Token.around?, hhead, hlast, hopen, hclose]

/-- The delimiters stand around the inner text, where it first occurs. -/
theorem delimiters_spec {t : Token} {inner : String} {before after : List Char}
    (hinner : t.inner = some inner) (htext : t.text.toList = before ++ inner.toList ++ after) :
    t.text = t.delimiters.1 ++ inner ++ t.delimiters.2 ∧ t.delimiters.1.length ≤ before.length ∧
    (t.delimiters = (String.ofList before, String.ofList after) ↔
      ∀ n < before.length, ¬ inner.toList <+: t.text.toList.drop n) := by
  obtain ⟨b, a, hsplit, hlength⟩ := Text.exists_splitAtFirst inner.toList before after
  rw [← htext] at hsplit
  have hdelimiters : t.delimiters = (String.ofList b, String.ofList a) := by
    simp [Token.delimiters, hinner, hsplit]
  obtain ⟨hparts, hfirst⟩ := Text.splitAtFirst_eq_some_iff.1 hsplit
  rw [hdelimiters]
  refine ⟨?_, by simpa using hlength, ?_⟩
  · rw [← String.toList_inj, hparts]
    simp
  · simp only [Prod.mk.injEq, String.ofList_inj]
    constructor
    · rintro ⟨rfl, -⟩
      exact hfirst
    · intro hno
      rw [Text.splitAtFirst_eq_some_iff.2 ⟨htext, hno⟩, Option.some.injEq, Prod.mk.injEq] at hsplit
      exact ⟨hsplit.1.symm, hsplit.2.symm⟩

theorem Placed.of_mem {t : Token} (h : Placed t) : ∀ u ∈ t.tokens, Placed u := by
  induction t using Token.tree_induction with
  | h t ih =>
    refine Token.forall_mem_tokens.2 ⟨h, fun c hc => ih c hc ?_⟩
    exact (h.children.2.2 c hc).1

/-- Delimiters around contents that do not occur further in front. -/
theorem isDelimited_of_first {source : String} {t : Token} {lead body trail : List Char}
    (hcovers : t.Covers source.toList) (hinner : t.inner = some (String.ofList body))
    (htext : t.text.toList = lead ++ body ++ trail)
    (hchildren : Tiles (t.start + Text.width lead) body t.children) (hne : t.children ≠ [])
    (hfirst : ∀ n < lead.length, ¬ body <+: t.text.toList.drop n) : t.IsDelimited source := by
  have hparts : t.text.toList = lead ++ (String.ofList body).toList ++ trail := by
    rw [String.toList_ofList, htext]
  rw [Token.isDelimited_iff (around?_eq hcovers htext hchildren hne),
    (delimiters_spec hinner hparts).2.2, String.toList_ofList]
  exact hfirst

end Lexer

/-! ## Kinds -/

/-- The kinds whose contents can also stand further in front. -/
def Kind.isMisread : Kind → Bool
  | bulleted | numbered | heading | link | hook | strong | comment => true
  | _ => false

namespace Lexer

theorem exists_mark {kind : Kind} (hfolded : kind.isFolded = true)
    (hread : kind.isMisread = false) : ∃ c, kind.mark = some c := by
  cases kind <;>
    first | exact ⟨_, rfl⟩ | exact absurd hfolded (by decide) | exact absurd hread (by decide)

/-- The name of a method call starts where the call's name starts. -/
theorem lead_of_macroName {source : List Char} {capture : Capture} {i : Inside}
    (h : Pattern.macroName.capture? source = some capture) (hi : capture.inside = some i) :
    i.lead = [] := by
  obtain ⟨rest, hscan, -, -⟩ := Pattern.capture?_eq_some.1 h
  simp only [Pattern.macroName, Pattern.scan, Scanner.bind_eq_some, Scanner.pure_eq_some,
    Prod.mk.injEq] at hscan
  obtain ⟨⟨name, isMethod⟩, r, -, ⟨-, hinside⟩, -⟩ := hscan
  rw [hi] at hinside
  split at hinside
  · rw [← Option.some.inj hinside]
  · cases hinside

/-- Of the matches that hold text, only those of misread kinds have anything in front of it. -/
theorem lead_of_held {here : Situation} {source : List Char} {rule : Rule} {capture : Capture}
    {i : Inside} (found : Rule.firstMatch here source = some (rule, capture))
    (hi : capture.inside = some i) (hread : rule.kind.isMisread = false) : i.lead = [] := by
  obtain ⟨hrule, hmatch⟩ := Rule.of_firstMatch found
  have hcapture := Rule.capture?_of_match? hmatch
  have hleaf : rule.pattern.isLeaf = false := by
    rw [Bool.eq_false_iff]
    intro hleaf
    simp [inside_of_isLeaf hleaf hcapture] at hi
  have hmem : rule ∈ Rule.all.filter (fun rule => !rule.pattern.isLeaf) := by simp [hrule, hleaf]
  rw [Rule.nesting_rules] at hmem
  simp only [List.mem_cons, List.not_mem_nil, or_false] at hmem
  rcases hmem with rfl | rfl | rfl | rfl | rfl | rfl | rfl
  case inr.inr.inr.inr.inr.inr => exact lead_of_macroName hcapture hi
  all_goals cases hread

section

variable {mode : Mode} {source : String} {t : Token}

/-- A token with something inside has an inner text. -/
theorem ne_nil_of_children (ht : t ∈ (lexIn mode source).value.tokens) {start : Nat}
    {body : List Char} (hchildren : Tiles start body t.children) (hne : t.children ≠ []) :
    body ≠ [] := by
  obtain ⟨c, cs, hcs⟩ := List.exists_cons_of_ne_nil hne
  have hbelow : (lexIn mode source).value.Below c := by
    have hc : t.Below c := .of_child (by simp [hcs])
    rcases Token.mem_tokens_iff.1 ht with rfl | ht
    · exact hc
    · exact ht.trans hc
  have htext := (resolved_lexIn mode source).2 c hbelow
  rintro rfl
  obtain ⟨d, ds, hd⟩ := List.exists_cons_of_ne_nil (String.toList_eq_nil_iff.not.2 htext)
  have hmem := mem_textOf (by simp [hcs] : c ∈ t.children) (by simp [hd] : d ∈ c.text.toList)
  simp [hchildren.toList_textOf] at hmem

/-- The delimiters of all other kinds are what stands around the contents. -/
theorem isDelimited_of_mem (ht : t ∈ (lexIn mode source).value.tokens) (hinner : t.inner ≠ none)
    (hne : t.children ≠ []) (hread : t.kind.isMisread = false) : t.IsDelimited source := by
  have hcovers := covers_lexIn mode source t ht
  rcases Token.mem_tokens_iff.1 ht with rfl | hbelow
  · refine @isDelimited_of_first _ _ [] source.toList [] hcovers ?_ ?_ (tiles_lexIn mode source) hne
      (by simp)
    · rw [String.ofList_toList]
      rfl
    · rw [List.nil_append, List.append_nil]
      rfl
  · cases arises_lexIn mode source t hbelow with
    | bare hnone => exact absurd hnone hinner
    | text plain => exact absurd plain.2 hne
    | @held here ahead rule capture i start found inside own children =>
      have hkind : t.kind = rule.kind := congrArg Token.kind own
      have hlead := lead_of_held found inside (hkind ▸ hread)
      have hbody : t.inner = some (String.ofList i.body) := by
        have hinner := congrArg Token.inner own
        change t.inner = capture.inside.map _ at hinner
        rw [hinner, inside]
        rfl
      obtain ⟨trail, htrail⟩ := Rule.text_eq_of_firstMatch found inside
      have htext : t.text.toList = i.lead ++ i.body ++ trail := by
        have htext := congrArg Token.text own
        change t.text = String.ofList capture.text at htext
        rw [htext, String.toList_ofList, htrail]
      exact isDelimited_of_first hcovers hbody htext children hne (by simp [hlead])
    | folded g made =>
      obtain ⟨c, hc⟩ := exists_mark (Kind.of_mem_folds g.mem_folds).1 (made.kind_eq ▸ hread)
      obtain ⟨count, hopener⟩ := g.opener_eq_replicate hc
      obtain ⟨d, hd, hother⟩ := g.exists_ne_mark hc (ne_nil_of_children ht made.children hne)
      refine isDelimited_of_first hcovers made.inner_eq made.text_eq made.children hne ?_
      rw [made.text_eq, hopener]
      intro n hn
      exact Text.not_prefix_of_replicate hd hother (by simpa using hn)

end

/-- Texts in which the delimiters of a token are not what stands around its contents, by kind. -/
def misreadings : List (Kind × String) :=
  [(.bulleted, "* *"), (.numbered, "0. 0."), (.heading, "# #"), (.link, "[[a<-a]]"),
   (.hook, "|a>[a]"), (.strong, "********"), (.comment, "<!--!-->")]

theorem exists_misreading {kind : Kind} (h : kind.isMisread = true) :
    ∃ source, ∃ t ∈ (lexIn .markup source).value.tokens,
      t.kind = kind ∧ t.inner ≠ none ∧ t.children ≠ [] ∧ ¬ t.IsDelimited source := by
  have htable : misreadings.all (fun (kind, source) => (lexIn .markup source).value.tokens.any
      fun t => t.kind == kind && t.inner.isSome && !t.children.isEmpty &&
        !decide (t.IsDelimited source)) = true := by
    decide +kernel
  have hkind : kind ∈ misreadings.map (·.1) := by
    cases kind <;> first | exact absurd h (by decide) | decide
  obtain ⟨⟨_, source⟩, hmem, rfl⟩ := List.mem_map.1 hkind
  obtain ⟨t, ht, hwrong⟩ := List.any_eq_true.1 (List.all_eq_true.1 htable _ hmem)
  refine ⟨source, t, ht, ?_⟩
  simpa [Option.isSome_iff_ne_none, and_assoc] using hwrong

end Lexer

/-- What delimiters are: the texts around the first occurrence of the inner text in the text of the
token, which is that of the contents or further in front. They are the texts of the source around
the contents exactly if the inner text does not occur further in front. For all tokens of a kind
this is so exactly if the kind is none of `Kind.isMisread`. -/
theorem delimiters_lexIn (mode : Mode) (source : String) (t : Token)
    (ht : t ∈ (Lexer.lexIn mode source).value.tokens) (inner : String)
    (hinner : t.inner = some inner) (hne : t.children ≠ []) :
    (∃ before after, t.around? source.toList = some (before, after) ∧
      t.text.toList = before ++ inner.toList ++ after ∧
      t.text = t.delimiters.1 ++ inner ++ t.delimiters.2 ∧
      t.delimiters.1.length ≤ before.length ∧
      (t.IsDelimited source ↔ ∀ n < before.length, ¬ inner.toList <+: t.text.toList.drop n)) ∧
    (t.kind.isMisread = false ↔
      ∀ mode source, ∀ u ∈ (Lexer.lexIn mode source).value.tokens, u.kind = t.kind →
        u.inner ≠ none → u.children ≠ [] → u.IsDelimited source) := by
  refine ⟨?_, ?_, fun hright => ?_⟩
  · have hcovers := Lexer.covers_lexIn mode source t ht
    cases (Lexer.placed_lexIn mode source).of_mem t ht with
    | leaf _ hnone _ => simp [hnone] at hinner
    | @node _ lead body trail stop_eq text_eq hbody children =>
      obtain rfl : String.ofList body = inner := Option.some.inj (hbody.symm.trans hinner)
      have htext : t.text.toList = lead ++ (String.ofList body).toList ++ trail := by
        rw [String.toList_ofList, text_eq]
      have haround := Lexer.around?_eq hcovers text_eq children hne
      obtain ⟨hparts, hlength, hfirst⟩ := Lexer.delimiters_spec hinner htext
      refine ⟨lead, trail, haround, htext, hparts, hlength, ?_⟩
      rw [Token.isDelimited_iff haround, hfirst]
  · intro hread mode source u hu hkind hinner hne
    exact Lexer.isDelimited_of_mem hu hinner hne (hkind ▸ hread)
  · by_contra hread
    obtain ⟨source, u, hu, hkind, hinner, hne, hwrong⟩ :=
      Lexer.exists_misreading (Bool.not_eq_false _ ▸ hread)
    exact hwrong (hright .markup source u hu hkind hinner hne)

/-- A quote inside quotes, which is not misread, and a call inside a grouping. -/
theorem delimiters_lexIn_nested :
    (∃ t ∈ (Lexer.lexIn .markup "''a'b''").value.tokens, t.kind = .bold ∧ t.inner = some "a'b" ∧
      t.IsDelimited "''a'b''") ∧
    ∃ t ∈ (Lexer.lexIn .code "((a:))").value.tokens, t.kind = .grouping ∧
      ∃ before after, t.around? "((a:))".toList = some (before, after) ∧
        t.text.toList = before ++ "(a:)".toList ++ after := by
  have hbold : ((Lexer.lexIn .markup "''a'b''").value.tokens.any fun t =>
      t.kind == .bold && t.inner == some "a'b" && !t.children.isEmpty) = true := by
    decide +kernel
  have hgrouping : ((Lexer.lexIn .code "((a:))").value.tokens.any fun t =>
      t.kind == .grouping && t.inner == some "(a:)" && !t.children.isEmpty) = true := by
    decide +kernel
  obtain ⟨t, ht, hbold⟩ := List.any_eq_true.1 hbold
  obtain ⟨u, hu, hgrouping⟩ := List.any_eq_true.1 hgrouping
  simp only [Bool.and_eq_true, beq_iff_eq, Bool.not_eq_true', List.isEmpty_eq_false_iff]
    at hbold hgrouping
  refine ⟨⟨t, ht, hbold.1.1, hbold.1.2, ?_⟩, u, hu, hgrouping.1.1, ?_⟩
  · have hright := (delimiters_lexIn _ _ t ht _ hbold.1.2 hbold.2).2.1 (by rw [hbold.1.1]; rfl)
    exact hright _ _ t ht rfl (by simp [hbold.1.2]) hbold.2
  · obtain ⟨⟨before, after, haround, htext, -⟩, -⟩ :=
      delimiters_lexIn _ _ u hu _ hgrouping.1.2 hgrouping.2
    exact ⟨before, after, haround, htext⟩

/-- The name of a hook can be its contents too. -/
theorem not_isDelimited_hook :
    ¬ ∀ t ∈ (lex "|a>[a]").tokens, t.inner ≠ none → t.children ≠ [] → t.IsDelimited "|a>[a]" := by
  have hany : ((lex "|a>[a]").tokens.any fun t => t.inner.isSome && !t.children.isEmpty &&
      !decide (t.IsDelimited "|a>[a]")) = true := by
    decide +kernel
  obtain ⟨t, ht, hwrong⟩ := List.any_eq_true.1 hany
  simp only [Bool.and_eq_true, Bool.not_eq_true', List.isEmpty_eq_false_iff,
    decide_eq_false_iff_not, Option.isSome_iff_ne_none] at hwrong
  intro hall
  exact hwrong.2 (hall t ht hwrong.1.1 hwrong.1.2)

end StoryScript
