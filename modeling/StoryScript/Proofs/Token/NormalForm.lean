/-
  The normal form of a lexed tree.

  Openers and closers are gone from a finished tree: each pair has become one token
  whose text is the opener, the contents and the closer, and all others are text.
  `Settled` is what a token has as soon as it leaves the stack of frames, `IsMark`
  what an opener has while it waits there. Every step keeps both, and merging then
  leaves no two texts side by side. `resolved_lex_lexExpression` collects this.
-/
import Mathlib
import StoryScript.Proofs.Token.Derivation

namespace StoryScript

/-! ## Kinds -/

namespace Kind

/-- The kinds of openers and closers. -/
def isDelimiter : Kind → Bool
  | emFront | emBack | strongFront | strongBack | boldOpener | italicOpener | delOpener | supOpener
  | commentFront | commentBack | hookPrependedFront | hookAnonymousFront | hookAppendedFront
  | hookBack | hookAppendedBack | verbatimOpener | collapsedFront | collapsedBack | macroFront
  | groupingFront | groupingBack => true
  | _ => false

/-- The kinds that an opener and a closer fold into. -/
def isFolded : Kind → Bool
  | em | strong | bold | italic | del | sup | comment | hook | verbatim | collapsed | macroCall
  | grouping => true
  | _ => false

/-- Folding leads to folded kinds, and to `verbatim` only from backticks. -/
theorem of_mem_folds {front back kind : Kind} (h : (front, kind) ∈ back.folds) :
    kind.isFolded = true ∧ kind.isDelimiter = false ∧ kind ≠ .text ∧
      (kind = .verbatim → front = .verbatimOpener ∧ back = .verbatimOpener) := by
  cases back <;> simp only [folds, List.mem_cons, List.not_mem_nil, or_false, Prod.mk.injEq] at h
  -- these two closers have two openers each, and all others one
  case groupingBack | hookBack => rcases h with ⟨rfl, rfl⟩ | ⟨rfl, rfl⟩ <;> decide
  all_goals obtain ⟨rfl, rfl⟩ := h; decide

/-- A text that some rule of this kind matches somewhere. -/
def Matches (kind : Kind) (text : String) : Prop :=
  ∃ rule ∈ Rule.all, rule.kind = kind ∧ ∃ here rest capture,
    rule.match? here (text.toList ++ rest) = some capture ∧ capture.text = text.toList

end Kind

/-! ## Resolved tokens -/

namespace Token

/-- The token is an opener, its inner text and a closer that accepts the opener; backticks come
in equal numbers. -/
def IsFold (t : Token) : Prop :=
  ∃ (front back : Kind) (opener inner closer : String),
    t.text = opener ++ inner ++ closer ∧ t.inner = some inner ∧
    front.Matches opener ∧ back.Matches closer ∧ (front, t.kind) ∈ back.folds ∧
    (t.kind = .verbatim → ∃ n, opener.toList = List.replicate n (Char.ofNat 0x60) ∧
      closer.toList = List.replicate n (Char.ofNat 0x60))

/-- No two texts stand side by side. -/
def Separated (ts : List Token) : Prop :=
  ts.IsChain fun a b => ¬ (a.kind = .text ∧ b.kind = .text)

/-- A token that is neither an opener nor a closer, with no two texts side by side in it. -/
structure IsResolved (t : Token) : Prop where
  notFront : t.isFront = false
  notDelimiter : t.kind.isDelimiter = false
  fold : t.kind.isFolded = true → t.IsFold
  separated : Separated t.children

end Token

namespace Lexer

open Token (Separated tokensIn)

/-- What a token has once it is off the stack. -/
structure IsSound (t : Token) : Prop where
  notFront : t.isFront = false
  notDelimiter : t.kind.isDelimiter = false
  fold : t.kind.isFolded = true → t.IsFold
  nonempty : t.text ≠ ""
  bare : t.kind = .text → t.children = []

/-- A token that is off the stack, with all inside it. -/
def Settled (t : Token) : Prop :=
  ∀ u ∈ t.tokens, IsSound u

/-- An opener, or a closer that finds nothing to close: the match of a rule with nothing inside. -/
structure IsMark (t : Token) : Prop where
  nonempty : t.text ≠ ""
  bare : t.children = []
  isMatch : t.kind.Matches t.text
  ticks : t.kind = .verbatimOpener → t.text.toList = List.replicate t.depth (Char.ofNat 0x60)

theorem settled_iff {t : Token} : Settled t ↔ IsSound t ∧ ∀ c ∈ t.children, Settled c :=
  Token.forall_mem_tokens

/-- A mark that is given up is an ordinary token. -/
theorem settled_demote {t : Token} (h : IsMark t) : Settled (demote t) := by
  have hchildren : (demote t).children = [] := by
    rw [← h.bare]
    simp only [demote]
    split <;> rfl
  refine settled_iff.2 ⟨?_, by simp [hchildren]⟩
  simp only [demote]
  split
  · exact ⟨rfl, rfl, by simp [Kind.isFolded], h.nonempty, by simp⟩
  · exact ⟨rfl, rfl, by simp [Kind.isFolded], h.nonempty, fun _ => h.bare⟩

/-! ## What rules match -/

/-- Openers and closers hold nothing, and all other rules give tokens of other kinds. -/
theorem rule_kinds {rule : Rule} (h : rule ∈ Rule.all) :
    rule.kind ≠ .text ∧ rule.kind.isFolded = false ∧
    ((rule.isFront || rule.kind.isCloser) = true → rule.pattern.isLeaf = true) ∧
    ((rule.isFront || rule.kind.isCloser) = false → rule.kind.isDelimiter = false) := by
  -- a fact about each rule of the table, and the table is finite
  have htable : Rule.all.all (fun rule => rule.kind ≠ .text && !rule.kind.isFolded &&
      (!(rule.isFront || rule.kind.isCloser) || rule.pattern.isLeaf) &&
      ((rule.isFront || rule.kind.isCloser) || !rule.kind.isDelimiter)) = true := by
    decide
  have hrule := List.all_eq_true.1 htable rule h
  revert hrule
  cases (rule.isFront || rule.kind.isCloser) <;> simp_all

/-- A leaf leaves nothing to be lexed. -/
theorem inside_of_isLeaf {p : Pattern} (hp : p.isLeaf = true) {source : List Char} {c : Capture}
    (h : p.capture? source = some c) : c.inside = none := by
  obtain ⟨rest, hscan, -, -⟩ := Pattern.capture?_eq_some.1 h
  cases p with
  | nest => simp [Pattern.isLeaf] at hp
  | leaf scan =>
    simp only [Pattern.scan, Scanner.bind_eq_some, Scanner.pure_eq_some, Prod.mk.injEq] at hscan
    obtain ⟨_, _, -, ⟨-, hinside⟩, -⟩ := hscan
    exact hinside.symm

/-- The depth of a run of backticks is its length. -/
theorem ticks_of_capture? {source : List Char} {c : Capture}
    (h : Pattern.verbatimOpener.capture? source = some c) :
    c.text = List.replicate c.detail.depth (Char.ofNat 0x60) := by
  obtain ⟨rest, hscan, htext, -⟩ := Pattern.capture?_eq_some.1 h
  simp only [Pattern.verbatimOpener, Pattern.scan, Scanner.bind_eq_some, Scanner.pure_eq_some,
    Prod.mk.injEq] at hscan
  obtain ⟨_, _, ⟨ticks, _, hticks, rfl, rfl⟩, ⟨hdetail, -⟩, rfl⟩ := hscan
  have hall : ∀ c ∈ ticks, c = Char.ofNat 0x60 := by
    intro c hc
    simp only [Scanner.takeWhile, Option.some.injEq, Prod.mk.injEq] at hticks
    rw [← hticks.1] at hc
    simpa using List.mem_takeWhile_imp hc
  rw [htext, Pattern.take_of_append (Scanner.append_of_takeWhile hticks), ← hdetail]
  exact List.eq_replicate_iff.2 ⟨rfl, hall⟩

/-- A rule is the only rule of its kind, if the table has only one. -/
theorem rule_of_kind {rule only : Rule} {kind : Kind} (h : rule ∈ Rule.all) (hk : rule.kind = kind)
    (htable : Rule.all.filter (fun rule => rule.kind = kind) = [only]) : rule = only := by
  have hm : rule ∈ Rule.all.filter (fun rule => rule.kind = kind) := by simp [h, hk]
  rw [htable, List.mem_singleton] at hm
  exact hm

theorem verbatimOpener_rule {rule : Rule} (h : rule ∈ Rule.all) (hk : rule.kind = .verbatimOpener) :
    rule.pattern = Pattern.verbatimOpener := by
  have htable : Rule.all.filter (fun rule => rule.kind = .verbatimOpener) =
      [{ Rule.ofInline .verbatimOpener "`" Pattern.verbatimOpener with isFront := true }] := rfl
  rw [rule_of_kind h hk htable]
  rfl

/-- The token of a rule for openers or closers is a mark. -/
theorem isMark_build {here : Situation} {source : List Char} {rule : Rule} {capture : Capture}
    {children : List Token} (start : Nat)
    (found : Rule.firstMatch here source = some (rule, capture))
    (leaf : capture.inside = none → children = [])
    (hmark : (rule.isFront || rule.kind.isCloser) = true) :
    IsMark (build rule capture start children) := by
  obtain ⟨hrule, hmatch⟩ := Rule.of_firstMatch found
  have hcapture := Rule.capture?_of_match? hmatch
  obtain ⟨htext, rest, hsource⟩ := Rule.text_of_firstMatch found
  have hleaf := (rule_kinds hrule).2.2.1 hmark
  refine ⟨?_, leaf (inside_of_isLeaf hleaf hcapture), ?_, ?_⟩
  · intro h
    apply htext
    rw [← @String.toList_ofList capture.text]
    exact congrArg String.toList h
  · refine ⟨rule, hrule, rfl, here, rest, capture, ?_, String.toList_ofList.symm⟩
    show rule.match? here ((String.ofList capture.text).toList ++ rest) = _
    rw [String.toList_ofList, hsource]
    exact hmatch
  · intro hk
    rw [verbatimOpener_rule hrule hk] at hcapture
    show (String.ofList capture.text).toList = _
    rw [String.toList_ofList]
    exact ticks_of_capture? hcapture

/-- The token of any other rule is settled if its children are. -/
theorem settled_build {here : Situation} {source : List Char} {rule : Rule} {capture : Capture}
    {children : List Token} (start : Nat)
    (found : Rule.firstMatch here source = some (rule, capture))
    (hchildren : ∀ c ∈ children, Settled c)
    (hmark : (rule.isFront || rule.kind.isCloser) = false) :
    Settled (build rule capture start children) := by
  obtain ⟨hrule, -⟩ := Rule.of_firstMatch found
  obtain ⟨htext, -⟩ := Rule.text_of_firstMatch found
  obtain ⟨hkind, hfolded, -, hdelimiter⟩ := rule_kinds hrule
  refine settled_iff.2 ⟨⟨?_, hdelimiter hmark, ?_, ?_, ?_⟩, hchildren⟩
  · exact (Bool.or_eq_false_iff.1 hmark).1
  · intro h
    exact absurd (hfolded.symm.trans h) Bool.false_ne_true
  · intro h
    apply htext
    rw [← @String.toList_ofList capture.text]
    exact congrArg String.toList h
  · intro h
    exact absurd h hkind

/-! ## The stack -/

/-- Everything off the stack is settled, and marks wait on it. -/
structure State.IsSettled (s : State) : Prop where
  outer : ∀ t ∈ s.outer, Settled t
  inside : ∀ f ∈ s.frames, ∀ t ∈ f.inside, Settled t
  openers : ∀ f ∈ s.frames, IsMark f.opener

namespace State

theorem IsSettled.add {s : State} (h : s.IsSettled) {t : Token} (ht : Settled t) :
    (s.add t).IsSettled := by
  simp only [State.add]
  split
  · refine ⟨?_, h.inside, h.openers⟩
    intro u hu
    rcases List.mem_cons.1 hu with rfl | hu
    · exact ht
    · exact h.outer u hu
  · -- the token goes to the innermost frame, and the frames below stay
    rename_i f fs hframes
    have hinside := h.inside
    have hopeners := h.openers
    rw [hframes] at hinside hopeners
    refine ⟨h.outer, ?_, ?_⟩
    · intro g hg u hu
      rcases List.mem_cons.1 hg with rfl | hg
      · rcases List.mem_cons.1 hu with rfl | hu
        · exact ht
        · exact hinside f List.mem_cons_self u hu
      · exact hinside g (List.mem_cons_of_mem f hg) u hu
    · intro g hg
      rcases List.mem_cons.1 hg with rfl | hg
      · exact hopeners f List.mem_cons_self
      · exact hopeners g (List.mem_cons_of_mem f hg)

theorem IsSettled.push {s : State} (h : s.IsSettled) {t : Token} (ht : IsMark t) :
    (s.push t).IsSettled := by
  refine ⟨h.outer, ?_, ?_⟩
  · intro f hf u hu
    rcases List.mem_cons.1 hf with rfl | hf
    · exact absurd hu List.not_mem_nil
    · exact h.inside f hf u hu
  · intro f hf
    rcases List.mem_cons.1 hf with rfl | hf
    · exact ht
    · exact h.openers f hf

theorem IsSettled.flush {s : State} (h : s.IsSettled) (whole : Mode) :
    (s.flush whole).IsSettled := by
  rcases s.flush_cases whole with ⟨-, hflush⟩ | ⟨hpending, hflush⟩
  · rw [hflush]
    exact h
  · rw [hflush]
    have hs : ({ s with pending := [] } : State).IsSettled := ⟨h.outer, h.inside, h.openers⟩
    refine hs.add ?_
    refine settled_iff.2 ⟨⟨rfl, rfl, by simp [pendingText, Kind.isFolded], ?_, fun _ => rfl⟩, ?_⟩
    · intro htext
      apply hpending
      have := congrArg String.toList htext
      simpa [pendingText] using this
    · simp [pendingText]

/-- Frames that are given up leave settled tokens. -/
theorem IsSettled.spill {s : State} (h : s.IsSettled) {frames : List Frame}
    (hframes : ∀ f ∈ frames, f ∈ s.frames) : ∀ t ∈ frames.flatMap Frame.spill, Settled t := by
  intro t ht
  obtain ⟨f, hf, ht⟩ := List.mem_flatMap.1 ht
  rcases List.mem_append.1 ht with ht | ht
  · exact h.inside f (hframes f hf) t ht
  · rw [List.mem_singleton.1 ht]
    exact settled_demote (h.openers f (hframes f hf))

/-- A mark folds with a waiting opener into a settled token. -/
theorem IsSettled.fold {s : State} (h : s.IsSettled) {t : Token} (ht : IsMark t)
    {above below : List Frame} {f : Frame} {kind : Kind} (hframes : s.frames = above ++ f :: below)
    (hkind : foldKind? t f.opener = some kind) : Settled (fold t above f kind) := by
  have hf : f ∈ s.frames := by simp [hframes]
  have hopener := h.openers f hf
  have hmem := mem_folds_of_foldKind? hkind
  obtain ⟨-, hdelimiter, htext, hverbatim⟩ := Kind.of_mem_folds hmem
  refine settled_iff.2 ⟨⟨rfl, hdelimiter, ?_, ?_, ?_⟩, ?_⟩
  · intro _
    refine ⟨f.opener.kind, t.kind, f.opener.text, _, t.text, rfl, rfl, hopener.isMatch, ht.isMatch,
      hmem, ?_⟩
    -- only backticks fold to verbatim text, and only as many
    intro hk
    obtain ⟨hfront, hback⟩ := hverbatim hk
    have hdepth : t.depth = f.opener.depth := by
      by_contra hne
      simp [foldKind?, hback, hne] at hkind
    exact ⟨t.depth, hdepth ▸ hopener.ticks hfront, ht.ticks hback⟩
  · intro hempty
    apply hopener.nonempty
    have := congrArg String.toList hempty
    simp only [Lexer.fold, String.toList_append, String.toList_empty, List.append_eq_nil_iff] at this
    exact String.toList_eq_nil_iff.1 this.1.1
  · intro hk
    exact absurd hk htext
  · intro c hc
    have habove : ∀ g ∈ above, g ∈ s.frames := by
      intro g hg
      simp [hframes, hg]
    rcases List.mem_append.1 (List.mem_reverse.1 hc) with hc | hc
    · exact h.spill habove c hc
    · exact h.inside f hf c hc

theorem IsSettled.place {s : State} (h : s.IsSettled) {t : Token}
    (ht : if t.isFront || t.kind.isCloser then IsMark t else Settled t) :
    (s.place t).value.IsSettled := by
  rcases s.place_cases t with ⟨above, f, below, kind, hframes, hkind, hplace⟩ | ⟨hfront, hplace⟩ |
    ⟨-, hback, hplace⟩ | ⟨hfront, hback, hplace⟩
  · -- what folds is a closer, so it is a mark
    have hback : t.kind.isCloser = true := by
      have := mem_folds_of_foldKind? hkind
      simp only [Kind.isCloser, Bool.not_eq_true', List.isEmpty_eq_false_iff]
      exact List.ne_nil_of_mem this
    rw [hback, Bool.or_true, if_pos rfl] at ht
    have hbelow : ({ s with frames := below } : State).IsSettled := by
      refine ⟨h.outer, ?_, ?_⟩
      · intro g hg
        exact h.inside g (by simp_all)
      · intro g hg
        exact h.openers g (by simp_all)
    rw [hplace]
    exact hbelow.add (h.fold ht hframes hkind)
  · rw [hfront, Bool.true_or, if_pos rfl] at ht
    rw [hplace]
    exact h.push ht
  · rw [hback, Bool.or_true, if_pos rfl] at ht
    rw [hplace]
    exact h.add (settled_demote ht)
  · rw [hfront, hback, Bool.false_or, if_neg Bool.false_ne_true] at ht
    rw [hplace]
    exact h.add ht

theorem IsSettled.finish {s : State} (h : s.IsSettled) (whole : Mode) :
    ∀ t ∈ (s.finish whole).value, Settled t := by
  have hs := h.flush whole
  intro t ht
  have ht : t ∈ ((s.flush whole).frames.flatMap Frame.spill ++ (s.flush whole).outer).reverse := ht
  rcases List.mem_append.1 (List.mem_reverse.1 ht) with ht | ht
  · exact hs.spill (fun _ hf => hf) t ht
  · exact hs.outer t ht

end State

/-- Lexing from a settled state gives settled tokens. -/
theorem Lexes.settled {whole : Mode} {s : State} {source : List Char} {tokens : List Token}
    (h : Lexes whole s source tokens) : s.IsSettled → ∀ t ∈ tokens, Settled t := by
  have hstart : ∀ offset, State.IsSettled { offset } := by
    intro offset
    exact ⟨by simp, by simp, by simp⟩
  induction h with
  | finish =>
    intro hs
    exact hs.finish _
  | defer _ _ ih =>
    intro hs
    exact ih ⟨hs.outer, hs.inside, hs.openers⟩
  | @accept whole s source rest rule capture children tokens found split leaf held next ihHeld ih =>
    intro hs
    -- a leaf has no children, and those of a nest come from a run of their own
    have hchildren : ∀ c ∈ children, Settled c := by
      cases hi : capture.inside with
      | none => simp [leaf hi]
      | some i => exact ihHeld i hi (hstart _)
    have hplaced : ((s.flush whole).place (build rule capture s.offset children)).value.IsSettled := by
      refine (hs.flush whole).place ?_
      show if rule.isFront || rule.kind.isCloser then _ else _
      split
      · exact isMark_build _ found leaf ‹_›
      · exact settled_build _ found hchildren (Bool.eq_false_iff.2 ‹_›)
    exact ih ⟨hplaced.outer, hplaced.inside, hplaced.openers⟩

/-! ## Merging -/

/-- A tree whose tokens are settled and whose texts are merged. -/
def Merged (t : Token) : Prop :=
  ∀ u ∈ t.tokens, IsSound u ∧ Separated u.children

theorem merged_iff {t : Token} :
    Merged t ↔ (IsSound t ∧ Separated t.children) ∧ ∀ c ∈ t.children, Merged c :=
  Token.forall_mem_tokens

/-- Two merged texts are one. -/
theorem merged_join {t u : Token} (ht : Merged t) (hplain : IsPlainText t) :
    Merged { t with text := t.text ++ u.text, stop := u.stop } := by
  obtain ⟨⟨hsound, hseparated⟩, hchildren⟩ := merged_iff.1 ht
  refine merged_iff.2 ⟨⟨⟨hsound.notFront, hsound.notDelimiter, ?_, ?_, hsound.bare⟩, hseparated⟩,
    hchildren⟩
  · intro hfolded
    rw [hplain.1] at hfolded
    exact absurd hfolded (by decide)
  · intro hempty
    have := congrArg String.toList hempty
    rw [String.toList_append, String.toList_empty, List.append_eq_nil_iff] at this
    exact hsound.nonempty (String.toList_eq_nil_iff.1 this.1)

/-- Merging a row whose trees have each been merged keeps texts apart. -/
theorem merged_mergeAll {ts : List Token} (h : ∀ t ∈ ts, Merged (mergeText t)) :
    Separated (mergeAll ts) ∧ ∀ t ∈ mergeAll ts, Merged t := by
  induction ts with
  | nil => exact ⟨.nil, by simp [mergeAll]⟩
  | cons t ts ih =>
    have ht := h t List.mem_cons_self
    obtain ⟨hseparated, hmerged⟩ := ih fun u hu => h u (List.mem_cons_of_mem t hu)
    rcases mergeAll_cons t ts with ⟨u, us, hts, hplain, hu, heq⟩ | ⟨hapart, heq⟩
    · rw [heq]
      rw [hts] at hseparated hmerged
      have htext : (mergeText t).text = t.text := by rw [mergeText_eq]
      have hjoin := @merged_join _ u ht hplain
      rw [htext] at hjoin
      refine ⟨?_, ?_⟩
      · -- the joined text stands where the second text stood
        rw [Separated, List.isChain_cons] at hseparated ⊢
        refine ⟨?_, hseparated.2⟩
        rintro v hv ⟨-, hkind⟩
        exact hseparated.1 v hv ⟨hu.1, hkind⟩
      · intro v hv
        rcases List.mem_cons.1 hv with rfl | hv
        · exact hjoin
        · exact hmerged v (List.mem_cons_of_mem u hv)
    · rw [heq]
      refine ⟨List.isChain_cons.2 ⟨?_, hseparated⟩, ?_⟩
      · -- texts have no children here, so two of them would have been joined
        rintro u hu ⟨hkind, hkind'⟩
        have hmem : u ∈ mergeAll ts := List.mem_of_mem_head? hu
        have hbare := (merged_iff.1 ht).1.1.bare hkind
        have hbare' := (merged_iff.1 (hmerged u hmem)).1.1.bare hkind'
        exact hapart u hu ⟨⟨hkind, hbare⟩, hkind', hbare'⟩
      · intro v hv
        rcases List.mem_cons.1 hv with rfl | hv
        · exact ht
        · exact hmerged v hv

theorem merged_mergeText (t : Token) : Settled t → Merged (mergeText t) := by
  induction t using Token.tree_induction with
  | h t ih =>
    intro ht
    obtain ⟨hsound, hchildren⟩ := settled_iff.1 ht
    obtain ⟨hseparated, hmerged⟩ := merged_mergeAll fun c hc => ih c hc (hchildren c hc)
    rw [mergeText_eq]
    refine merged_iff.2 ⟨⟨⟨hsound.notFront, hsound.notDelimiter, hsound.fold, hsound.nonempty, ?_⟩,
      hseparated⟩, hmerged⟩
    intro hkind
    have hbare : t.children = [] := hsound.bare hkind
    show mergeAll t.children = []
    rw [hbare]
    rfl

/-- The root is resolved and all below it is merged. -/
theorem resolved_lexIn (whole : Mode) (source : String) :
    (∀ t ∈ (lexIn whole source).value.tokens, t.IsResolved) ∧
    ∀ t ∈ tokensIn (lexIn whole source).value.children, t.text ≠ "" := by
  have hsettled : ∀ t ∈ (lexFrom whole { offset := 0 } source.toList).value, Settled t :=
    (lexes_lexFrom whole _ _).settled ⟨by simp, by simp, by simp⟩
  obtain ⟨hseparated, hmerged⟩ := merged_mergeAll fun t ht => merged_mergeText t (hsettled t ht)
  refine ⟨?_, ?_⟩
  · intro t ht
    rcases Token.mem_tokens.1 ht with rfl | ⟨c, hc, ht⟩
    · exact ⟨rfl, rfl, by simp [lexIn, Kind.isFolded], hseparated⟩
    · obtain ⟨hsound, hapart⟩ := hmerged c hc t ht
      exact ⟨hsound.notFront, hsound.notDelimiter, hsound.fold, hapart⟩
  · intro t ht
    obtain ⟨c, hc, ht⟩ := Token.mem_tokensIn.1 ht
    exact (hmerged c hc t ht).1.nonempty

end Lexer

/-- The normal form of a tree: in the tree of prose or of an expression no opener or closer is
left, every folded token is an opener, its inner text and a closer that belong together, no two
texts stand side by side, and only the root can be empty. -/
theorem resolved_lex_lexExpression (source : String) :
    (∀ t ∈ (lex source).tokens, t.IsResolved) ∧
    (∀ t ∈ Token.tokensIn (lex source).children, t.text ≠ "") ∧
    (∀ t ∈ (lexExpression source).tokens, t.IsResolved) ∧
    ∀ t ∈ Token.tokensIn (lexExpression source).children, t.text ≠ "" := by
  obtain ⟨hprose, hproseText⟩ := Lexer.resolved_lexIn .markup source
  obtain ⟨hcode, hcodeText⟩ := Lexer.resolved_lexIn .code source
  exact ⟨hprose, hproseText, hcode, hcodeText⟩

end StoryScript
