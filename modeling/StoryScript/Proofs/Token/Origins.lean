/-
  How tokens come about.

  `Reached` follows lexing from the start of a text to the state after any of its steps,
  with what has been read and what is left. An opener that waits in such a state was read
  at an earlier one (`Opened`), and a token with something inside is a match that holds
  text, or an opener and a closer that folded at such a state (`Arises`, `Folding`). So a
  fact about all tokens of a kind comes down to a fact about the states of a run.
-/
import Mathlib
import StoryScript.Proofs.Token.Coverage
import StoryScript.Proofs.Token.Grouping
import StoryScript.Proofs.Token.NormalForm

namespace StoryScript

namespace Text

/-- A text is cut in one way at an offset. -/
theorem append_inj_of_width {a b c d : List Char} (h : a ++ b = c ++ d)
    (hwidth : width a = width c) : a = c ∧ b = d := by
  have hcut := splitBytes?_append a b
  rw [h, hwidth, splitBytes?_append, Option.some.injEq, Prod.mk.injEq] at hcut
  exact ⟨hcut.1.symm, hcut.2.symm⟩

end Text

namespace Token

/-- The token without what is inside. -/
def shell (t : Token) : Token :=
  { t with children := [] }

end Token

namespace Lexer

open Token (textOf tokensIn)

/-! ## One step -/

/-- A closer passes over the frames above the one it folds with. -/
theorem refused_of_splitFrames? {closer : Token} :
    ∀ {frames above below : List Frame} {f : Frame} {kind : Kind},
      splitFrames? closer frames = some (above, f, below, kind) →
        ∀ g ∈ above, foldKind? closer g.opener = none
  | [], _, _, _, _, h => by simp [splitFrames?] at h
  | g :: frames, above, below, f, kind, h => by
    simp only [splitFrames?] at h
    split at h
    · simp only [Option.some.injEq, Prod.mk.injEq] at h
      obtain ⟨rfl, -⟩ := h
      simp
    · rename_i hg
      simp only [Option.map_eq_some_iff, Prod.exists, Prod.mk.injEq] at h
      obtain ⟨above', f', below', kind', h, rfl, -⟩ := h
      exact List.forall_mem_cons.2 ⟨hg, refused_of_splitFrames? h⟩

/-- A closer that folds with no frame passes over all of them. -/
theorem refused_of_splitFrames?_eq_none {closer : Token} :
    ∀ {frames : List Frame}, splitFrames? closer frames = none →
      ∀ g ∈ frames, foldKind? closer g.opener = none
  | [], _ => by simp
  | g :: frames, h => by
    simp only [splitFrames?] at h
    split at h
    · cases h
    · rename_i hg
      rw [Option.map_eq_none_iff] at h
      exact List.forall_mem_cons.2 ⟨hg, refused_of_splitFrames?_eq_none h⟩

namespace State

/-- What a match does: it folds with the innermost frame that accepts it, and else it opens a frame
or stands for itself, as text if it is a closer. -/
theorem accept_cases (s : State) (whole : Mode) (rule : Rule) (capture : Capture)
    (children : List Token) :
    (∃ above f below kind, (s.flush whole).frames = above ++ f :: below ∧
      (∀ g ∈ above, foldKind? (build rule capture s.offset children) g.opener = none) ∧
      foldKind? (build rule capture s.offset children) f.opener = some kind ∧
      s.accept whole rule capture children =
        ({ s.flush whole with frames := below }.add
          (fold (build rule capture s.offset children) above f kind)).advance capture.text) ∨
    ((∀ g ∈ (s.flush whole).frames,
      foldKind? (build rule capture s.offset children) g.opener = none) ∧
      s.accept whole rule capture children =
        (if rule.isFront then (s.flush whole).push (build rule capture s.offset children)
          else (s.flush whole).add (if rule.kind.isCloser
            then demote (build rule capture s.offset children)
            else build rule capture s.offset children)).advance capture.text) := by
  cases hs : splitFrames? (build rule capture s.offset children) (s.flush whole).frames with
  | some parts =>
    obtain ⟨above, f, below, kind⟩ := parts
    obtain ⟨hframes, hkind⟩ := splitFrames?_eq_some hs
    exact .inl ⟨above, f, below, kind, hframes, refused_of_splitFrames? hs, hkind,
      by rw [accept, value_place_of_some hs]⟩
  | none =>
    exact .inr ⟨refused_of_splitFrames?_eq_none hs, by rw [accept, value_place_of_none hs]; rfl⟩

/-- The openers that wait, innermost first. -/
def fronts (s : State) : List Token :=
  s.frames.map (·.opener)

@[simp] theorem fronts_add (s : State) (t : Token) : (s.add t).fronts = s.fronts := by
  cases h : s.frames <;> simp [add, fronts, h]

@[simp] theorem fronts_flush (s : State) (whole : Mode) : (s.flush whole).fronts = s.fronts := by
  rcases s.flush_cases whole with ⟨-, h⟩ | ⟨-, h⟩
  · rw [h]
  · rw [h, fronts_add]
    rfl

/-- The state after an opener. -/
def opening (s : State) (whole : Mode) (rule : Rule) (capture : Capture) : State :=
  ((s.flush whole).push (build rule capture s.offset [])).advance capture.text

@[simp] theorem fronts_opening (s : State) (whole : Mode) (rule : Rule) (capture : Capture) :
    (s.opening whole rule capture).fronts = build rule capture s.offset [] :: s.fronts := by
  rw [← fronts_flush s whole]
  rfl

/-- A match takes openers off the stack, or it is an opener that joins them. -/
theorem fronts_accept (s : State) (whole : Mode) (rule : Rule) (capture : Capture)
    {children : List Token} (hchildren : rule.isFront = true → children = []) :
    (∃ above, s.fronts = above ++ (s.accept whole rule capture children).fronts) ∨
    (rule.isFront = true ∧
      s.accept whole rule capture children = s.opening whole rule capture) := by
  rcases s.accept_cases whole rule capture children with
    ⟨above, f, below, kind, hframes, -, -, hnext⟩ | ⟨-, hnext⟩
  · left
    refine ⟨above.map (·.opener) ++ [f.opener], ?_⟩
    have hbelow : (s.accept whole rule capture children).fronts = below.map (·.opener) := by
      rw [hnext]
      show ({ s.flush whole with frames := below }.add _).fronts = _
      rw [fronts_add]
      rfl
    rw [hbelow, ← fronts_flush s whole, fronts, hframes]
    simp
  · cases hfront : rule.isFront with
    | true =>
      refine .inr ⟨rfl, ?_⟩
      rw [hnext, hfront, if_pos rfl, hchildren hfront]
      rfl
    | false =>
      refine .inl ⟨[], ?_⟩
      rw [hnext, hfront, if_neg Bool.false_ne_true]
      show s.fronts = ((s.flush whole).add _).fronts
      rw [fronts_add, fronts_flush]

/-- The next step closes none of the openers. -/
def Survives (s : State) (whole : Mode) (ahead : List Char) : Prop :=
  ∀ rule capture, Rule.firstMatch (s.situation whole) ahead = some (rule, capture) →
    ∃ children, s.fronts <:+ (s.accept whole rule capture children).fronts

/-- The tokens that are off the stack, those of inner frames first. -/
def finished (s : State) : List Token :=
  s.frames.flatMap (·.inside) ++ s.outer

theorem forall_mem_finished_add {P : Token → Prop} {s : State} {t : Token}
    (h : ∀ u ∈ s.finished, P u) (ht : P t) : ∀ u ∈ (s.add t).finished, P u := by
  cases hframes : s.frames with
  | nil => simpa [finished, add, hframes] using ⟨ht, by simpa [finished, hframes] using h⟩
  | cons f fs =>
    have hall : ∀ u ∈ t :: s.finished, P u := List.forall_mem_cons.2 ⟨ht, h⟩
    simpa [finished, add, hframes] using hall

theorem forall_mem_finished_flush {P : Token → Prop} {s : State} {whole : Mode}
    (h : ∀ u ∈ s.finished, P u) (ht : P (s.pendingText whole)) :
    ∀ u ∈ (s.flush whole).finished, P u := by
  rcases s.flush_cases whole with ⟨-, hflush⟩ | ⟨-, hflush⟩
  · rwa [hflush]
  · rw [hflush]
    exact forall_mem_finished_add (s := { s with pending := [] }) h ht

end State

/-! ## The states of a run -/

/-- Lexing a text from an offset on comes to a state, when it has read the first text and the second
is left. -/
inductive Reached (whole : Mode) (base : Nat) : State → List Char → List Char → Prop where
  | start {text : List Char} : Reached whole base { offset := base } [] text
  | defer {s : State} {done : List Char} {c : Char} {cs : List Char}
      (before : Reached whole base s done (c :: cs))
      (unclaimed : Rule.firstMatch (s.situation whole) (c :: cs) = none) :
      Reached whole base (s.defer c) (done ++ [c]) cs
  | accept {s : State} {done rest : List Char} {rule : Rule} {capture : Capture}
      {children : List Token} (before : Reached whole base s done (capture.text ++ rest))
      (found : Rule.firstMatch (s.situation whole) (capture.text ++ rest) = some (rule, capture))
      (leaf : capture.inside = none → children = [])
      (held : ∀ i, capture.inside = some i →
        Lexes rule.scope.innerMode { offset := s.offset + Text.width i.lead } i.body children) :
      Reached whole base (s.accept whole rule capture children) (done ++ capture.text) rest

/-- What opens or closes holds nothing. -/
theorem inside_of_mark {here : Situation} {source : List Char} {rule : Rule} {capture : Capture}
    (found : Rule.firstMatch here source = some (rule, capture))
    (hmark : (rule.isFront || rule.kind.isCloser) = true) : capture.inside = none := by
  obtain ⟨hrule, hmatch⟩ := Rule.of_firstMatch found
  exact inside_of_isLeaf ((rule_kinds hrule).2.2.1 hmark) (Rule.capture?_of_match? hmatch)

theorem isCloser_of_foldKind? {closer opener : Token} {kind : Kind}
    (h : foldKind? closer opener = some kind) : closer.kind.isCloser = true := by
  have hmem := mem_folds_of_foldKind? h
  simp only [Kind.isCloser, Bool.not_eq_true', List.isEmpty_eq_false_iff]
  exact List.ne_nil_of_mem hmem

namespace Reached

variable {whole : Mode} {base : Nat} {s : State} {done ahead : List Char}

theorem coversFrom (h : Reached whole base s done ahead) : s.CoversFrom base done := by
  induction h with
  | start => exact State.coversFrom_start base
  | defer _ _ ih => exact ih.defer _
  | accept _ found leaf held ih =>
    refine ih.accept whole (placed_build found leaf fun i hi => ?_)
    exact (held i hi).tiles (State.coversFrom_start _)

end Reached

/-- A rule matches at a state of a run. -/
structure Matched (whole : Mode) (base : Nat) (s : State) (done rest : List Char) (rule : Rule)
    (capture : Capture) : Prop where
  reached : Reached whole base s done (capture.text ++ rest)
  found : Rule.firstMatch (s.situation whole) (capture.text ++ rest) = some (rule, capture)

/-- An opener waits at a state, above others: it was read at an earlier state, and that was just
now, or it has survived the step after it. -/
inductive Opened (whole : Mode) (base : Nat) (s : State) (done ahead : List Char) (opener : Token)
    (below : List Token) : Prop where
  | intro {s₀ : State} {done₀ rest : List Char} {rule : Rule} {capture : Capture}
      (matched : Matched whole base s₀ done₀ rest rule capture) (front : rule.isFront = true)
      (opener_eq : opener = build rule capture s₀.offset []) (below_eq : below = s₀.fronts)
      (text_eq : done ++ ahead = done₀ ++ (capture.text ++ rest))
      (since : (s = s₀.opening whole rule capture ∧ ahead = rest) ∨
        (ahead.length < rest.length ∧ (s₀.opening whole rule capture).Survives whole rest))

section

variable {whole : Mode} {base : Nat} {s s' : State} {done done' ahead ahead' : List Char}
  {opener : Token} {below : List Token}

/-- An opener that a step leaves on the stack still waits. -/
theorem Opened.step (h : Opened whole base s done ahead opener below)
    (htext : done' ++ ahead' = done ++ ahead) (hless : ahead'.length < ahead.length)
    (hkept : s.fronts = opener :: below → s.Survives whole ahead) :
    Opened whole base s' done' ahead' opener below := by
  cases h with
  | intro matched front opener_eq below_eq text_eq since =>
    refine .intro matched front opener_eq below_eq (htext.trans text_eq) (.inr ?_)
    rcases since with ⟨rfl, rfl⟩ | ⟨hlonger, hsurvives⟩
    · refine ⟨hless, hkept ?_⟩
      rw [State.fronts_opening, opener_eq, below_eq]
    · exact ⟨by omega, hsurvives⟩

/-- The openers that wait were read in the text. -/
theorem Reached.opened (h : Reached whole base s done ahead) :
    ∀ above opener below, s.fronts = above ++ opener :: below →
      Opened whole base s done ahead opener below := by
  induction h with
  | start => simp [State.fronts]
  | defer before unclaimed ih =>
    intro above opener below hfronts
    refine (ih above opener below hfronts).step (by simp) (by simp) fun _ => ?_
    intro rule capture hfound
    simp [unclaimed] at hfound
  | @accept s done rest rule capture children before found leaf held ih =>
    intro above opener below hfronts
    have hless : rest.length < (capture.text ++ rest).length := by
      have hpos := List.length_pos_iff.2 (Rule.text_of_firstMatch found).1
      rw [List.length_append]
      omega
    have hsurvives (hsuffix : s.fronts <:+ (s.accept whole rule capture children).fronts) :
        s.Survives whole (capture.text ++ rest) := by
      intro rule' capture' hfound
      obtain ⟨rfl, rfl⟩ := Prod.mk.inj (Option.some.inj (found.symm.trans hfound))
      exact ⟨children, hsuffix⟩
    have hchildren : rule.isFront = true → children = [] :=
      fun hfront => leaf (inside_of_mark found (by simp [hfront]))
    rcases s.fronts_accept whole rule capture hchildren with
      ⟨taken, htaken⟩ | ⟨hfront, hnext⟩
    · -- what is left of the stack was on it before
      rw [hfronts, ← List.append_assoc] at htaken
      refine (ih _ _ _ htaken).step (by simp) hless fun htop => hsurvives ?_
      have hlength := congrArg List.length (htop.symm.trans htaken)
      have hnone : taken = [] ∧ above = [] := by
        rw [← List.append_eq_nil_iff, ← List.length_eq_zero_iff]
        simp only [List.length_append, List.length_cons] at hlength ⊢
        omega
      rw [htop, hfronts, hnone.2]
      exact List.suffix_rfl
    · rw [hnext, State.fronts_opening] at hfronts
      cases above with
      | nil =>
        obtain ⟨rfl, rfl⟩ := List.cons.inj hfronts
        exact .intro ⟨before, found⟩ hfront rfl rfl (by simp) (.inl ⟨hnext, rfl⟩)
      | cons top above =>
        refine (ih above opener below (List.cons.inj hfronts).2).step (by simp) hless fun _ =>
          hsurvives ?_
        rw [hnext, State.fronts_opening]
        exact List.suffix_cons _ _

/-- An opener that waits holds nothing. -/
theorem Reached.bare (h : Reached whole base s done ahead) :
    ∀ opener ∈ s.fronts, opener.children = [] ∧ opener.inner = none := by
  intro opener hopener
  obtain ⟨above, below, hfronts⟩ := List.append_of_mem hopener
  obtain ⟨matched, front, rfl, -, -, -⟩ := h.opened above opener below hfronts
  have hinside := inside_of_mark matched.found (by simp [front])
  exact ⟨rfl, by simp [build, hinside]⟩

end

/-! ## Folds -/

/-- A closer folds with an opener, at a state of a run over part of the source. -/
structure Folding (source : List Char) where
  whole : Mode
  s : State
  before : List Char
  done : List Char
  rest : List Char
  after : List Char
  rule : Rule
  capture : Capture
  above : List Frame
  frame : Frame
  below : List Frame
  kind : Kind
  source_eq : source = before ++ (done ++ (capture.text ++ rest)) ++ after
  matched : Matched whole (Text.width before) s done rest rule capture
  frames_eq : (s.flush whole).frames = above ++ frame :: below
  refused : ∀ g ∈ above, foldKind? (build rule capture s.offset []) g.opener = none
  accepted : foldKind? (build rule capture s.offset []) frame.opener = some kind

namespace Folding

variable {source : List Char} (g : Folding source)

/-- The token that closes. -/
def closer : Token :=
  build g.rule g.capture g.s.offset []

/-- The tokens in between. -/
def contents : List Token :=
  (g.above.flatMap Frame.spill ++ g.frame.inside).reverse

/-- The token that the two fold into. -/
def token : Token :=
  fold g.closer g.above g.frame g.kind

/-- The text in between. -/
def inner : List Char :=
  (textOf g.contents).toList

theorem mem_folds : (g.frame.opener.kind, g.kind) ∈ g.rule.kind.folds :=
  mem_folds_of_foldKind? g.accepted

theorem inner_token : g.token.inner = some (String.ofList g.inner) := by
  show some (textOf g.contents) = _
  rw [inner, String.ofList_toList]

theorem text_token :
    g.token.text.toList = g.frame.opener.text.toList ++ g.inner ++ g.capture.text := by
  show (g.frame.opener.text ++ textOf g.contents ++ String.ofList g.capture.text).toList = _
  rw [String.toList_append, String.toList_append, String.toList_ofList]
  rfl

/-- What has been read ends in the opener and the text after it, which the tokens in between
cover. -/
theorem done_eq : ∃ prior, g.done = prior ++ (g.frame.opener.text.toList ++ g.inner) ∧
    g.frame.opener.start = Text.width g.before + Text.width prior ∧
    Tiles (g.frame.opener.start + Text.width g.frame.opener.text.toList) g.inner g.contents := by
  have hrow := g.matched.reached.coversFrom.flush g.whole
  -- in source order: what lies below, the opener, what is inside, the frames above
  have hsplit : (g.s.flush g.whole).row = { g.s.flush g.whole with frames := g.below }.row ++
      (g.frame.opener :: (g.frame.inside.reverse ++ (g.above.flatMap Frame.row).reverse)) := by
    simp [State.row, g.frames_eq, Frame.row]
  rw [hsplit] at hrow
  obtain ⟨prior, rest, hdone, -, h⟩ := hrow.split
  obtain ⟨opener, rest, rfl, hopener, h⟩ := @Tiles.split _ _ [g.frame.opener] _ h
  obtain ⟨inside, above, rfl, hinside, habove⟩ := h.split
  obtain ⟨-, hstart, rfl⟩ := hopener.placed
  have hcontents := hinside.append (tiles_spill habove)
  rw [← List.reverse_append, ← hstart] at hcontents
  have hinner : g.inner = inside ++ above := hcontents.toList_textOf
  refine ⟨prior, ?_, hstart, ?_⟩
  · rw [hdone, hinner]
  · rw [hinner]
    exact hcontents

/-- The opener was read at a state, before the text in between and the closer. -/
structure OpenedAt (s : State) (done : List Char) (rule : Rule) (capture : Capture) : Prop where
  matched : Matched g.whole (Text.width g.before) s done (g.inner ++ (g.capture.text ++ g.rest))
    rule capture
  front : rule.isFront = true
  opener_eq : g.frame.opener = build rule capture s.offset []
  below_eq : g.below.map (·.opener) = s.fronts
  done_eq : g.done = done ++ capture.text ++ g.inner
  since : (g.inner = [] ∧ g.s = s.opening g.whole rule capture) ∨
    (g.inner ≠ [] ∧
      (s.opening g.whole rule capture).Survives g.whole (g.inner ++ (g.capture.text ++ g.rest)))

theorem opened : ∃ s done rule capture, g.OpenedAt s done rule capture := by
  obtain ⟨prior, hdone, hstart, -⟩ := g.done_eq
  have hfronts : g.s.fronts =
      g.above.map (·.opener) ++ g.frame.opener :: g.below.map (·.opener) := by
    rw [← State.fronts_flush g.s g.whole, State.fronts, g.frames_eq, List.map_append, List.map_cons]
  cases g.matched.reached.opened _ _ _ hfronts with
  | @intro s done rest rule capture matched front opener_eq below_eq text_eq since =>
    -- both cut the text where the opener starts
    have hoffset : g.frame.opener.start = Text.width g.before + Text.width done := by
      rw [opener_eq]
      exact matched.reached.coversFrom.offset_eq
    have htext : g.frame.opener.text.toList = capture.text := by
      rw [opener_eq]
      exact String.toList_ofList
    rw [hdone, htext, List.append_assoc] at text_eq
    obtain ⟨rfl, hafter⟩ := Text.append_inj_of_width text_eq (by omega)
    rw [List.append_assoc] at hafter
    obtain rfl := (List.append_cancel_left hafter).symm
    refine ⟨s, prior, rule, capture, matched, front, opener_eq, below_eq, ?_, ?_⟩
    · rw [hdone, htext, List.append_assoc]
    · rcases since with ⟨hs, hinner⟩ | ⟨hless, hsurvives⟩
      · exact .inl ⟨List.self_eq_append_left.1 hinner, hs⟩
      · refine .inr ⟨?_, hsurvives⟩
        intro hempty
        simp [hempty] at hless

/-- A token is the fold, whatever has been merged inside it. -/
structure Makes (t : Token) : Prop where
  kind_eq : t.kind = g.kind
  start_eq : t.start = g.frame.opener.start
  text_eq : t.text.toList = g.frame.opener.text.toList ++ g.inner ++ g.capture.text
  inner_eq : t.inner = some (String.ofList g.inner)
  children : Tiles (t.start + Text.width g.frame.opener.text.toList) g.inner t.children

theorem makes_token : g.Makes g.token := by
  obtain ⟨-, -, -, hcontents⟩ := g.done_eq
  exact ⟨rfl, rfl, g.text_token, g.inner_token, hcontents⟩

theorem Makes.mergeText {t : Token} (h : g.Makes t) : g.Makes (mergeText t) := by
  rw [mergeText_eq]
  exact ⟨h.kind_eq, h.start_eq, h.text_eq, h.inner_eq, tiles_mergeAll h.children⟩

end Folding

/-! ## Tokens of a tree -/

/-- How a token came about while the source was lexed: it has nothing inside, or it is a text, or a
match that holds text, or a fold. What is inside covers the text that the token holds. -/
inductive Arises (source : List Char) (t : Token) : Prop where
  | bare (inner : t.inner = none)
  | text (plain : IsPlainText t)
  | held {here : Situation} {ahead : List Char} {rule : Rule} {capture : Capture} {i : Inside}
      {start : Nat} (found : Rule.firstMatch here ahead = some (rule, capture))
      (inside : capture.inside = some i) (own : t.shell = build rule capture start [])
      (children : Tiles (t.start + Text.width i.lead) i.body t.children)
  | folded (g : Folding source) (made : g.Makes t)

/-- The token came about in one of these ways, and so did all inside it. -/
def AllArise (source : List Char) (t : Token) : Prop :=
  ∀ u ∈ t.tokens, Arises source u

section

variable {source : List Char}

theorem allArise_iff {t : Token} :
    AllArise source t ↔ Arises source t ∧ ∀ c ∈ t.children, AllArise source c :=
  Token.forall_mem_tokens

theorem allArise_bare {t : Token} (hchildren : t.children = []) (hinner : t.inner = none) :
    AllArise source t :=
  allArise_iff.2 ⟨.bare hinner, by simp [hchildren]⟩

theorem allArise_demote {t : Token} (hchildren : t.children = []) (hinner : t.inner = none) :
    AllArise source (demote t) := by
  refine allArise_bare ?_ ?_
  · rw [← hchildren]
    simp only [demote]
    split <;> rfl
  · rw [← hinner]
    simp only [demote]
    split <;> rfl

theorem allArise_spill {frames : List Frame}
    (hinside : ∀ f ∈ frames, ∀ t ∈ f.inside, AllArise source t)
    (hopeners : ∀ f ∈ frames, AllArise source (demote f.opener)) :
    ∀ t ∈ frames.flatMap Frame.spill, AllArise source t := by
  intro t ht
  simp only [List.mem_flatMap, Frame.spill, List.mem_append, List.mem_singleton] at ht
  obtain ⟨f, hf, ht | rfl⟩ := ht
  · exact hinside f hf t ht
  · exact hopeners f hf

/-- The token of a match that neither opens nor closes. -/
theorem allArise_build {here : Situation} {ahead : List Char} {rule : Rule} {capture : Capture}
    {children : List Token} (start : Nat)
    (found : Rule.firstMatch here ahead = some (rule, capture))
    (htiles : ∀ i, capture.inside = some i → Tiles (start + Text.width i.lead) i.body children)
    (hchildren : ∀ c ∈ children, AllArise source c) :
    AllArise source (build rule capture start children) := by
  refine allArise_iff.2 ⟨?_, hchildren⟩
  cases hi : capture.inside with
  | none => exact .bare (by simp [build, hi])
  | some i => exact .held found hi rfl (htiles i hi)

namespace Reached

variable {whole : Mode} {s : State} {before done ahead : List Char}

/-- The openers of a run are bare once they are given up. -/
theorem allArise_openers {base : Nat} (h : Reached whole base s done ahead) (source : List Char) :
    ∀ f ∈ (s.flush whole).frames, AllArise source (demote f.opener) := by
  intro f hf
  have hfront : f.opener ∈ s.fronts := by
    rw [← s.fronts_flush whole]
    exact List.mem_map_of_mem hf
  obtain ⟨hchildren, hinner⟩ := h.bare f.opener hfront
  exact allArise_demote hchildren hinner

theorem allArise_flush (hs : ∀ t ∈ s.finished, AllArise source t) (whole : Mode) :
    ∀ t ∈ (s.flush whole).finished, AllArise source t :=
  State.forall_mem_finished_flush hs (allArise_bare rfl rfl)

/-- A step keeps how the tokens off the stack came about. -/
theorem allArise_accept {rest after : List Char} {rule : Rule} {capture : Capture}
    {children : List Token} (hsource : source = before ++ (done ++ (capture.text ++ rest)) ++ after)
    (h : Reached whole (Text.width before) s done (capture.text ++ rest))
    (found : Rule.firstMatch (s.situation whole) (capture.text ++ rest) = some (rule, capture))
    (leaf : capture.inside = none → children = [])
    (htiles : ∀ i, capture.inside = some i → Tiles (s.offset + Text.width i.lead) i.body children)
    (hchildren : ∀ c ∈ children, AllArise source c) (hs : ∀ t ∈ s.finished, AllArise source t) :
    ∀ t ∈ (s.accept whole rule capture children).finished, AllArise source t := by
  have hflush := allArise_flush hs whole
  have hopeners := h.allArise_openers source
  rcases s.accept_cases whole rule capture children with
    ⟨above, f, below, kind, hframes, hrefused, haccepted, hnext⟩ | ⟨-, hnext⟩
  · have hback : rule.kind.isCloser = true := isCloser_of_foldKind? haccepted
    obtain rfl := leaf (inside_of_mark found (by simp [hback]))
    let g : Folding source :=
      { whole, s, before, done, rest, after, rule, capture, above, frame := f, below, kind,
        source_eq := hsource, matched := ⟨h, found⟩, frames_eq := hframes, refused := hrefused,
        accepted := haccepted }
    have hinside : ∀ f ∈ (s.flush whole).frames, ∀ t ∈ f.inside, AllArise source t :=
      fun f hf t ht => hflush t (List.mem_append_left _ (List.mem_flatMap.2 ⟨f, hf, ht⟩))
    rw [hframes] at hinside hopeners
    rw [hnext]
    refine State.forall_mem_finished_add (s := { s.flush whole with frames := below }) ?_ ?_
    · intro t ht
      refine hflush t ?_
      simp only [State.finished, List.mem_append, List.mem_flatMap, hframes] at ht ⊢
      rcases ht with ⟨b, hb, ht⟩ | ht
      · exact .inl ⟨b, by simp [hb], ht⟩
      · exact .inr ht
    · refine allArise_iff.2 ⟨.folded g g.makes_token, ?_⟩
      intro c hc
      rcases List.mem_append.1 (List.mem_reverse.1 hc) with hc | hc
      · have habove : ∀ b ∈ above, b ∈ above ++ f :: below := fun b hb => List.mem_append_left _ hb
        exact allArise_spill (fun b hb => hinside b (habove b hb))
          (fun b hb => hopeners b (habove b hb)) c hc
      · exact hinside f (by simp) c hc
  · rw [hnext]
    split
    · exact hflush
    · refine State.forall_mem_finished_add hflush ?_
      split
      · rename_i hback
        have hinside := inside_of_mark found (by simp [hback])
        exact allArise_demote (leaf hinside) (by simp [build, hinside])
      · exact allArise_build s.offset found htiles hchildren

end Reached

/-- How the tokens of a run came about. -/
theorem Lexes.allArise {whole : Mode} {s : State} {ahead : List Char} {tokens : List Token}
    (h : Lexes whole s ahead tokens) :
    ∀ before done after : List Char, source = before ++ (done ++ ahead) ++ after →
      Reached whole (Text.width before) s done ahead →
      (∀ t ∈ s.finished, AllArise source t) → ∀ t ∈ tokens, AllArise source t := by
  induction h with
  | @finish whole s =>
    intro before done after hsource hreached hs t ht
    have hflush := Reached.allArise_flush hs whole
    have ht : t ∈ ((s.flush whole).frames.flatMap Frame.spill ++
        (s.flush whole).outer).reverse := ht
    rcases List.mem_append.1 (List.mem_reverse.1 ht) with ht | ht
    · refine allArise_spill ?_ (hreached.allArise_openers source) t ht
      exact fun f hf u hu => hflush u (List.mem_append_left _ (List.mem_flatMap.2 ⟨f, hf, hu⟩))
    · exact hflush t (List.mem_append_right _ ht)
  | defer unclaimed _ ih =>
    intro before done after hsource hreached hs
    exact ih before _ after (by rw [hsource]; simp) (hreached.defer unclaimed) hs
  | @accept whole s ahead rest rule capture children tokens found split leaf held next ihHeld ih =>
    intro before done after hsource hreached hs
    subst split
    have hchildren : ∀ c ∈ children, AllArise source c := by
      cases hi : capture.inside with
      | none => simp [leaf hi]
      | some i =>
        -- what a match holds is part of the source, from its own offset on
        obtain ⟨trail, htext⟩ := Rule.text_eq_of_firstMatch found hi
        have hwithin : source =
            (before ++ done ++ i.lead) ++ ([] ++ i.body) ++ (trail ++ rest ++ after) := by
          rw [hsource, htext]
          simp
        have hoffset : s.offset + Text.width i.lead = Text.width (before ++ done ++ i.lead) := by
          rw [hreached.coversFrom.offset_eq, Text.width_append, Text.width_append]
        refine ihHeld i hi _ _ _ hwithin ?_ (by simp [State.finished])
        rw [hoffset]
        exact .start
    have htiles : ∀ i, capture.inside = some i →
        Tiles (s.offset + Text.width i.lead) i.body children :=
      fun i hi => (held i hi).tiles (State.coversFrom_start _)
    exact ih before _ after (by rw [hsource]; simp) (hreached.accept found leaf held)
      (hreached.allArise_accept hsource found leaf htiles hchildren hs)

theorem allArise_mergeText (t : Token) : AllArise source t → AllArise source (mergeText t) := by
  induction t using Token.tree_induction with
  | h t ih =>
    intro h
    obtain ⟨ht, hchildren⟩ := allArise_iff.1 h
    refine allArise_iff.2 ⟨?_, ?_⟩
    · -- merging changes the children only
      have hown : (mergeText t).shell = t.shell := by rw [mergeText_eq]; rfl
      have hstart : (mergeText t).start = t.start := by rw [mergeText_eq]
      have hmerged : (mergeText t).children = mergeAll t.children := by rw [mergeText_eq]
      cases ht with
      | bare inner => exact .bare (by rw [mergeText_eq]; exact inner)
      | text plain =>
        refine .text ?_
        rw [mergeText_eq]
        exact ⟨plain.1, by simp [plain.2, mergeAll]⟩
      | held found inside own children =>
        refine .held found inside (hown.trans own) ?_
        rw [hstart, hmerged]
        exact tiles_mergeAll children
      | folded g made => exact .folded g made.mergeText
    · rw [mergeText_eq]
      refine forall_mem_mergeAll ?_ fun c hc => ih c hc (hchildren c hc)
      intro u hplain
      exact allArise_iff.2 ⟨.text hplain, by simp [hplain.2]⟩

end

/-- Every token below the root came about in one of these ways. -/
theorem arises_lexIn (mode : Mode) (source : String) :
    ∀ t ∈ tokensIn (lexIn mode source).value.children, Arises source.toList t := by
  have hlexed : ∀ t ∈ (lexFrom mode { offset := 0 } source.toList).value,
      AllArise source.toList t :=
    (lexes_lexFrom mode { offset := 0 } source.toList).allArise [] [] [] (by simp) .start
      (by simp [State.finished])
  have hmerged : ∀ t ∈ (lexIn mode source).value.children, AllArise source.toList t := by
    refine forall_mem_mergeAll ?_ fun t ht => allArise_mergeText t (hlexed t ht)
    intro t hplain
    exact allArise_iff.2 ⟨.text hplain, by simp [hplain.2]⟩
  intro t ht
  obtain ⟨c, hc, ht⟩ := Token.mem_tokensIn.1 ht
  exact hmerged c hc t ht

/-- A token of a folded kind is a fold. -/
theorem exists_folding {mode : Mode} {source : String} {t : Token}
    (ht : t ∈ (lexIn mode source).value.tokens) (hfolded : t.kind.isFolded = true) :
    ∃ g : Folding source.toList, g.Makes t := by
  obtain ⟨_, _, _, inner, _, -, hinner, -⟩ := ((resolved_lexIn mode source).1 t ht).fold hfolded
  have hbelow : t ∈ tokensIn (lexIn mode source).value.children := by
    rcases Token.mem_tokens.1 ht with rfl | ⟨c, hc, ht⟩
    · cases hfolded
    · exact Token.mem_tokensIn.2 ⟨c, hc, ht⟩
  cases arises_lexIn mode source t hbelow with
  | bare hnone => simp [hnone] at hinner
  | text plain =>
    rw [plain.1] at hfolded
    cases hfolded
  | held found inside own children =>
    have hkind := congrArg Token.kind own
    have hrule := (rule_kinds (Rule.of_firstMatch found).1).2.1
    rw [show t.kind = _ from hkind] at hfolded
    exact absurd (hrule.symm.trans hfolded) Bool.false_ne_true
  | folded g made => exact ⟨g, made⟩

end Lexer

end StoryScript
