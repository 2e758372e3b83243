/-
  Lexing as a derivation.

  `Lexes whole s source tokens` says that lexing the source from a state gives the
  tokens. It has one rule for each thing that can happen: the source ends, no rule
  matches and a character is left to the text, or a rule matches. Every fact about
  lexing is an induction on the derivation, and every step of it goes through
  `place_cases`, which says once what placing a token can do.
-/
import Mathlib
import StoryScript.Proofs.Token.Capture
import StoryScript.Token.Lexer

namespace StoryScript

/-! ## Every token of a tree -/

namespace Token

mutual

/-- Every token of a tree, each before those inside it. -/
def tokens : Token → List Token
  | t@{ children, .. } => t :: tokensIn children

/-- Every token of the trees in a row. -/
def tokensIn : List Token → List Token
  | [] => []
  | t :: ts => tokens t ++ tokensIn ts

end

theorem tokens_eq (t : Token) : t.tokens = t :: tokensIn t.children := by
  cases t; rfl

theorem tokensIn_append (ts us : List Token) : tokensIn (ts ++ us) = tokensIn ts ++ tokensIn us := by
  induction ts with
  | nil => rfl
  | cons t ts ih => simp [tokensIn, ih]

theorem mem_tokensIn {u : Token} {ts : List Token} :
    u ∈ tokensIn ts ↔ ∃ t ∈ ts, u ∈ t.tokens := by
  induction ts with
  | nil => simp [tokensIn]
  | cons t ts ih => simp [tokensIn, ih]

theorem mem_tokens {u t : Token} : u ∈ t.tokens ↔ u = t ∨ ∃ c ∈ t.children, u ∈ c.tokens := by
  rw [tokens_eq, List.mem_cons, mem_tokensIn]

/-- What holds throughout a tree holds of its root and throughout the trees below. -/
theorem forall_mem_tokens {P : Token → Prop} {t : Token} :
    (∀ u ∈ t.tokens, P u) ↔ P t ∧ ∀ c ∈ t.children, ∀ u ∈ c.tokens, P u := by
  constructor
  · intro h
    refine ⟨h t (mem_tokens.2 (.inl rfl)), ?_⟩
    intro c hc u hu
    exact h u (mem_tokens.2 (.inr ⟨c, hc, hu⟩))
  · rintro ⟨ht, hchildren⟩ u hu
    rcases mem_tokens.1 hu with rfl | ⟨c, hc, hu⟩
    · exact ht
    · exact hchildren c hc u hu

/-- Induction on a tree: what holds of a token whose children have it holds of every token. -/
theorem tree_induction {P : Token → Prop} (h : ∀ t, (∀ c ∈ t.children, P c) → P t) (t : Token) :
    P t :=
  h t fun c _ => tree_induction h c
termination_by sizeOf t
decreasing_by
  have := List.sizeOf_lt_of_mem ‹c ∈ t.children›
  cases t
  simp only [Token.mk.sizeOf_spec] at this ⊢
  omega

/-- Tokens in a row have the text of the first and of the others. -/
@[simp] theorem textOf_cons (t : Token) (ts : List Token) :
    textOf (t :: ts) = t.text ++ textOf ts := by
  simp only [textOf, List.map_cons, String.join_cons]

end Token

namespace Lexer

/-! ## The row of a state -/

/-- The tokens of a frame with its opener, newest first. -/
def Frame.row (f : Frame) : List Token :=
  f.inside ++ [f.opener]

namespace State

/-- Every token read so far in source order, the waiting openers among them. -/
def row (s : State) : List Token :=
  (s.frames.flatMap Frame.row ++ s.outer).reverse

@[simp] theorem row_add (s : State) (t : Token) : (s.add t).row = s.row ++ [t] := by
  cases hf : s.frames with
  | nil => simp [add, row, hf]
  | cons f fs => simp [add, row, hf, Frame.row]

@[simp] theorem row_push (s : State) (t : Token) : (s.push t).row = s.row ++ [t] := by
  simp [push, row, Frame.row]

@[simp] theorem pending_add (s : State) (t : Token) : (s.add t).pending = s.pending := by
  simp only [add]; split <;> rfl

@[simp] theorem offset_add (s : State) (t : Token) : (s.add t).offset = s.offset := by
  simp only [add]; split <;> rfl

theorem mode_add (s : State) (whole : Mode) (t : Token) : (s.add t).mode whole = s.mode whole := by
  cases h : s.frames <;> simp [add, mode, h]

@[simp] theorem pending_flush (s : State) (whole : Mode) : (s.flush whole).pending = [] := by
  simp only [flush]
  split
  · rename_i h
    simpa using h
  · rw [pending_add]

@[simp] theorem offset_flush (s : State) (whole : Mode) : (s.flush whole).offset = s.offset := by
  simp only [flush]
  split
  · rfl
  · rw [offset_add]

/-- The text token that the pending characters become. -/
def pendingText (s : State) (whole : Mode) : Token :=
  { kind := .text
    start := s.offset - Text.width s.pending
    text := String.ofList s.pending.reverse
    mode := s.mode whole }

/-- Flushing adds the pending characters as a text, if there are any. -/
theorem flush_cases (s : State) (whole : Mode) :
    (s.pending = [] ∧ s.flush whole = s) ∨
    (s.pending ≠ [] ∧ s.flush whole = { s with pending := [] }.add (s.pendingText whole)) := by
  by_cases h : s.pending = []
  · exact .inl ⟨h, by simp [flush, h]⟩
  · refine .inr ⟨h, ?_⟩
    simp only [flush, List.isEmpty_iff, h, if_false]
    rfl

theorem mode_flush (s : State) (whole : Mode) : (s.flush whole).mode whole = s.mode whole := by
  rcases s.flush_cases whole with ⟨-, h⟩ | ⟨-, h⟩
  · rw [h]
  · rw [h, mode_add]
    rfl

end State

/-! ## Placing a token -/

theorem splitFrames?_eq_some {closer : Token} :
    ∀ {frames above below : List Frame} {f : Frame} {kind : Kind},
      splitFrames? closer frames = some (above, f, below, kind) →
        frames = above ++ f :: below ∧ foldKind? closer f.opener = some kind
  | [], _, _, _, _, h => by simp [splitFrames?] at h
  | g :: frames, above, below, f, kind, h => by
    simp only [splitFrames?] at h
    split at h
    · rename_i k hk
      simp only [Option.some.injEq, Prod.mk.injEq] at h
      obtain ⟨rfl, rfl, rfl, rfl⟩ := h
      exact ⟨rfl, hk⟩
    · simp only [Option.map_eq_some_iff, Prod.exists, Prod.mk.injEq] at h
      obtain ⟨above', f', below', kind', h, rfl, rfl, rfl, rfl⟩ := h
      obtain ⟨hframes, hkind⟩ := splitFrames?_eq_some h
      exact ⟨by rw [hframes, List.cons_append], hkind⟩

/-- A closer folds only with an opener that it accepts. -/
theorem mem_folds_of_foldKind? {closer opener : Token} {kind : Kind}
    (h : foldKind? closer opener = some kind) : (opener.kind, kind) ∈ closer.kind.folds := by
  simp only [foldKind?] at h
  split at h
  · simp at h
  · simp only [Kind.fold?, Option.map_eq_some_iff, Prod.exists] at h
    obtain ⟨front, folded, hfind, rfl⟩ := h
    have hfront := List.find?_some hfind
    simp only [decide_eq_true_eq] at hfront
    subst hfront
    exact List.mem_of_find?_eq_some hfind

/-- What placing a token does: it folds with a frame and gives up the frames above, or it opens a
frame, or it is a closer with nothing to close, or it stands for itself. -/
theorem State.place_cases (s : State) (t : Token) :
    (∃ above f below kind, s.frames = above ++ f :: below ∧ foldKind? t f.opener = some kind ∧
      (s.place t).value = { s with frames := below }.add (fold t above f kind)) ∨
    (t.isFront = true ∧ (s.place t).value = s.push t) ∨
    (t.isFront = false ∧ t.kind.isCloser = true ∧ (s.place t).value = s.add (demote t)) ∨
    (t.isFront = false ∧ t.kind.isCloser = false ∧ (s.place t).value = s.add t) := by
  cases hs : splitFrames? t s.frames with
  | some parts =>
    obtain ⟨above, f, below, kind⟩ := parts
    obtain ⟨hframes, hkind⟩ := splitFrames?_eq_some hs
    exact .inl ⟨above, f, below, kind, hframes, hkind, by simp [place, hs]⟩
  | none =>
    cases hfront : t.isFront with
    | true => exact .inr (.inl ⟨rfl, by simp [place, hs, hfront]⟩)
    | false =>
      cases hback : t.kind.isCloser with
      | true => exact .inr (.inr (.inl ⟨rfl, rfl, by simp [place, hs, hfront, hback]⟩))
      | false => exact .inr (.inr (.inr ⟨rfl, rfl, by simp [place, hs, hfront, hback]⟩))

@[simp] theorem State.pending_place (s : State) (t : Token) :
    (s.place t).value.pending = s.pending := by
  rcases s.place_cases t with ⟨_, _, _, _, -, -, h⟩ | ⟨-, h⟩ | ⟨-, -, h⟩ | ⟨-, -, h⟩ <;>
    simp [h, push]

@[simp] theorem State.offset_place (s : State) (t : Token) :
    (s.place t).value.offset = s.offset := by
  rcases s.place_cases t with ⟨_, _, _, _, -, -, h⟩ | ⟨-, h⟩ | ⟨-, -, h⟩ | ⟨-, -, h⟩ <;>
    simp [h, push]

/-! ## Derivations -/

/-- The state after a rule has matched and its token has been placed. -/
def State.accept (s : State) (whole : Mode) (rule : Rule) (capture : Capture)
    (children : List Token) : State :=
  ((s.flush whole).place (build rule capture s.offset children)).value.advance capture.text

@[simp] theorem State.pending_accept (s : State) (whole : Mode) (rule : Rule) (capture : Capture)
    (children : List Token) : (s.accept whole rule capture children).pending = [] := by
  simp [accept, advance]

@[simp] theorem State.offset_accept (s : State) (whole : Mode) (rule : Rule) (capture : Capture)
    (children : List Token) :
    (s.accept whole rule capture children).offset = s.offset + Text.width capture.text := by
  simp [accept, advance]

/-- Lexing the source from a state gives the tokens. -/
inductive Lexes : Mode → State → List Char → List Token → Prop where
  | finish {whole : Mode} {s : State} : Lexes whole s [] (s.finish whole).value
  | defer {whole : Mode} {s : State} {c : Char} {cs : List Char} {tokens : List Token}
      (unclaimed : Rule.firstMatch (s.situation whole) (c :: cs) = none)
      (next : Lexes whole (s.defer c) cs tokens) : Lexes whole s (c :: cs) tokens
  | accept {whole : Mode} {s : State} {source rest : List Char} {rule : Rule} {capture : Capture}
      {children tokens : List Token}
      (found : Rule.firstMatch (s.situation whole) source = some (rule, capture))
      (split : source = capture.text ++ rest)
      (leaf : capture.inside = none → children = [])
      (held : ∀ i, capture.inside = some i →
        Lexes rule.scope.innerMode { offset := s.offset + Text.width i.lead } i.body children)
      (next : Lexes whole (s.accept whole rule capture children) rest tokens) :
      Lexes whole s source tokens

/-! ### The equations of lexing, without the notices -/

theorem value_lexFrom_nil (whole : Mode) (s : State) :
    (lexFrom whole s []).value = (s.finish whole).value := by
  rw [lexFrom]

theorem value_lexFrom_defer {whole : Mode} {s : State} {c : Char} {cs : List Char}
    (unclaimed : Rule.firstMatch (s.situation whole) (c :: cs) = none) :
    (lexFrom whole s (c :: cs)).value = (lexFrom whole (s.defer c) cs).value := by
  rw [lexFrom]
  split
  · rfl
  · simp_all

/-- The tokens inside a match. -/
def childrenOf (rule : Rule) (capture : Capture) (offset : Nat) : List Token :=
  match capture.inside with
  | none => []
  | some i => (lexFrom rule.scope.innerMode { offset := offset + Text.width i.lead } i.body).value

theorem value_lexFrom_accept {whole : Mode} {s : State} {c : Char} {cs rest : List Char}
    {rule : Rule} {capture : Capture}
    (found : Rule.firstMatch (s.situation whole) (c :: cs) = some (rule, capture))
    (split : c :: cs = capture.text ++ rest) :
    (lexFrom whole s (c :: cs)).value =
      (lexFrom whole (s.accept whole rule capture (childrenOf rule capture s.offset)) rest).value := by
  have hrest : (c :: cs).drop capture.text.length = rest := by rw [split, List.drop_left]
  rw [lexFrom]
  split
  · simp_all
  · rename_i rule' capture' found'
    rw [found, Option.some.injEq, Prod.mk.injEq] at found'
    obtain ⟨rfl, rfl⟩ := found'
    simp only [hrest, State.accept, childrenOf]
    split <;> simp_all

theorem value_lexFrom_append {whole : Mode} {s : State} {rule : Rule} {capture : Capture}
    {rest : List Char}
    (found : Rule.firstMatch (s.situation whole) (capture.text ++ rest) = some (rule, capture)) :
    (lexFrom whole s (capture.text ++ rest)).value = (lexFrom whole
      (s.accept whole rule capture (childrenOf rule capture s.offset)) rest).value := by
  obtain ⟨c, text, htext⟩ := List.exists_cons_of_ne_nil (Rule.text_of_firstMatch found).1
  have hsource : capture.text ++ rest = c :: (text ++ rest) := by rw [htext]; rfl
  rw [hsource] at found
  rw [hsource, value_lexFrom_accept found hsource.symm]

/-- Lexing has a derivation. -/
theorem lexes_lexFrom (whole : Mode) (s : State) (source : List Char) :
    Lexes whole s source (lexFrom whole s source).value := by
  induction whole, s, source using lexFrom.induct with
  | case1 whole s =>
    rw [value_lexFrom_nil]
    exact .finish
  | case2 whole s c cs unclaimed ih =>
    rw [value_lexFrom_defer unclaimed]
    exact .defer unclaimed ih
  | case3 whole s c cs rule capture found leaf ih =>
    have split := (List.prefix_iff_eq_append.1 (Rule.text_of_firstMatch found).2).symm
    rw [value_lexFrom_accept found split]
    refine .accept found split ?_ ?_ (ih _)
    · intro _
      simp only [childrenOf, leaf]
    · intro i held
      simp [leaf] at held
  | case4 whole s c cs rule capture found i held ih ihInside =>
    have split := (List.prefix_iff_eq_append.1 (Rule.text_of_firstMatch found).2).symm
    rw [value_lexFrom_accept found split]
    refine .accept found split ?_ ?_ (ih _)
    · intro leaf
      simp [leaf] at held
    · intro j held'
      rw [held, Option.some.injEq] at held'
      subst held'
      simpa only [childrenOf, held] using ihInside

/-! ## Merging texts -/

/-- A text token without children, which is merged with its like. -/
def IsPlainText (t : Token) : Prop :=
  t.kind = .text ∧ t.children = []

theorem mergeText_eq (t : Token) : mergeText t = { t with children := mergeAll t.children } := by
  cases t; rfl

/-- What merging does with the first token of a row: two plain texts in a row become one, which
ends where the second ended, and anything else stays. -/
theorem mergeAll_cons (t : Token) (ts : List Token) :
    (∃ u us, mergeAll ts = u :: us ∧ IsPlainText (mergeText t) ∧ IsPlainText u ∧
      mergeAll (t :: ts) = { mergeText t with text := t.text ++ u.text, stop := u.stop } :: us) ∨
    ((∀ u ∈ (mergeAll ts).head?, ¬ (IsPlainText (mergeText t) ∧ IsPlainText u)) ∧
      mergeAll (t :: ts) = mergeText t :: mergeAll ts) := by
  have htext : (mergeText t).text = t.text := by rw [mergeText_eq]
  rw [mergeAll]
  cases hm : mergeAll ts with
  | nil => exact .inr ⟨by simp, rfl⟩
  | cons u us =>
    by_cases hplain : IsPlainText (mergeText t) ∧ IsPlainText u
    · refine .inl ⟨u, us, rfl, hplain.1, hplain.2, ?_⟩
      obtain ⟨⟨h₁, h₂⟩, h₃, h₄⟩ := hplain
      simp [h₁, h₂, h₃, h₄, htext]
    · refine .inr ⟨by simpa using hplain, ?_⟩
      have : ((mergeText t).kind = .text && u.kind = .text && (mergeText t).children.isEmpty &&
          u.children.isEmpty) = false := by
        rw [Bool.eq_false_iff]
        intro h
        simp only [Bool.and_eq_true, decide_eq_true_eq, List.isEmpty_iff] at h
        exact hplain ⟨⟨h.1.1.1, h.1.2⟩, h.1.1.2, h.2⟩
      simp [this]

/-- What holds of plain texts and of each token of a row once merged holds of the merged row. -/
theorem forall_mem_mergeAll {P : Token → Prop} {ts : List Token}
    (htext : ∀ t, IsPlainText t → P t) (h : ∀ t ∈ ts, P (mergeText t)) :
    ∀ t ∈ mergeAll ts, P t := by
  induction ts with
  | nil => simp [mergeAll]
  | cons t ts ih =>
    obtain ⟨ht, hts⟩ := List.forall_mem_cons.1 h
    have ih := ih hts
    rcases mergeAll_cons t ts with ⟨u, us, hmerged, hplain, -, heq⟩ | ⟨-, heq⟩
    · rw [hmerged] at ih
      rw [heq]
      exact List.forall_mem_cons.2 ⟨htext _ hplain, (List.forall_mem_cons.1 ih).2⟩
    · rw [heq]
      exact List.forall_mem_cons.2 ⟨ht, ih⟩

end Lexer

end StoryScript
