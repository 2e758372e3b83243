/-
  What stands at an offset.

  The path at an offset goes down from the root, each time into the first child that
  covers the offset. It finds everything: siblings tile the contents of their parent and
  no token sticks out of the one around it, so the tokens that cover an offset lie one
  inside the other. `answersAt_lexIn` says so of every lexed tree and every offset, also
  of one in the middle of a character.
-/
import Mathlib
import StoryScript.Proofs.Token.Coverage
import StoryScript.Token.Query
import StoryScript.Token.Weight

namespace StoryScript

namespace Token

/-! ## One token inside another -/

/-- A token lies inside another, at any depth. -/
def Below (outer inner : Token) : Prop :=
  inner ∈ tokensIn outer.children

theorem Below.of_child {outer inner : Token} (h : inner ∈ outer.children) : outer.Below inner :=
  mem_tokensIn.2 ⟨inner, h, mem_tokens.2 (.inl rfl)⟩

theorem mem_tokens_iff {outer inner : Token} :
    inner ∈ outer.tokens ↔ inner = outer ∨ outer.Below inner := by
  rw [tokens_eq, List.mem_cons]
  rfl

theorem Below.trans {a b c : Token} (hab : a.Below b) (hbc : b.Below c) : a.Below c := by
  induction a using tree_induction with
  | h a ih =>
    obtain ⟨child, hchild, hb⟩ := mem_tokensIn.1 hab
    refine mem_tokensIn.2 ⟨child, hchild, mem_tokens_iff.2 (.inr ?_)⟩
    rcases mem_tokens_iff.1 hb with rfl | hb
    · exact hbc
    · exact ih child hchild hb

instance : Trans Below Below Below := ⟨Below.trans⟩

theorem weight_le_of_mem {t : Token} {ts : List Token} (h : t ∈ ts) : t.weight ≤ weightAll ts := by
  induction ts with
  | nil => simp at h
  | cons u us ih =>
    rw [weightAll]
    rcases List.mem_cons.1 h with rfl | h
    · omega
    · have := ih h
      omega

/-- A token weighs less than what it lies in. -/
theorem Below.weight_lt {outer inner : Token} (h : outer.Below inner) :
    inner.weight < outer.weight := by
  induction outer using tree_induction with
  | h outer ih =>
    obtain ⟨child, hchild, hinner⟩ := mem_tokensIn.1 h
    have hlt : child.weight < outer.weight := by
      have := weight_le_of_mem hchild
      have := weight_eq outer
      omega
    rcases mem_tokens_iff.1 hinner with rfl | hinner
    · exact hlt
    · exact (ih child hchild hinner).trans hlt

/-! ## The path -/

variable {offset : Nat}

theorem covers_iff {t : Token} : t.covers offset = true ↔ t.start ≤ offset ∧ offset < t.stop := by
  simp [covers]

theorem pathAt_eq (offset : Nat) (t : Token) : t.pathAt offset = pathIn offset t.children := by
  cases t; rfl

/-- The path goes through the first token of a row that covers the offset, if there is one. -/
theorem pathIn_cases (offset : Nat) (ts : List Token) :
    (pathIn offset ts = [] ∧ ∀ t ∈ ts, t.covers offset = false) ∨
    ∃ t ∈ ts, t.covers offset = true ∧ pathIn offset ts = t :: t.pathAt offset := by
  induction ts with
  | nil => exact .inl ⟨rfl, by simp⟩
  | cons t ts ih =>
    cases ht : t.covers offset with
    | true => exact .inr ⟨t, List.mem_cons_self, ht, by simp [pathIn, ht]⟩
    | false =>
      have hskip : pathIn offset (t :: ts) = pathIn offset ts := by simp [pathIn, ht]
      rw [hskip]
      rcases ih with ⟨hnil, hnone⟩ | ⟨u, hu, hcovers, hpath⟩
      · exact .inl ⟨hnil, List.forall_mem_cons.2 ⟨ht, hnone⟩⟩
      · exact .inr ⟨u, List.mem_cons_of_mem t hu, hcovers, hpath⟩

/-- Each token of a path is a child of the one before it. -/
theorem isChain_pathAt (offset : Nat) (t : Token) :
    (t :: t.pathAt offset).IsChain fun outer inner => inner ∈ outer.children := by
  induction t using tree_induction with
  | h t ih =>
    rw [pathAt_eq]
    rcases pathIn_cases offset t.children with ⟨hnil, -⟩ | ⟨c, hc, -, hpath⟩
    · rw [hnil]
      exact .singleton t
    · rw [hpath]
      exact List.isChain_cons_cons.2 ⟨hc, ih c hc⟩

/-- The tokens of a path lie one inside the other. -/
theorem pairwise_pathAt (offset : Nat) (t : Token) : (t :: t.pathAt offset).Pairwise Below :=
  List.isChain_iff_pairwise.1 ((isChain_pathAt offset t).imp fun _ _ => .of_child)

theorem nodup_pathAt (offset : Nat) (t : Token) : (t.pathAt offset).Nodup := by
  refine (List.pairwise_cons.1 (pairwise_pathAt offset t)).2.imp ?_
  rintro a b hbelow rfl
  exact absurd hbelow.weight_lt (Nat.lt_irrefl _)

/-- The last token of a path is the one that lies in all of them. -/
theorem tokenAt?_eq_some_iff {root t : Token} :
    root.tokenAt? offset = some t ↔
      t ∈ root.pathAt offset ∧ ∀ u ∈ root.pathAt offset, t ∈ u.tokens := by
  have hnested := (List.pairwise_cons.1 (pairwise_pathAt offset root)).2
  -- the last token lies in all of them
  have hlast : ∀ l, (root.pathAt offset).getLast? = some l →
      ∀ u ∈ root.pathAt offset, l ∈ u.tokens := by
    intro l hl u hu
    obtain ⟨before, hpath⟩ := List.getLast?_eq_some_iff.1 hl
    rw [hpath] at hnested hu
    rw [mem_tokens_iff]
    rcases List.mem_append.1 hu with hu | hu
    · exact .inr ((List.pairwise_append.1 hnested).2.2 u hu l (List.mem_singleton_self l))
    · exact .inl (List.mem_singleton.1 hu).symm
  rw [tokenAt?]
  constructor
  · intro h
    exact ⟨List.mem_of_getLast? h, hlast t h⟩
  · rintro ⟨ht, hall⟩
    obtain ⟨l, hl⟩ := Option.isSome_iff_exists.1 (List.getLast?_isSome.2 (List.ne_nil_of_mem ht))
    -- two tokens that lie in each other are one
    rcases mem_tokens_iff.1 (hlast l hl t ht) with rfl | hbelow
    · exact hl
    · rcases mem_tokens_iff.1 (hall l (List.mem_of_getLast? hl)) with rfl | hbelow'
      · exact hl
      · exact absurd (hbelow.weight_lt.trans hbelow'.weight_lt) (Nat.lt_irrefl _)

/-- What is said about an offset is exact. -/
structure AnswersAt (root : Token) (offset : Nat) : Prop where
  /-- The path has every token below the root whose span holds the offset, in the order in which
  the tree has them. -/
  path_eq : root.pathAt offset =
    (tokensIn root.children).filter fun t => t.start ≤ offset ∧ offset < t.stop
  /-- It has each of them once. -/
  nodup : (root.pathAt offset).Nodup
  /-- Each is a child of the one before it, the first a child of the root. -/
  descends : (root :: root.pathAt offset).IsChain fun outer inner => inner ∈ outer.children
  /-- The token at the offset is the one that lies in all of them. -/
  deepest : ∀ t, root.tokenAt? offset = some t ↔
    t ∈ root.pathAt offset ∧ ∀ u ∈ root.pathAt offset, t ∈ u.tokens

end Token

namespace Lexer

open Token (tokensIn pathIn)

variable {start offset : Nat} {text : List Char} {ts : List Token} {t : Token}

/-! ## Spans of placed tokens -/

/-- Nothing sticks out of a placed token, at any depth. -/
theorem Placed.bounds (h : Placed t) : ∀ u ∈ t.tokens, t.start ≤ u.start ∧ u.stop ≤ t.stop := by
  induction t using Token.tree_induction with
  | h t ih =>
    obtain ⟨-, -, hchildren⟩ := h.children
    refine Token.forall_mem_tokens.2 ⟨⟨Nat.le_refl _, Nat.le_refl _⟩, ?_⟩
    intro c hc u hu
    obtain ⟨hplaced, before, after, htext, hstart⟩ := hchildren c hc
    obtain ⟨hfirst, hlast⟩ := ih c hc hplaced u hu
    have hstop : c.stop ≤ t.stop := by
      rw [hplaced.stop_eq, h.stop_eq, hstart, htext]
      simp only [Text.width_append]
      omega
    exact ⟨by omega, by omega⟩

theorem Tiles.start_le (h : Tiles start text ts) : ∀ u ∈ tokensIn ts, start ≤ u.start := by
  intro u hu
  obtain ⟨t, ht, hu⟩ := Token.mem_tokensIn.1 hu
  obtain ⟨hplaced, before, -, -, hstart⟩ := h.split_at ht
  have := (hplaced.bounds u hu).1
  omega

/-- Tokens that tile a text leave out none of its offsets. -/
theorem Tiles.exists_covers (h : Tiles start text ts) (hfirst : start ≤ offset)
    (hlast : offset < start + Text.width text) : ∃ t ∈ ts, t.covers offset = true := by
  induction ts generalizing start text with
  | nil =>
    cases h
    rw [Text.width_nil] at hlast
    omega
  | cons t ts ih =>
    cases h with
    | cons first head tail =>
      rw [Text.width_append] at hlast
      have hstop := head.stop_eq
      by_cases hin : offset < t.stop
      · exact ⟨t, List.mem_cons_self, Token.covers_iff.2 ⟨by omega, hin⟩⟩
      · obtain ⟨u, hu, hcovers⟩ := ih tail (by omega) (by omega)
        exact ⟨u, List.mem_cons_of_mem t hu, hcovers⟩

/-! ## The path finds every token -/

/-- In a row that tiles a text, only the tree of the first token that covers the offset has tokens
that cover it. -/
theorem Tiles.pathIn_eq_filter (h : Tiles start text ts)
    (ih : ∀ t ∈ ts, Placed t → t.pathAt offset = (tokensIn t.children).filter (·.covers offset)) :
    pathIn offset ts = (tokensIn ts).filter (·.covers offset) := by
  induction ts generalizing start text with
  | nil => rfl
  | cons t ts ihRow =>
    cases h with
    | cons first head tail =>
      obtain ⟨ht, hts⟩ := List.forall_mem_cons.1 ih
      rw [pathIn, tokensIn, List.filter_append, Token.tokens_eq, List.filter_cons]
      cases hcovers : t.covers offset with
      | true =>
        -- what comes after starts behind the offset
        have hafter : (tokensIn ts).filter (·.covers offset) = [] := by
          rw [List.filter_eq_nil_iff]
          intro u hu hu'
          have := tail.start_le u hu
          have := (Token.covers_iff.1 hcovers).2
          have := (Token.covers_iff.1 hu').1
          omega
        rw [hafter, List.append_nil, ht head]
        rfl
      | false =>
        -- what is inside a token that does not cover the offset does not cover it either
        have hinside : (tokensIn t.children).filter (·.covers offset) = [] := by
          rw [List.filter_eq_nil_iff]
          intro u hu hu'
          obtain ⟨hfirst, hlast⟩ := head.bounds u (Token.mem_tokens_iff.2 (.inr hu))
          obtain ⟨hfrom, hto⟩ := Token.covers_iff.1 hu'
          rw [Token.covers_iff.2 ⟨by omega, by omega⟩] at hcovers
          cases hcovers
        simpa [hinside] using ihRow tail hts

/-- The path below a placed token has every token below it that covers the offset. -/
theorem Placed.pathAt_eq_filter (offset : Nat) (h : Placed t) :
    t.pathAt offset = (tokensIn t.children).filter (·.covers offset) := by
  induction t using Token.tree_induction with
  | h t ih =>
    rw [Token.pathAt_eq]
    cases h with
    | leaf _ _ children =>
      rw [children]
      rfl
    | node _ _ _ children => exact children.pathIn_eq_filter fun c hc => ih c hc

theorem Placed.answersAt (h : Placed t) (offset : Nat) : t.AnswersAt offset where
  path_eq := by
    rw [h.pathAt_eq_filter offset]
    refine List.filter_congr fun u _ => ?_
    simp [Token.covers]
  nodup := Token.nodup_pathAt offset t
  descends := Token.isChain_pathAt offset t
  deepest _ := Token.tokenAt?_eq_some_iff

end Lexer

/-- What is said about an offset of a lexed text is exact: the path has every token below the root
whose span holds the offset, once, outermost first and each a child of the one before; it is empty
only past the end of the source; and the token at the offset is the innermost of them. -/
theorem answersAt_lexIn (mode : Mode) (source : String) (offset : Nat) :
    (Lexer.lexIn mode source).value.AnswersAt offset ∧
    ((Lexer.lexIn mode source).value.pathAt offset = [] ↔ Text.width source.toList ≤ offset) := by
  have hplaced := Lexer.placed_lexIn mode source
  refine ⟨hplaced.answersAt offset, ?_⟩
  rw [Token.pathAt_eq]
  have htiles := Lexer.tiles_lexIn mode source
  rcases Token.pathIn_cases offset (Lexer.lexIn mode source).value.children with
    ⟨hnil, hnone⟩ | ⟨t, ht, hcovers, hpath⟩
  · refine ⟨fun _ => ?_, fun _ => hnil⟩
    by_contra hin
    obtain ⟨t, ht, hcovers⟩ := htiles.exists_covers (Nat.zero_le offset) (by omega)
    rw [hnone t ht] at hcovers
    cases hcovers
  · rw [hpath]
    refine ⟨fun h => (by cases h), fun hpast => ?_⟩
    -- the root ends where the source ends
    have hstop := (hplaced.bounds t (Token.mem_tokens_iff.2 (.inr (.of_child ht)))).2
    have hroot : (Lexer.lexIn mode source).value.stop = 0 + Text.width source.toList :=
      hplaced.stop_eq
    have := (Token.covers_iff.1 hcovers).2
    omega

-- a variable inside a call, and the name of the call before it
example : ((lex "a (print: $b)").pathAt 11).map (·.kind) = [.macroCall, .storyVariable] ∧
    ((lex "a (print: $b)").tokenAt? 5).map (·.text) = some "print:" := by decide +kernel

end StoryScript
