/-
  Lexing covers the source.

  `Placed` and `Tiles` say how tokens lie in the source: a token is as wide as its
  text, and its children cover its inner text from where that starts, without a gap.
  Reading a character, flushing, placing, folding, giving up frames and merging texts
  all keep this. So spans, texts, contents and offsets of every token of the tree agree
  with the source (`covers_lex_lexExpression`).
-/
import Mathlib
import StoryScript.Proofs.Text.Slice
import StoryScript.Proofs.Token.Derivation

namespace StoryScript

/-! ## What it means to cover the source -/

/-- A token agrees with the source and with its children. -/
structure Token.Covers (source : List Char) (t : Token) : Prop where
  /-- The span is as wide as the text. -/
  stop_eq : t.stop = t.start + Text.width t.text.toList
  /-- The text is what stands in the source there. -/
  text_eq : Text.slice? source t.start t.stop = some t.text.toList
  /-- The children make up the inner text. -/
  inner_eq : ∀ inner, t.inner = some inner → Token.textOf t.children = inner
  /-- Each child starts where the one before it ends. -/
  contiguous : t.children.IsChain fun a b => b.start = a.stop
  /-- No child sticks out. -/
  inside : ∀ child ∈ t.children, t.start ≤ child.start ∧ child.stop ≤ t.stop

namespace Lexer

open Token (textOf tokensIn)

mutual

/-- A token as wide as its text, whose children tile its inner text. -/
inductive Placed : Token → Prop where
  | leaf {t : Token} (stop_eq : t.stop = t.start + Text.width t.text.toList)
      (inner : t.inner = none) (children : t.children = []) : Placed t
  | node {t : Token} {lead body trail : List Char}
      (stop_eq : t.stop = t.start + Text.width t.text.toList)
      (text_eq : t.text.toList = lead ++ body ++ trail)
      (inner : t.inner = some (String.ofList body))
      (children : Tiles (t.start + Text.width lead) body t.children) : Placed t

/-- Tokens in a row that cover a text, which starts at an offset, without a gap. -/
inductive Tiles : Nat → List Char → List Token → Prop where
  | nil {start : Nat} : Tiles start [] []
  | cons {start : Nat} {t : Token} {rest : List Char} {ts : List Token} (first : t.start = start)
      (head : Placed t) (tail : Tiles t.stop rest ts) :
      Tiles start (t.text.toList ++ rest) (t :: ts)

end

theorem Placed.stop_eq {t : Token} (h : Placed t) : t.stop = t.start + Text.width t.text.toList := by
  cases h with
  | leaf stop_eq => exact stop_eq
  | node stop_eq => exact stop_eq

namespace Tiles

theorem singleton {t : Token} (h : Placed t) : Tiles t.start t.text.toList [t] := by
  have := Tiles.cons rfl h Tiles.nil
  rwa [List.append_nil] at this

theorem append {start : Nat} {a b : List Char} {ts us : List Token} (hts : Tiles start a ts)
    (hus : Tiles (start + Text.width a) b us) : Tiles start (a ++ b) (ts ++ us) := by
  induction ts generalizing start a with
  | nil =>
    cases hts
    simpa using hus
  | cons t ts ih =>
    cases hts with
    | cons first head tail =>
      rw [List.append_assoc, List.cons_append]
      refine .cons first head (ih tail ?_)
      rw [Text.width_append, ← Nat.add_assoc, ← first, ← head.stop_eq] at hus
      exact hus

/-- A row that tiles a text is cut where the text is cut. -/
theorem split {start : Nat} {text : List Char} {ts us : List Token}
    (h : Tiles start text (ts ++ us)) :
    ∃ a b, text = a ++ b ∧ Tiles start a ts ∧ Tiles (start + Text.width a) b us := by
  induction ts generalizing start text with
  | nil => exact ⟨[], text, rfl, .nil, by simpa using h⟩
  | cons t ts ih =>
    cases h with
    | cons first head tail =>
      obtain ⟨a, b, rfl, hts, hus⟩ := ih tail
      refine ⟨t.text.toList ++ a, b, by rw [List.append_assoc], .cons first head hts, ?_⟩
      rwa [Text.width_append, ← Nat.add_assoc, ← first, ← head.stop_eq]

theorem toList_textOf {start : Nat} {text : List Char} {ts : List Token}
    (h : Tiles start text ts) : (textOf ts).toList = text := by
  induction ts generalizing start text with
  | nil => cases h; rfl
  | cons t ts ih =>
    cases h with
    | cons first head tail => rw [Token.textOf_cons, String.toList_append, ih tail]

/-- The row of a single token. -/
theorem placed {start : Nat} {text : List Char} {t : Token} (h : Tiles start text [t]) :
    Placed t ∧ t.start = start ∧ t.text.toList = text := by
  cases h with
  | cons first head tail =>
    cases tail
    exact ⟨head, first, (List.append_nil _).symm⟩

end Tiles

/-! ## Giving up an opener moves nothing -/

theorem placed_demote {t : Token} (h : Placed t) : Placed (demote t) := by
  cases h with
  | leaf stop_eq inner children =>
    simp only [demote]
    split <;> exact .leaf stop_eq inner children
  | node stop_eq text_eq inner children =>
    simp only [demote]
    split <;> exact .node stop_eq text_eq inner children

@[simp] theorem start_demote (t : Token) : (demote t).start = t.start := by
  simp only [demote]; split <;> rfl

@[simp] theorem text_demote (t : Token) : (demote t).text = t.text := by
  simp only [demote]; split <;> rfl

theorem tiles_demote {start : Nat} {text : List Char} {t : Token}
    (h : Tiles start text [t]) : Tiles start text [demote t] := by
  obtain ⟨hplaced, rfl, rfl⟩ := h.placed
  have := Tiles.singleton (placed_demote hplaced)
  rwa [start_demote, text_demote] at this

/-- Frames that are given up cover what they covered before. -/
theorem tiles_spill {start : Nat} {text : List Char} {frames : List Frame}
    (h : Tiles start text (frames.flatMap Frame.row).reverse) :
    Tiles start text (frames.flatMap Frame.spill).reverse := by
  induction frames generalizing text with
  | nil => exact h
  | cons f fs ih =>
    simp only [List.flatMap_cons, Frame.row, Frame.spill, List.reverse_append, List.reverse_cons,
      List.reverse_nil, List.nil_append] at h ⊢
    -- the frames below come first in the source, then the opener, then what is inside
    obtain ⟨a, rest, rfl, hbelow, h⟩ := h.split
    obtain ⟨b, c, rfl, hopener, hinside⟩ := h.split
    exact (ih hbelow).append ((tiles_demote hopener).append hinside)

/-! ## What a state has covered -/

/-- The tokens of a state and its pending characters cover what has been read since `base`. -/
structure State.CoversFrom (base : Nat) (done : List Char) (s : State) : Prop where
  row : ∃ placed, done = placed ++ s.pending.reverse ∧ Tiles base placed s.row
  offset_eq : s.offset = base + Text.width done

namespace State

theorem width_reverse (cs : List Char) : Text.width cs.reverse = Text.width cs := by
  induction cs with
  | nil => rfl
  | cons c cs ih =>
    rw [List.reverse_cons, Text.width_append, ih, Text.width_cons, Text.width_cons, Text.width_nil]
    omega

theorem coversFrom_start (offset : Nat) : CoversFrom offset [] { offset } :=
  ⟨⟨[], rfl, .nil⟩, rfl⟩

theorem CoversFrom.defer {base : Nat} {done : List Char} {s : State} (h : s.CoversFrom base done)
    (c : Char) : (s.defer c).CoversFrom base (done ++ [c]) := by
  obtain ⟨placed, hdone, hrow⟩ := h.row
  refine ⟨⟨placed, ?_, hrow⟩, ?_⟩
  · rw [hdone]
    simp [State.defer]
  · show s.offset + c.utf8Size = _
    rw [h.offset_eq, Text.width_append, Text.width_cons, Text.width_nil]
    omega

theorem CoversFrom.flush {base : Nat} {done : List Char} {s : State} (h : s.CoversFrom base done)
    (whole : Mode) : Tiles base done (s.flush whole).row := by
  obtain ⟨placed, hdone, hrow⟩ := h.row
  rcases s.flush_cases whole with ⟨hpending, hflush⟩ | ⟨-, hflush⟩
  · rw [hflush, hdone, hpending]
    simpa using hrow
  · rw [hflush, row_add, hdone]
    refine hrow.append ?_
    -- the pending characters start where the placed ones end
    have hstart : (s.pendingText whole).start = base + Text.width placed := by
      show s.offset - Text.width s.pending = _
      rw [h.offset_eq, hdone, Text.width_append, width_reverse]
      omega
    have htext : (s.pendingText whole).text.toList = s.pending.reverse := String.toList_ofList
    rw [← hstart, ← htext]
    exact .singleton (.leaf rfl rfl rfl)

/-- Placing a token that starts where the row ends extends the row by its text. -/
theorem tiles_place {base : Nat} {done : List Char} {s : State} {t : Token}
    (h : Tiles base done s.row) (ht : Placed t) (hstart : t.start = base + Text.width done) :
    Tiles base (done ++ t.text.toList) (s.place t).value.row := by
  have hone : Tiles (base + Text.width done) t.text.toList [t] := hstart ▸ Tiles.singleton ht
  rcases s.place_cases t with ⟨above, f, below, kind, hframes, -, hplace⟩ | ⟨-, hplace⟩ |
    ⟨-, -, hplace⟩ | ⟨-, -, hplace⟩
  · rw [hplace, row_add]
    -- in source order: what lies below, the opener, what is inside, the frames above
    have hrow : s.row = { s with frames := below }.row ++ (f.opener :: (f.inside.reverse ++
        (above.flatMap Frame.row).reverse)) := by
      simp [row, hframes, Frame.row]
    rw [hrow] at h
    obtain ⟨a, rest, rfl, hbelow, h⟩ := h.split
    obtain ⟨b, rest, rfl, hopener, h⟩ := @Tiles.split _ _ [f.opener] _ h
    obtain ⟨c, d, rfl, hinside, habove⟩ := h.split
    rw [List.append_assoc]
    refine hbelow.append ?_
    obtain ⟨hplaced, hfirst, rfl⟩ := hopener.placed
    -- the contents of the fold
    have hcontents : Tiles (f.opener.start + Text.width f.opener.text.toList) (c ++ d)
        (fold t above f kind).children := by
      rw [hfirst]
      show Tiles _ _ (above.flatMap Frame.spill ++ f.inside).reverse
      rw [List.reverse_append]
      exact hinside.append (tiles_spill habove)
    have hinner : (textOf (fold t above f kind).children) = String.ofList (c ++ d) := by
      rw [← hcontents.toList_textOf, String.ofList_toList]
    have htext : (fold t above f kind).text.toList =
        f.opener.text.toList ++ (c ++ d) ++ t.text.toList := by
      show (f.opener.text ++ textOf (fold t above f kind).children ++ t.text).toList = _
      rw [hinner, String.toList_append, String.toList_append, String.toList_ofList]
    have hfold : Placed (fold t above f kind) := by
      refine .node ?_ htext (congrArg some hinner) hcontents
      show t.stop = f.opener.start + _
      rw [ht.stop_eq, hstart, hfirst, htext]
      simp only [Text.width_append]
      omega
    have hone : Tiles f.opener.start _ [fold t above f kind] := Tiles.singleton hfold
    rw [htext, hfirst] at hone
    simpa only [List.append_assoc] using hone
  · rw [hplace, row_push]
    exact h.append hone
  · rw [hplace, row_add]
    exact h.append (tiles_demote hone)
  · rw [hplace, row_add]
    exact h.append hone

theorem CoversFrom.accept {base : Nat} {done : List Char} {s : State} (h : s.CoversFrom base done)
    (whole : Mode) {rule : Rule} {capture : Capture} {children : List Token}
    (ht : Placed (build rule capture s.offset children)) :
    (s.accept whole rule capture children).CoversFrom base (done ++ capture.text) := by
  have hrow := tiles_place (h.flush whole) ht h.offset_eq
  have htext : (build rule capture s.offset children).text.toList = capture.text :=
    String.toList_ofList
  rw [htext] at hrow
  refine ⟨⟨done ++ capture.text, ?_, hrow⟩, ?_⟩
  · rw [pending_accept, List.reverse_nil, List.append_nil]
  · rw [offset_accept, h.offset_eq, Text.width_append, Nat.add_assoc]

theorem CoversFrom.finish {base : Nat} {done : List Char} {s : State} (h : s.CoversFrom base done)
    (whole : Mode) : Tiles base done (s.finish whole).value := by
  have hrow := h.flush whole
  show Tiles base done ((s.flush whole).frames.flatMap Frame.spill ++ (s.flush whole).outer).reverse
  rw [State.row, List.reverse_append] at hrow
  rw [List.reverse_append]
  obtain ⟨a, b, rfl, houter, hframes⟩ := hrow.split
  exact houter.append (tiles_spill hframes)

end State

/-! ## Runs -/

/-- The token of a match is placed if its children tile what was left to be lexed. -/
theorem placed_build {here : Situation} {source : List Char} {rule : Rule} {capture : Capture}
    {start : Nat} {children : List Token}
    (found : Rule.firstMatch here source = some (rule, capture))
    (leaf : capture.inside = none → children = [])
    (held : ∀ i, capture.inside = some i → Tiles (start + Text.width i.lead) i.body children) :
    Placed (build rule capture start children) := by
  have htext : (build rule capture start children).text.toList = capture.text :=
    String.toList_ofList
  cases hi : capture.inside with
  | none =>
    refine .leaf rfl ?_ (leaf hi)
    simp [build, hi]
  | some i =>
    -- a nesting match is what leads to the contents, the contents and a trail
    obtain ⟨trail, htrail⟩ := Rule.text_eq_of_firstMatch found hi
    refine .node rfl (htext.trans htrail) ?_ (held i hi)
    simp [build, hi]

/-- Lexing covers what has been read and what is still to be read. -/
theorem Lexes.tiles {whole : Mode} {s : State} {source : List Char} {tokens : List Token}
    (h : Lexes whole s source tokens) :
    ∀ {base : Nat} {done : List Char}, s.CoversFrom base done →
      Tiles base (done ++ source) tokens := by
  induction h with
  | finish =>
    intro base done hs
    rw [List.append_nil]
    exact hs.finish _
  | @defer whole s c cs tokens unclaimed next ih =>
    intro base done hs
    have := ih (hs.defer c)
    rwa [List.append_assoc] at this
  | @accept whole s source rest rule capture children tokens found split leaf held next ihHeld ih =>
    intro base done hs
    have hplaced : Placed (build rule capture s.offset children) := by
      -- the contents were lexed by themselves, from a state that starts where they do
      refine placed_build found leaf fun i hi => ?_
      exact ihHeld i hi (State.coversFrom_start _)
    have := ih (hs.accept whole hplaced)
    rwa [List.append_assoc, ← split] at this

/-! ## Merging texts -/

/-- Two texts in a row are one, as wide as both. -/
theorem placed_join {t u : Token} (ht : Placed t) (hu : Placed u) (hstart : u.start = t.stop) :
    Placed { t with text := t.text ++ u.text, stop := u.stop } := by
  have hstop : u.stop = t.start + Text.width (t.text ++ u.text).toList := by
    rw [hu.stop_eq, hstart, ht.stop_eq, String.toList_append, Text.width_append, Nat.add_assoc]
  cases ht with
  | leaf _ inner children => exact .leaf hstop inner children
  | @node _ lead body trail _ text_eq inner children =>
    refine @Placed.node _ lead body (trail ++ u.text.toList) hstop ?_ inner children
    rw [String.toList_append, text_eq, List.append_assoc]

mutual

theorem placed_mergeText : ∀ {t : Token}, Placed t → Placed (mergeText t)
  | ⟨_, _, _, _, _, _, _, _, _⟩, .leaf stop_eq inner children => by
    subst children
    exact .leaf stop_eq inner rfl
  | ⟨_, _, _, _, _, _, _, _, _⟩, .node stop_eq text_eq inner children =>
    .node stop_eq text_eq inner (tiles_mergeAll children)

theorem tiles_mergeAll : ∀ {start : Nat} {text : List Char} {ts : List Token},
    Tiles start text ts → Tiles start text (mergeAll ts)
  | _, _, _, .nil => .nil
  | _, _, _, @Tiles.cons start t rest ts first head tail => by
    have hhead := placed_mergeText head
    have htail := tiles_mergeAll tail
    -- merging inside a token leaves its own span and text
    have hsame : (mergeText t).start = t.start ∧ (mergeText t).text = t.text ∧
        (mergeText t).stop = t.stop := by
      rw [mergeText_eq]
      exact ⟨rfl, rfl, rfl⟩
    rcases mergeAll_cons t ts with ⟨u, us, hmerged, -, -, heq⟩ | ⟨-, heq⟩
    · rw [heq]
      rw [hmerged] at htail
      cases htail with
      | @cons _ _ rest _ hfirst hu hus =>
        -- the next text starts where this one ends, also after it took in others
        have hjoin := placed_join hhead hu (hfirst.trans hsame.2.2.symm)
        rw [hsame.2.1] at hjoin
        rw [← List.append_assoc, ← String.toList_append]
        refine .cons ?_ hjoin hus
        exact hsame.1.trans first
    · rw [heq]
      have := Tiles.cons (hsame.1.trans first) hhead (hsame.2.2 ▸ htail)
      rwa [hsame.2.1] at this

end

/-! ## From tiling to spans -/

theorem Tiles.isChain {start : Nat} {text : List Char} {ts : List Token}
    (h : Tiles start text ts) : ts.IsChain fun a b => b.start = a.stop := by
  induction ts generalizing start text with
  | nil => exact .nil
  | cons t ts ih =>
    cases h with
    | cons first head tail =>
      refine List.isChain_cons.2 ⟨?_, ih tail⟩
      intro u hu
      cases tail with
      | nil => simp at hu
      | cons first' =>
        obtain rfl := Option.some.inj hu
        exact first'

/-- A token of a row stands in the text of the row. -/
theorem Tiles.split_at {start : Nat} {text : List Char} {ts : List Token}
    (h : Tiles start text ts) {t : Token} (ht : t ∈ ts) :
    Placed t ∧ ∃ before after, text = before ++ t.text.toList ++ after ∧
      t.start = start + Text.width before := by
  obtain ⟨us, vs, rfl⟩ := List.append_of_mem ht
  obtain ⟨before, rest, rfl, -, h⟩ := h.split
  cases h with
  | @cons _ _ after _ first head _ =>
    exact ⟨head, before, after, by rw [List.append_assoc], first⟩

/-- The children of a placed token make up its inner text, in a row that lies inside it. -/
theorem Placed.children {t : Token} (h : Placed t) :
    (∀ inner, t.inner = some inner → textOf t.children = inner) ∧
    (t.children.IsChain fun a b => b.start = a.stop) ∧
    ∀ c ∈ t.children, Placed c ∧ ∃ before after,
      t.text.toList = before ++ c.text.toList ++ after ∧ c.start = t.start + Text.width before := by
  cases h with
  | leaf stop_eq inner children => simp [inner, children]
  | @node _ lead body trail stop_eq text_eq inner children =>
    refine ⟨?_, children.isChain, ?_⟩
    · rw [inner]
      rintro _ ⟨⟩
      rw [← children.toList_textOf, String.ofList_toList]
    · intro c hc
      obtain ⟨hplaced, before, after, rfl, hstart⟩ := children.split_at hc
      refine ⟨hplaced, lead ++ before, after ++ trail, ?_, ?_⟩
      · rw [text_eq]
        simp only [List.append_assoc]
      · rw [hstart, Text.width_append, Nat.add_assoc]

/-- A placed token whose text stands in the source agrees with it, and so does all inside it. -/
theorem Placed.covers {source : List Char} (t : Token) :
    Placed t → ∀ before after, source = before ++ t.text.toList ++ after →
      t.start = Text.width before → ∀ u ∈ t.tokens, u.Covers source := by
  induction t using Token.tree_induction with
  | h t ih =>
    intro hplaced before after hsource hstart u hu
    obtain ⟨hinner, hchain, hchildren⟩ := hplaced.children
    rcases Token.mem_tokens.1 hu with rfl | ⟨c, hc, hu⟩
    · refine ⟨hplaced.stop_eq, ?_, hinner, hchain, ?_⟩
      · exact Text.slice?_eq_some_iff.2 ⟨before, after, hsource, hstart, hplaced.stop_eq⟩
      · intro c hc
        obtain ⟨hc, lead, trail, htext, hstart⟩ := hchildren c hc
        rw [hc.stop_eq, hplaced.stop_eq, hstart, htext]
        simp only [Text.width_append]
        omega
    · -- the child's text stands in that of its parent, so it stands in the source
      obtain ⟨hplaced, lead, trail, htext, hfirst⟩ := hchildren c hc
      refine ih c hc hplaced (before ++ lead) (trail ++ after) ?_ ?_ u hu
      · rw [hsource, htext]
        simp only [List.append_assoc]
      · rw [hfirst, hstart, Text.width_append]

/-- The children of the root tile the source. -/
theorem tiles_lexIn (whole : Mode) (source : String) :
    Tiles 0 source.toList (lexIn whole source).value.children :=
  tiles_mergeAll ((lexes_lexFrom whole { offset := 0 } source.toList).tiles
    (State.coversFrom_start 0))

/-- The root stands in place of the whole source. -/
theorem placed_lexIn (whole : Mode) (source : String) : Placed (lexIn whole source).value := by
  refine @Placed.node _ [] source.toList [] rfl ?_ ?_ (tiles_lexIn whole source)
  · rw [List.nil_append, List.append_nil]
    rfl
  · rw [String.ofList_toList]
    rfl

theorem covers_lexIn (whole : Mode) (source : String) :
    ∀ t ∈ (lexIn whole source).value.tokens, t.Covers source.toList := by
  refine Placed.covers _ (placed_lexIn whole source) [] [] ?_ rfl
  rw [List.nil_append, List.append_nil]
  rfl

theorem textOf_lexIn (whole : Mode) (source : String) :
    textOf (lexIn whole source).value.children = source :=
  (placed_lexIn whole source).children.1 source rfl

end Lexer

/-- Lexing covers the source: in the tree of prose or of an expression, every token has the width
and the text of its span, its children make up its inner text, lie inside it and leave no gap; the
children of the root make up the source. -/
theorem covers_lex_lexExpression (source : String) :
    (∀ t ∈ (lex source).tokens, t.Covers source.toList) ∧
    Token.textOf (lex source).children = source ∧
    (∀ t ∈ (lexExpression source).tokens, t.Covers source.toList) ∧
    Token.textOf (lexExpression source).children = source :=
  ⟨Lexer.covers_lexIn .markup source, Lexer.textOf_lexIn .markup source,
    Lexer.covers_lexIn .code source, Lexer.textOf_lexIn .code source⟩

end StoryScript
