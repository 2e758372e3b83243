/-
  What is grouped is lexed as if it stood alone.

  `Embeds` relates a state inside an open grouping to a state of lexing the grouped text
  alone: the stack of the first is that of the second on top of the grouping's frame.
  Every step keeps the two in step, until a closing parenthesis finds no partner in the
  text alone. So lexing from inside a grouping goes on past its contents, which are
  those of the text alone, or it never leaves the grouping.
-/
import Mathlib
import StoryScript.Proofs.Token.Coverage
import StoryScript.Proofs.Token.Locality

namespace StoryScript.Lexer

/-! ## Placing a token on a stack of frames -/

theorem splitFrames?_append (closer : Token) (above below : List Frame) :
    splitFrames? closer (above ++ below) =
      match splitFrames? closer above with
      | some (a, f, b, kind) => some (a, f, b ++ below, kind)
      | none =>
        (splitFrames? closer below).map fun (a, f, b, kind) => (above ++ a, f, b, kind) := by
  induction above with
  | nil =>
    show splitFrames? closer below = (splitFrames? closer below).map _
    cases splitFrames? closer below <;> rfl
  | cons g above ih =>
    simp only [List.cons_append, splitFrames?, ih]
    cases foldKind? closer g.opener with
    | some kind => rfl
    | none =>
      cases splitFrames? closer above with
      | some parts => rfl
      | none => cases splitFrames? closer below <;> rfl

/-- A token that closes nothing accepts no frame. -/
theorem splitFrames?_eq_none {t : Token} (h : t.kind.folds = []) (frames : List Frame) :
    splitFrames? t frames = none := by
  cases hsplit : splitFrames? t frames with
  | none => rfl
  | some parts =>
    have hmem := mem_folds_of_foldKind? (splitFrames?_eq_some hsplit).2
    rw [h] at hmem
    cases hmem

namespace State

theorem value_place_of_some {s : State} {t : Token} {above below : List Frame} {f : Frame}
    {kind : Kind} (h : splitFrames? t s.frames = some (above, f, below, kind)) :
    (s.place t).value = { s with frames := below }.add (fold t above f kind) := by
  simp [place, h]

theorem value_place_of_none {s : State} {t : Token} (h : splitFrames? t s.frames = none) :
    (s.place t).value =
      if t.isFront then s.push t else s.add (if t.kind.isCloser then demote t else t) := by
  simp only [place, h]
  split
  · rfl
  · split <;> rfl

/-! ## A state inside an opener -/

/-- Inside an opener, with certain tokens and frames around it, `s` is where `i` is in lexing the
text inside alone. -/
structure Embeds (opener : Token) (outer : List Token) (below : List Frame) (i s : State) :
    Prop where
  outer : s.outer = outer
  frames : s.frames = i.frames ++ ⟨opener, i.outer⟩ :: below
  pending : s.pending = i.pending
  offset : s.offset = i.offset
  afterWord : s.previous.any Text.isWord = i.previous.any Text.isWord

/-- Every open frame is one of code. -/
def IsCode (s : State) : Prop :=
  ∀ f ∈ s.frames, f.opener.mode = .code

theorem IsCode.mode {s : State} (h : s.IsCode) : s.mode .code = .code := by
  cases hframes : s.frames with
  | nil => simp [State.mode, hframes]
  | cons f fs =>
    simp only [State.mode, hframes]
    exact h f (by rw [hframes]; exact List.mem_cons_self)

theorem IsCode.add {s : State} (h : s.IsCode) (t : Token) : (s.add t).IsCode := by
  cases hframes : s.frames with
  | nil => simp [IsCode, State.add, hframes]
  | cons f fs => simpa [IsCode, State.add, hframes] using h

theorem IsCode.flush {s : State} (h : s.IsCode) (whole : Mode) : (s.flush whole).IsCode := by
  rcases s.flush_cases whole with ⟨-, hflush⟩ | ⟨-, hflush⟩
  · rwa [hflush]
  · rw [hflush]
    exact IsCode.add (s := { s with pending := [] }) h _

theorem IsCode.place {s : State} (h : s.IsCode) {t : Token} (ht : t.mode = .code) :
    (s.place t).value.IsCode := by
  rcases s.place_cases t with ⟨above, f, below, kind, hframes, -, hplace⟩ | ⟨-, hplace⟩ |
    ⟨-, -, hplace⟩ | ⟨-, -, hplace⟩
  · rw [hplace]
    refine IsCode.add (s := { s with frames := below }) (fun g hg => h g ?_) _
    rw [hframes]
    exact List.mem_append_right above (List.mem_cons_of_mem f hg)
  · rw [hplace]
    exact List.forall_mem_cons.2 ⟨ht, h⟩
  · rw [hplace]
    exact h.add _
  · rw [hplace]
    exact h.add _

theorem IsCode.accept {s : State} (h : s.IsCode) {rule : Rule}
    (hrule : rule.scope.innerMode = .code) (whole : Mode) (capture : Capture)
    (children : List Token) :
    (s.accept whole rule capture children).IsCode :=
  (h.flush whole).place (t := build rule capture s.offset children) hrule

namespace Embeds

variable {opener : Token} {outer : List Token} {below : List Frame} {i s : State}

theorem mode (h : Embeds opener outer below i s) (hopener : opener.mode = .code) (whole : Mode) :
    s.mode whole = i.mode .code := by
  cases hframes : i.frames with
  | nil => simp [State.mode, h.frames, hframes, hopener]
  | cons f fs => simp [State.mode, h.frames, hframes]

/-- The rules of code see no difference. -/
theorem alike (h : Embeds opener outer below i s) (hopener : opener.mode = .code)
    (hkind : opener.kind = .groupingFront) (hi : i.IsCode) (whole : Mode) :
    (s.situation whole).Alike (i.situation .code) where
  mode := ⟨(h.mode hopener whole).trans hi.mode, hi.mode⟩
  afterWord := h.afterWord
  last := by
    show s.last = i.last ∨ s.last = some .groupingFront ∧ i.last = none
    simp only [State.last, h.pending, h.frames]
    cases i.pending with
    | cons => exact .inl rfl
    | nil =>
      cases i.frames with
      | cons => exact .inl rfl
      | nil =>
        cases i.outer with
        | cons => exact .inl rfl
        | nil => exact .inr ⟨congrArg some hkind, rfl⟩

theorem add (h : Embeds opener outer below i s) (t : Token) :
    Embeds opener outer below (i.add t) (s.add t) := by
  cases hframes : i.frames with
  | nil =>
    have hs : s.frames = ⟨opener, i.outer⟩ :: below := by rw [h.frames, hframes]; rfl
    simp only [State.add, hframes, hs]
    exact ⟨h.outer, rfl, h.pending, h.offset, h.afterWord⟩
  | cons f fs =>
    have hs : s.frames = f :: (fs ++ ⟨opener, i.outer⟩ :: below) := by rw [h.frames, hframes]; rfl
    simp only [State.add, hframes, hs]
    exact ⟨h.outer, rfl, h.pending, h.offset, h.afterWord⟩

theorem push (h : Embeds opener outer below i s) (t : Token) :
    Embeds opener outer below (i.push t) (s.push t) :=
  ⟨h.outer, congrArg (_ :: ·) h.frames, h.pending, h.offset, h.afterWord⟩

theorem defer (h : Embeds opener outer below i s) (c : Char) :
    Embeds opener outer below (i.defer c) (s.defer c) :=
  ⟨h.outer, h.frames, congrArg (c :: ·) h.pending, congrArg (· + c.utf8Size) h.offset, rfl⟩

theorem advance (h : Embeds opener outer below i s) (text : List Char) :
    Embeds opener outer below (i.advance text) (s.advance text) :=
  ⟨h.outer, h.frames, h.pending, congrArg (· + Text.width text) h.offset, rfl⟩

theorem flush (h : Embeds opener outer below i s) (hopener : opener.mode = .code) (whole : Mode) :
    Embeds opener outer below (i.flush .code) (s.flush whole) := by
  have htext : s.pendingText whole = i.pendingText .code := by
    simp only [pendingText, h.offset, h.pending, h.mode hopener]
  rcases i.flush_cases .code with ⟨hpending, hflush⟩ | ⟨hpending, hflush⟩
  · have hs : s.flush whole = s := by simp [State.flush, h.pending, hpending]
    rwa [hflush, hs]
  · have hs : s.flush whole = { s with pending := [] }.add (s.pendingText whole) := by
      rcases s.flush_cases whole with ⟨hempty, -⟩ | ⟨-, hs⟩
      · exact absurd (h.pending.symm.trans hempty) hpending
      · exact hs
    rw [hflush, hs, htext]
    refine add ?_ _
    exact ⟨h.outer, h.frames, rfl, h.offset, h.afterWord⟩

/-- A token that folds with a frame inside, or with none at all, keeps the states in step. -/
theorem place (h : Embeds opener outer below i s) {t : Token}
    (ht : (splitFrames? t i.frames).isSome = true ∨ t.kind.folds = []) :
    Embeds opener outer below (i.place t).value (s.place t).value := by
  cases hsplit : splitFrames? t i.frames with
  | some parts =>
    obtain ⟨above, f, rest, kind⟩ := parts
    have hs : splitFrames? t s.frames =
        some (above, f, rest ++ ⟨opener, i.outer⟩ :: below, kind) := by
      rw [h.frames, splitFrames?_append, hsplit]
    rw [value_place_of_some hsplit, value_place_of_some hs]
    refine add ?_ _
    exact ⟨h.outer, rfl, h.pending, h.offset, h.afterWord⟩
  | none =>
    have hfolds : t.kind.folds = [] := ht.resolve_left (by simp [hsplit])
    rw [value_place_of_none hsplit, value_place_of_none (splitFrames?_eq_none hfolds _)]
    split
    · exact h.push t
    · exact h.add _

/-- A closer that finds no partner inside folds with the opener. -/
theorem place_closer (h : Embeds opener outer below i s) {t : Token} {kind : Kind}
    (hsplit : splitFrames? t i.frames = none) (hfold : foldKind? t opener = some kind) :
    (s.place t).value =
      { s with frames := below }.add (fold t i.frames ⟨opener, i.outer⟩ kind) := by
  apply value_place_of_some
  rw [h.frames, splitFrames?_append, hsplit]
  simp [splitFrames?, hfold]

/-- A match whose token folds with a frame inside, or with none at all, keeps the states in step. -/
theorem accept (h : Embeds opener outer below i s) (hopener : opener.mode = .code) (whole : Mode)
    {rule : Rule} {capture : Capture} {children : List Token}
    (hstays : (splitFrames? (build rule capture i.offset children) (i.flush .code).frames).isSome =
      true ∨ rule.kind.folds = []) :
    Embeds opener outer below (i.accept .code rule capture children)
      (s.accept whole rule capture children) := by
  rw [State.accept, State.accept, h.offset]
  exact ((h.flush hopener whole).place hstays).advance capture.text

/-- A closer without a partner inside folds the opener with what the text alone gives. -/
theorem accept_closer (h : Embeds opener outer below i s) (hopener : opener.mode = .code)
    (whole : Mode) {rule : Rule} {capture : Capture} {children : List Token} {kind : Kind}
    (hfold : foldKind? (build rule capture i.offset children) opener = some kind)
    (hsplit : splitFrames? (build rule capture i.offset children) (i.flush .code).frames = none) :
    s.accept whole rule capture children =
      ({ s.flush whole with frames := below }.add (fold (build rule capture i.offset children) []
        ⟨opener, (i.finish .code).value.reverse⟩ kind)).advance capture.text := by
  have hcontents : (i.finish .code).value.reverse =
      (i.flush .code).frames.flatMap Frame.spill ++ (i.flush .code).outer :=
    List.reverse_reverse _
  rw [State.accept, h.offset, (h.flush hopener whole).place_closer hsplit hfold, hcontents]
  rfl

/-- Where the source ends the opener is given up, with what the text alone gives after it. -/
theorem finish (h : Embeds opener outer below i s) (hopener : opener.mode = .code) (whole : Mode) :
    (s.finish whole).value =
      (below.flatMap Frame.spill ++ outer).reverse ++ demote opener :: (i.finish .code).value := by
  have hflush := h.flush hopener whole
  show ((s.flush whole).frames.flatMap Frame.spill ++ (s.flush whole).outer).reverse = _ ++
    _ :: ((i.flush .code).frames.flatMap Frame.spill ++ (i.flush .code).outer).reverse
  rw [hflush.frames, hflush.outer]
  simp [Frame.spill]

end Embeds

end State

/-! ## Lexing from inside a grouping -/

/-- A closing parenthesis is read as such. -/
theorem text_of_groupingBack {here : Situation} {source : List Char} {rule : Rule}
    {capture : Capture} (found : Rule.firstMatch here source = some (rule, capture))
    (hkind : rule.kind = .groupingBack) : capture.text = [')'] := by
  obtain ⟨hrule, hmatch⟩ := Rule.of_firstMatch found
  have htable : Rule.all.filter (fun rule => rule.kind = .groupingBack) =
      [Rule.ofExpression .groupingBack ")" (Pattern.exactly ")")] := rfl
  have hcapture := Rule.capture?_of_match? hmatch
  rw [rule_of_kind hrule hkind htable] at hcapture
  obtain ⟨rest, hscan, htext, -⟩ := Pattern.capture?_eq_some.1 hcapture
  have hsource := Scanner.append_of_literal (by decide) (Pattern.of_scan_plain hscan)
  rw [htext, Pattern.take_of_append hsource]
  rfl

/-- The tokens that lexing gives once it has left a grouping: a state with the tokens and frames
around it takes the grouping up, and lexing goes on after the parenthesis that closes it. -/
inductive LeavesGrouping (opener : Token) (outer : List Token) (below : List Frame) (i : State)
    (whole : Mode) : List Char → List Token → Prop where
  | intro {a b : List Char} {base : State} {closer : Token} (outer_eq : base.outer = outer)
      (frames_eq : base.frames = below) (pending_eq : base.pending = []) :
      LeavesGrouping opener outer below i whole (a ++ ')' :: b)
        (lexFrom whole ((base.add (fold closer [] ⟨opener, (lexFrom .code i a).value.reverse⟩
          .grouping)).advance [')']) b).value

/-- From inside a grouping, lexing leaves it with the contents that the text alone gives, or it
never leaves it and gives the tokens of the text alone. -/
theorem lexFrom_of_embeds {opener : Token} {outer : List Token} {below : List Frame} {i s : State}
    (hkind : opener.kind = .groupingFront) (hopener : opener.mode = .code) (whole : Mode)
    (source : List Char) (h : State.Embeds opener outer below i s) (hi : i.IsCode) :
    LeavesGrouping opener outer below i whole source (lexFrom whole s source).value ∨
    (lexFrom whole s source).value = (below.flatMap Frame.spill ++ outer).reverse ++
      demote opener :: (lexFrom .code i source).value := by
  -- on the text that is left, with the two states in step as long as the grouping is open
  induction hlength : source.length using Nat.strong_induction_on generalizing source i s with
  | h n ih =>
    have halike := h.alike hopener hkind hi whole
    cases hfound : Rule.firstMatch (s.situation whole) source with
    | none =>
      match source with
      | [] =>
        right
        rw [value_lexFrom_nil, value_lexFrom_nil]
        exact h.finish hopener whole
      | c :: cs =>
        rw [value_lexFrom_defer hfound]
        rcases ih cs.length (by simp [← hlength]) cs (h.defer c) hi rfl with hleaves | hstays
        · left
          generalize (lexFrom whole (s.defer c) cs).value = tokens at hleaves
          obtain @⟨a, b, base, closer, outer_eq, frames_eq, pending_eq⟩ := hleaves
          -- now the place of the closing parenthesis is known, and nothing is found before it
          have hnone := Rule.firstMatch_alone (a := c :: a) halike (by simp) hfound (by simp)
          rw [← value_lexFrom_defer hnone, ← List.cons_append]
          exact .intro outer_eq frames_eq pending_eq
        · right
          rw [hstays, value_lexFrom_defer ((Rule.firstMatch_of_alike halike _).symm.trans hfound)]
    | some found =>
      obtain ⟨rule, capture⟩ := found
      obtain ⟨hne, rest, rfl⟩ := Rule.text_of_firstMatch hfound
      obtain ⟨hrule, hmatch⟩ := Rule.of_firstMatch hfound
      have hactive : rule.scope.activeIn .code = true := halike.mode.1 ▸ activeIn_of_match? hmatch
      rw [value_lexFrom_append hfound, h.offset]
      generalize hchildren : childrenOf rule capture i.offset = children
      by_cases hstays : (splitFrames? (build rule capture i.offset children)
          (i.flush .code).frames).isSome = true ∨ rule.kind.folds = []
      · -- the two states go on in step
        have hnext := h.accept hopener whole hstays
        have hcode := hi.accept (innerMode_of_activeIn hactive) .code capture children
        have hshorter : rest.length < n := by
          have := List.length_pos_of_ne_nil hne
          rw [← hlength, List.length_append]
          omega
        rcases ih rest.length hshorter rest hnext hcode rfl with hleaves | hrest
        · left
          generalize (lexFrom whole (s.accept _ _ _ _) rest).value = tokens at hleaves
          obtain @⟨a, b, base, closer, outer_eq, frames_eq, pending_eq⟩ := hleaves
          rw [← List.append_assoc] at hfound ⊢
          have hfound' := Rule.firstMatch_alone halike (by simp [hne]) hfound (by simp)
          rw [← hchildren, ← value_lexFrom_append hfound']
          exact .intro outer_eq frames_eq pending_eq
        · right
          rw [hrest, ← hchildren,
            value_lexFrom_append ((Rule.firstMatch_of_alike halike _).symm.trans hfound)]
      · -- a parenthesis closes the grouping
        obtain ⟨hsplit, hfolds⟩ := not_or.1 hstays
        rw [Option.not_isSome_iff_eq_none] at hsplit
        have hback : rule.kind = .groupingBack := by
          apply (code_rules hrule hactive).2.1
          simpa [Kind.isCloser] using hfolds
        have hfold : foldKind? (build rule capture i.offset children) opener = some .grouping := by
          simp [foldKind?, build, hback, hkind, Kind.fold?, Kind.folds]
        left
        rw [h.accept_closer hopener whole hfold hsplit, ← value_lexFrom_nil,
          text_of_groupingBack hfound hback]
        exact .intro (a := []) (h.flush hopener whole).outer rfl (s.pending_flush whole)

/-! ## Every grouping -/

/-- A grouping holds what its inner text gives if that is lexed alone, from where it starts. -/
def LexedAlone (g : Token) : Prop :=
  g.kind = .grouping → ∃ body : List Char, g.inner = some (String.ofList body) ∧
    g.children = (lexFrom .code { offset := g.start + 1 } body).value

/-- Every grouping in a tree does. -/
def GroupsAlone (t : Token) : Prop :=
  ∀ u ∈ t.tokens, LexedAlone u

theorem groupsAlone_iff {t : Token} :
    GroupsAlone t ↔ LexedAlone t ∧ ∀ c ∈ t.children, GroupsAlone c :=
  Token.forall_mem_tokens

/-- A token that is no grouping asks nothing but of its children. -/
theorem groupsAlone_of_kind {t : Token} (hkind : t.kind ≠ .grouping)
    (hchildren : ∀ c ∈ t.children, GroupsAlone c) : GroupsAlone t :=
  groupsAlone_iff.2 ⟨fun h => absurd h hkind, hchildren⟩

theorem groupsAlone_demote {t : Token} (h : GroupsAlone t) : GroupsAlone (demote t) := by
  have hchildren := (groupsAlone_iff.1 h).2
  unfold demote
  split
  · exact groupsAlone_of_kind (by simp) hchildren
  · exact groupsAlone_of_kind (by simp) hchildren

theorem groupsAlone_spill {frames : List Frame}
    (h : ∀ t ∈ frames.flatMap Frame.row, GroupsAlone t) :
    ∀ t ∈ frames.flatMap Frame.spill, GroupsAlone t := by
  intro t ht
  simp only [List.mem_flatMap, Frame.spill, List.mem_append, List.mem_singleton] at ht
  obtain ⟨f, hf, ht | rfl⟩ := ht
  · exact h t (List.mem_flatMap.2 ⟨f, hf, List.mem_append_left _ ht⟩)
  · exact groupsAlone_demote (h _ (List.mem_flatMap.2 ⟨f, hf, by simp [Frame.row]⟩))

theorem front_of_grouping {front back : Kind} (h : (front, .grouping) ∈ back.folds) :
    front = .groupingFront := by
  cases back <;> simp_all [Kind.folds]

namespace State

/-- No grouping is open, and those that have been read hold what their text alone gives. -/
structure IsUngrouped (s : State) : Prop where
  frames : ∀ f ∈ s.frames, f.opener.kind ≠ .groupingFront
  row : ∀ t ∈ s.row, GroupsAlone t

theorem isUngrouped_start (offset : Nat) : IsUngrouped { offset } :=
  ⟨by simp, by simp [State.row]⟩

namespace IsUngrouped

variable {s : State}

theorem add (h : s.IsUngrouped) {t : Token} (ht : GroupsAlone t) : (s.add t).IsUngrouped := by
  refine ⟨?_, ?_⟩
  · have hframes := h.frames
    cases hs : s.frames with
    | nil => simp [State.add, hs]
    | cons f fs => simpa [State.add, hs] using hframes
  · rw [row_add]
    exact List.forall_mem_append.2 ⟨h.row, by simpa using ht⟩

theorem push (h : s.IsUngrouped) {t : Token} (ht : GroupsAlone t)
    (hkind : t.kind ≠ .groupingFront) : (s.push t).IsUngrouped := by
  refine ⟨List.forall_mem_cons.2 ⟨hkind, h.frames⟩, ?_⟩
  rw [row_push]
  exact List.forall_mem_append.2 ⟨h.row, by simpa using ht⟩

theorem flush (h : s.IsUngrouped) (whole : Mode) : (s.flush whole).IsUngrouped := by
  rcases s.flush_cases whole with ⟨-, hflush⟩ | ⟨-, hflush⟩
  · rwa [hflush]
  · rw [hflush]
    refine add (s := { s with pending := [] }) ⟨h.frames, h.row⟩ (groupsAlone_of_kind ?_ ?_)
    · simp [pendingText]
    · simp [pendingText]

theorem advance (h : s.IsUngrouped) (text : List Char) : (s.advance text).IsUngrouped :=
  ⟨h.frames, h.row⟩

/-- Below a frame all is as before. -/
theorem below {above below : List Frame} {f : Frame} (h : s.IsUngrouped)
    (hframes : s.frames = above ++ f :: below) : { s with frames := below }.IsUngrouped := by
  refine ⟨fun g hg => h.frames g ?_, fun t ht => h.row t ?_⟩
  · rw [hframes]
    exact List.mem_append_right above (List.mem_cons_of_mem f hg)
  · simp only [State.row, hframes, List.mem_reverse, List.flatMap_append, List.flatMap_cons,
      List.mem_append] at ht ⊢
    tauto

/-- A closer does not fold into a grouping where none is open. -/
theorem fold {above below : List Frame} {f : Frame} {t : Token} {kind : Kind} (h : s.IsUngrouped)
    (hframes : s.frames = above ++ f :: below) (hfold : foldKind? t f.opener = some kind) :
    GroupsAlone (fold t above f kind) := by
  have hrow : ∀ u ∈ above.flatMap Frame.row ++ f.inside, GroupsAlone u := by
    intro u hu
    apply h.row
    simp only [State.row, hframes, List.mem_reverse, List.flatMap_append, List.flatMap_cons,
      List.mem_append, Frame.row] at hu ⊢
    tauto
  obtain ⟨habove, hinside⟩ := List.forall_mem_append.1 hrow
  refine groupsAlone_of_kind ?_ ?_
  · -- only the opener of a grouping folds into one
    rintro rfl
    have hopener := h.frames f (by rw [hframes]; simp)
    exact hopener (front_of_grouping (mem_folds_of_foldKind? hfold))
  · show ∀ c ∈ (above.flatMap Frame.spill ++ f.inside).reverse, GroupsAlone c
    intro c hc
    rw [List.mem_reverse, List.mem_append] at hc
    exact hc.elim (groupsAlone_spill habove c) (hinside c)

theorem place (h : s.IsUngrouped) {t : Token} (ht : GroupsAlone t)
    (hkind : t.kind ≠ .groupingFront) : (s.place t).value.IsUngrouped := by
  rcases s.place_cases t with ⟨above, f, below, kind, hframes, hfold, hplace⟩ | ⟨-, hplace⟩ |
    ⟨-, -, hplace⟩ | ⟨-, -, hplace⟩
  · rw [hplace]
    exact (h.below hframes).add (h.fold hframes hfold)
  · rw [hplace]
    exact h.push ht hkind
  · rw [hplace]
    exact h.add (groupsAlone_demote ht)
  · rw [hplace]
    exact h.add ht

theorem finish (h : s.IsUngrouped) (whole : Mode) :
    ∀ t ∈ (s.finish whole).value, GroupsAlone t := by
  have hrow := (h.flush whole).row
  show ∀ t ∈ ((s.flush whole).frames.flatMap Frame.spill ++ (s.flush whole).outer).reverse,
    GroupsAlone t
  simp only [State.row, List.mem_reverse, List.forall_mem_append] at hrow ⊢
  exact ⟨groupsAlone_spill hrow.1, hrow.2⟩

end IsUngrouped

end State

/-- A closer folds what the text alone gives into a grouping of that text. -/
theorem groupsAlone_grouping {opener : Token} {offset : Nat} {body : List Char} (closer : Token)
    (hoffset : offset = opener.start + 1)
    (hbody : ∀ t ∈ (lexFrom .code { offset } body).value, GroupsAlone t) :
    GroupsAlone
      (fold closer [] ⟨opener, (lexFrom .code { offset } body).value.reverse⟩ .grouping) := by
  have hchildren : (fold closer [] ⟨opener, (lexFrom .code { offset } body).value.reverse⟩
      .grouping).children = (lexFrom .code { offset } body).value :=
    List.reverse_reverse _
  have htext : Token.textOf (lexFrom .code { offset } body).value = String.ofList body := by
    have htiles := (lexes_lexFrom .code { offset } body).tiles (State.coversFrom_start offset)
    rw [← String.ofList_toList (s := Token.textOf _), htiles.toList_textOf, List.nil_append]
  refine groupsAlone_iff.2 ⟨fun _ => ⟨body, ?_, ?_⟩, ?_⟩
  · exact congrArg some ((congrArg Token.textOf hchildren).trans htext)
  · rw [hchildren, hoffset]
    rfl
  · rwa [hchildren]

/-- What opens a grouping: a parenthesis, which holds nothing and is followed by code. -/
theorem of_groupingFront {here : Situation} {source : List Char} {rule : Rule} {capture : Capture}
    (found : Rule.firstMatch here source = some (rule, capture))
    (hkind : rule.kind = .groupingFront) :
    capture.text = ['('] ∧ capture.inside = none ∧ rule.isFront = true ∧
      rule.scope.innerMode = .code := by
  obtain ⟨hrule, hmatch⟩ := Rule.of_firstMatch found
  have htable : Rule.all.filter (fun rule => rule.kind = .groupingFront) =
      [{ Rule.ofCode .groupingFront "(" Pattern.groupingFront with isFront := true }] := rfl
  have hcapture := Rule.capture?_of_match? hmatch
  rw [rule_of_kind hrule hkind htable] at hcapture ⊢
  refine ⟨?_, inside_of_isLeaf rfl hcapture, rfl, rfl⟩
  obtain ⟨rest, hscan, htext, -⟩ := Pattern.capture?_eq_some.1 hcapture
  obtain ⟨⟨⟩, mid, hchar, hahead⟩ := Scanner.bind_eq_some.1 (Pattern.of_scan_plain hscan)
  -- looking for a macro name after the parenthesis takes nothing away
  have hmid : mid = rest := by
    simp only [Scanner.notAhead] at hahead
    split at hahead
    · cases hahead
    · exact (Prod.mk.inj (Option.some.inj hahead)).2
  subst hmid
  exact htext.trans (Pattern.take_of_append (Scanner.append_of_char hchar))

/-- After an opening parenthesis, lexing is where lexing the text inside alone starts. -/
theorem embeds_of_paren {rule : Rule} {capture : Capture} (htext : capture.text = ['('])
    (hfront : rule.isFront = true) (hfolds : rule.kind.folds = []) (s : State) (whole : Mode)
    (children : List Token) :
    State.Embeds (build rule capture s.offset children) (s.flush whole).outer (s.flush whole).frames
      { offset := s.offset + 1 } (s.accept whole rule capture children) := by
  have hsplit : splitFrames? (build rule capture s.offset children) (s.flush whole).frames = none :=
    splitFrames?_eq_none hfolds _
  have hpush : s.accept whole rule capture children =
      ((s.flush whole).push (build rule capture s.offset children)).advance ['('] := by
    rw [State.accept, State.value_place_of_none hsplit, htext]
    exact congrArg (State.advance · ['(']) (if_pos hfront)
  rw [hpush]
  refine ⟨rfl, rfl, s.pending_flush whole, ?_, rfl⟩
  show (s.flush whole).offset + 1 = s.offset + 1
  rw [State.offset_flush]

/-- Every grouping that lexing gives holds what its text alone gives. -/
theorem groupsAlone_lexFrom (whole : Mode) (s : State) (source : List Char) (h : s.IsUngrouped) :
    ∀ t ∈ (lexFrom whole s source).value, GroupsAlone t := by
  induction hlength : source.length using Nat.strong_induction_on generalizing whole s source with
  | h n ih =>
    cases hfound : Rule.firstMatch (s.situation whole) source with
    | none =>
      match source with
      | [] =>
        rw [value_lexFrom_nil]
        exact h.finish whole
      | c :: cs =>
        rw [value_lexFrom_defer hfound]
        exact ih cs.length (by simp [← hlength]) whole (s.defer c) cs ⟨h.frames, h.row⟩ rfl
    | some found =>
      obtain ⟨rule, capture⟩ := found
      obtain ⟨hne, rest, rfl⟩ := Rule.text_of_firstMatch hfound
      have hrule := (Rule.of_firstMatch hfound).1
      have hrest : rest.length < n := by
        have := List.length_pos_of_ne_nil hne
        rw [← hlength, List.length_append]
        omega
      -- the token of the match, with what it holds
      have htoken :
          GroupsAlone (build rule capture s.offset (childrenOf rule capture s.offset)) := by
        refine groupsAlone_of_kind ?_ ?_
        · intro hkind
          have hfolded := (rule_kinds hrule).2.1
          rw [show rule.kind = .grouping from hkind] at hfolded
          cases hfolded
        · show ∀ c ∈ childrenOf rule capture s.offset, GroupsAlone c
          unfold childrenOf
          split
          · simp
          · rename_i i hi
            have hinside := Rule.inside_of_firstMatch hfound hi
            exact ih i.body.length (hlength ▸ hinside) _ _ i.body (State.isUngrouped_start _) rfl
      rw [value_lexFrom_append hfound]
      by_cases hopen : rule.kind = .groupingFront
      · -- an open grouping breaks the invariant, so the step leads to where it is closed
        have hflush := h.flush whole
        obtain ⟨htext, -, hfront, hmode⟩ := of_groupingFront hfound hopen
        have hembeds := embeds_of_paren htext hfront (by simp [hopen, Kind.folds]) s whole
          (childrenOf rule capture s.offset)
        rcases lexFrom_of_embeds hopen hmode whole rest hembeds (by simp [State.IsCode]) with
          hleaves | hstays
        · generalize (lexFrom whole (s.accept _ _ _ _) rest).value = tokens at hleaves ⊢
          obtain @⟨a, b, base, closer, outer_eq, frames_eq, pending_eq⟩ := hleaves
          rw [List.length_append, List.length_cons] at hrest
          have hbase : base.IsUngrouped := by
            refine ⟨frames_eq ▸ hflush.frames, ?_⟩
            have hrow : base.row = (s.flush whole).row := by
              rw [State.row, outer_eq, frames_eq]
              rfl
            exact hrow ▸ hflush.row
          have hinside := ih a.length (by omega) .code { offset := s.offset + 1 } a
            (State.isUngrouped_start _) rfl
          -- the grouping is closed, and lexing goes on behind it
          refine ih b.length (by omega) whole _ b ?_ rfl
          exact (hbase.add (groupsAlone_grouping closer rfl hinside)).advance [')']
        · -- it is never closed: the opener becomes text before the tokens of the rest
          rw [hstays]
          have hinside := ih rest.length hrest .code { offset := s.offset + 1 } rest
            (State.isUngrouped_start _) rfl
          have hrow := hflush.row
          simp only [State.row, List.mem_reverse, List.forall_mem_append] at hrow
          simp only [List.forall_mem_append, List.forall_mem_cons, List.mem_reverse]
          exact ⟨⟨groupsAlone_spill hrow.1, hrow.2⟩, groupsAlone_demote htoken, hinside⟩
      · refine ih rest.length hrest whole _ rest ?_ rfl
        exact ((h.flush whole).place htoken hopen).advance capture.text

end StoryScript.Lexer
