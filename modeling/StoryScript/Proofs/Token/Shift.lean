/-
  Lexing from another offset.

  Offsets are only carried along: the same text lexed from a later offset gives the same
  tokens, each of them shifted, and so does merging the texts of shifted tokens.
-/
import Mathlib
import StoryScript.Proofs.Token.Derivation

namespace StoryScript

namespace Token

mutual

/-- The same tree, `k` bytes further on. -/
def shift (k : Nat) : Token → Token
  | { toDetail, kind, start, text, stop, inner, children, isFront, mode } =>
    { toDetail, kind, start := start + k, text, stop := stop + k, inner
      children := shiftAll k children, isFront, mode }

/-- The same trees, `k` bytes further on. -/
def shiftAll (k : Nat) : List Token → List Token
  | [] => []
  | t :: ts => shift k t :: shiftAll k ts

end

theorem shiftAll_eq (k : Nat) (ts : List Token) : shiftAll k ts = ts.map (shift k) := by
  induction ts with
  | nil => rfl
  | cons t ts ih => rw [shiftAll, ih, List.map_cons]

/-- Shifting changes offsets and nothing else. -/
theorem shift_eq (k : Nat) (t : Token) : t.shift k =
    { t with start := t.start + k, stop := t.stop + k, children := t.children.map (shift k) } := by
  cases t
  rw [shift, shiftAll_eq]

@[simp] theorem toDetail_shift (k : Nat) (t : Token) : (t.shift k).toDetail = t.toDetail := by
  rw [shift_eq]

@[simp] theorem kind_shift (k : Nat) (t : Token) : (t.shift k).kind = t.kind := by
  rw [shift_eq]

@[simp] theorem text_shift (k : Nat) (t : Token) : (t.shift k).text = t.text := by
  rw [shift_eq]

@[simp] theorem inner_shift (k : Nat) (t : Token) : (t.shift k).inner = t.inner := by
  rw [shift_eq]

@[simp] theorem isFront_shift (k : Nat) (t : Token) : (t.shift k).isFront = t.isFront := by
  rw [shift_eq]

@[simp] theorem mode_shift (k : Nat) (t : Token) : (t.shift k).mode = t.mode := by
  rw [shift_eq]

@[simp] theorem children_shift (k : Nat) (t : Token) :
    (t.shift k).children = t.children.map (shift k) := by
  rw [shift_eq]

theorem textOf_map_shift (k : Nat) (ts : List Token) : textOf (ts.map (shift k)) = textOf ts := by
  have htext : text ∘ shift k = text := funext fun t => text_shift k t
  rw [textOf, List.map_map, htext, textOf]

end Token

namespace Lexer

/-! ## Tokens and frames -/

theorem demote_shift (k : Nat) (t : Token) : demote (t.shift k) = (demote t).shift k := by
  simp only [demote, Token.kind_shift]
  split <;> simp only [Token.shift_eq]

/-- The same frame, `k` bytes further on. -/
def Frame.shift (k : Nat) (f : Frame) : Frame :=
  ⟨f.opener.shift k, f.inside.map (Token.shift k)⟩

theorem spill_shift (k : Nat) (f : Frame) : (f.shift k).spill = f.spill.map (Token.shift k) := by
  simp [Frame.spill, Frame.shift, demote_shift]

theorem flatMap_spill_shift (k : Nat) (frames : List Frame) :
    (frames.map (Frame.shift k)).flatMap Frame.spill =
      (frames.flatMap Frame.spill).map (Token.shift k) := by
  rw [List.flatMap_map, List.map_flatMap]
  exact congrArg (List.flatMap · frames) (funext fun f => spill_shift k f)

theorem foldKind?_shift (k : Nat) (closer opener : Token) :
    foldKind? (closer.shift k) (opener.shift k) = foldKind? closer opener := by
  simp [foldKind?]

theorem splitFrames?_shift (k : Nat) (closer : Token) (frames : List Frame) :
    splitFrames? (closer.shift k) (frames.map (Frame.shift k)) =
      (splitFrames? closer frames).map fun (above, f, below, kind) =>
        (above.map (Frame.shift k), f.shift k, below.map (Frame.shift k), kind) := by
  induction frames with
  | nil => rfl
  | cons f frames ih =>
    simp only [List.map_cons, splitFrames?, ih]
    rw [show (f.shift k).opener = f.opener.shift k from rfl, foldKind?_shift]
    cases foldKind? closer f.opener with
    | some kind => rfl
    | none => cases splitFrames? closer frames <;> rfl

theorem fold_shift (k : Nat) (closer : Token) (above : List Frame) (f : Frame) (kind : Kind) :
    fold (closer.shift k) (above.map (Frame.shift k)) (f.shift k) kind =
      (fold closer above f kind).shift k := by
  have hcontents : ((above.map (Frame.shift k)).flatMap Frame.spill ++ (f.shift k).inside).reverse =
      (above.flatMap Frame.spill ++ f.inside).reverse.map (Token.shift k) := by
    rw [flatMap_spill_shift, Frame.shift, ← List.map_append, List.map_reverse]
  simp only [fold, hcontents, Token.textOf_map_shift]
  simp only [Token.shift_eq, Frame.shift]

theorem build_shift (rule : Rule) (capture : Capture) (start k : Nat) (children : List Token) :
    build rule capture (start + k) (children.map (Token.shift k)) =
      (build rule capture start children).shift k := by
  simp only [build, Token.shift_eq, Token.mk.injEq, true_and, and_true]
  omega

/-! ## States -/

namespace State

/-- The same state, `k` bytes further on. -/
def shift (k : Nat) (s : State) : State :=
  { s with
    outer := s.outer.map (Token.shift k)
    frames := s.frames.map (Frame.shift k)
    offset := s.offset + k }

theorem mode_shift (k : Nat) (s : State) (whole : Mode) :
    (s.shift k).mode whole = s.mode whole := by
  cases h : s.frames <;> simp [mode, shift, h, Frame.shift]

/-- The rules do not look at offsets. -/
theorem situation_shift (k : Nat) (s : State) (whole : Mode) :
    (s.shift k).situation whole = s.situation whole := by
  have hkind : (Token.kind ∘ Token.shift k) = Token.kind := funext fun t => Token.kind_shift k t
  have hlast : (s.shift k).last = s.last := by
    simp only [last, shift]
    congr 1
    cases s.frames with
    | nil => simp [hkind]
    | cons f fs => cases h : f.inside <;> simp [Frame.shift, h]
  have hopeners : (s.shift k).openers = s.openers := by
    have hopener : (fun f : Frame => f.opener.kind) ∘ Frame.shift k = fun f => f.opener.kind :=
      funext fun f => Token.kind_shift k f.opener
    simp only [openers, shift]
    cases s.frames with
    | nil => rfl
    | cons f fs =>
      simp only [List.map_cons, show (f.shift k).inside = f.inside.map (Token.shift k) from rfl,
        List.isEmpty_map]
      split
      · rw [List.map_map, hopener]
      · rw [← List.map_cons, List.map_map, hopener]
  simp only [situation, mode_shift, hlast, hopeners]
  rfl

theorem add_shift (k : Nat) (s : State) (t : Token) :
    (s.shift k).add (t.shift k) = (s.add t).shift k := by
  cases h : s.frames <;> simp [add, shift, h, Frame.shift]

theorem defer_shift (k : Nat) (s : State) (c : Char) :
    (s.shift k).defer c = (s.defer c).shift k := by
  simp only [defer, shift, State.mk.injEq, true_and]
  omega

theorem advance_shift (k : Nat) (s : State) (text : List Char) :
    (s.shift k).advance text = (s.advance text).shift k := by
  simp only [advance, shift, State.mk.injEq, true_and]
  omega

/-- The pending characters are among those before the offset. -/
def IsAhead (s : State) : Prop :=
  Text.width s.pending ≤ s.offset

theorem flush_shift (k : Nat) {s : State} (h : s.IsAhead) (whole : Mode) :
    (s.shift k).flush whole = (s.flush whole).shift k := by
  have htext : (s.shift k).pendingText whole = (s.pendingText whole).shift k := by
    have hpending : (s.shift k).pending = s.pending := rfl
    have hstart : (s.shift k).offset - Text.width s.pending =
        s.offset - Text.width s.pending + k := by
      show s.offset + k - Text.width s.pending = _
      unfold IsAhead at h
      omega
    simp only [pendingText, mode_shift, Token.shift_eq, Token.mk.injEq, true_and, List.map_nil,
      and_true, hpending, hstart]
    omega
  rcases s.flush_cases whole with ⟨hpending, hflush⟩ | ⟨hpending, hflush⟩
  · rw [hflush]
    simp [flush, shift, hpending]
  · rw [hflush, ← add_shift, ← htext]
    rcases (s.shift k).flush_cases whole with ⟨hempty, -⟩ | ⟨-, hshift⟩
    · exact absurd hempty hpending
    · rw [hshift]
      rfl

theorem place_shift (k : Nat) (s : State) (t : Token) :
    ((s.shift k).place (t.shift k)).value = (s.place t).value.shift k := by
  have hsplit := splitFrames?_shift k t s.frames
  simp only [place, show (s.shift k).frames = s.frames.map (Frame.shift k) from rfl, hsplit]
  cases splitFrames? t s.frames with
  | some parts =>
    obtain ⟨above, f, below, kind⟩ := parts
    show State.add _ (fold _ _ _ _) = (State.add _ _).shift k
    rw [fold_shift, ← add_shift]
    rfl
  | none =>
    simp only [Option.map_none, Token.isFront_shift, Token.kind_shift]
    split
    · rfl
    · split
      · show (s.shift k).add (demote (t.shift k)) = (s.add (demote t)).shift k
        rw [demote_shift, add_shift]
      · exact add_shift k s t

theorem finish_shift (k : Nat) {s : State} (h : s.IsAhead) (whole : Mode) :
    ((s.shift k).finish whole).value = (s.finish whole).value.map (Token.shift k) := by
  show (((s.shift k).flush whole).frames.flatMap Frame.spill ++
    ((s.shift k).flush whole).outer).reverse = _
  rw [flush_shift k h]
  show (((s.flush whole).frames.map (Frame.shift k)).flatMap Frame.spill ++
    (s.flush whole).outer.map (Token.shift k)).reverse = _
  rw [flatMap_spill_shift, ← List.map_append, ← List.map_reverse]
  rfl

theorem accept_shift (k : Nat) {s : State} (h : s.IsAhead) (whole : Mode) (rule : Rule)
    (capture : Capture) (children : List Token) :
    (s.shift k).accept whole rule capture (children.map (Token.shift k)) =
      (s.accept whole rule capture children).shift k := by
  rw [accept, accept, flush_shift k h, show (s.shift k).offset = s.offset + k from rfl, build_shift,
    place_shift, advance_shift]

end State

/-! ## Lexing -/

theorem State.IsAhead.defer {s : State} (h : s.IsAhead) (c : Char) : (s.defer c).IsAhead := by
  unfold IsAhead at h ⊢
  simp only [State.defer, Text.width_cons]
  omega

theorem State.isAhead_accept (s : State) (whole : Mode) (rule : Rule) (capture : Capture)
    (children : List Token) : (s.accept whole rule capture children).IsAhead := by
  rw [IsAhead, pending_accept]
  exact Nat.zero_le _

/-- Lexing from a later offset gives the same tokens further on. -/
theorem lexFrom_shift (k : Nat) (whole : Mode) (s : State) (source : List Char) (h : s.IsAhead) :
    (lexFrom whole (s.shift k) source).value =
      (lexFrom whole s source).value.map (Token.shift k) := by
  induction hlength : source.length using Nat.strong_induction_on generalizing whole s source with
  | h n ih =>
    have hsituation := s.situation_shift k whole
    cases hfound : Rule.firstMatch (s.situation whole) source with
    | none =>
      match source with
      | [] =>
        rw [value_lexFrom_nil, value_lexFrom_nil]
        exact s.finish_shift k h whole
      | c :: cs =>
        rw [value_lexFrom_defer hfound, value_lexFrom_defer (hsituation ▸ hfound),
          s.defer_shift k c]
        exact ih cs.length (by simp [← hlength]) whole (s.defer c) cs (h.defer c) rfl
    | some found =>
      obtain ⟨rule, capture⟩ := found
      obtain ⟨hne, rest, rfl⟩ := Rule.text_of_firstMatch hfound
      have hrest : rest.length < n := by
        have := List.length_pos_of_ne_nil hne
        rw [← hlength, List.length_append]
        omega
      -- what the token holds starts further on by as much as the token
      have hchildren : childrenOf rule capture (s.offset + k) =
          (childrenOf rule capture s.offset).map (Token.shift k) := by
        unfold childrenOf
        split
        · rfl
        · rename_i i hi
          have hinside := Rule.inside_of_firstMatch hfound hi
          rw [← ih i.body.length (hlength ▸ hinside) _ _ i.body (Nat.zero_le _) rfl,
            Nat.add_right_comm]
          rfl
      rw [value_lexFrom_append hfound, value_lexFrom_append (hsituation ▸ hfound)]
      show (lexFrom whole
        (State.accept _ _ _ _ (childrenOf rule capture (s.offset + k))) _).value = _
      rw [hchildren, s.accept_shift k h]
      exact ih rest.length hrest whole _ rest (s.isAhead_accept whole rule capture _) rfl

/-- The tokens of a text at an offset are those of the text alone, shifted. -/
theorem lexFrom_offset (whole : Mode) (offset : Nat) (source : List Char) :
    (lexFrom whole { offset } source).value =
      (lexFrom whole { offset := 0 } source).value.map (Token.shift offset) := by
  rw [← lexFrom_shift offset whole { offset := 0 } source (Nat.zero_le _)]
  show _ = (lexFrom whole { offset := 0 + offset } source).value
  rw [Nat.zero_add]

/-! ## Merging texts -/

mutual

theorem mergeText_shift (k : Nat) : (t : Token) → mergeText (t.shift k) = (mergeText t).shift k
  | ⟨_, _, _, _, _, _, children, _, _⟩ => by
    rw [Token.shift, mergeText, mergeText, Token.shift, Token.shiftAll_eq, Token.shiftAll_eq,
      mergeAll_shift k children]

/-- Merging the texts of shifted tokens gives the merged tokens, shifted. -/
theorem mergeAll_shift (k : Nat) : (ts : List Token) →
    mergeAll (ts.map (Token.shift k)) = (mergeAll ts).map (Token.shift k)
  | [] => rfl
  | t :: ts => by
    rw [List.map_cons, mergeAll, mergeText_shift k t, mergeAll_shift k ts, mergeAll]
    cases mergeAll ts with
    | nil => rfl
    | cons u us =>
      simp only [List.map_cons, Token.kind_shift, Token.children_shift, List.isEmpty_map]
      split
      · simp only [List.map_cons, Token.shift_eq]
      · rfl

end

end Lexer

end StoryScript
