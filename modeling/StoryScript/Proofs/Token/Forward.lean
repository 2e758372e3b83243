/-
  Lexing forward.

  Where the first match is known, lexing goes on from a known state: a plain token is
  added, an opener starts a frame, and a closer that accepts the innermost opener
  folds its frame. `passed` is the state after a text that gave certain tokens, and
  texts in a row compose.
-/
import Mathlib
import StoryScript.Proofs.Token.Derivation

namespace StoryScript.Lexer

namespace State

/-! ## Adding tokens in a row -/

/-- Adds tokens in order. -/
def addAll (s : State) (ts : List Token) : State :=
  ts.foldl add s

/-- The state after a text that gave these tokens. -/
def passed (s : State) (text : List Char) (ts : List Token) : State :=
  (s.addAll ts).advance text

@[simp] theorem addAll_nil (s : State) : s.addAll [] = s := rfl

@[simp] theorem addAll_cons (s : State) (t : Token) (ts : List Token) :
    s.addAll (t :: ts) = (s.add t).addAll ts := rfl

theorem addAll_append (s : State) (ts us : List Token) :
    s.addAll (ts ++ us) = (s.addAll ts).addAll us :=
  List.foldl_append

theorem add_advance (s : State) (text : List Char) (t : Token) :
    (s.advance text).add t = (s.add t).advance text := by
  cases h : s.frames <;> simp [add, advance, h]

theorem addAll_advance (s : State) (text : List Char) (ts : List Token) :
    (s.advance text).addAll ts = (s.addAll ts).advance text := by
  induction ts generalizing s with
  | nil => rfl
  | cons t ts ih => rw [addAll_cons, add_advance, ih, addAll_cons]

theorem advance_advance (s : State) (a : List Char) {b : List Char} (hb : b ≠ []) :
    (s.advance a).advance b = s.advance (a ++ b) := by
  have hlast : (a ++ b).getLast? = b.getLast? := by
    rw [List.getLast?_append]
    cases h : b.getLast? with
    | none => exact absurd (List.getLast?_eq_none_iff.1 h) hb
    | some c => rfl
  simp [advance, hlast, Nat.add_assoc]

/-- Texts in a row give their tokens in a row. -/
theorem passed_passed (s : State) (a : List Char) {b : List Char} (hb : b ≠ []) (ts us : List Token) :
    (s.passed a ts).passed b us = s.passed (a ++ b) (ts ++ us) := by
  rw [passed, passed, passed, addAll_advance, ← addAll_append, advance_advance _ _ hb]

/-- Tokens go to the innermost frame. -/
theorem addAll_of_frames {s : State} {f : Frame} {fs : List Frame} (h : s.frames = f :: fs)
    (ts : List Token) :
    s.addAll ts = { s with frames := { f with inside := ts.reverse ++ f.inside } :: fs } := by
  induction ts generalizing s f with
  | nil => simp [← h]
  | cons t ts ih =>
    have hadd : (s.add t).frames = { f with inside := t :: f.inside } :: fs := by simp [add, h]
    rw [addAll_cons, ih hadd]
    simp [add, h]

/-- Without a frame, tokens go to the row outside. -/
theorem addAll_of_no_frames {s : State} (h : s.frames = []) (ts : List Token) :
    s.addAll ts = { s with outer := ts.reverse ++ s.outer } := by
  induction ts generalizing s with
  | nil => rfl
  | cons t ts ih =>
    have hadd : s.add t = { s with outer := t :: s.outer } := by simp [add, h]
    rw [addAll_cons, hadd, @ih { s with outer := t :: s.outer } h]
    simp

/-! ## States between tokens of code -/

/-- Between two tokens of code, where no call is just being opened. -/
structure IsReady (s : State) (whole : Mode) : Prop where
  pending : s.pending = []
  mode : s.mode whole = .code
  notText : s.last ≠ some .text
  notFront : s.last ≠ some .macroFront

theorem last_add {s : State} (h : s.pending = []) (t : Token) : (s.add t).last = some t.kind := by
  cases hf : s.frames <;> simp [add, last, h, hf]

theorem IsReady.add {s : State} {whole : Mode} (h : s.IsReady whole) {t : Token}
    (ht : t.kind ≠ .text ∧ t.kind ≠ .macroFront) : (s.add t).IsReady whole := by
  refine ⟨by rw [pending_add, h.pending], by rw [mode_add, h.mode], ?_, ?_⟩
  · rw [last_add h.pending, ne_eq, Option.some.injEq]
    exact ht.1
  · rw [last_add h.pending, ne_eq, Option.some.injEq]
    exact ht.2

theorem IsReady.passed {s : State} {whole : Mode} (h : s.IsReady whole) (text : List Char)
    {ts : List Token} (hts : ∀ t ∈ ts, t.kind ≠ .text ∧ t.kind ≠ .macroFront) :
    (s.passed text ts).IsReady whole := by
  have hall : (s.addAll ts).IsReady whole := by
    induction ts generalizing s with
    | nil => exact h
    | cons t ts ih =>
      exact ih (h.add (hts t List.mem_cons_self)) fun u hu => hts u (List.mem_cons_of_mem t hu)
  exact ⟨hall.pending, hall.mode, hall.notText, hall.notFront⟩

end State

/-! ## Steps -/

/-- The token of a match with nothing inside. -/
def leafOf (rule : Rule) (text : List Char) (detail : Detail) (start : Nat) : Token :=
  build rule ⟨text, detail, none⟩ start []

section

variable {whole : Mode} {s : State} {text rest : List Char} {rule : Rule} {detail : Detail}

/-- A match with nothing inside puts its token in place. -/
theorem value_lexFrom_leaf (hs : s.pending = [])
    (found : Rule.firstMatch (s.situation whole) (text ++ rest) = some (rule, ⟨text, detail, none⟩)) :
    (lexFrom whole s (text ++ rest)).value =
      (lexFrom whole ((s.place (leafOf rule text detail s.offset)).value.advance text) rest).value := by
  have hne : text ≠ [] := (Rule.text_of_firstMatch found).1
  obtain ⟨c, cs, rfl⟩ := List.exists_cons_of_ne_nil hne
  have hflush : s.flush whole = s := by simp [State.flush, hs]
  rw [List.cons_append] at found ⊢
  rw [value_lexFrom_accept found (by rw [List.cons_append]), State.accept, hflush]
  rfl

/-- A token that neither opens nor closes is added. -/
theorem value_lexFrom_plain (hs : s.pending = [])
    (found : Rule.firstMatch (s.situation whole) (text ++ rest) = some (rule, ⟨text, detail, none⟩))
    (hfront : rule.isFront = false) (hback : rule.kind.folds = []) :
    (lexFrom whole s (text ++ rest)).value =
      (lexFrom whole (s.passed text [leafOf rule text detail s.offset]) rest).value := by
  rw [value_lexFrom_leaf hs found]
  have hplace : (s.place (leafOf rule text detail s.offset)).value =
      s.add (leafOf rule text detail s.offset) := by
    rcases s.place_cases (leafOf rule text detail s.offset) with ⟨_, f, _, kind, -, hfold, -⟩ |
      ⟨hfront', -⟩ | ⟨-, hback', -⟩ | ⟨-, -, hplace⟩
    · have hmem : (f.opener.kind, kind) ∈ rule.kind.folds := mem_folds_of_foldKind? hfold
      simp [hback] at hmem
    · have : rule.isFront = true := hfront'
      simp [hfront] at this
    · have : rule.kind.isCloser = true := hback'
      simp [Kind.isCloser, hback] at this
    · exact hplace
  rw [hplace]
  rfl

/-- An opener that closes nothing starts a frame. -/
theorem value_lexFrom_open (hs : s.pending = [])
    (found : Rule.firstMatch (s.situation whole) (text ++ rest) = some (rule, ⟨text, detail, none⟩))
    (hfront : rule.isFront = true) (hback : rule.kind.folds = []) :
    (lexFrom whole s (text ++ rest)).value =
      (lexFrom whole ((s.push (leafOf rule text detail s.offset)).advance text) rest).value := by
  rw [value_lexFrom_leaf hs found]
  have hplace : (s.place (leafOf rule text detail s.offset)).value =
      s.push (leafOf rule text detail s.offset) := by
    rcases s.place_cases (leafOf rule text detail s.offset) with ⟨_, f, _, kind, -, hfold, -⟩ |
      ⟨-, hplace⟩ | ⟨hfront', -⟩ | ⟨hfront', -⟩
    · have hmem : (f.opener.kind, kind) ∈ rule.kind.folds := mem_folds_of_foldKind? hfold
      simp [hback] at hmem
    · exact hplace
    · have : rule.isFront = false := hfront'
      simp [hfront] at this
    · have : rule.isFront = false := hfront'
      simp [hfront] at this
  rw [hplace]

/-- A closer that accepts the innermost opener folds its frame. -/
theorem value_lexFrom_close (hs : s.pending = [])
    (found : Rule.firstMatch (s.situation whole) (text ++ rest) = some (rule, ⟨text, detail, none⟩))
    {f : Frame} {fs : List Frame} (hframes : s.frames = f :: fs) {kind : Kind}
    (hfold : foldKind? (leafOf rule text detail s.offset) f.opener = some kind) :
    (lexFrom whole s (text ++ rest)).value =
      (lexFrom whole (({ s with frames := fs }.add
        (fold (leafOf rule text detail s.offset) [] f kind)).advance text) rest).value := by
  rw [value_lexFrom_leaf hs found]
  simp [State.place, hframes, splitFrames?, hfold]

end

end StoryScript.Lexer
