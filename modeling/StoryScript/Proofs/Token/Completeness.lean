/-
  Lexed tokens are complete.

  The name of a call is read twice: its opener looks ahead for it, and the rule for names reads it
  right after the opener. So the stack of a state is one of named calls (`NamedStack`), but for the
  moment between the two (`CallsNamed.opening`), when the name is the next match. Every step keeps
  this, and a call that is folded has its name as the first token inside.
-/
import Mathlib
import StoryScript.Proofs.Token.Details
import StoryScript.Proofs.Token.Grouping

namespace StoryScript

namespace Kind

/-- Calls are the only folds that ask for something, and only parentheses fold into them. -/
theorem asks_of_mem_folds {front back kind : Kind} (h : (front, kind) ∈ back.folds) :
    kind.asks = false ∨ (kind = .macroCall ∧ front = .macroFront ∧ back = .groupingBack) := by
  cases back <;> simp only [folds, List.mem_cons, List.not_mem_nil, or_false, Prod.mk.injEq] at h
  -- these two closers have two openers each, and all others one
  case groupingBack | hookBack => rcases h with ⟨rfl, rfl⟩ | ⟨rfl, rfl⟩ <;> decide
  all_goals obtain ⟨rfl, rfl⟩ := h; decide

end Kind

namespace Lexer

/-- A token that is complete, with all inside it. -/
def Complete (t : Token) : Prop :=
  ∀ u ∈ t.tokens, u.IsComplete

theorem complete_iff {t : Token} : Complete t ↔ t.IsComplete ∧ ∀ c ∈ t.children, Complete c :=
  Token.forall_mem_tokens

/-- A mark that is given up is complete. -/
theorem complete_demote {t : Token} (hbare : t.children = []) : Complete (demote t) := by
  have hchildren : (demote t).children = [] := by
    rw [← hbare]
    simp only [demote]
    split <;> rfl
  refine complete_iff.2 ⟨?_, by simp [hchildren]⟩
  simp only [demote]
  split
  · refine ⟨by simp, by simp, ?_, by simp, by simp⟩
    intro _
    exact ⟨_, by simp [Token.lexingErrors], rfl⟩
  · exact Token.isComplete_of_not_asks rfl

/-- The token of a rule is complete. -/
theorem isComplete_build {here : Situation} {source : List Char} {rule : Rule} {capture : Capture}
    {children : List Token} {start : Nat}
    (found : Rule.firstMatch here source = some (rule, capture))
    (held : ∀ i, capture.inside = some i →
      Lexes rule.scope.innerMode { offset := start + Text.width i.lead } i.body children) :
    (build rule capture start children).IsComplete := by
  obtain ⟨hrule, hmatch⟩ := Rule.of_firstMatch found
  refine ⟨operator_of_firstMatch found, colour_of_firstMatch found, message_of_firstMatch found, ?_, ?_⟩
  · intro hkind
    have htable : Rule.all.filter (fun rule => rule.kind = .macroName) = [Rule.nameRule] := rfl
    obtain rfl := rule_of_kind hrule hkind htable
    obtain ⟨called, isMethod, rest, hcalled, hname, hmethod, hinside⟩ :=
      Pattern.of_macroName (Rule.capture?_of_match? hmatch)
    cases isMethod with
    | false => exact .written hmethod hname
    | true =>
      -- a variable is lexed in its own right, and it is all that is there
      obtain ⟨name, rfl, hvariable⟩ := Pattern.variable_of_calledName hcalled
      obtain ⟨v, hchildren, hkind, hholds⟩ := (held _ hinside).of_variable hvariable
      refine .held hmethod hchildren hkind hholds ?_
      rw [show (build Rule.nameRule capture start children).name = capture.detail.name from rfl, hname,
        String.ofList_cons]
      rfl
  · intro hkind
    -- no rule gives a call: they come from folding only
    have hfolded := (rule_kinds hrule).2.1
    rw [show rule.kind = .macroCall from hkind] at hfolded
    cases hfolded

/-! ## The stack -/

/-- A frame whose tokens are complete; that of a call starts with the name of the call. -/
structure Frame.IsNamed (f : Frame) : Prop where
  bare : f.opener.children = []
  inside : ∀ t ∈ f.inside, Complete t
  name : f.opener.kind = .macroFront → ∃ name, f.inside.getLast? = some name ∧
    name.kind = .macroName ∧ name.name = f.opener.name

/-- The tokens outside every frame are complete, and the calls among the frames have names. -/
structure NamedStack (outer : List Token) (frames : List Frame) : Prop where
  outer : ∀ t ∈ outer, Complete t
  frames : ∀ f ∈ frames, f.IsNamed

theorem Frame.IsNamed.add {f : Frame} (h : f.IsNamed) {t : Token} (ht : Complete t) :
    Frame.IsNamed { f with inside := t :: f.inside } := by
  refine ⟨h.bare, List.forall_mem_cons.2 ⟨ht, h.inside⟩, ?_⟩
  intro hkind
  obtain ⟨name, hlast, hname⟩ := h.name hkind
  exact ⟨name, by simp [List.getLast?_cons, hlast], hname⟩

namespace NamedStack

variable {outer : List Token} {frames : List Frame}

/-- Frames that are given up leave complete tokens. -/
theorem spill (h : ∀ f ∈ frames, f.IsNamed) : ∀ t ∈ frames.flatMap Frame.spill, Complete t := by
  intro t ht
  simp only [List.mem_flatMap, Frame.spill, List.mem_append, List.mem_singleton] at ht
  obtain ⟨f, hf, ht | rfl⟩ := ht
  · exact (h f hf).inside t ht
  · exact complete_demote (h f hf).bare

theorem complete_all (h : NamedStack outer frames) :
    ∀ t ∈ (frames.flatMap Frame.spill ++ outer).reverse, Complete t := by
  intro t ht
  rw [List.mem_reverse, List.mem_append] at ht
  exact ht.elim (spill h.frames t) (h.outer t)

variable {s : State}

theorem add (h : NamedStack s.outer s.frames) {t : Token} (ht : Complete t) :
    NamedStack (s.add t).outer (s.add t).frames := by
  cases hframes : s.frames with
  | nil =>
    simp only [State.add, hframes]
    exact ⟨List.forall_mem_cons.2 ⟨ht, h.outer⟩, by simp⟩
  | cons f fs =>
    have hfs := h.frames
    rw [hframes] at hfs
    obtain ⟨hf, hfs⟩ := List.forall_mem_cons.1 hfs
    simp only [State.add, hframes]
    exact ⟨h.outer, List.forall_mem_cons.2 ⟨hf.add ht, hfs⟩⟩

theorem flush (h : NamedStack s.outer s.frames) (whole : Mode) :
    NamedStack (s.flush whole).outer (s.flush whole).frames := by
  rcases s.flush_cases whole with ⟨-, hflush⟩ | ⟨-, hflush⟩
  · rwa [hflush]
  · rw [hflush]
    refine add (s := { s with pending := [] }) h (complete_iff.2 ⟨?_, by simp [State.pendingText]⟩)
    exact Token.isComplete_of_not_asks rfl

/-- A closer folds with a frame into a complete token: a call has the name that its opener carried,
and the token of that name in front. -/
theorem fold {above : List Frame} {f : Frame} {kind : Kind} {t : Token}
    (habove : ∀ g ∈ above, g.IsNamed) (hf : f.IsNamed) (hkind : foldKind? t f.opener = some kind)
    (hname : t.kind = .groupingBack → t.name = none) : Complete (fold t above f kind) := by
  refine complete_iff.2 ⟨?_, complete_all ⟨hf.inside, habove⟩⟩
  rcases Kind.asks_of_mem_folds (mem_folds_of_foldKind? hkind) with hasks | ⟨rfl, hfront, hback⟩
  · exact Token.isComplete_of_not_asks hasks
  · refine ⟨by simp [Lexer.fold], by simp [Lexer.fold], by simp [Lexer.fold], by simp [Lexer.fold], ?_⟩
    intro _
    obtain ⟨name, hlast, hmacro, hsame⟩ := hf.name hfront
    -- frames above the call are given up behind its name
    have hfirst : (above.flatMap Frame.spill ++ f.inside).reverse.head? = some name := by
      rw [List.head?_reverse, List.getLast?_append, hlast, Option.some_or]
    obtain ⟨rest, hrest⟩ := List.head?_eq_some_iff.1 hfirst
    refine ⟨name, rest, hrest, hmacro, ?_⟩
    show name.name = (t.name <|> f.opener.name)
    rw [hname hback, hsame]
    rfl

/-- Placing a token keeps the calls named, unless it opens a call. -/
theorem place (h : NamedStack s.outer s.frames) {t : Token}
    (hbare : (t.isFront || t.kind.isCloser) = true → t.children = [])
    (hfront : t.isFront = true → t.kind ≠ .macroFront)
    (hname : t.kind = .groupingBack → t.name = none) (ht : Complete t) :
    NamedStack (s.place t).value.outer (s.place t).value.frames := by
  rcases s.place_cases t with ⟨above, f, below, kind, hframes, hkind, hplace⟩ | ⟨hopens, hplace⟩ |
    ⟨-, hback, hplace⟩ | ⟨-, -, hplace⟩
  · have hall := h.frames
    rw [hframes] at hall
    obtain ⟨habove, hfs⟩ := List.forall_mem_append.1 hall
    obtain ⟨hf, hbelow⟩ := List.forall_mem_cons.1 hfs
    rw [hplace]
    exact add (s := { s with frames := below }) ⟨h.outer, hbelow⟩ (fold habove hf hkind hname)
  · rw [hplace]
    refine ⟨h.outer, List.forall_mem_cons.2 ⟨?_, h.frames⟩⟩
    exact ⟨hbare (by simp [hopens]), by simp, fun hkind => absurd hkind (hfront hopens)⟩
  · rw [hplace]
    exact h.add (complete_demote (hbare (by simp [hback])))
  · rw [hplace]
    exact h.add ht

end NamedStack

/-! ## One step -/

namespace State

/-- The token of a rule that closes nothing opens a frame or stands for itself. -/
theorem accept_of_folds_eq_nil {rule : Rule} (h : rule.kind.folds = []) (s : State) (whole : Mode)
    (capture : Capture) (children : List Token) :
    s.accept whole rule capture children =
      (if rule.isFront then (s.flush whole).push (build rule capture s.offset children)
        else (s.flush whole).add (build rule capture s.offset children)).advance capture.text := by
  have hsplit : splitFrames? (build rule capture s.offset children) (s.flush whole).frames = none :=
    splitFrames?_eq_none h _
  have hback : (build rule capture s.offset children).kind.isCloser = false := by
    simp [build, Kind.isCloser, h]
  rw [accept, value_place_of_none hsplit, hback]
  rfl

/-- Where lexing is: every open call has its name, or the innermost call has just been opened and
its name is ahead. -/
inductive CallsNamed (s : State) (source : List Char) : Prop where
  | named (stack : NamedStack s.outer s.frames)
  | opening {opener : Token} {below : List Frame} {name after : List Char} {isMethod : Bool}
      (around : NamedStack s.outer below) (frames : s.frames = { opener } :: below)
      (pending : s.pending = []) (kind : opener.kind = .macroFront) (mode : opener.mode = .code)
      (bare : opener.children = []) (carries : opener.name = some (String.ofList name))
      (ahead : Pattern.calledName source = some ((name, isMethod), after))

namespace CallsNamed

variable {s : State} {whole : Mode}

/-- Right after the opener of a call its name is read. -/
theorem firstMatch_of_opening {opener : Token} {below : List Frame} {source name after : List Char}
    {isMethod : Bool} (frames : s.frames = { opener } :: below) (pending : s.pending = [])
    (kind : opener.kind = .macroFront) (mode : opener.mode = .code)
    (ahead : Pattern.calledName source = some ((name, isMethod), after)) :
    ∃ capture, Rule.firstMatch (s.situation whole) source = some (Rule.nameRule, capture) ∧
      capture.detail.name = some (String.ofList name) := by
  have hmode : (s.situation whole).mode = .code := by
    simp [situation, State.mode, frames, mode]
  have hlast : (s.situation whole).last = some .macroFront := by
    simp [situation, last, frames, pending, kind]
  exact ⟨_, Rule.firstMatch_of_calledName hmode hlast ahead, rfl⟩

theorem defer {c : Char} {cs : List Char} (h : s.CallsNamed (c :: cs))
    (unclaimed : Rule.firstMatch (s.situation whole) (c :: cs) = none) :
    (s.defer c).CallsNamed cs := by
  cases h with
  | named stack => exact .named stack
  | opening around frames pending kind mode bare carries ahead =>
    obtain ⟨capture, hfound, -⟩ := firstMatch_of_opening frames pending kind mode ahead
    rw [hfound] at unclaimed
    cases unclaimed

/-- A match where every open call has its name: it opens a call, or all calls keep their names. -/
theorem accept_named {rest : List Char} {rule : Rule} {capture : Capture} {children : List Token}
    (stack : NamedStack s.outer s.frames)
    (found : Rule.firstMatch (s.situation whole) (capture.text ++ rest) = some (rule, capture))
    (leaf : capture.inside = none → children = [])
    (complete : Complete (build rule capture s.offset children)) :
    (s.accept whole rule capture children).CallsNamed rest := by
  have hbare : (rule.isFront || rule.kind.isCloser) = true → children = [] :=
    fun hmark => (isMark_build 0 found leaf hmark).bare
  by_cases hkind : rule.kind = .macroFront
  · -- a call is opened, and the pattern has looked ahead for its name
    have htable : Rule.all.filter (fun rule => rule.kind = .macroFront) =
        [{ Rule.ofExpression .macroFront "(" Pattern.macroFront with isFront := true }] := rfl
    have hrule := rule_of_kind (Rule.of_firstMatch found).1 hkind htable
    have hfront : rule.isFront = true := by rw [hrule]
    obtain ⟨-, name, isMethod, after, hahead, hname⟩ := macroFront_of_firstMatch found rfl hkind
    rw [accept_of_folds_eq_nil (by rw [hkind]; rfl), if_pos hfront]
    refine .opening (stack.flush whole) rfl (s.pending_flush whole) hkind ?_
      (hbare (by simp [hfront])) hname hahead
    show rule.scope.innerMode = .code
    rw [hrule]
    rfl
  · refine .named ((stack.flush whole).place hbare (fun _ => hkind) ?_ complete)
    exact name_of_groupingBack found

theorem accept {rest : List Char} {rule : Rule} {capture : Capture} {children : List Token}
    (h : s.CallsNamed (capture.text ++ rest))
    (found : Rule.firstMatch (s.situation whole) (capture.text ++ rest) = some (rule, capture))
    (leaf : capture.inside = none → children = [])
    (complete : Complete (build rule capture s.offset children)) :
    (s.accept whole rule capture children).CallsNamed rest := by
  cases h with
  | named stack => exact accept_named stack found leaf complete
  | @opening opener below name after isMethod around frames pending kind mode bare carries ahead =>
    obtain ⟨capture', hfound, hname⟩ := firstMatch_of_opening frames pending kind mode ahead
    rw [hfound, Option.some.injEq, Prod.mk.injEq] at found
    obtain ⟨rfl, rfl⟩ := found
    -- the name is now the first token inside the call
    have hflush : s.flush whole = s := by simp [flush, pending]
    have hadd : s.add (build Rule.nameRule capture' s.offset children) =
        { s with frames :=
          ⟨opener, [build Rule.nameRule capture' s.offset children]⟩ :: below } := by
      simp [add, frames]
    have hfront : ¬ Rule.nameRule.isFront = true := Bool.false_ne_true
    rw [accept_of_folds_eq_nil rfl, hflush, if_neg hfront, hadd]
    refine .named ⟨around.outer, List.forall_mem_cons.2 ⟨⟨bare, ?_, ?_⟩, around.frames⟩⟩
    · exact List.forall_mem_singleton.2 complete
    intro _
    exact ⟨_, rfl, rfl, hname.trans carries.symm⟩

theorem finish (h : s.CallsNamed []) : ∀ t ∈ (s.finish whole).value, Complete t := by
  cases h with
  | named stack => exact (stack.flush whole).complete_all
  | opening around frames pending kind mode bare carries ahead =>
    -- the name is still to come, so the source cannot end here
    cases ahead

end CallsNamed

end State

/-- Lexing from a state whose calls are named gives complete tokens. -/
theorem Lexes.complete {whole : Mode} {s : State} {source : List Char} {tokens : List Token}
    (h : Lexes whole s source tokens) : s.CallsNamed source → ∀ t ∈ tokens, Complete t := by
  induction h with
  | finish =>
    intro hs
    exact hs.finish
  | defer unclaimed _ ih =>
    intro hs
    exact ih (hs.defer unclaimed)
  | @accept whole s source rest rule capture children tokens found split leaf held next ihHeld ih =>
    intro hs
    subst split
    have hchildren : ∀ c ∈ children, Complete c := by
      cases hi : capture.inside with
      | none => simp [leaf hi]
      | some i => exact ihHeld i hi (.named ⟨by simp, by simp⟩)
    exact ih (hs.accept found leaf (complete_iff.2 ⟨isComplete_build found held, hchildren⟩))

/-! ## Merging -/

/-- What is no text stays apart. -/
theorem mergeAll_cons_of_kind {t : Token} (hkind : t.kind ≠ .text) (ts : List Token) :
    mergeAll (t :: ts) = mergeText t :: mergeAll ts := by
  rcases mergeAll_cons t ts with ⟨u, us, -, hplain, -, -⟩ | ⟨-, h⟩
  · rw [mergeText_eq] at hplain
    exact absurd hplain.1 hkind
  · exact h

theorem isComplete_mergeText {t : Token} (h : t.IsComplete) : (mergeText t).IsComplete := by
  rw [mergeText_eq]
  refine ⟨h.operator, h.colour, h.error, ?_, ?_⟩
  · intro hkind
    cases h.name hkind with
    | written plain named => exact .written plain named
    | @held v name method only kind holds named =>
      have hmerged : mergeAll t.children = [mergeText v] := by
        rw [only, mergeAll_cons_of_kind (by simp [kind])]
        rfl
      refine .held method hmerged ?_ ?_ named
      · rw [mergeText_eq]
        exact kind
      · rw [mergeText_eq]
        exact holds
  · intro hkind
    obtain ⟨name, rest, hchildren, hname, hsame⟩ := h.call hkind
    refine ⟨mergeText name, mergeAll rest, ?_, ?_, ?_⟩
    · show mergeAll t.children = _
      rw [hchildren, mergeAll_cons_of_kind (by simp [hname])]
    · rw [mergeText_eq]
      exact hname
    · rw [mergeText_eq]
      exact hsame

theorem complete_mergeAll {ts : List Token} (h : ∀ t ∈ ts, Complete (mergeText t)) :
    ∀ t ∈ mergeAll ts, Complete t := by
  refine forall_mem_mergeAll ?_ h
  rintro t ⟨htext, hbare⟩
  exact complete_iff.2 ⟨Token.isComplete_of_not_asks (by rw [htext]; rfl), by simp [hbare]⟩

theorem complete_mergeText (t : Token) : Complete t → Complete (mergeText t) := by
  induction t using Token.tree_induction with
  | h t ih =>
    intro h
    obtain ⟨ht, hchildren⟩ := complete_iff.1 h
    refine complete_iff.2 ⟨isComplete_mergeText ht, ?_⟩
    rw [mergeText_eq]
    exact complete_mergeAll fun c hc => ih c hc (hchildren c hc)

end Lexer

/-- Every lexed token is complete. -/
theorem isComplete_lexIn (mode : Mode) (source : String) :
    ∀ t ∈ (Lexer.lexIn mode source).value.tokens, t.IsComplete := by
  have hlexed := (Lexer.lexes_lexFrom mode { offset := 0 } source.toList).complete
    (.named ⟨by simp, by simp⟩)
  refine Lexer.complete_iff.2 ⟨Token.isComplete_of_not_asks rfl, ?_⟩
  exact Lexer.complete_mergeAll fun t ht => Lexer.complete_mergeText t (hlexed t ht)

end StoryScript
