/-
  Trees of prose.

  `Prose` says how code and prose nest in a tree: calls hold code, all else holds prose,
  and in a text that is lexed on its own a call may be left open. Then its parenthesis
  is the end of a text, and the name of the call and all that follows it there are code
  (`IsUnclosedCall`). Two laws follow by induction on such a tree: calls and groupings
  hold nothing but code, and the syntax of code is inside calls or behind the
  parenthesis of one that is left open. Joining texts keeps a tree one of prose.
-/
import StoryScript.Proofs.Token.Nesting

namespace StoryScript

/-! ## Kinds -/

namespace Kind

/-- The kinds of block and inline markup. -/
def isMarkup : Kind → Bool
  | lineBreak | horizontalRule | bulleted | numbered | heading | align | em | strong | bold | italic
  | del | sup | comment | scriptStyleTag | tag | url | link | hook | verbatim | collapsed
  | escapedLine | error => true
  | _ => false

/-- The kinds of the tokens that are legal in code only. -/
def isCodeOnly : Kind → Bool
  | whitespace | macroName | grouping | property | possessiveOperator | itsProperty | itsOperator
  | belongingItProperty | belongingItOperator | belongingProperty | belongingOperator | string
  | cssTime | colour | number | boolean | identifier | addition | subtraction | multiplication
  | division | inequality | augmentedAssign | is | isNot | isIn | contains | and | or | not | toWord
  | intoWord | whereWord | viaWord | withWord | makingWord | comma | spread => true
  | _ => false

/-- The kinds of the tokens whose contents are lexed as a text of their own. -/
def isWhole : Kind → Bool
  | root | bulleted | numbered | heading | link => true
  | _ => false

/-- The kinds that stand in prose and are no calls. -/
def isProse (kind : Kind) : Bool :=
  !kind.isCodeOnly && kind != .macroCall

theorem isMarkup_of_isCode {kind : Kind} (h : kind.isCode = true) : kind.isMarkup = false := by
  cases kind <;> simp_all [isCode, isMarkup]

theorem isProse_of_isWhole {kind : Kind} (h : kind.isWhole = true) : kind.isProse = true := by
  cases kind <;> simp_all [isWhole, isProse, isCodeOnly]

/-- Openers of markup fold into markup. -/
theorem isProse_of_mem_folds {front back kind : Kind} (h : (front, kind) ∈ back.folds)
    (hcall : front ≠ .macroFront) (hgrouping : front ≠ .groupingFront) : kind.isProse = true := by
  cases back <;> simp only [folds, List.mem_cons, List.not_mem_nil, or_false, Prod.mk.injEq] at h
  case groupingBack => rcases h with ⟨rfl, rfl⟩ | ⟨rfl, rfl⟩ <;> contradiction
  case hookBack => rcases h with ⟨rfl, rfl⟩ | ⟨rfl, rfl⟩ <;> rfl
  all_goals obtain ⟨rfl, rfl⟩ := h; rfl

end Kind

/-! ## Trees of prose -/

namespace Token

/-- The parenthesis and the name of a call that is never closed: the parenthesis is the end of a
text, and the name follows. -/
structure IsUnclosedCall (opener name : Token) : Prop where
  text : opener.kind = .text
  bare : opener.children = []
  paren : ∃ before, opener.text = before ++ "("
  name : name.kind = .macroName

/-- A tree that stands in prose. -/
inductive Prose : Token → Prop where
  /-- A call holds code. -/
  | call {t : Token} (kind : t.kind = .macroCall) (code : ∀ c ∈ t.children, Nested .code c) : Prose t
  /-- Anything else holds prose. -/
  | markup {t : Token} (kind : t.kind.isProse = true) (prose : ∀ c ∈ t.children, Prose c) : Prose t
  /-- In a text of its own a call may be opened that is never closed. -/
  | unclosed {t opener name : Token} {before after : List Token} (kind : t.kind.isWhole = true)
      (children : t.children = before ++ opener :: name :: after) (prose : ∀ c ∈ before, Prose c)
      (call : IsUnclosedCall opener name) (code : ∀ c ∈ name :: after, Nested .code c) : Prose t

/-- What lexing a text of prose gives: prose, and perhaps a call at the end that is never closed. -/
inductive ProseRow : List Token → Prop where
  | prose {ts : List Token} (prose : ∀ t ∈ ts, Prose t) : ProseRow ts
  | unclosed {opener name : Token} {before after : List Token} (prose : ∀ c ∈ before, Prose c)
      (call : IsUnclosedCall opener name) (code : ∀ c ∈ name :: after, Nested .code c) :
      ProseRow (before ++ opener :: name :: after)

/-- A row that starts with a call that is never closed. -/
theorem ProseRow.of_call {opener name : Token} {after : List Token}
    (call : IsUnclosedCall opener name) (code : ∀ c ∈ name :: after, Nested .code c) :
    ProseRow (opener :: name :: after) :=
  List.nil_append (opener :: name :: after) ▸ .unclosed (by simp) call code

namespace Prose

variable {t : Token}

/-- A text stands in prose. -/
theorem of_text (hkind : t.kind = .text) (hbare : t.children = []) : Prose t :=
  markup (by rw [hkind]; rfl) (by simp [hbare])

theorem of_row (hkind : t.kind.isWhole = true) (h : ProseRow t.children) : Prose t := by
  generalize hchildren : t.children = ts at h
  cases h with
  | prose prose => exact markup (Kind.isProse_of_isWhole hkind) (hchildren ▸ prose)
  | unclosed prose call code => exact unclosed hkind hchildren prose call code

end Prose

/-! ## Where code is -/

/-- A token of a tree that lies inside a call. -/
def InCall (tree u : Token) : Prop :=
  ∃ call ∈ tree.tokens, call.kind = .macroCall ∧ u ∈ tokensIn call.children

/-- A token of a tree that comes after the parenthesis of a call which its text never closes: it is
the name of that call, comes after the name, or lies inside one of these. -/
def AfterUnclosedCall (tree u : Token) : Prop :=
  ∃ whole ∈ tree.tokens, whole.kind.isWhole = true ∧
    ∃ before opener name after, whole.children = before ++ opener :: name :: after ∧
      IsUnclosedCall opener name ∧ u ∈ tokensIn (name :: after)

/-- A tree holds what the trees below it hold. -/
theorem mem_tokens_of_mem_children {t c u : Token} (hc : c ∈ t.children) (hu : u ∈ c.tokens) :
    u ∈ t.tokens :=
  mem_tokens.2 (.inr ⟨c, hc, hu⟩)

/-- A tree holds what lies below any of its tokens. -/
theorem mem_tokens_of_below {t u v : Token} (hu : u ∈ t.tokens) (hv : v ∈ tokensIn u.children) :
    v ∈ t.tokens := by
  induction t using tree_induction with
  | h t ih =>
    rcases mem_tokens.1 hu with rfl | ⟨c, hc, hu⟩
    · exact mem_tokens.2 (.inr (mem_tokensIn.1 hv))
    · exact mem_tokens_of_mem_children hc (ih c hc hu)

/-- The parenthesis of a call that is never closed holds nothing. -/
theorem IsUnclosedCall.eq_opener {opener name u : Token} (h : IsUnclosedCall opener name)
    (hu : u ∈ opener.tokens) : u = opener := by
  simpa [tokens_eq, h.bare, tokensIn] using hu

theorem InCall.of_child {t c u : Token} (hc : c ∈ t.children) (h : c.InCall u) : t.InCall u := by
  obtain ⟨call, hcall, hkind, hu⟩ := h
  exact ⟨call, mem_tokens_of_mem_children hc hcall, hkind, hu⟩

theorem AfterUnclosedCall.of_child {t c u : Token} (hc : c ∈ t.children)
    (h : c.AfterUnclosedCall u) : t.AfterUnclosedCall u := by
  obtain ⟨whole, hwhole, hall⟩ := h
  exact ⟨whole, mem_tokens_of_mem_children hc hwhole, hall⟩

namespace Prose

/-- In prose, calls and groupings hold code. -/
theorem isCode_below {t : Token} (h : Prose t) : ∀ u ∈ t.tokens,
    (u.kind = .macroCall ∨ u.kind = .grouping) → ∀ v ∈ tokensIn u.children,
      v.kind.isCode = true := by
  induction h with
  | @call t kind code =>
    intro u hu _ v hv
    rcases mem_tokens.1 hu with rfl | ⟨c, hc, hu⟩
    · obtain ⟨c, hc, hv⟩ := mem_tokensIn.1 hv
      exact ((code c hc).isCode v hv).kind
    · exact ((code c hc).isCode v (mem_tokens_of_below hu hv)).kind
  | @markup t kind _ ih =>
    intro u hu hcall
    rcases mem_tokens.1 hu with rfl | ⟨c, hc, hu⟩
    · rcases hcall with hcall | hcall <;> simp [hcall, Kind.isProse, Kind.isCodeOnly] at kind
    · exact ih c hc u hu hcall
  | @unclosed t opener name before after kind children _ call code ih =>
    intro u hu hcall v hv
    rcases mem_tokens.1 hu with rfl | ⟨c, hc, hu⟩
    · rcases hcall with hcall | hcall <;> simp [hcall, Kind.isWhole] at kind
    · -- before the call that is left open, at its parenthesis, or behind that
      rw [children, List.mem_append, List.mem_cons] at hc
      rcases hc with hc | rfl | hc
      · exact ih c hc u hu hcall v hv
      · rw [call.eq_opener hu, call.text] at hcall
        simp at hcall
      · exact ((code c hc).isCode v (mem_tokens_of_below hu hv)).kind

/-- In prose, the syntax of code is inside calls, or after the parenthesis of one that is never
closed. -/
theorem inCall_or_afterUnclosedCall {t : Token} (h : Prose t) : ∀ u ∈ t.tokens,
    u.kind.isCodeOnly = true → t.InCall u ∨ t.AfterUnclosedCall u := by
  induction h with
  | @call t kind code =>
    intro u hu honly
    rcases mem_tokens.1 hu with rfl | hbelow
    · simp [kind, Kind.isCodeOnly] at honly
    · exact .inl ⟨t, mem_tokens.2 (.inl rfl), kind, mem_tokensIn.2 hbelow⟩
  | @markup t kind _ ih =>
    intro u hu honly
    rcases mem_tokens.1 hu with rfl | ⟨c, hc, hu⟩
    · simp [Kind.isProse, honly] at kind
    · exact (ih c hc u hu honly).imp (.of_child hc) (.of_child hc)
  | @unclosed t opener name before after kind children _ call code ih =>
    intro u hu honly
    rcases mem_tokens.1 hu with rfl | ⟨c, hc, hu⟩
    · simpa [Kind.isProse, honly] using Kind.isProse_of_isWhole kind
    · have hchild := hc
      rw [children, List.mem_append, List.mem_cons] at hc
      rcases hc with hc | rfl | hc
      · exact (ih c hc u hu honly).imp (.of_child hchild) (.of_child hchild)
      · rw [call.eq_opener hu, call.text] at honly
        simp [Kind.isCodeOnly] at honly
      · exact .inr ⟨t, mem_tokens.2 (.inl rfl), kind, before, opener, name, after, children, call,
          mem_tokensIn.2 ⟨c, hc, hu⟩⟩

end Prose

end Token

namespace Lexer

open Token (Nested Prose ProseRow IsUnclosedCall)

/-! ## Joining texts -/

theorem proseRow_cons {t : Token} {ts : List Token} (ht : Prose t) (h : ProseRow ts) :
    ProseRow (t :: ts) := by
  cases h with
  | prose prose => exact .prose (List.forall_mem_cons.2 ⟨ht, prose⟩)
  | @unclosed opener name before after prose call code =>
    rw [← List.cons_append]
    exact .unclosed (List.forall_mem_cons.2 ⟨ht, prose⟩) call code

/-- The text that a row starts with may grow to the front. -/
theorem proseRow_join {t u : Token} {us : List Token} (ht : IsPlainText t)
    (h : ProseRow (u :: us)) :
    ProseRow ({ t with text := t.text ++ u.text, stop := u.stop } :: us) := by
  have hjoined : Prose { t with text := t.text ++ u.text, stop := u.stop } := .of_text ht.1 ht.2
  generalize hrow : u :: us = row at h
  cases h with
  | prose prose =>
    subst hrow
    exact proseRow_cons hjoined (.prose (List.forall_mem_cons.1 prose).2)
  | @unclosed opener name before after prose call code =>
    cases before with
    | nil =>
      -- the text is the one that ends in the parenthesis
      obtain ⟨rfl, rfl⟩ := List.cons.inj hrow
      obtain ⟨lead, hlead⟩ := call.paren
      refine .of_call ⟨ht.1, ht.2, ⟨t.text ++ lead, ?_⟩, call.name⟩ code
      rw [hlead, String.append_assoc]
    | cons b before =>
      obtain ⟨rfl, rfl⟩ := List.cons.inj hrow
      exact proseRow_cons hjoined (.unclosed (List.forall_mem_cons.1 prose).2 call code)

theorem proseRow_mergeAll_cons {t : Token} {ts : List Token} (ht : Prose (mergeText t))
    (h : ProseRow (mergeAll ts)) : ProseRow (mergeAll (t :: ts)) := by
  rcases mergeAll_cons t ts with ⟨u, us, hts, hplain, -, heq⟩ | ⟨-, heq⟩
  · have htext : (mergeText t).text = t.text := by rw [mergeText_eq]
    rw [heq, ← htext]
    exact proseRow_join hplain (hts ▸ h)
  · rw [heq]
    exact proseRow_cons ht h

/-- Joining texts leaves a call that is never closed where it is. -/
theorem proseRow_mergeAll_unclosed {opener name : Token} {before after : List Token}
    (prose : ∀ c ∈ before, Prose (mergeText c)) (call : IsUnclosedCall opener name)
    (code : ∀ c ∈ name :: after, Nested .code c) :
    ProseRow (mergeAll (before ++ opener :: name :: after)) := by
  -- along the tokens before the call, which may be joined up to its parenthesis
  induction before with
  | nil =>
    have hcode := nested_mergeAll code
    have hname : (mergeText name).kind = .macroName := by rw [mergeText_eq]; exact call.name
    -- the name is no text, so that it is joined neither with what follows nor with the parenthesis
    have hafter : mergeAll (name :: after) = mergeText name :: mergeAll after := by
      rcases mergeAll_cons name after with ⟨u, us, -, hplain, -⟩ | ⟨-, heq⟩
      · rw [hplain.1] at hname
        cases hname
      · exact heq
    rcases mergeAll_cons opener (name :: after) with ⟨u, us, hts, -, hplain, -⟩ | ⟨-, heq⟩
    · rw [hafter] at hts
      rw [← (List.cons.inj hts).1, IsPlainText, hname] at hplain
      cases hplain.1
    · rw [List.nil_append, heq, hafter]
      rw [hafter] at hcode
      refine .of_call ⟨?_, ?_, ?_, hname⟩ hcode
      · rw [mergeText_eq]
        exact call.text
      · rw [mergeText_eq]
        show mergeAll opener.children = []
        rw [call.bare, mergeAll]
      · rw [mergeText_eq]
        exact call.paren
  | cons b before ih =>
    obtain ⟨hb, hbefore⟩ := List.forall_mem_cons.1 prose
    exact proseRow_mergeAll_cons hb (ih hbefore)

theorem prose_mergeText {t : Token} (h : Prose t) : Prose (mergeText t) := by
  induction h with
  | call kind code =>
    rw [mergeText_eq]
    exact .call kind (nested_mergeAll code)
  | markup kind _ ih =>
    rw [mergeText_eq]
    exact .markup kind (forall_mem_mergeAll (fun _ hplain => .of_text hplain.1 hplain.2) ih)
  | unclosed kind children _ call code ih =>
    rw [mergeText_eq, children]
    exact .of_row kind (proseRow_mergeAll_unclosed ih call code)

theorem proseRow_mergeAll {ts : List Token} (h : ProseRow ts) : ProseRow (mergeAll ts) := by
  cases h with
  | prose prose =>
    exact .prose (forall_mem_mergeAll (fun _ hplain => .of_text hplain.1 hplain.2)
      fun t ht => prose_mergeText (prose t ht))
  | unclosed prose call code =>
    exact proseRow_mergeAll_unclosed (fun t ht => prose_mergeText (prose t ht)) call code

end Lexer

end StoryScript
