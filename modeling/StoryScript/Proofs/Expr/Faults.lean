/-
  Lexed tokens are never at fault.

  Compiling checks what each token carries: that a call starts with a name, that a sign has an
  operator, that a comparison compares. Each check has a message of its own, in case it fails.
  Complete tokens pass them all, and lexed tokens are complete. So whatever is wrong with code is
  in how its tokens are put together, and the messages of the checks never come up.
-/
import Mathlib
import StoryScript.Eval
import StoryScript.Proofs.Expr.Grouping
import StoryScript.Proofs.Expr.Leaves
import StoryScript.Proofs.Expr.Parts
import StoryScript.Proofs.Token.Completeness
import StoryScript.Proofs.Token.Prose

namespace StoryScript

/-! ## Messages -/

/-- How the messages end that find fault with what a token carries. -/
def tokenFaults : List String :=
  ["This macro call has no name.", "` isn't a macro name.", "` isn't an operator I know.",
   "` isn't a comparison."]

/-- A message that finds fault with what a token carries. -/
def BlamesToken (message : String) : Prop :=
  ∃ fault ∈ tokenFaults, fault.toList <:+ message.toList

instance : DecidablePred BlamesToken := fun message =>
  inferInstanceAs (Decidable (∃ fault ∈ tokenFaults, fault.toList <:+ message.toList))

/-- How a message ends says whether it finds fault with a token. -/
theorem not_blamesToken_append (front : String) {ending : String}
    (h : ∀ fault ∈ tokenFaults, ¬ fault.toList <:+ ending.toList ∧ ¬ ending.toList <:+ fault.toList) :
    ¬ BlamesToken (front ++ ending) := by
  rintro ⟨fault, hfault, hsuffix⟩
  have hending : ending.toList <:+ (front ++ ending).toList := by
    rw [String.toList_append]
    exact List.suffix_append _ _
  obtain ⟨h₁, h₂⟩ := h fault hfault
  -- of two endings of one text, one ends in the other
  rcases List.suffix_or_suffix_of_suffix hsuffix hending with h | h
  · exact h₁ h
  · exact h₂ h

/-! ## Faultless expressions -/

namespace Expr

/-- A part that no token is blamed for: no error about what a token carries, and no colour whose
code cannot be read. -/
def IsFaultless : Expr → Prop
  | error _ message => ¬ BlamesToken message
  | colour code => (Colour.ofHex? code).isSome = true
  | _ => True

/-- All parts of an expression are faultless. -/
def Faultless (e : Expr) : Prop :=
  ∀ p ∈ e.parts, p.IsFaultless

section

variable {e e' : Expr}

theorem faultless_reference {object : Place Expr} {property : Property Expr} {asRef : Bool}
    (hobject : ∀ p ∈ placeParts object, p.IsFaultless)
    (hproperty : ∀ p ∈ propertyParts property, p.IsFaultless) :
    (reference object property asRef).Faultless := by
  have href : (ref object property).Faultless := by
    rw [Faultless, parts, List.forall_mem_cons, List.forall_mem_append]
    exact ⟨trivial, hobject, hproperty⟩
  cases asRef with
  | true => exact href
  | false =>
    rw [Faultless, reference, if_neg Bool.false_ne_true, parts, List.forall_mem_cons]
    exact ⟨trivial, href⟩

theorem Faultless.binary (h : e.Faultless) (h' : e'.Faultless) (op : BinaryOp) :
    (binary e op e').Faultless := by
  rw [Faultless, parts, List.forall_mem_cons, List.forall_mem_append]
  exact ⟨trivial, h, h'⟩

theorem Faultless.assign (h : e.Faultless) (h' : e'.Faultless) (op : AssignOp) :
    (assign e e' op).Faultless := by
  rw [Faultless, parts, List.forall_mem_cons, List.forall_mem_append]
  exact ⟨trivial, h, h'⟩

theorem Faultless.not (h : e.Faultless) : (not e).Faultless := by
  rw [Faultless, parts, List.forall_mem_cons]
  exact ⟨trivial, h⟩

theorem Faultless.group (h : e.Faultless) : (group e).Faultless := by
  rw [Faultless, parts, List.forall_mem_cons]
  exact ⟨trivial, h⟩

theorem faultless_malformed {message : String} (h : ¬ BlamesToken message) :
    (error .malformed message).Faultless := by
  rw [Faultless, parts, List.forall_mem_singleton]
  exact h

end

theorem argsParts_map (args : List ArgumentRun) :
    argsParts (args.map (·.argument)) = args.flatMap fun a => (a.expr false).parts := by
  induction args with
  | nil => rfl
  | cons a args ih =>
    rw [List.map_cons, List.flatMap_cons, ← ih]
    cases hsign : a.sign <;> simp [ArgumentRun.argument, hsign, argsParts]

/-! ## What complete tokens compile to -/

open Precedence (append_of_divide)

/-- All tokens of a run are complete, with all inside them. -/
def CompleteRun (run : List Token) : Prop :=
  ∀ t ∈ run, Lexer.Complete t

theorem CompleteRun.subset {run part : List Token} (h : CompleteRun run) (hpart : part ⊆ run) :
    CompleteRun part :=
  fun t ht => h t (hpart ht)

theorem CompleteRun.split {left right : List Token} {op : Token}
    (h : CompleteRun (left ++ op :: right)) :
    CompleteRun left ∧ op.IsComplete ∧ CompleteRun right := by
  obtain ⟨hleft, hright⟩ := List.forall_mem_append.1 h
  obtain ⟨hop, hright⟩ := List.forall_mem_cons.1 hright
  exact ⟨hleft, (Lexer.complete_iff.1 hop).1, hright⟩

/-- What is inside a token of a run. -/
theorem CompleteRun.inside {t : Token} (h : CompleteRun [t]) : CompleteRun (significant t.children) := by
  have hchildren : CompleteRun t.children := (Lexer.complete_iff.1 (h t (List.mem_singleton_self t))).2
  exact hchildren.subset (List.filter_subset_self _)

/-- The name of a call is there, and white space does not hide it. -/
theorem significant_of_isComplete {t : Token} (h : t.IsComplete) (hkind : t.kind = .macroCall) :
    ∃ name rest, significant t.children = name :: rest ∧ name.kind = .macroName ∧
      name.name = t.name ∧ name ∈ t.children := by
  obtain ⟨name, rest, hchildren, hname, hsame⟩ := h.call hkind
  have hblank : name.isWhitespace = false := by simp [Token.isWhitespace, hname]
  refine ⟨name, significant rest, ?_, hname, hsame, by simp [hchildren]⟩
  simp [hchildren, significant, hblank]

theorem comparisonOp?_of_isComplete {op : Token} (h : op.IsComplete)
    (hkind : op.kind.isComparison = true) : ∃ operator, comparisonOp? op = some operator := by
  unfold comparisonOp?
  cases hk : op.kind
  case inequality => exact h.operator (by simp [hk])
  case is | isNot | contains | isIn => exact ⟨_, rfl⟩
  all_goals
    rw [hk] at hkind
    cases hkind

theorem faultless_comparison {lhs rhs : Expr} {op : Token} (hlhs : lhs.Faultless)
    (hrhs : rhs.Faultless) (hop : op.IsComplete) (hkind : op.kind.isComparison = true) :
    (comparison lhs op rhs).value.Faultless := by
  obtain ⟨operator, hoperator⟩ := comparisonOp?_of_isComplete hop hkind
  have htest := hlhs.binary hrhs operator
  simp only [comparison, hoperator, Noted.value_pure]
  cases op.negate with
  | true => exact htest.not
  | false => exact htest

/-- What is lent is a comparison of the run. -/
theorem of_lentComparison? {run : List Token} {lent : Token} (h : lentComparison? run = some lent) :
    lent ∈ run ∧ lent.kind.isComparison = true := by
  fun_induction lentComparison? run with
  | case1 => cases h
  | case2 run d hdivision hkind =>
    -- the run divides at a comparison
    obtain rfl := Option.some.inj h
    exact ⟨by simp [← append_of_divide hdivision], hkind⟩
  | case3 run d hdivision hkind hjoin ih =>
    -- it divides at `and` or `or`, whose left side lends
    obtain ⟨hmem, hcomparison⟩ := ih h
    refine ⟨?_, hcomparison⟩
    rw [← append_of_divide hdivision]
    exact List.mem_append_left _ hmem
  | case4 => cases h

theorem not_blamesToken_notCode {t : Token} (h : t.IsComplete) {message : String}
    (hvalue : (notCode t).value = .error .malformed message) : ¬ BlamesToken message := by
  unfold notCode at hvalue
  split at hvalue
  · -- an error of lexing has its own message
    rename_i hkind
    obtain ⟨text, htext, hmessage⟩ := h.error hkind
    rw [hmessage] at hvalue
    obtain rfl : text = message := (Expr.error.inj hvalue).2
    have hlexing : ∀ text ∈ Token.lexingErrors, ¬ BlamesToken text := by decide
    exact hlexing text htext
  · obtain rfl := (Expr.error.inj hvalue).2
    exact not_blamesToken_append _ (by decide)

theorem Complaint.not_blamesToken {run : List Token} {complaint : Noted Expr} {message : String}
    (h : Complaint run complaint) (hrun : CompleteRun run)
    (hvalue : complaint.value = .error .malformed message) : ¬ BlamesToken message := by
  have hcomplete : ∀ t ∈ run, t.IsComplete := fun t ht => (Lexer.complete_iff.1 (hrun t ht)).1
  cases h with
  | notCode mem => exact not_blamesToken_notCode (hcomplete _ mem) hvalue
  | missing | adjacent | needsVariable =>
    obtain rfl := (Expr.error.inj hvalue).2
    exact not_blamesToken_append _ (by decide)
  | comma | spread | gap =>
    obtain rfl := (Expr.error.inj hvalue).2
    decide
  | @noOperator op mem kind operator =>
    -- a sign has its operator
    have hkind : op.kind ∈ [.addition, .subtraction, .multiplication, .division, .inequality] :=
      List.mem_append_left [Kind.inequality] kind
    obtain ⟨_, hoperator⟩ := (hcomplete op mem).operator hkind
    rw [operator] at hoperator
    cases hoperator
  | noName mem kind children =>
    -- a call starts with its name
    obtain ⟨name, rest, hchildren, -⟩ := significant_of_isComplete (hcomplete _ mem) kind
    rw [children] at hchildren
    cases hchildren
  | notName mem kind children other =>
    obtain ⟨name, rest, hchildren, hname, -⟩ := significant_of_isComplete (hcomplete _ mem) kind
    rw [children] at hchildren
    obtain ⟨rfl, -⟩ := List.cons.inj hchildren
    exact absurd hname other

theorem faultless_ofLeaf {t : Token} (h : t.IsComplete) (asRef : Bool) :
    (ofLeaf t asRef).value.Faultless := by
  cases hk : t.kind
  case colour =>
    obtain ⟨code, hcode, hread⟩ := h.colour hk
    simpa [ofLeaf, hk, hcode, Faultless, parts, IsFaultless] using hread
  case number | cssTime | string | boolean | hookRef | link =>
    simp [ofLeaf, hk, Faultless, parts, calleeParts, argsParts, IsFaultless]
  case identifier =>
    simp only [ofLeaf, hk, Noted.value_pure]
    split <;> simp [Faultless, parts, IsFaultless]
  case storyVariable | tempVariable =>
    simp only [ofLeaf, hk]
    exact faultless_reference (by simp [placeParts]) (by simp [propertyParts])
  all_goals
    simp only [ofLeaf, hk]
    obtain ⟨message, hmessage⟩ : ∃ message, (notCode t).value = .error .malformed message := by
      rw [notCode]
      split <;> exact ⟨_, rfl⟩
    rw [hmessage]
    exact faultless_malformed (not_blamesToken_notCode h hmessage)

theorem faultless_leftOr {absent e : Expr} (habsent : absent.Faultless) (he : e.Faultless)
    (left : List Token) : (leftOr absent left e).Faultless := by
  unfold leftOr
  split
  · exact habsent
  · exact he

theorem faultless_lambda {left right : List Token} {op : Token} {e e' : Expr} {clause : Clause Expr}
    (he : e.Faultless) (he' : e'.Faultless) (hclause : StartsClause op right e' clause) :
    (lambda (subjectOf left e) clause).Faultless := by
  have hsubject : ∀ p ∈ subjectParts (subjectOf left e), p.IsFaultless := by
    unfold subjectOf
    split
    · simp [subjectParts]
    · split
      · simp [subjectParts]
      · exact he
    · exact he
  have hbody : ∀ p ∈ clauseParts clause, p.IsFaultless := by
    cases hclause with
    | whereBody | viaBody => exact he'
    | withName | makingName => simp [clauseParts]
  rw [Faultless, parts, List.forall_mem_cons, List.forall_mem_append]
  exact ⟨trivial, hsubject, hbody⟩

theorem faultless_call {name : Token} {e : Expr} {args : List ArgumentRun} (he : e.Faultless)
    (hargs : ∀ a ∈ args, (a.expr false).Faultless) :
    (call (calleeOf name e) (args.map (·.argument))).Faultless := by
  have hcallee : ∀ p ∈ calleeParts (calleeOf name e), p.IsFaultless := by
    unfold calleeOf
    split
    · exact he
    · simp [calleeParts]
  rw [Faultless, parts, List.forall_mem_cons, List.forall_mem_append, argsParts_map]
  refine ⟨trivial, hcallee, ?_⟩
  intro p hp
  obtain ⟨a, ha, hp⟩ := List.mem_flatMap.1 hp
  exact hargs a ha p hp

/-- Complete tokens compile to a faultless expression. -/
theorem Compiles.faultless {run : List Token} {e : Bool → Expr} (h : Compiles run e) :
    CompleteRun run → ∀ asRef, (e asRef).Faultless := by
  have hit : Expr.it.Faultless := by simp [Faultless, parts, IsFaultless]
  have hzero : (Expr.number 0).Faultless := by simp [Faultless, parts, IsFaultless]
  induction h with
  | empty => simp [Faultless, parts, IsFaultless]
  | malformed cause value =>
    intro hrun _
    exact faultless_malformed (cause.not_blamesToken hrun value)
  | @leaf t =>
    intro hrun asRef
    exact faultless_ofLeaf (Lexer.complete_iff.1 (hrun t (List.mem_singleton_self t))).1 asRef
  | group _ _ ih =>
    intro hrun asRef
    exact (ih hrun.inside asRef).group
  | @call t name rest e args kind children isName callee runs arguments ihCallee ihArgs =>
    intro hrun _
    have hinside := hrun.inside
    rw [children] at hinside
    obtain ⟨hname, hrest⟩ := List.forall_mem_cons.1 hinside
    have hnameRun : CompleteRun [name] := List.forall_mem_singleton.2 hname
    refine faultless_call (ihCallee hnameRun.inside false) ?_
    intro a ha
    -- the tokens of an argument stand between the commas
    have hmem : a.tokens ∈ segments rest := by
      rcases runs with hruns | hruns <;> rw [hruns] <;> simp [List.mem_map_of_mem ha]
    have htokens : CompleteRun a.tokens := CompleteRun.subset hrest (subset_of_mem_segments hmem)
    exact ihArgs a ha (htokens.subset (List.subset_append_right _ _)) false
  | assignTo _ _ _ ih ih' | augment _ _ _ ih ih' =>
    intro hrun _
    obtain ⟨hleft, -, hright⟩ := hrun.split
    exact (ih hleft true).assign (ih' hright false) _
  | assignInto _ _ _ ih ih' =>
    intro hrun _
    obtain ⟨hleft, -, hright⟩ := hrun.split
    exact (ih' hright true).assign (ih hleft false) _
  | lambda _ _ starts ih ih' =>
    intro hrun _
    obtain ⟨hleft, -, hright⟩ := hrun.split
    exact faultless_lambda (ih hleft false) (ih' hright false) starts
  | logic _ _ _ _ ih ih' =>
    intro hrun _
    obtain ⟨hleft, -, hright⟩ := hrun.split
    exact (ih hleft false).binary (ih' hright false) _
  | lendRight _ lends _ _ _ ih ih' =>
    intro hrun _
    obtain ⟨hleft, -, hright⟩ := hrun.split
    obtain ⟨hmem, hcomparison⟩ := of_lentComparison? lends
    have hlent := (Lexer.complete_iff.1 (hleft _ hmem)).1
    exact (ih hleft false).binary (faultless_comparison hit (ih' hright false) hlent hcomparison) _
  | lendLeft _ lends _ _ _ ih ih' =>
    intro hrun _
    obtain ⟨hleft, -, hright⟩ := hrun.split
    obtain ⟨hmem, hcomparison⟩ := of_lentComparison? lends
    have hlent := (Lexer.complete_iff.1 (hright _ hmem)).1
    exact (ih' hright false).binary (faultless_comparison hit (ih hleft false) hlent hcomparison) _
  | compare kind _ _ ih ih' =>
    intro hrun _
    obtain ⟨hleft, hop, hright⟩ := hrun.split
    exact faultless_comparison (faultless_leftOr hit (ih hleft false) _) (ih' hright false) hop kind
  | arithmetic _ _ _ _ ih ih' =>
    intro hrun _
    obtain ⟨hleft, -, hright⟩ := hrun.split
    exact (faultless_leftOr hzero (ih hleft false) _).binary (ih' hright false) _
  | @not right op _ _ _ ih =>
    intro hrun _
    exact (ih (hrun.subset (List.subset_cons_self op right)) false).not
  | @property left op _ _ _ ih =>
    intro hrun _
    have hleft := hrun.subset (List.subset_append_left left [op])
    exact faultless_reference (ih hleft true) (by simp [propertyParts])
  | @belongingProperty right op _ _ _ ih =>
    intro hrun _
    have hright := hrun.subset (List.subset_cons_self op right)
    exact faultless_reference (ih hright true) (by simp [propertyParts])
  | itsProperty =>
    intro _ _
    exact faultless_reference hit (by simp [propertyParts])
  | possessive _ _ _ ih ih' =>
    intro hrun _
    obtain ⟨hleft, -, hright⟩ := hrun.split
    exact faultless_reference (ih hleft true) (ih' hright false)
  | belonging _ _ _ ih ih' =>
    intro hrun _
    obtain ⟨hleft, -, hright⟩ := hrun.split
    exact faultless_reference (ih' hright true) (ih hleft false)
  | @its right op _ _ _ ih =>
    intro hrun _
    exact faultless_reference hit (ih (hrun.subset (List.subset_cons_self op right)) false)
  | @belongingIt left op _ _ _ ih =>
    intro hrun _
    exact faultless_reference hit (ih (hrun.subset (List.subset_append_left left [op])) false)

/-! ## Calls -/

/-- What a call with this name runs: the macro of the name, or the value of the one variable that the
name holds. -/
inductive CalledBy (name : Token) : Callee Expr → Prop where
  | named {word : String} (plain : name.isMethod = false) (carries : name.name = some word) :
      CalledBy name (.named word)
  | computed {v : Token} {word : String} (method : name.isMethod = true)
      (only : name.children = [v]) (kind : v.kind = .storyVariable) (holds : v.name = some word)
      (carries : name.name = some ("$" ++ word)) :
      CalledBy name (.computed (.get (.ref .story (.name word))))

theorem value_ofRun_storyVariable {v : Token} {word : String} (kind : v.kind = .storyVariable)
    (holds : v.name = some word) :
    (ofRun (significant [v]) false).value = .get (.ref .story (.name word)) := by
  have hblank : v.isWhitespace = false := by simp [Token.isWhitespace, kind]
  have hsignificant : significant [v] = [v] := by simp [significant, hblank]
  rw [hsignificant, ofRun_singleton (by rw [kind]; decide), ofOperand, kind]
  simp [ofLeaf, kind, nameOf, holds, reference]

/-- A complete call compiles to a call. -/
theorem compile_call {t name : Token} {rest : List Token} (hkind : t.kind = .macroCall)
    (hchildren : t.children = name :: rest) (hname : name.kind = .macroName)
    (hcalled : name.IsCallName) (asRef : Bool) :
    ∃ callee args, compile [t] asRef = .call callee args ∧ CalledBy name callee := by
  have hblank : t.isWhitespace = false := by simp [Token.isWhitespace, hkind]
  have hsignificant : significant t.children = name :: significant rest := by
    simp [hchildren, significant, Token.isWhitespace, hname]
  have hcompile : compile [t] asRef = (ofCall t).value := by
    rw [compile, ofTokens, show significant [t] = [t] by simp [significant, hblank],
      ofRun_singleton (by rw [hkind]; decide), ofOperand, hkind]
  rw [hcompile, ofCall_of_cons hsignificant]
  cases hcalled with
  | @written word plain carries =>
    refine ⟨.named word, (ofArguments (segments (significant rest))).value, ?_, .named plain carries⟩
    simp [hname, plain, nameOf, carries]
  | @held v word method only kind holds carries =>
    refine ⟨_, (ofArguments (segments (significant rest))).value, ?_,
      .computed method only kind holds carries⟩
    simp [hname, method, only, value_ofRun_storyVariable kind holds]

end Expr

/-! ## Lexed code -/

/-- Lexed tokens are never at fault. Every call starts with its name, a name that is called for its
value holds one variable, and the call compiles to a call of that name or value. Whatever lexed
tokens are compiled together, no error in the result blames what a token carries, and every colour
can be read. -/
theorem faultless_of_lexed (mode : Mode) (source : String) :
    (∀ t ∈ (Lexer.lexIn mode source).value.tokens, t.kind = .macroCall →
      ∃ name rest, t.children = name :: rest ∧ name.kind = .macroName ∧ name.name = t.name ∧
        ∀ asRef, ∃ callee args, compile [t] asRef = .call callee args ∧ Expr.CalledBy name callee) ∧
    (∀ t ∈ (Lexer.lexIn mode source).value.tokens, t.kind = .macroName → t.isMethod = true →
      ∃ v, t.children = [v] ∧ v.kind = .storyVariable) ∧
    ∀ ts, (∀ t ∈ ts, t ∈ (Lexer.lexIn mode source).value.tokens) → ∀ asRef,
      (∀ kind message, .error kind message ∈ (compile ts asRef).parts → ¬ BlamesToken message) ∧
      ∀ code, .colour code ∈ (compile ts asRef).parts → ∃ colour, Colour.ofHex? code = some colour ∧
        ∀ host, (Expr.colour code).eval host = pure (.colour colour) := by
  have hcomplete := isComplete_lexIn mode source
  refine ⟨?_, ?_, ?_⟩
  · intro t ht hkind
    obtain ⟨name, rest, hchildren, hname, hsame⟩ := (hcomplete t ht).call hkind
    have hmem : name ∈ (Lexer.lexIn mode source).value.tokens :=
      Token.mem_tokens_of_below ht (by simp [hchildren, Token.tokensIn, Token.tokens_eq])
    refine ⟨name, rest, hchildren, hname, hsame, fun asRef => ?_⟩
    exact Expr.compile_call hkind hchildren hname ((hcomplete name hmem).name hname) asRef
  · intro t ht hkind hmethod
    cases (hcomplete t ht).name hkind with
    | written plain => simp [hmethod] at plain
    | held _ only kind => exact ⟨_, only, kind⟩
  · intro ts hts asRef
    -- what is inside a lexed token is lexed too
    have hrun : Expr.CompleteRun (Expr.significant ts) := by
      intro t ht u hu
      have ht := hts t (List.mem_of_mem_filter ht)
      rw [Token.tokens_eq] at hu
      rcases List.mem_cons.1 hu with rfl | hu
      · exact hcomplete u ht
      · exact hcomplete u (Token.mem_tokens_of_below ht hu)
    have hfaultless : (compile ts asRef).Faultless := (Expr.compiles_ofRun _).faultless hrun asRef
    refine ⟨fun kind message hpart => hfaultless _ hpart, ?_⟩
    intro code hpart
    obtain ⟨colour, hcolour⟩ := Option.isSome_iff_exists.1 (hfaultless _ hpart)
    refine ⟨colour, hcolour, fun host => ?_⟩
    rw [Expr.eval, Expr.evalWith, hcolour]

/-- A call of a variable in markup, with a comparison that lacks its right side. -/
theorem faultless_of_lexed_method :
    ∃ t ∈ (Lexer.lexIn .markup "//($f: #09f < )//").value.tokens,
      t.kind = .macroCall ∧ t.name = some "$f" ∧
      (∃ name rest, t.children = name :: rest ∧ name.kind = .macroName ∧ name.name = t.name ∧
        ∀ asRef, ∃ callee args, compile [t] asRef = .call callee args ∧ Expr.CalledBy name callee) ∧
      ∀ kind message, .error kind message ∈ (compile [t] false).parts → ¬ BlamesToken message := by
  have hfound : ((Lexer.lexIn .markup "//($f: #09f < )//").value.tokens.any fun t =>
      t.kind = .macroCall && t.name = some "$f") = true := by
    decide +kernel
  obtain ⟨t, ht, hall⟩ := List.any_eq_true.1 hfound
  obtain ⟨hkind, hname⟩ := Bool.and_eq_true_iff.1 hall
  have hkind : t.kind = .macroCall := of_decide_eq_true hkind
  obtain ⟨hcall, -, hparts⟩ := faultless_of_lexed .markup "//($f: #09f < )//"
  have hts : ∀ u ∈ [t], u ∈ (Lexer.lexIn .markup "//($f: #09f < )//").value.tokens :=
    List.forall_mem_singleton.2 ht
  exact ⟨t, ht, hkind, of_decide_eq_true hname, hcall t ht hkind, (hparts [t] hts false).1⟩

end StoryScript
