/-
  Nothing is dropped.

  An expression without an error uses every operand that was written, and each once. The
  leaves of a token tree are its literals and names, and the leaves of an expression are
  the same things wherever they have gone: into arguments, lambda clauses, properties and
  callees. `Accounts` says that a run of tokens has certain leaves and is legible. By
  induction on the derivation, every run accounts for the leaves of what it compiles to.
-/
import Mathlib
import StoryScript.Proofs.Expr.Derivation
import StoryScript.Proofs.Literal.Reading
import StoryScript.Proofs.Token.Nesting

namespace StoryScript

/-- A literal or a name. -/
inductive Leaf where
  | string (value : String)
  | boolean (value : Bool)
  | colour (code : String)
  | hooks (name : String)
  | story (name : String)
  | temp (name : String)
  | property (name : String)
  /-- The name of a macro that is called. -/
  | call (name : String)
  deriving DecidableEq

/-! ## The leaves of tokens -/

namespace Token

/-- The literal or name that a token is. A string is what stands between the first and the last
character, without escapes. -/
def leaf? (t : Token) : Option Leaf :=
  match t.kind with
  | .string => some (.string (String.ofList (Text.unescape t.text.toList.tail.dropLast)))
  | .boolean => some (.boolean (Text.sameIgnoringCase t.text "true"))
  | .colour => some (.colour (t.colour.getD ""))
  | .hookRef => some (.hooks (t.name.getD ""))
  | .storyVariable => some (.story (t.name.getD ""))
  | .tempVariable => some (.temp (t.name.getD ""))
  | .property | .itsProperty | .belongingProperty | .belongingItProperty =>
    some (.property (t.name.getD ""))
  | .macroName => if t.isMethod then none else some (.call (t.name.getD ""))
  | _ => none

/-- The leaves of the trees in a row. -/
def leavesIn (ts : List Token) : Multiset Leaf :=
  ((tokensIn ts).filterMap leaf? : List Leaf)

/-- The leaves of a tree. -/
def leaves (t : Token) : Multiset Leaf :=
  (t.tokens.filterMap leaf? : List Leaf)

/-- The leaf that a token is by itself. -/
def ownLeaf (t : Token) : Multiset Leaf :=
  (t.leaf?.toList : List Leaf)

theorem leaves_eq (t : Token) : t.leaves = t.ownLeaf + leavesIn t.children := by
  rw [leaves, tokens_eq, ownLeaf, leavesIn, List.filterMap_cons]
  cases t.leaf? <;> simp

@[simp] theorem leavesIn_nil : leavesIn [] = 0 := rfl

@[simp] theorem leavesIn_cons (t : Token) (ts : List Token) :
    leavesIn (t :: ts) = t.leaves + leavesIn ts := by
  simp [leavesIn, leaves, tokensIn]

@[simp] theorem leavesIn_append (ts us : List Token) :
    leavesIn (ts ++ us) = leavesIn ts + leavesIn us := by
  simp [leavesIn, tokensIn_append]

end Token

/-! ## The leaves of an expression -/

namespace Expr

mutual

/-- The leaves of an expression. -/
def leaves : Expr → Multiset Leaf
  | string value => {.string value}
  | boolean value => {.boolean value}
  | colour code => {.colour code}
  | hooks name => {.hooks name}
  | ref .story property => propertyLeaves .story property
  | ref .temp property => propertyLeaves .temp property
  | ref (.of e) property => leaves e + propertyLeaves .property property
  | get e | not e | group e => leaves e
  | binary lhs _ rhs => leaves lhs + leaves rhs
  | assign dest src _ => leaves dest + leaves src
  | lambda subject clause => subjectLeaves subject + clauseLeaves clause
  | call callee args => calleeLeaves callee + argsLeaves args
  | empty | number _ | it | time | error .. => 0

/-- The leaves of a name, given what the name is of, or of the expression in its place. -/
def propertyLeaves : (String → Leaf) → Property Expr → Multiset Leaf
  | leaf, .name name => {leaf name}
  | _, .computed e => leaves e

/-- The leaves of the subject of a lambda clause. -/
def subjectLeaves : Subject Expr → Multiset Leaf
  | .implicit => 0
  | .param name => {.temp name}
  | .of e => leaves e

/-- The leaves of a lambda clause. -/
def clauseLeaves : Clause Expr → Multiset Leaf
  | .whereBody e | .viaBody e => leaves e
  | .withName name | .makingName name => {.temp name}

/-- The leaves of what a call runs. -/
def calleeLeaves : Callee Expr → Multiset Leaf
  | .named name => {.call name}
  | .computed e => leaves e

/-- The leaves of arguments. -/
def argsLeaves : List (Argument Expr) → Multiset Leaf
  | [] => 0
  | .value e :: args | .spread e :: args => leaves e + argsLeaves args

end

@[simp] theorem leaves_reference (object : Place Expr) (property : Property Expr) (asRef : Bool) :
    (reference object property asRef).leaves = (ref object property).leaves := by
  cases asRef <;> simp [reference, leaves]

@[simp] theorem firstError?_reference (object : Place Expr) (property : Property Expr) (asRef : Bool) :
    (reference object property asRef).firstError? = (ref object property).firstError? := by
  cases asRef <;> simp [reference, firstError?]

/-- A comparison without an error has the leaves of both sides. -/
theorem of_comparison {lhs rhs : Expr} {op : Token}
    (h : (comparison lhs op rhs).value.firstError? = none) :
    lhs.firstError? = none ∧ rhs.firstError? = none ∧
      (comparison lhs op rhs).value.leaves = lhs.leaves + rhs.leaves := by
  cases hop : comparisonOp? op with
  | none => simp [comparison, hop, malformed, firstError?] at h
  | some operator =>
    cases hnegate : op.negate <;> simp_all [comparison, firstError?, leaves]

/-! ## Runs of tokens -/

open Token (tokensIn leavesIn AllCode)

/-- A run of tokens has these leaves, and the texts in it are white space. -/
structure Accounts (run : List Token) (total : Multiset Leaf) : Prop where
  leaves : leavesIn run = total
  legible : ∀ t ∈ tokensIn run, t.kind = .text → t.isWhitespace = true

theorem accounts_nil : Accounts [] 0 :=
  ⟨rfl, by simp [tokensIn]⟩

theorem Accounts.append {left right : List Token} {l r : Multiset Leaf} (hleft : Accounts left l)
    (hright : Accounts right r) : Accounts (left ++ right) (l + r) := by
  refine ⟨?_, ?_⟩
  · rw [Token.leavesIn_append, hleft.leaves, hright.leaves]
  · rw [Token.tokensIn_append, List.forall_mem_append]
    exact ⟨hleft.legible, hright.legible⟩

theorem Accounts.split {left right : List Token} {total : Multiset Leaf}
    (h : Accounts (left ++ right) total) :
    ∃ l r, Accounts left l ∧ Accounts right r ∧ l + r = total := by
  have hlegible := h.legible
  rw [Token.tokensIn_append, List.forall_mem_append] at hlegible
  refine ⟨_, _, ⟨rfl, hlegible.1⟩, ⟨rfl, hlegible.2⟩, ?_⟩
  rw [← Token.leavesIn_append, h.leaves]

theorem accounts_singleton {t : Token} {total : Multiset Leaf} (hkind : t.kind ≠ .text)
    (h : Accounts t.children total) : Accounts [t] (t.ownLeaf + total) := by
  refine ⟨?_, ?_⟩
  · rw [Token.leavesIn_cons, Token.leaves_eq, h.leaves, Token.leavesIn_nil, add_zero]
  · rw [tokensIn, tokensIn, List.append_nil, Token.tokens_eq, List.forall_mem_cons]
    exact ⟨fun h => absurd h hkind, h.legible⟩

theorem children_of_isCode {t : Token} (ht : t.IsCode)
    (hkind : t.kind ∉ [.grouping, .macroCall, .macroName]) : t.children = [] := by
  by_contra hne
  rcases (ht.holds hne).2 with h | h | ⟨h, -⟩ <;> simp [h] at hkind

/-- A token of code that is not made of others accounts for what it is. -/
theorem accounts_bare {t : Token} {total : Multiset Leaf} (ht : t.IsCode)
    (hkind : t.kind ∉ [.text, .grouping, .macroCall, .macroName]) (htotal : t.ownLeaf = total) :
    Accounts [t] total := by
  rw [List.mem_cons, not_or] at hkind
  have h := accounts_singleton hkind.1 (children_of_isCode ht hkind.2 ▸ accounts_nil)
  rwa [add_zero, htotal] at h

theorem accounts_blank {t : Token} (ht : t.IsCode) (hblank : t.isWhitespace = true) :
    Accounts [t] 0 := by
  have hkind : t.kind = .whitespace ∨ t.kind = .lineBreak ∨ t.kind = .text := by
    unfold Token.isWhitespace at hblank
    split at hblank <;> simp_all
  have hchildren : t.children = [] := by
    refine children_of_isCode ht ?_
    rcases hkind with h | h | h <;> simp [h]
  refine ⟨?_, ?_⟩
  · rw [Token.leavesIn_cons, Token.leaves_eq, hchildren]
    rcases hkind with h | h | h <;> simp [Token.ownLeaf, Token.leaf?, h]
  · rw [tokensIn, tokensIn, List.append_nil, Token.tokens_eq, hchildren]
    simp [tokensIn, hblank]

theorem allCode_significant {ts : List Token} (h : AllCode ts) : AllCode (significant ts) :=
  h.subset (List.filter_subset_self ts)

/-- White space between the tokens has no leaves. -/
theorem Accounts.of_significant {ts : List Token} {total : Multiset Leaf}
    (h : Accounts (significant ts) total) (hcode : AllCode ts) : Accounts ts total := by
  induction ts generalizing total with
  | nil => exact h
  | cons t ts ih =>
    obtain ⟨ht, -, hts⟩ := Token.allCode_cons.1 hcode
    by_cases hblank : t.isWhitespace = true
    · have hrest : significant (t :: ts) = significant ts := by simp [significant, hblank]
      rw [hrest] at h
      have := (accounts_blank ht hblank).append (ih h hts)
      rwa [zero_add] at this
    · have hrest : significant (t :: ts) = [t] ++ significant ts := by simp [significant, hblank]
      rw [hrest] at h
      obtain ⟨l, r, hfirst, hothers, rfl⟩ := h.split
      exact hfirst.append (ih hothers hts)

/-- Commas between the runs have no leaves. -/
theorem accounts_of_segments {rest : List Token} (hcode : AllCode rest)
    {totals : List (Multiset Leaf)} (h : List.Forall₂ Accounts (segments rest) totals) :
    Accounts rest totals.sum := by
  induction rest generalizing totals with
  | nil =>
    rcases h with _ | ⟨hrun, _ | _⟩
    simpa using hrun
  | cons t ts ih =>
    obtain ⟨ht, -, hts⟩ := Token.allCode_cons.1 hcode
    rw [segments] at h
    split at h
    · -- nothing stands before the comma
      rename_i hcomma
      rcases h with _ | ⟨hrun, hruns⟩
      have hleaf : t.ownLeaf = 0 := by simp [Token.ownLeaf, Token.leaf?, hcomma]
      rw [List.sum_cons, ← hrun.leaves]
      exact (accounts_bare ht (by simp [hcomma]) hleaf).append (ih hts hruns)
    · cases hsegments : segments ts with
      | nil =>
        rw [hsegments] at h
        rcases h with _ | ⟨hrun, _ | _⟩
        have hnil : List.Forall₂ Accounts (segments ts) [] := by
          rw [hsegments]
          exact .nil
        simpa using hrun.append (ih hts hnil)
      | cons run runs =>
        -- the token and the run after it are one run
        rw [hsegments] at h
        rcases h with _ | ⟨hrun, hruns⟩
        obtain ⟨l, r, hfirst, hothers, rfl⟩ := @Accounts.split [t] run _ hrun
        have hrest := ih hts (hsegments ▸ List.Forall₂.cons hothers hruns)
        have h := hfirst.append hrest
        rw [List.sum_cons] at h ⊢
        rwa [add_assoc]

theorem subset_of_mem_segments {run rest : List Token} (h : run ∈ segments rest) : run ⊆ rest := by
  fun_induction segments rest generalizing run with
  | case1 => simp_all
  | case2 t ts hcomma ih =>
    rcases List.mem_cons.1 h with rfl | h
    · simp
    · exact List.Subset.trans (ih h) (List.subset_cons_self t ts)
  | case3 t ts hcomma hsegments ih =>
    rw [List.mem_singleton.1 h]
    simp
  | case4 t ts hcomma first runs hsegments ih =>
    rw [hsegments] at ih
    rcases List.mem_cons.1 h with rfl | h
    · exact List.cons_subset_cons t (ih List.mem_cons_self)
    · exact List.Subset.trans (ih (List.mem_cons_of_mem _ h)) (List.subset_cons_self t ts)

/-! ## Leaves -/

/-- Between one-byte quotes stands all but the first and the last character. -/
theorem stringBody_quoted {quote : Char} (body : List Char) (hquote : quote.utf8Size = 1) :
    stringBody (quote :: (body ++ [quote])) = body := by
  simp [stringBody, hquote]

theorem firstError?_notCode (t : Token) : (notCode t).value.firstError? ≠ none := by
  unfold notCode
  split <;> simp [malformed, firstError?]

theorem accounts_leaf {t : Token} (ht : t.IsCode) {asRef : Bool}
    (h : (ofLeaf t asRef).value.firstError? = none) :
    Accounts [t] (ofLeaf t asRef).value.leaves := by
  cases hk : t.kind
  case number | cssTime =>
    refine accounts_bare ht (by simp [hk]) ?_
    simp [Token.ownLeaf, Token.leaf?, ofLeaf, hk, leaves]
  case string =>
    obtain ⟨quote, body, htext, hquote⟩ := ht.quoted hk
    refine accounts_bare ht (by simp [hk]) ?_
    simp [Token.ownLeaf, Token.leaf?, ofLeaf, hk, leaves, htext, stringBody_quoted body hquote]
  case boolean | colour | hookRef | storyVariable | tempVariable =>
    refine accounts_bare ht (by simp [hk]) ?_
    simp [Token.ownLeaf, Token.leaf?, ofLeaf, hk, leaves, propertyLeaves, nameOf]
  case identifier =>
    refine accounts_bare ht (by simp [hk]) ?_
    simp only [Token.ownLeaf, Token.leaf?, ofLeaf, hk, Noted.value_pure]
    split <;> rfl
  case link =>
    -- links are markup
    have hcode := ht.kind
    rw [hk] at hcode
    simp [Kind.isCode] at hcode
  -- no other token is an operand by itself, so there is an error
  all_goals
    simp only [ofLeaf, hk] at h
    exact absurd h (firstError?_notCode t)

theorem accounts_leftOr {left : List Token} {absent e : Expr} (habsent : absent.leaves = 0)
    (ih : e.firstError? = none → Accounts left e.leaves)
    (h : (leftOr absent left e).firstError? = none) :
    Accounts left (leftOr absent left e).leaves := by
  rcases left with _ | ⟨t, ts⟩
  · simpa [leftOr, habsent] using accounts_nil
  · exact ih h

theorem accounts_temp {t : Token} (hcode : AllCode [t]) (hkind : t.kind = .tempVariable) :
    Accounts [t] {.temp (nameOf t)} := by
  refine accounts_bare (Token.allCode_cons.1 hcode).1 (by simp [hkind]) ?_
  simp [Token.ownLeaf, Token.leaf?, hkind, nameOf]

theorem accounts_subjectOf {left : List Token} {e : Expr} (hcode : AllCode left)
    (ih : e.firstError? = none → Accounts left e.leaves)
    (h : firstErrorInSubject? (subjectOf left e) = none) :
    Accounts left (subjectLeaves (subjectOf left e)) := by
  rcases left with _ | ⟨t, _ | ⟨u, ts⟩⟩
  · exact accounts_nil
  · by_cases ht : t.kind = .tempVariable
    · simp only [subjectOf, ht, if_true]
      exact accounts_temp hcode ht
    · simp only [subjectOf, ht, if_false] at h ⊢
      exact ih h
  · exact ih h

theorem accounts_clause {op : Token} {right : List Token} {e : Expr} {clause : Clause Expr}
    (hclause : StartsClause op right e clause) (hcode : AllCode right)
    (ih : e.firstError? = none → Accounts right e.leaves)
    (h : firstErrorInClause? clause = none) : Accounts right (clauseLeaves clause) := by
  cases hclause with
  | whereBody | viaBody => exact ih h
  | withName _ hname | makingName _ hname => exact accounts_temp hcode hname

/-! ## Operators -/

/-- An operator accounts for both sides and for its own name, if it has one. -/
theorem accounts_operator (left right : List Token) {op : Token} {l r total : Multiset Leaf}
    (hcode : AllCode (left ++ op :: right))
    (hkind : op.kind ∉ [.text, .grouping, .macroCall, .macroName])
    (hleft : AllCode left → Accounts left l) (hright : AllCode right → Accounts right r)
    (htotal : l + (op.ownLeaf + r) = total) : Accounts (left ++ op :: right) total := by
  obtain ⟨hcodeLeft, hcodeOp⟩ := Token.allCode_append.1 hcode
  obtain ⟨hcodeOp, -, hcodeRight⟩ := Token.allCode_cons.1 hcodeOp
  have hop := accounts_bare hcodeOp hkind rfl
  rw [← htotal]
  exact (hleft hcodeLeft).append (hop.append (hright hcodeRight))

/-- The operators that carry no name. -/
def isNameless (op : Token) : Bool :=
  match op.kind with
  | .toWord | .intoWord | .augmentedAssign | .whereWord | .viaWord | .withWord | .makingWord | .and
  | .or | .is | .isNot | .contains | .isIn | .inequality | .addition | .subtraction
  | .multiplication | .division | .not | .possessiveOperator | .belongingOperator | .itsOperator
  | .belongingItOperator | .comma | .spread => true
  | _ => false

theorem accounts_nameless (left right : List Token) {op : Token} {l r total : Multiset Leaf}
    (hcode : AllCode (left ++ op :: right)) (hop : isNameless op = true)
    (hleft : AllCode left → Accounts left l) (hright : AllCode right → Accounts right r)
    (htotal : l + r = total) : Accounts (left ++ op :: right) total := by
  have hleaf : op.ownLeaf = 0 := by
    unfold isNameless at hop
    split at hop <;> simp_all [Token.ownLeaf, Token.leaf?]
  refine accounts_operator left right hcode ?_ hleft hright (by rw [hleaf, zero_add, htotal])
  simp only [List.mem_cons, List.not_mem_nil, or_false, not_or]
  refine ⟨?_, ?_, ?_, ?_⟩ <;> intro hkind <;> simp [isNameless, hkind] at hop

/-! ## Calls -/

theorem firstErrorInArgs?_cons (a : ArgumentRun) (args : List (Argument Expr)) :
    firstErrorInArgs? (a.argument :: args) =
      ((a.expr false).firstError? <|> firstErrorInArgs? args) := by
  cases hsign : a.sign <;> simp [ArgumentRun.argument, hsign, firstErrorInArgs?]

theorem argsLeaves_cons (a : ArgumentRun) (args : List (Argument Expr)) :
    argsLeaves (a.argument :: args) = (a.expr false).leaves + argsLeaves args := by
  cases hsign : a.sign <;> simp [ArgumentRun.argument, hsign, argsLeaves]

theorem firstError?_of_mem_args {args : List ArgumentRun}
    (h : firstErrorInArgs? (args.map (·.argument)) = none) :
    ∀ a ∈ args, (a.expr false).firstError? = none := by
  induction args with
  | nil => simp
  | cons a args ih =>
    rw [List.map_cons, firstErrorInArgs?_cons] at h
    obtain ⟨ha, hargs⟩ := (Option.orElse_eq_none _ _).1 h
    exact List.forall_mem_cons.2 ⟨ha, ih hargs⟩

theorem argsLeaves_map (args : List ArgumentRun) :
    argsLeaves (args.map (·.argument)) = (args.map fun a => (a.expr false).leaves).sum := by
  induction args with
  | nil => rfl
  | cons a args ih => rw [List.map_cons, argsLeaves_cons, ih, List.map_cons, List.sum_cons]

/-- A spread sign in front of a run has no leaves. -/
theorem ArgumentRun.accounts {a : ArgumentRun} {total : Multiset Leaf} (hcode : AllCode a.tokens)
    (h : Accounts a.run total) : Accounts a.tokens total := by
  cases hsign : a.sign with
  | none => simpa [tokens, hsign] using h
  | some t =>
    have hspread := a.isSpread t hsign
    have htokens : a.tokens = [] ++ t :: a.run := by simp [tokens, hsign]
    rw [htokens] at hcode ⊢
    refine accounts_operator [] a.run hcode (by simp [hspread]) (fun _ => accounts_nil)
      (fun _ => h) ?_
    simp [Token.ownLeaf, Token.leaf?, hspread]

theorem accounts_arguments {rest : List Token} {args : List ArgumentRun} (hcode : AllCode rest)
    (hruns : segments rest = args.map (·.tokens) ∨ segments rest = args.map (·.tokens) ++ [[]])
    (ih : ∀ a ∈ args, AllCode a.run → (a.expr false).firstError? = none →
      Accounts a.run (a.expr false).leaves)
    (h : firstErrorInArgs? (args.map (·.argument)) = none) :
    Accounts rest (argsLeaves (args.map (·.argument))) := by
  have hargs : ∀ a ∈ args, Accounts a.tokens (a.expr false).leaves := by
    intro a ha
    have hmem : a.tokens ∈ segments rest := by
      rcases hruns with hruns | hruns <;> rw [hruns] <;> simp [List.mem_map_of_mem ha]
    have hcodeTokens := hcode.subset (subset_of_mem_segments hmem)
    have hcodeRun := (Token.allCode_append.1 hcodeTokens).2
    exact ArgumentRun.accounts hcodeTokens (ih a ha hcodeRun (firstError?_of_mem_args h a ha))
  have hforall : List.Forall₂ Accounts (args.map (·.tokens))
      (args.map fun a => (a.expr false).leaves) := by
    rw [List.forall₂_map_left_iff, List.forall₂_map_right_iff, List.forall₂_same]
    exact hargs
  rw [argsLeaves_map]
  rcases hruns with hruns | hruns
  · exact accounts_of_segments hcode (hruns ▸ hforall)
  · -- an empty last run is no argument
    have hlast : List.Forall₂ Accounts (segments rest)
        ((args.map fun a => (a.expr false).leaves) ++ [0]) := by
      rw [hruns]
      exact List.rel_append hforall (.cons accounts_nil .nil)
    simpa using accounts_of_segments hcode hlast

/-- The name of a call accounts for what the call runs. -/
theorem accounts_callee {name : Token} {e : Expr} (hkind : name.kind = .macroName)
    (hname : name.IsCode) (hcode : AllCode name.children)
    (ih : AllCode (significant name.children) → e.firstError? = none →
      Accounts (significant name.children) e.leaves)
    (h : firstErrorInCallee? (calleeOf name e) = none) :
    Accounts [name] (calleeLeaves (calleeOf name e)) := by
  have htext : name.kind ≠ .text := by simp [hkind]
  cases hmethod : name.isMethod with
  | true =>
    simp only [calleeOf, hmethod, if_true] at h ⊢
    have hleaf : name.ownLeaf = 0 := by simp [Token.ownLeaf, Token.leaf?, hkind, hmethod]
    have hchildren := (ih (allCode_significant hcode) h).of_significant hcode
    have h := accounts_singleton htext hchildren
    rwa [hleaf, zero_add] at h
  | false =>
    -- a plain name holds nothing
    have hchildren : name.children = [] := by
      by_contra hne
      rcases (hname.holds hne).2 with h | h | ⟨-, h⟩ <;> simp_all
    have hleaf : name.ownLeaf = {.call (nameOf name)} := by
      simp [Token.ownLeaf, Token.leaf?, hkind, hmethod, nameOf]
    have h := accounts_singleton htext (hchildren ▸ accounts_nil)
    rw [hleaf, add_zero] at h
    simpa [calleeOf, hmethod, calleeLeaves] using h

/-- Parentheses account for what stands between them. -/
theorem accounts_folded {t : Token} {total : Multiset Leaf}
    (hkind : t.kind = .grouping ∨ t.kind = .macroCall) (hcode : AllCode t.children)
    (h : Accounts (significant t.children) total) : Accounts [t] total := by
  have htext : t.kind ≠ .text := by rcases hkind with h | h <;> simp [h]
  have hleaf : t.ownLeaf = 0 := by rcases hkind with h | h <;> simp [Token.ownLeaf, Token.leaf?, h]
  have h := accounts_singleton htext (h.of_significant hcode)
  rwa [hleaf, zero_add] at h

/-! ## Every form -/

/-- A run accounts for the leaves of what it compiles to, unless there is an error in that. -/
theorem Compiles.accounts {run : List Token} {e : Bool → Expr} (h : Compiles run e) :
    AllCode run → ∀ asRef, (e asRef).firstError? = none → Accounts run (e asRef).leaves := by
  induction h with
  | empty => exact fun _ _ _ => accounts_nil
  | malformed => simp [firstError?]
  | leaf =>
    intro hcode asRef h
    exact accounts_leaf (Token.allCode_cons.1 hcode).1 h
  | @group t e kind inner ih =>
    intro hcode asRef h
    have hchildren := (Token.allCode_cons.1 hcode).2.1
    have hinner := ih (allCode_significant hchildren) asRef h
    exact accounts_folded (.inl kind) hchildren hinner
  | @call t name rest e args kind children isName callee runs arguments ihCallee ihArgs =>
    intro hcode _ h
    obtain ⟨hcallee, hargs⟩ := (Option.orElse_eq_none _ _).1 h
    have hchildren := (Token.allCode_cons.1 hcode).2.1
    have hinside := allCode_significant hchildren
    rw [children] at hinside
    obtain ⟨hname, hcodeName, hcodeRest⟩ := Token.allCode_cons.1 hinside
    have hfirst := accounts_callee isName hname hcodeName (fun hc => ihCallee hc false) hcallee
    have hothers := accounts_arguments hcodeRest runs (fun a ha hc => ihArgs a ha hc false) hargs
    refine accounts_folded (.inr kind) hchildren ?_
    rw [children]
    exact hfirst.append hothers
  | @assignTo left right op e e' kind dest src ihDest ihSrc
  | @augment left right op e e' kind dest src ihDest ihSrc =>
    intro hcode _ h
    obtain ⟨hdest, hsrc⟩ := (Option.orElse_eq_none _ _).1 h
    exact accounts_nameless left right hcode (by simp [isNameless, kind])
      (fun hc => ihDest hc true hdest) (fun hc => ihSrc hc false hsrc) rfl
  | @assignInto left right op e e' kind src dest ihSrc ihDest =>
    -- the destination is written last and compiled first
    intro hcode _ h
    obtain ⟨hdest, hsrc⟩ := (Option.orElse_eq_none _ _).1 h
    exact accounts_nameless left right hcode (by simp [isNameless, kind])
      (fun hc => ihSrc hc false hsrc) (fun hc => ihDest hc true hdest) (add_comm _ _)
  | @lambda left right op e e' clause subject body starts ihSubject ihBody =>
    intro hcode _ h
    obtain ⟨hsubject, hclause⟩ := (Option.orElse_eq_none _ _).1 h
    refine accounts_nameless left right hcode ?_
      (fun hc => accounts_subjectOf hc (ihSubject hc false) hsubject)
      (fun hc => accounts_clause starts hc (ihBody hc false) hclause) rfl
    cases starts <;> simp [isNameless, *]
  | @logic left right op e e' kind same lhs rhs ihLhs ihRhs =>
    intro hcode _ h
    obtain ⟨hlhs, hrhs⟩ := (Option.orElse_eq_none _ _).1 h
    refine accounts_nameless left right hcode ?_
      (fun hc => ihLhs hc false hlhs) (fun hc => ihRhs hc false hrhs) rfl
    rcases kind with kind | kind <;> simp [isNameless, kind]
  | @lendRight left right op lent e e' kind lends borrows lhs bare ihLhs ihBare =>
    intro hcode _ h
    obtain ⟨hlhs, hcomparison⟩ := (Option.orElse_eq_none _ _).1 h
    obtain ⟨-, hbare, hleaves⟩ := of_comparison hcomparison
    refine accounts_nameless left right hcode ?_
      (fun hc => ihLhs hc false hlhs) (fun hc => ihBare hc false hbare) ?_
    · rcases kind with kind | kind <;> simp [isNameless, kind]
    · simp [leaves, hleaves]
  | @lendLeft left right op lent e e' kind lends borrows bare rhs ihBare ihRhs =>
    -- the bare side changes places with the comparison that lends to it
    intro hcode _ h
    obtain ⟨hrhs, hcomparison⟩ := (Option.orElse_eq_none _ _).1 h
    obtain ⟨-, hbare, hleaves⟩ := of_comparison hcomparison
    refine accounts_nameless left right hcode ?_
      (fun hc => ihBare hc false hbare) (fun hc => ihRhs hc false hrhs) ?_
    · rcases kind with kind | kind <;> simp [isNameless, kind]
    · simp [leaves, hleaves, add_comm]
  | @compare left right op e e' kind lhs rhs ihLhs ihRhs =>
    intro hcode _ h
    obtain ⟨hlhs, hrhs, hleaves⟩ := of_comparison h
    refine accounts_nameless left right hcode ?_
      (fun hc => accounts_leftOr rfl (ihLhs hc false) hlhs) (fun hc => ihRhs hc false hrhs) ?_
    · unfold Kind.isComparison at kind
      split at kind <;> simp_all [isNameless]
    · exact hleaves.symm
  | @arithmetic left right op operator e e' kind sign lhs rhs ihLhs ihRhs =>
    intro hcode _ h
    obtain ⟨hlhs, hrhs⟩ := (Option.orElse_eq_none _ _).1 h
    refine accounts_nameless left right hcode ?_
      (fun hc => accounts_leftOr rfl (ihLhs hc false) hlhs) (fun hc => ihRhs hc false hrhs) rfl
    simp only [List.mem_cons, List.not_mem_nil, or_false] at kind
    rcases kind with kind | kind | kind | kind <;> simp [isNameless, kind]
  | @not right op e kind operand ih =>
    intro hcode _ h
    exact accounts_nameless [] right hcode (by simp [isNameless, kind]) (fun _ => accounts_nil)
      (fun hc => ih hc false h) (zero_add _)
  | @property left op e kind object ih =>
    -- the name is on the operator itself
    intro hcode asRef h
    rw [firstError?_reference] at h
    obtain ⟨hobject, -⟩ := (Option.orElse_eq_none _ _).1 h
    refine accounts_operator left [] hcode (by simp [kind]) (fun hc => ih hc true hobject)
      (fun _ => accounts_nil) ?_
    simp [Token.ownLeaf, Token.leaf?, kind, leaves, propertyLeaves, nameOf]
  | @belongingProperty right op e kind object ih =>
    intro hcode asRef h
    rw [firstError?_reference] at h
    obtain ⟨hobject, -⟩ := (Option.orElse_eq_none _ _).1 h
    refine accounts_operator [] right hcode (by simp [kind]) (fun _ => accounts_nil)
      (fun hc => ih hc true hobject) ?_
    simp [Token.ownLeaf, Token.leaf?, kind, leaves, propertyLeaves, nameOf, add_comm]
  | @itsProperty op kind =>
    intro hcode asRef _
    refine accounts_operator [] [] hcode ?_ (fun _ => accounts_nil) (fun _ => accounts_nil) ?_
    · rcases kind with kind | kind <;> simp [kind]
    · rcases kind with kind | kind <;>
        simp [Token.ownLeaf, Token.leaf?, kind, leaves, propertyLeaves, nameOf]
  | @possessive left right op e e' kind object key ihObject ihKey =>
    intro hcode asRef h
    rw [firstError?_reference] at h
    obtain ⟨hobject, hkey⟩ := (Option.orElse_eq_none _ _).1 h
    refine accounts_nameless left right hcode (by simp [isNameless, kind])
      (fun hc => ihObject hc true hobject) (fun hc => ihKey hc false hkey) ?_
    simp [leaves, propertyLeaves]
  | @belonging left right op e e' kind key object ihKey ihObject =>
    intro hcode asRef h
    rw [firstError?_reference] at h
    obtain ⟨hobject, hkey⟩ := (Option.orElse_eq_none _ _).1 h
    refine accounts_nameless left right hcode (by simp [isNameless, kind])
      (fun hc => ihKey hc false hkey) (fun hc => ihObject hc true hobject) ?_
    simp [leaves, propertyLeaves, add_comm]
  | @its right op e kind key ih =>
    intro hcode asRef h
    rw [firstError?_reference] at h
    obtain ⟨-, hkey⟩ := (Option.orElse_eq_none _ _).1 h
    refine accounts_nameless [] right hcode (by simp [isNameless, kind]) (fun _ => accounts_nil)
      (fun hc => ih hc false hkey) ?_
    simp [leaves, propertyLeaves]
  | @belongingIt left op e kind key ih =>
    intro hcode asRef h
    rw [firstError?_reference] at h
    obtain ⟨-, hkey⟩ := (Option.orElse_eq_none _ _).1 h
    refine accounts_nameless left [] hcode (by simp [isNameless, kind])
      (fun hc => ih hc false hkey) (fun _ => accounts_nil) ?_
    simp [leaves, propertyLeaves]

end Expr

/-- Nothing is dropped: if the expression of a source has no error in it, then the tree of the source
has no error and no text but white space, and the literals and names of the tree are those of the
expression, each as often. -/
theorem leaves_compileExpression (source : String)
    (h : (compileExpression source).firstError? = none) :
    (∀ t ∈ (lexExpression source).tokens,
      t.kind ≠ .error ∧ (t.kind = .text → t.text.toList.all Text.isSpace = true)) ∧
    (lexExpression source).leaves = (compileExpression source).leaves := by
  have hcode := allCode_lexExpression source
  have hroot : (lexExpression source).kind = .root := rfl
  have haccounts : Expr.Accounts (lexExpression source).children (compileExpression source).leaves :=
    ((Expr.compiles_ofRun _).accounts (Expr.allCode_significant hcode) false h).of_significant hcode
  refine ⟨?_, ?_⟩
  · rw [Token.tokens_eq, List.forall_mem_cons]
    refine ⟨by simp [hroot], ?_⟩
    intro t ht
    refine ⟨?_, ?_⟩
    · intro hkind
      have := (hcode t ht).kind
      simp [hkind, Kind.isCode] at this
    · intro hkind
      simpa [Token.isWhitespace, hkind] using haccounts.legible t ht
  · have hleaf : (lexExpression source).ownLeaf = 0 := by
      simp [Token.ownLeaf, Token.leaf?, hroot]
    rw [Token.leaves_eq, hleaf, zero_add, haccounts.leaves]

/-- A call on a string with escapes, a colour, and another call on a truth value. -/
def nestedCalls : String :=
  macroSource "a"
    [Text.literal "say \"x\"\n", Colour.toHex ⟨255, 0, 16⟩, macroSource "ds" [toString true]]

theorem leaves_compileExpression_nestedCalls :
    (compileExpression nestedCalls).firstError? = none ∧
    (∀ t ∈ (lexExpression nestedCalls).tokens,
      t.kind ≠ .error ∧ (t.kind = .text → t.text.toList.all Text.isSpace = true)) ∧
    (lexExpression nestedCalls).leaves =
      {.call "a", .string "say \"x\"\n", .colour "#ff0010", .call "ds", .boolean true} := by
  have hcompile : compileExpression nestedCalls =
      .call (.named "a") [.value (.string "say \"x\"\n"), .value (.colour "#ff0010"),
        .value (.call (.named "ds") [.value (.boolean true)])] := by
    refine Reads.compileExpression ?_
    refine reads_call ⟨by decide, by decide⟩
      (.cons (reads_string _) (.cons (reads_colour _) (.cons ?_ .nil)))
    exact reads_call ⟨by decide, by decide⟩ (.cons (reads_boolean _) .nil)
  have hok : (compileExpression nestedCalls).firstError? = none := by
    rw [hcompile]
    rfl
  obtain ⟨hlegible, hleaves⟩ := leaves_compileExpression nestedCalls hok
  refine ⟨hok, hlegible, ?_⟩
  rw [hleaves, hcompile]
  rfl

end StoryScript
