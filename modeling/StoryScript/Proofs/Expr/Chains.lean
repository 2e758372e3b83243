/-
  Chains of properties.

  A chain of properties is written with its owner first, as in `$v's a's b`, or with its
  owner last, as in `b of a of $v`. The first is read by `'s`, each time from all that
  stands before it, and the second by `of`, each time from all that comes after it.
  `Chained` builds the tokens of both from the variable outwards, together with the
  reference they stand for, and compiling follows it from the outside in.
-/
import Mathlib
import StoryScript.Proofs.Literal.Reading
import StoryScript.Proofs.Token.Names

namespace StoryScript

open Lexer Rule

/-! ## Tokens that make a chain -/

/-- The tokens of a chain and the reference that they stand for. A property after `'s` takes all
that stands before it, so nothing there may wait for an owner. -/
inductive Chained : List Token → Expr → Prop where
  | start {t : Token} {v : String} (hkind : t.kind = .storyVariable) (hname : t.name = some v) :
      Chained [t] (.ref .story (.name v))
  | possessive {ts : List Token} {owner : Expr} {t : Token} {name : String}
      (h : Chained ts owner) (hfree : ∀ u ∈ ts, u.kind ≠ .belongingProperty)
      (hkind : t.kind = .property) (hname : t.name = some name) :
      Chained (ts ++ [t]) (.ref (.of owner) (.name name))
  | belonging {ts : List Token} {owner : Expr} {t : Token} {name : String}
      (h : Chained ts owner) (hkind : t.kind = .belongingProperty) (hname : t.name = some name) :
      Chained (t :: ts) (.ref (.of owner) (.name name))

namespace Chained

variable {ts : List Token} {e : Expr}

theorem ne_nil (h : Chained ts e) : ts ≠ [] := by
  cases h <;> simp

theorem kinds (h : Chained ts e) :
    ∀ t ∈ ts, t.kind ∈ [Kind.storyVariable, .property, .belongingProperty] := by
  induction h with
  | start hkind _ => simp [hkind]
  | possessive _ _ hkind _ ih =>
    intro t ht
    rcases List.mem_append.1 ht with ht | ht
    · exact ih t ht
    · rw [List.mem_singleton.1 ht, hkind]
      decide
  | belonging _ hkind _ ih =>
    intro t ht
    rcases List.mem_cons.1 ht with rfl | ht
    · rw [hkind]
      decide
    · exact ih t ht

theorem significant (h : Chained ts e) : Expr.significant ts = ts := by
  rw [Expr.significant, List.filter_eq_self]
  intro t ht
  have hkind := h.kinds t ht
  simp only [List.mem_cons, List.not_mem_nil, or_false] at hkind
  rcases hkind with hkind | hkind | hkind <;> simp [Token.isWhitespace, hkind]

end Chained

/-! ## Compiling -/

namespace Expr

open Precedence

theorem value_ofOperator_property {left : List Token} {op : Token} (hop : op.kind = .property)
    (hleft : left ≠ []) (asRef : Bool) :
    (ofOperator left op [] asRef).value =
      reference (.of (ofRun left true).value) (.name (nameOf op)) asRef := by
  rw [ofOperator]
  simp [hop, hleft]

theorem value_ofOperator_belonging {right : List Token} {op : Token}
    (hop : op.kind = .belongingProperty) (hright : right ≠ []) (asRef : Bool) :
    (ofOperator [] op right asRef).value =
      reference (.of (ofRun right true).value) (.name (nameOf op)) asRef := by
  rw [ofOperator]
  simp [hop, hright]

end Expr

namespace Chained

open StoryScript.Expr Precedence

variable {ts : List Token} {e : Expr} {t : Token}

/-- Where no property waits for its owner, the last one divides. -/
theorem divide_possessive (h : Chained ts e) (hfree : ∀ u ∈ ts, u.kind ≠ .belongingProperty)
    (hkind : t.kind = .property) : divide (ts ++ [t]) = some ⟨ts, t, []⟩ := by
  have hkinds : ∀ u ∈ ts ++ [t], u.kind = .storyVariable ∨ u.kind = .property := by
    intro u hu
    rcases List.mem_append.1 hu with hu | hu
    · have hmem := h.kinds u hu
      simp only [List.mem_cons, List.not_mem_nil, or_false] at hmem
      rcases hmem with hmem | hmem | hmem
      · exact .inl hmem
      · exact .inr hmem
      · exact absurd hmem (hfree u hu)
    · rw [List.mem_singleton.1 hu]
      exact .inr hkind
  refine @divide_of_divideBy (groups.take 16) (groups.drop 17) ([.property], .last) _ _ rfl ?_ ?_
  · intro u hu group hgroup
    rcases hkinds u hu with hu | hu <;> rw [hu] <;> revert group <;> decide
  · refine divideLast_append ?_ (by simp)
    simp [divides, isUsable, hkind]

/-- The first property that waits for its owner divides. -/
theorem divide_belonging (h : Chained ts e) (hkind : t.kind = .belongingProperty) :
    divide (t :: ts) = some ⟨[], t, ts⟩ := by
  refine @divide_of_divideBy (groups.take 14) (groups.drop 15) ([.belongingProperty], .first)
    _ _ rfl ?_ ?_
  · intro u hu group hgroup
    have hmem : u.kind ∈ [Kind.storyVariable, .property, .belongingProperty] := by
      rcases List.mem_cons.1 hu with rfl | hu
      · rw [hkind]
        decide
      · exact h.kinds u hu
    generalize u.kind = kind at hmem
    revert kind group
    decide
  · rw [divideBy, divideFirst, if_pos (by simp [divides, isUsable, hkind])]

/-- A chain compiles to its reference, or to reading it. -/
theorem value_ofRun (h : Chained ts e) :
    (ofRun ts true).value = e ∧ (ofRun ts false).value = .get e := by
  induction h with
  | @start t v hkind hname =>
    have hrun : ∀ asRef, (ofRun [t] asRef).value = reference .story (.name v) asRef := by
      intro asRef
      have hgroups : ∀ group ∈ groups, t.kind ∉ group.1 := by
        rw [hkind]
        decide
      rw [ofRun_singleton hgroups, ofOperand, hkind]
      simp [ofLeaf, hkind, nameOf, hname]
    exact ⟨hrun true, hrun false⟩
  | @possessive ts owner t name h hfree hkind hname ih =>
    have hrun : ∀ asRef, (ofRun (ts ++ [t]) asRef).value =
        reference (.of owner) (.name name) asRef := by
      intro asRef
      rw [ofRun_of_divide (h.divide_possessive hfree hkind),
        value_ofOperator_property hkind h.ne_nil, ih.1, nameOf, hname, Option.getD_some]
    exact ⟨hrun true, hrun false⟩
  | @belonging ts owner t name h hkind hname ih =>
    have hrun : ∀ asRef, (ofRun (t :: ts) asRef).value =
        reference (.of owner) (.name name) asRef := by
      intro asRef
      rw [ofRun_of_divide (h.divide_belonging hkind),
        value_ofOperator_belonging hkind h.ne_nil, ih.1, nameOf, hname, Option.getD_some]
    exact ⟨hrun true, hrun false⟩

/-- A text whose tokens make a chain compiles to reading its reference. -/
theorem compileExpression {source : String}
    (hlex : (lexFrom .code { offset := 0 } source.toList).value = ts)
    (hmerged : ∀ t ∈ ts, mergeText t = t ∧ t.kind ≠ .text)
    (h : Chained (Expr.significant ts) e) : compileExpression source = .get e := by
  rw [compileExpression_of_lexFrom hlex hmerged, h.value_ofRun.2]

end Chained

/-! ## Lexing -/

/-- Between two tokens of code, outside every frame. -/
structure Lexer.State.Outside (s : State) : Prop extends s.IsReady .code where
  frames : s.frames = []

theorem Lexer.State.Outside.value_lexFrom_nil {s : State} (hs : s.Outside) :
    (lexFrom .code s []).value = s.outer.reverse := by
  rw [Lexer.value_lexFrom_nil]
  simp [State.finish, State.flush, hs.pending, hs.frames]

/-- A plain token is added to the row outside. -/
theorem Lexer.State.Outside.step {s : State} (hs : s.Outside) {text rest : List Char} {rule : Rule}
    {detail : Detail}
    (found : firstMatch (s.situation .code) (text ++ rest) = some (rule, ⟨text, detail, none⟩))
    (hfront : rule.isFront = false) (hfolds : rule.kind.folds = [])
    (hkind : rule.kind ≠ .text ∧ rule.kind ≠ .macroFront) :
    ∃ s' : State, s'.Outside ∧ s'.outer = leafOf rule text detail s.offset :: s.outer ∧
      s'.last = some rule.kind ∧ s'.previous = text.getLast? ∧
      (lexFrom .code s (text ++ rest)).value = (lexFrom .code s' rest).value := by
  set t := leafOf rule text detail s.offset with ht
  have hready : (s.passed text [t]).IsReady .code := by
    refine hs.toIsReady.passed _ ?_
    intro u hu
    rw [List.mem_singleton.1 hu]
    exact hkind
  have hadd : s.add t = { s with outer := t :: s.outer } := by simp [State.add, hs.frames]
  refine ⟨s.passed text [t], ⟨hready, ?_⟩, ?_, ?_, rfl,
    value_lexFrom_plain hs.pending found hfront hfolds⟩
  · simp [State.passed, State.advance, hadd, hs.frames]
  · simp [State.passed, State.advance, hadd]
  · simp [State.passed, State.advance, hadd, State.last, hs.frames, hs.pending]
    rfl

/-- The properties after their owner, each after `'s`. -/
def possessiveText (names : List String) : List Char :=
  names.flatMap fun name => '\'' :: 's' :: ' ' :: name.toList

/-- The properties before their owner, each before `of`, and the owner. -/
def belongingText (v : String) : List String → List Char
  | [] => '$' :: v.toList
  | name :: names => name.toList ++ ' ' :: 'o' :: 'f' :: ' ' :: belongingText v names

theorem head_possessiveText (names : List String) :
    ∀ c ∈ (possessiveText names).head?, Text.isWord c = false := by
  intro c hc
  cases names with
  | nil => cases hc
  | cons => exact Option.some.inj hc ▸ rfl

section

variable {s : State} (hs : s.Outside)
include hs

/-- The variable that a chain starts from. -/
theorem lexFrom_variable {v : String} (hv : IsName v.toList) {rest : List Char}
    (hrest : ∀ c ∈ rest.head?, Text.isWord c = false) :
    ∃ (s' : State) (t : Token), s'.Outside ∧ s'.outer = t :: s.outer ∧
      t.kind = .storyVariable ∧ t.name = some v ∧ mergeText t = t ∧ s'.last = some .storyVariable ∧
      (lexFrom .code s ('$' :: v.toList ++ rest)).value = (lexFrom .code s' rest).value := by
  obtain ⟨s', hs', houter, hlast, -, hlex⟩ := hs.step
    (firstMatch_variable hs.toIsReady.between hv hrest) (by rfl) (by rfl) (by decide)
  exact ⟨s', _, hs', houter, rfl, by simp [leafOf, build], rfl, hlast, hlex⟩

/-- Properties after their owner lengthen the chain that was read before them. -/
theorem lexFrom_possessive {owner : Expr} (hlast : s.last ∈ withProperties)
    (hchain : Chained s.outer.reverse owner)
    (houter : ∀ t ∈ s.outer, mergeText t = t ∧ t.kind ≠ .belongingProperty) {names : List String}
    (hnames : ∀ name ∈ names, IsName name.toList) :
    ∃ ts, (lexFrom .code s (possessiveText names)).value = ts ∧ (∀ t ∈ ts, mergeText t = t) ∧
      Chained ts (names.foldl (fun owner name => .ref (.of owner) (.name name)) owner) := by
  -- what was read so far is a chain, and each step makes it longer by one property
  induction names generalizing s owner with
  | nil =>
    refine ⟨_, hs.value_lexFrom_nil, ?_, hchain⟩
    intro t ht
    exact (houter t (List.mem_reverse.1 ht)).1
  | cons name names ih =>
    obtain ⟨hname, hnames⟩ := List.forall_mem_cons.1 hnames
    obtain ⟨s', hs', houter', hlast', -, hlex⟩ := hs.step (firstMatch_property hs.toIsReady.between
      hlast hname (head_possessiveText names)) (by rfl) (by rfl) (by decide)
    set t := leafOf propertyRule ('\'' :: 's' :: ' ' :: name.toList)
      { name := some (String.ofList name.toList) } s.offset with ht
    have hchain' : Chained s'.outer.reverse (.ref (.of owner) (.name name)) := by
      rw [houter', List.reverse_cons]
      refine hchain.possessive ?_ rfl (by simp [ht, leafOf, build])
      exact fun u hu => (houter u (List.mem_reverse.1 hu)).2
    have hfree : t.kind ≠ .belongingProperty := by
      rw [show t.kind = .property from rfl]
      decide
    obtain ⟨ts, hts, hmerged, hchained⟩ := ih hs' (by rw [hlast']; decide) hchain' (by
      rw [houter']
      exact List.forall_mem_cons.2 ⟨⟨rfl, hfree⟩, houter⟩) hnames
    refine ⟨ts, ?_, hmerged, hchained⟩
    rw [← hts, ← hlex]
    rfl

/-- Properties before their owner are read one after the other, with blanks between, up to the
variable that owns them all. -/
theorem lexFrom_belonging {v : String} (hv : IsName v.toList)
    (hword : s.previous.any Text.isWord = false) {names : List String}
    (hnames : ∀ name ∈ names, Belongs name.toList) :
    ∃ ts, (lexFrom .code s (belongingText v names)).value = s.outer.reverse ++ ts ∧
      (∀ t ∈ ts, mergeText t = t ∧ t.kind ≠ .text) ∧
      Chained (Expr.significant ts) (names.foldr (fun name owner => .ref (.of owner) (.name name))
        (.ref .story (.name v))) := by
  induction names generalizing s with
  | nil =>
    obtain ⟨s', t, hs', houter, hkind, hname, hmerged, -, hlex⟩ :=
      @lexFrom_variable s hs v hv [] (by simp)
    refine ⟨[t], ?_, by simp [hmerged, hkind], ?_⟩
    · rw [belongingText, ← List.append_nil ('$' :: v.toList), hlex, hs'.value_lexFrom_nil, houter,
        List.reverse_cons]
    · have hsignificant : Expr.significant [t] = [t] := by
        simp [Expr.significant, Token.isWhitespace, hkind]
      rw [hsignificant]
      exact .start hkind hname
  | cons name names ih =>
    obtain ⟨hname, hnames⟩ := List.forall_mem_cons.1 hnames
    set next := belongingText v names with hnext
    -- what follows `of` is another name or the variable: neither a blank nor `it`
    have hhead : ∀ c ∈ next.head?, Text.isBlank c = false := by
      rw [hnext]
      cases names with
      | nil => exact fun c hc => Option.some.inj hc ▸ rfl
      | cons other others =>
        exact fun c hc => Text.isBlank_of_isWord ((hnames other List.mem_cons_self).head _ c hc)
    have hit : Scanner.keyword "it" next = none := by
      rw [hnext]
      cases names with
      | nil => rfl
      | cons other others =>
        have hother := hnames other List.mem_cons_self
        exact @keyword_eq_none "it" _ _ hother.word hother.notIt rfl
    obtain ⟨s₁, hs₁, houter₁, -, -, hlex₁⟩ := hs.step (firstMatch_belonging hs.toIsReady.between
      hword hname hhead hit) (by rfl) (by rfl) (by decide)
    obtain ⟨s₂, hs₂, houter₂, -, hprevious, hlex₂⟩ := hs₁.step
      (firstMatch_blank hs₁.toIsReady.between hhead) (by rfl) (by rfl) (by decide)
    obtain ⟨ts, hts, hmerged, hchained⟩ := ih hs₂ (by rw [hprevious]; rfl) hnames
    set t := leafOf belongingRule (name.toList ++ [' ', 'o', 'f'])
      { name := some (String.ofList name.toList) } s.offset with ht
    set blank := leafOf blankRule [' '] {} s₁.offset with hblank
    refine ⟨t :: blank :: ts, ?_, ?_, ?_⟩
    · have hsource : belongingText v (name :: names) =
          (name.toList ++ [' ', 'o', 'f']) ++ ' ' :: next := by simp [belongingText, hnext]
      rw [hsource, hlex₁, ← List.singleton_append, hlex₂, hts, houter₂, houter₁]
      simp
    · have hkind : t.kind = .belongingProperty := rfl
      have hkind' : blank.kind = .whitespace := rfl
      exact List.forall_mem_cons.2 ⟨⟨rfl, by simp [hkind]⟩,
        List.forall_mem_cons.2 ⟨⟨rfl, by simp [hkind']⟩, hmerged⟩⟩
    · have hsignificant : Expr.significant (t :: blank :: ts) = t :: Expr.significant ts := rfl
      rw [hsignificant, List.foldr_cons]
      exact hchained.belonging rfl (by simp [ht, leafOf, build])

end

/-! ## Both spellings -/

/-- The reference to a property of a property, and so on, of a story variable. -/
def chain (v : String) (names : List String) : Expr :=
  names.foldl (fun owner name => .ref (.of owner) (.name name)) (.ref .story (.name v))

/-- The chain with its owner first: `$v's a's b`. -/
def possessive (v : String) (names : List String) : String :=
  names.foldl (fun owner name => owner ++ "'s " ++ name) ("$" ++ v)

/-- The chain with its owner last: `b of a of $v`. -/
def belonging (v : String) (names : List String) : String :=
  names.foldl (fun owner name => name ++ " of " ++ owner) ("$" ++ v)

theorem toList_possessive (v : String) (names : List String) :
    (possessive v names).toList = '$' :: v.toList ++ possessiveText names := by
  have hfold : ∀ owner : String,
      (names.foldl (fun owner name => owner ++ "'s " ++ name) owner).toList =
        owner.toList ++ possessiveText names := by
    induction names with
    | nil => simp [possessiveText]
    | cons name names ih =>
      intro owner
      rw [List.foldl_cons, ih]
      simp [possessiveText]
  rw [possessive, hfold]
  simp

theorem toList_belonging (v : String) (names : List String) :
    (belonging v names).toList = belongingText v names.reverse := by
  rw [belonging, List.foldl_eq_foldr_reverse]
  induction names.reverse with
  | nil => simp [belongingText]
  | cons name names ih => simp [belongingText, ih]

/-- Both spellings of a chain of properties compile to reading the same reference. With the owner
first the properties may have any names; with the owner last, all that are not taken for a temp
variable, for `it` or for `its`. -/
theorem compile_chain_spellings {v : String} {names : List String} (hv : IsName v.toList)
    (hnames : ∀ name ∈ names, IsName name.toList) :
    compileExpression (possessive v names) = .get (chain v names) ∧
      ((∀ name ∈ names, Belongs name.toList) →
        compileExpression (belonging v names) = .get (chain v names)) := by
  have hs : ({ offset := 0 } : State).Outside :=
    ⟨⟨rfl, rfl, by simp [State.last], by simp [State.last]⟩, rfl⟩
  constructor
  · obtain ⟨s, t, hs', houter, hkind, hname, hmerged, hlast, hlex⟩ :=
      lexFrom_variable hs hv (head_possessiveText names)
    obtain ⟨ts, hts, hmerged', hchained⟩ := lexFrom_possessive hs' (by rw [hlast]; decide)
      (by rw [houter]; exact .start hkind hname) (by simp [houter, hmerged, hkind]) hnames
    refine Chained.compileExpression (by rw [toList_possessive, hlex, hts]) ?_
      (hchained.significant.symm ▸ hchained)
    intro u hu
    exact ⟨hmerged' u hu, fun htext => absurd (htext ▸ hchained.kinds u hu) (by decide)⟩
  · intro hbelongs
    obtain ⟨ts, hts, hmerged, hchained⟩ :=
      @lexFrom_belonging _ hs v hv rfl names.reverse (by simpa using hbelongs)
    rw [List.foldr_reverse] at hchained
    exact Chained.compileExpression (by rw [toList_belonging, hts]; rfl) hmerged hchained

theorem compile_chain_spellings_keywords :
    IsName "it".toList ∧ (∀ name ∈ ["of", "1st", "red"], Belongs name.toList) ∧
      compileExpression "$it's of's 1st's red" = .get (chain "it" ["of", "1st", "red"]) ∧
      compileExpression "red of 1st of of of $it" = .get (chain "it" ["of", "1st", "red"]) := by
  have hv : IsName "it".toList := ⟨List.all_eq_true.1 rfl, rfl⟩
  have hnames : ∀ name ∈ ["of", "1st", "red"], Belongs name.toList := by
    simp only [List.forall_mem_cons, List.not_mem_nil, false_implies, implies_true, and_true]
    exact ⟨⟨⟨List.all_eq_true.1 rfl, rfl⟩, by decide, by decide, by decide⟩,
      ⟨⟨List.all_eq_true.1 rfl, rfl⟩, by decide, by decide, by decide⟩,
      ⟨⟨List.all_eq_true.1 rfl, rfl⟩, by decide, by decide, by decide⟩⟩
  have hspellings := compile_chain_spellings hv fun name hname => (hnames name hname).toIsName
  exact ⟨hv, hnames, hspellings.1, hspellings.2 hnames⟩

end StoryScript
