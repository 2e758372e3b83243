/-
  Signs after operands.

  A plus or minus is an operator after a token that ends an operand, and elsewhere it is a sign,
  which divides nothing. An operand may be a whole chain of properties, and such a chain can end in
  an operand token, in a property whose object is before it or is `it`, or in `of it` after a
  computed name. All of these but the last are among the kinds that end an operand. So after a chain
  that compiles without an error a plus or minus joins, unless the chain ends in `of it`: there it
  stays behind as a sign, and the code is malformed.
-/
import Mathlib
import StoryScript.Proofs.Expr.Leaves

namespace StoryScript

namespace Kind

/-- The kinds of tokens that are whole operands. -/
def isOperand : Kind → Bool
  | number | cssTime | string | boolean | colour | identifier | hookRef | storyVariable
  | tempVariable | macroCall | grouping | link => true
  | _ => false

/-- The property operators that take what stands on their right. -/
def opensProperty : Kind → Bool
  | belongingProperty | belongingOperator | possessiveOperator | itsOperator => true
  | _ => false

/-- The property operators with nothing on their right. -/
def closesProperty : Kind → Bool
  | property | itsProperty | belongingItProperty | belongingItOperator => true
  | _ => false

/-- The property operators. -/
def isPropertyOperator (kind : Kind) : Bool :=
  kind.opensProperty || kind.closesProperty

/-- The kinds of tokens that a chain of properties is made of. -/
def buildsProperty (kind : Kind) : Bool :=
  kind.isOperand || kind.isPropertyOperator

end Kind

/-- A plus or minus with the operator it stands for. -/
structure Sign where
  token : Token
  op : BinaryOp
  kind : token.kind = .addition ∧ op = .add ∨ token.kind = .subtraction ∧ op = .subtract
  op_eq : token.operator = some op

/-! ## Dividing a longer run -/

namespace Precedence

/-- The division with more tokens at the end. -/
def Division.append (d : Division) (tail : List Token) : Division :=
  { d with right := d.right ++ tail }

variable {group : List Kind} {left tail : List Token} {before : Option Token}

theorem divideFirst_append_right (h : divideFirst group (left.getLast?.or before) tail = none) :
    divideFirst group before (left ++ tail) =
      (divideFirst group before left).map (·.append tail) := by
  induction left generalizing before with
  | nil => simpa [divideFirst] using h
  | cons t ts ih =>
    rw [getLast?_cons_or] at h
    rw [List.cons_append, divideFirst, divideFirst, ih h]
    split
    · rfl
    · rw [Option.map_map, Option.map_map]
      rfl

theorem divideLast_append_right (h : divideLast group (left.getLast?.or before) tail = none) :
    divideLast group before (left ++ tail) =
      (divideLast group before left).map (·.append tail) := by
  induction left generalizing before with
  | nil => simpa [divideLast] using h
  | cons t ts ih =>
    rw [getLast?_cons_or] at h
    rw [List.cons_append, divideLast, divideLast, ih h]
    cases divideLast group (some t) ts with
    | some d => rfl
    | none =>
      dsimp only [Option.map_none]
      split <;> rfl

/-! ## Dividing at a sign -/

theorem not_mem_of_isOperand {kind : Kind} (h : kind.isOperand = true) :
    ∀ group ∈ groups, kind ∉ group.1 := by
  have htable : ∀ k ∈ Kind.all, k.isOperand = true → ∀ group ∈ groups, k ∉ group.1 := by decide
  exact htable kind kind.mem_all h

/-- Operands and property operators bind tighter than signs. -/
theorem not_mem_of_buildsProperty {kind : Kind} (h : kind.buildsProperty = true) :
    ∀ group ∈ groups.take 12, kind ∉ group.1 := by
  have htable : ∀ k ∈ Kind.all, k.buildsProperty = true →
      ∀ group ∈ groups.take 12, k ∉ group.1 := by decide
  exact htable kind kind.mem_all h

variable (sign : Sign) {v : Token} (hv : v.kind.isOperand = true) {L : List Token} {last : Token}
  (hlast : L.getLast? = some last)

include hv hlast

/-- After a token that ends an operand, a sign divides. -/
theorem divide_sign (hL : ∀ t ∈ L, t.kind.buildsProperty = true)
    (hends : last.kind.endsOperand = true) :
    divide (L ++ [sign.token, v]) = some ⟨L, sign.token, [v]⟩ := by
  have hgroups : groups =
      groups.take 11 ++ ([.addition, .subtraction], .last) :: groups.drop 12 := rfl
  have hv' := not_mem_of_isOperand hv
  refine divide_of_divideBy hgroups ?_ (divideLast_append ?_ ?_)
  · intro t ht group hgroup
    simp only [List.mem_append, List.mem_cons, List.not_mem_nil, or_false] at ht
    rcases ht with ht | rfl | rfl
    · have hloose : groups.take 11 <+: groups.take 12 := List.take_prefix_take_left (by omega)
      exact not_mem_of_buildsProperty (hL t ht) group (hloose.subset hgroup)
    · rcases sign.kind with ⟨hkind, -⟩ | ⟨hkind, -⟩ <;> rw [hkind] <;> revert group <;> decide
    · exact hv' group (List.mem_of_mem_take hgroup)
  · rw [hlast, Option.some_or]
    rcases sign.kind with ⟨hkind, -⟩ | ⟨hkind, -⟩ <;> simp [divides, isUsable, hkind, hends]
  · intro t ht
    obtain rfl := List.mem_singleton.1 ht
    exact hv' ([.addition, .subtraction], .last) (by decide)

/-- After any other token, a sign and the operand after it divide nothing. -/
theorem divide_append_sign (hends : last.kind.endsOperand = false) :
    divide (L ++ [sign.token, v]) = (divide L).map (·.append [sign.token, v]) := by
  have hsign : ∀ group, divides group (some last) sign.token = false := by
    intro group
    rcases sign.kind with ⟨hkind, -⟩ | ⟨hkind, -⟩ <;> simp [divides, isUsable, hkind, hends]
  refine divide_eq_map fun group hgroup => ?_
  have hoperand : divides group.1 (some sign.token) v = false := by
    simp [divides, not_mem_of_isOperand hv group hgroup]
  unfold divideBy
  split
  · apply divideFirst_append_right
    simp [hlast, divideFirst, hsign, hoperand]
  · apply divideLast_append_right
    simp [hlast, divideLast, hsign, hoperand]

end Precedence

/-! ## Property operators without an error -/

namespace Expr

open Precedence

variable {left right : List Token} {op : Token} {asRef : Bool}

/-- A property operator that takes what stands on its right needs something there. If it compiles
without an error, so does that, and an error there instead would be the error of the whole. -/
theorem of_opensProperty (hop : op.kind.opensProperty = true)
    (hclean : (ofOperator left op right asRef).value.firstError? = none) :
    right ≠ [] ∧ (∃ asRef', (ofRun right asRef').value.firstError? = none) ∧
      ∀ right' fault, right' ≠ [] →
        (∀ asRef', (ofRun right' asRef').value.firstError? = some fault) →
        ∀ asRef', (ofOperator left op right' asRef').value.firstError? = some fault := by
  rw [ofOperator] at hclean
  simp only [ofOperator]
  -- the operator wants nothing or something on its left, and `left` is one or the other
  rcases List.eq_nil_or_concat left with rfl | ⟨ts, t, rfl⟩ <;> rcases right with _ | ⟨u, us⟩
  all_goals
    cases hk : op.kind <;> simp only [hk, Kind.opensProperty, Bool.false_eq_true] at hop
    all_goals
      simp [hk, missing, adjacent, malformed, firstError?, firstErrorInPlace?,
        firstErrorInProperty?] at hclean
  all_goals
    refine ⟨List.cons_ne_nil _ _, ?_, ?_⟩
    · simp_all
    · intro right' fault hright' hfault asRef'
      simp_all [firstError?, firstErrorInPlace?, firstErrorInProperty?]

/-- A property operator with nothing on its right. -/
theorem of_closesProperty (hop : op.kind.closesProperty = true)
    (hclean : (ofOperator left op right asRef).value.firstError? = none) : right = [] := by
  rw [ofOperator] at hclean
  rcases List.eq_nil_or_concat left with rfl | ⟨ts, t, rfl⟩ <;> rcases right with _ | ⟨u, us⟩
  all_goals
    cases hk : op.kind <;> simp only [hk, Kind.closesProperty, Bool.false_eq_true] at hop
    all_goals
      simp [hk, missing, adjacent, malformed, firstError?] at hclean ⊢

/-- Something after `of it` is not joined to it. -/
theorem value_ofOperator_ofIt (hop : op.kind = .belongingItOperator)
    (hclean : (ofOperator left op [] asRef).value.firstError? = none) (next : Token)
    (rest : List Token) (asRef' : Bool) :
    (ofOperator left op (next :: rest) asRef').value = (adjacent op next).value := by
  have hleft : left ≠ [] := by
    rintro rfl
    rw [ofOperator] at hclean
    simp [hop, missing, malformed, firstError?] at hclean
  rw [ofOperator]
  simp [hop, hleft]

/-! ## How a chain of properties ends -/

/-- How a run of operands and property operators that compiles without an error ends: with an
operand, with an operator that has nothing on its right, or else as the run on the right of the
operator where it is divided. -/
inductive WellEnded : List Token → Prop where
  | operand {t : Token} (isOperand : t.kind.isOperand = true) : WellEnded [t]
  | closed {left : List Token} {op : Token} {asRef : Bool}
      (division : divide (left ++ [op]) = some ⟨left, op, []⟩)
      (closes : op.kind.closesProperty = true)
      (clean : (ofOperator left op [] asRef).value.firstError? = none) : WellEnded (left ++ [op])
  | opened {left right : List Token} {op : Token} {asRef : Bool}
      (division : divide (left ++ op :: right) = some ⟨left, op, right⟩)
      (opens : op.kind.opensProperty = true)
      (clean : (ofOperator left op right asRef).value.firstError? = none)
      (inner : WellEnded right) : WellEnded (left ++ op :: right)

/-- A token of a chain that stands alone is an operand. -/
theorem isOperand_of_clean {t : Token} (ht : t.kind.buildsProperty = true)
    (hclean : (ofOperand t asRef).value.firstError? = none) : t.kind.isOperand = true := by
  rcases Bool.or_eq_true_iff.1 ht with ht | ht
  · exact ht
  · refine absurd hclean ?_
    have hleaf : (ofOperand t asRef).value = (notCode t).value := by
      rw [ofOperand, ofLeaf]
      cases hk : t.kind <;> simp [hk, Kind.isPropertyOperator, Kind.opensProperty,
        Kind.closesProperty] at ht ⊢
    rw [hleaf]
    exact firstError?_notCode t

theorem wellEnded_of_clean {L : List Token} {asRef : Bool} (hL : L ≠ [])
    (hkinds : ∀ t ∈ L, t.kind.buildsProperty = true)
    (hclean : (ofRun L asRef).value.firstError? = none) : WellEnded L := by
  cases hdivision : divide L with
  | none =>
    match L, hdivision with
    | [t], hdivision =>
      rw [ofRun_of_divide_eq_none hdivision] at hclean
      exact .operand (isOperand_of_clean (hkinds t List.mem_cons_self) hclean)
    | t :: u :: ts, hdivision =>
      obtain ⟨_, message, -, -, hmalformed⟩ := ofRunAs_of_divide_eq_none hdivision
      have herror : (ofRun (t :: u :: ts) asRef).value = .error .malformed message :=
        congrFun hmalformed asRef
      rw [herror] at hclean
      cases hclean
  | some d =>
    rw [ofRun_of_divide hdivision] at hclean
    obtain ⟨left, op, right⟩ := d
    have happend : left ++ op :: right = L := append_of_divide hdivision
    have hshorter : right.length < L.length := by
      rw [← happend, List.length_append, List.length_cons]
      omega
    obtain ⟨group, hgroup, hmem⟩ := mem_group_of_divide hdivision
    have hop : op.kind.isPropertyOperator = true := by
      rcases Bool.or_eq_true_iff.1 (hkinds op (by simp [← happend])) with h | h
      · exact absurd hmem (not_mem_of_isOperand h group hgroup)
      · exact h
    rw [Kind.isPropertyOperator, Bool.or_eq_true] at hop
    rcases hop with hopens | hcloses
    · obtain ⟨hright, ⟨asRef', hclean'⟩, -⟩ := of_opensProperty hopens hclean
      have hkinds' : ∀ t ∈ right, t.kind.buildsProperty = true :=
        fun t ht => hkinds t (by simp [← happend, ht])
      have hinner := wellEnded_of_clean hright hkinds' hclean'
      rw [← happend] at hdivision ⊢
      exact .opened hdivision hopens hclean hinner
    · obtain rfl : right = [] := of_closesProperty hcloses hclean
      rw [← happend] at hdivision ⊢
      exact .closed hdivision hcloses hclean
termination_by L.length
decreasing_by omega

theorem WellEnded.getLast? {L : List Token} (h : WellEnded L) :
    ∃ last, L.getLast? = some last ∧
      (last.kind.isOperand = true ∨ last.kind.closesProperty = true) := by
  induction h with
  | @operand t isOperand => exact ⟨t, rfl, .inl isOperand⟩
  | @closed left op _ _ closes _ => exact ⟨op, List.getLast?_concat, .inr closes⟩
  | @opened left right op _ _ _ _ _ ih =>
    obtain ⟨last, hlast, hkind⟩ := ih
    refine ⟨last, ?_, hkind⟩
    rw [List.getLast?_append, List.getLast?_cons, hlast]
    rfl

/-- A sign after `of it` is not joined to it, wherever that is in the chain. -/
theorem WellEnded.firstError?_sign {L : List Token} (h : WellEnded L) {last : Token}
    (hlast : L.getLast? = some last) (hofIt : last.kind = .belongingItOperator) (sign : Sign)
    {v : Token} (hv : v.kind.isOperand = true) (asRef : Bool) :
    (ofRun (L ++ [sign.token, v]) asRef).value.firstError? =
      some (adjacent last sign.token).value := by
  have hends : last.kind.endsOperand = false := by
    rw [hofIt]
    rfl
  induction h generalizing asRef with
  | @operand t isOperand =>
    obtain rfl : t = last := Option.some.inj hlast
    rw [hofIt] at isOperand
    cases isOperand
  | @closed left op _ division closes clean =>
    obtain rfl : op = last := Option.some.inj (List.getLast?_concat.symm.trans hlast)
    have hdivide := divide_append_sign sign hv hlast hends
    rw [division] at hdivide
    rw [ofRun_of_divide hdivide]
    show (ofOperator left op ([] ++ [sign.token, v]) asRef).value.firstError? = _
    rw [List.nil_append, value_ofOperator_ofIt hofIt clean]
    rfl
  | @opened left right op _ division opens clean inner ih =>
    have hright : right.getLast? = some last := by
      obtain ⟨last', hlast', -⟩ := inner.getLast?
      rw [List.getLast?_append, List.getLast?_cons, hlast'] at hlast
      rw [hlast', ← hlast]
      rfl
    have hdivide := divide_append_sign sign hv hlast hends
    rw [division] at hdivide
    rw [ofRun_of_divide hdivide]
    obtain ⟨-, -, hfault⟩ := of_opensProperty opens clean
    exact hfault _ _ (by simp) (fun asRef' => ih hright asRef') asRef

end Expr

/-! ## The sign -/

theorem Token.isWhitespace_of_buildsProperty {t : Token} (h : t.kind.buildsProperty = true) :
    t.isWhitespace = false := by
  have htable : ∀ k ∈ Kind.all, k.buildsProperty = true →
      k ≠ .whitespace ∧ k ≠ .lineBreak ∧ k ≠ .text := by decide
  obtain ⟨hblank, hbreak, htext⟩ := htable t.kind t.kind.mem_all h
  unfold Token.isWhitespace
  split <;> simp_all

/-- A sign after a chain of properties. Let the chain be operands and property operators that
compile without an error. A plus or minus after it joins it to the operand that follows, unless
the chain ends in `of it`; then the sign is malformed code, for want of something to join the
two. -/
theorem compile_sign_after_chain (L : List Token) (hL : L ≠ [])
    (hkinds : ∀ t ∈ L, t.kind.buildsProperty = true)
    (hclean : (compile L false).firstError? = none) (sign : Sign) (v : Token)
    (hv : v.kind.isOperand = true) (asRef : Bool) :
    ((L.getLast hL).kind ≠ .belongingItOperator →
      compile (L ++ [sign.token, v]) asRef =
        .binary (compile L false) sign.op (compile [v] false)) ∧
    ((L.getLast hL).kind = .belongingItOperator →
      (compile (L ++ [sign.token, v]) asRef).firstError? =
        some (.error .malformed ("There's nothing joining `" ++ Text.trim (L.getLast hL).text ++
          "` and `" ++ Text.trim sign.token.text ++ "`."))) := by
  have hlast : L.getLast? = some (L.getLast hL) := List.getLast?_eq_some_getLast hL
  -- none of the tokens is white space, so they are compiled as they are
  have hblank : ∀ t ∈ L ++ [sign.token, v], t.isWhitespace = false := by
    intro t ht
    simp only [List.mem_append, List.mem_cons, List.not_mem_nil, or_false] at ht
    rcases ht with ht | rfl | rfl
    · exact Token.isWhitespace_of_buildsProperty (hkinds t ht)
    · rcases sign.kind with ⟨h, -⟩ | ⟨h, -⟩ <;> simp [Token.isWhitespace, h]
    · exact Token.isWhitespace_of_buildsProperty (by rw [Kind.buildsProperty, hv, Bool.true_or])
  have hcompile : ∀ run ⊆ L ++ [sign.token, v], ∀ asRef,
      compile run asRef = (Expr.ofRun run asRef).value := by
    intro run hrun asRef
    have hsignificant : Expr.significant run = run :=
      List.filter_eq_self.2 fun t ht => by simp [hblank t (hrun ht)]
    rw [compile, Expr.ofTokens, hsignificant]
  rw [hcompile _ (List.Subset.refl _), hcompile L (by simp), hcompile [v] (by simp)]
  rw [hcompile L (by simp)] at hclean
  have hended := Expr.wellEnded_of_clean hL hkinds hclean
  constructor
  · intro hofIt
    have hends : (L.getLast hL).kind.endsOperand = true := by
      obtain ⟨last, hlast', hkind⟩ := hended.getLast?
      obtain rfl : L.getLast hL = last := Option.some.inj (hlast.symm.trans hlast')
      have htable : ∀ k ∈ Kind.all, k.isOperand = true ∨ k.closesProperty = true →
          k ≠ .belongingItOperator → k.endsOperand = true := by decide
      exact htable _ (Kind.mem_all _) hkind hofIt
    have hop : sign.token.kind ∈ [.addition, .subtraction, .multiplication, .division] := by
      rcases sign.kind with ⟨h, -⟩ | ⟨h, -⟩ <;> simp [h]
    rw [Expr.ofRun_of_divide (Precedence.divide_sign sign hv hlast hkinds hends)]
    exact Expr.value_ofOperator_arithmetic hop sign.op_eq hL (by simp) asRef
  · intro hofIt
    exact hended.firstError?_sign hlast hofIt sign hv asRef

namespace Sign

/-- `+` -/
def plus : Sign where
  token := { kind := .addition, text := "+", operator := some .add }
  op := .add
  kind := .inl ⟨rfl, rfl⟩
  op_eq := rfl

/-- `-` -/
def minus : Sign where
  token := { kind := .subtraction, text := "-", operator := some .subtract }
  op := .subtract
  kind := .inr ⟨rfl, rfl⟩
  op_eq := rfl

end Sign

namespace Token

/-- A story variable. -/
def variableNamed (name : String) : Token :=
  { kind := .storyVariable, text := "$" ++ name, name := some name }

/-- A story variable in parentheses. -/
def groupedVariable (name : String) : Token :=
  { kind := .grouping, text := "($" ++ name ++ ")", children := [variableNamed name] }

/-- The tokens of `length of ($k) of $list's last`. -/
def lengthChain : List Token :=
  [{ kind := .belongingProperty, text := "length of", name := some "length" }, groupedVariable "k",
   { kind := .belongingOperator, text := "of" }, variableNamed "list",
   { kind := .property, text := "'s last", name := some "last" }]

/-- The tokens of `($k) of it`. -/
def ofItChain : List Token :=
  [groupedVariable "k", { kind := .belongingItOperator, text := "of it" }]

end Token

open Token in
/-- The plus of `($k) of it + $n` joins nothing, though both of its sides are good code. -/
theorem not_binary_after_ofIt :
    (∀ t ∈ ofItChain, t.kind.buildsProperty = true) ∧
    (compile ofItChain false).firstError? = none ∧
    compile (ofItChain ++ [Sign.plus.token, variableNamed "n"]) false =
      .error .malformed "There's nothing joining `of it` and `+`." ∧
    compile (ofItChain ++ [Sign.plus.token, variableNamed "n"]) false ≠
      .binary (compile ofItChain false) .add (compile [variableNamed "n"] false) := by
  have herror : compile (ofItChain ++ [Sign.plus.token, variableNamed "n"]) false =
      .error .malformed "There's nothing joining `of it` and `+`." := by cbv
  refine ⟨by decide, by cbv, herror, ?_⟩
  rw [herror]
  intro h
  cases h

open Token in
/-- The minus after a chain of three properties, written in both directions, takes the whole of it
as its left operand. -/
theorem compile_sign_after_chain_length :
    (∀ t ∈ lengthChain, t.kind.buildsProperty = true) ∧
    (compile lengthChain false).firstError? = none ∧
    compile (lengthChain ++ [Sign.minus.token, variableNamed "n"]) false =
      .binary (.get (.ref (.of (.ref (.of (.ref (.of (.ref .story (.name "list"))) (.name "last")))
        (.computed (.group (.get (.ref .story (.name "k"))))))) (.name "length"))) .subtract
        (.get (.ref .story (.name "n"))) := by
  have hkinds : ∀ t ∈ lengthChain, t.kind.buildsProperty = true := by decide
  have hchain : compile lengthChain false =
      .get (.ref (.of (.ref (.of (.ref (.of (.ref .story (.name "list"))) (.name "last")))
        (.computed (.group (.get (.ref .story (.name "k"))))))) (.name "length")) := by cbv
  have hvariable : compile [variableNamed "n"] false = .get (.ref .story (.name "n")) := by cbv
  have hclean : (compile lengthChain false).firstError? = none := by
    rw [hchain]
    rfl
  refine ⟨hkinds, hclean, ?_⟩
  rw [(compile_sign_after_chain lengthChain (by decide) hkinds hclean .minus (variableNamed "n") rfl
    false).1 (by decide), hchain, hvariable]
  rfl

end StoryScript
