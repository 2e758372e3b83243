/-
  Tokens that spell an expression.

  The tokens of a literal are one operand, or a minus sign and a number. Those of the
  arguments of a call are literals between commas, each after a blank. Both compile to
  what they spell, whatever stands around them.
-/
import Mathlib
import StoryScript.Proofs.Expr.Division
import StoryScript.Proofs.Token.Derivation

namespace StoryScript

open Lexer StoryScript.Expr

/-- The kinds of the tokens of a literal. -/
def Kind.inLiteral : Kind → Bool
  | number | string | boolean | colour | macroCall | subtraction => true
  | _ => false

/-- The kinds of the tokens of a literal that are operands. -/
def Kind.isLiteral (kind : Kind) : Bool :=
  kind.inLiteral && kind ≠ .subtraction

/-- Tokens of a literal that compile to an expression. -/
structure Spells (ts : List Token) (e : Expr) : Prop where
  ne_nil : ts ≠ []
  kinds : ∀ t ∈ ts, t.kind.inLiteral = true
  merged : ∀ t ∈ ts, mergeText t = t
  value : (ofRun ts false).value = e

/-- Tokens of arguments, each a blank and a literal, with commas between. -/
inductive SpellsArgs : List Token → List Expr → Prop where
  | none : SpellsArgs [] []
  | last {blank : Token} {ts : List Token} {e : Expr} (hblank : blank.kind = .whitespace)
      (hmerged : mergeText blank = blank) (h : Spells ts e) : SpellsArgs (blank :: ts) [e]
  | next {blank comma : Token} {ts us : List Token} {e : Expr} {es : List Expr}
      (hblank : blank.kind = .whitespace) (hcomma : comma.kind = .comma)
      (hmerged : ∀ t ∈ [blank, comma], mergeText t = t) (h : Spells ts e)
      (rest : SpellsArgs us es) : SpellsArgs (blank :: ts ++ comma :: us) (e :: es)

/-! ## Literals -/

theorem not_dividing_of_isLiteral {kind : Kind} (h : kind.isLiteral = true) :
    ∀ group ∈ Precedence.groups, kind ∉ group.1 := by
  cases kind <;> first | decide | exact absurd h (by decide)

/-- One operand spells what it compiles to. -/
theorem Spells.operand {t : Token} (hkind : t.kind.isLiteral = true) (hmerged : mergeText t = t)
    {e : Expr} (he : (ofOperand t false).value = e) : Spells [t] e := by
  refine ⟨by simp, ?_, ?_, ?_⟩
  · intro u hu
    rw [List.mem_singleton.1 hu]
    exact (Bool.and_eq_true _ _ ▸ hkind).1
  · intro u hu
    rw [List.mem_singleton.1 hu, hmerged]
  · rw [ofRun_singleton (not_dividing_of_isLiteral hkind), he]

/-- A minus sign before what is no operator is a difference from zero. -/
theorem value_ofRun_negative {minus t : Token} (hminus : minus.kind = .subtraction)
    (hoperator : minus.operator = some .subtract)
    (ht : ∀ group ∈ Precedence.groups, t.kind ∉ group.1) :
    (ofRun [minus, t] false).value = .binary (.number 0) .subtract (ofRun [t] false).value := by
  -- the sign stands at the front, so it divides with nothing on its left
  have hdivide : Precedence.divide [minus, t] = some ⟨[], minus, [t]⟩ := by
    refine @Precedence.divide_of_divideBy (Precedence.groups.take 11) (Precedence.groups.drop 12)
      ([.addition, .subtraction], .last) _ _ rfl ?_ ?_
    · intro u hu group hgroup
      rcases List.mem_cons.1 hu with rfl | hu
      · rw [hminus]
        revert group
        decide
      · rw [List.mem_singleton.1 hu]
        exact ht group (List.mem_of_mem_take hgroup)
    · have hgroup : ([.addition, .subtraction], .last) ∈ Precedence.groups := by decide
      refine @Precedence.divideLast_append _ [] _ _ none ?_ ?_
      · simp [Precedence.divides, Precedence.isUsable, hminus]
      · intro u hu
        rw [List.mem_singleton.1 hu]
        exact ht _ hgroup
  rw [ofRun_of_divide hdivide, ofOperator, hminus]
  simp [ofArithmetic, hoperator]

/-- A minus sign and an operand spell a difference from zero. -/
theorem Spells.negative {minus t : Token} (hminus : minus.kind = .subtraction)
    (hoperator : minus.operator = some .subtract) (hmerged : mergeText minus = minus)
    (hkind : t.kind.isLiteral = true) {e : Expr} (ht : Spells [t] e) :
    Spells [minus, t] (.binary (.number 0) .subtract e) := by
  refine ⟨by simp, ?_, ?_, ?_⟩
  · intro u hu
    rcases List.mem_cons.1 hu with rfl | hu
    · rw [hminus]
      rfl
    · exact ht.kinds u hu
  · intro u hu
    rcases List.mem_cons.1 hu with rfl | hu
    · exact hmerged
    · exact ht.merged u hu
  · rw [value_ofRun_negative hminus hoperator (not_dividing_of_isLiteral hkind), ht.value]

theorem Spells.kind_ne {ts : List Token} {e : Expr} (h : Spells ts e) {kind : Kind}
    (hkind : kind.inLiteral = false) : ∀ t ∈ ts, t.kind ≠ kind := by
  rintro t ht rfl
  exact absurd (h.kinds t ht) (Bool.eq_false_iff.1 hkind)

theorem Spells.significant {ts : List Token} {e : Expr} (h : Spells ts e) :
    Expr.significant ts = ts := by
  rw [Expr.significant, List.filter_eq_self]
  intro t ht
  have hkind := h.kinds t ht
  rw [Token.isWhitespace]
  cases hk : t.kind <;> simp_all [Kind.inLiteral]

/-! ## Arguments -/

theorem segments_append {ts : List Token} (h : ∀ t ∈ ts, t.kind ≠ .comma) {comma : Token}
    (hcomma : comma.kind = .comma) (us : List Token) :
    segments (ts ++ comma :: us) = ts :: segments us := by
  induction ts with
  | nil => rw [List.nil_append, segments, if_pos hcomma]
  | cons t ts ih =>
    have ht : t.kind ≠ .comma := h t List.mem_cons_self
    rw [List.cons_append, segments, if_neg ht, ih fun u hu => h u (List.mem_cons_of_mem t hu)]

theorem segments_of_no_comma {ts : List Token} (h : ∀ t ∈ ts, t.kind ≠ .comma) :
    segments ts = [ts] := by
  induction ts with
  | nil => rfl
  | cons t ts ih =>
    have ht : t.kind ≠ .comma := h t List.mem_cons_self
    rw [segments, if_neg ht, ih fun u hu => h u (List.mem_cons_of_mem t hu)]

/-- A run of a literal is one argument. -/
theorem value_ofArguments_cons {ts : List Token} {e : Expr} (h : Spells ts e)
    (runs : List (List Token)) :
    (ofArguments (ts :: runs)).value = .value e :: (ofArguments runs).value := by
  obtain ⟨t, ts, rfl⟩ := List.exists_cons_of_ne_nil h.ne_nil
  have hspread : t.kind ≠ .spread := h.kind_ne rfl t List.mem_cons_self
  rw [ofArguments]
  simp [hspread, h.value]

/-- Arguments compile to what they spell. -/
theorem SpellsArgs.value {us : List Token} {es : List Expr} (h : SpellsArgs us es) :
    (ofArguments (segments (significant us))).value = es.map .value := by
  induction h with
  | none => simp [significant, segments, ofArguments]
  | @last blank ts e hblank hmerged h =>
    have hsignificant : significant (blank :: ts) = ts := by
      rw [significant, List.filter_cons_of_neg (by simp [Token.isWhitespace, hblank])]
      exact h.significant
    rw [hsignificant, segments_of_no_comma (h.kind_ne rfl), value_ofArguments_cons h]
    simp [ofArguments]
  | @next blank comma ts us e es hblank hcomma hmerged h rest ih =>
    have hsignificant : significant (blank :: ts ++ comma :: us) = ts ++ comma :: significant us := by
      rw [List.cons_append, significant,
        List.filter_cons_of_neg (by simp [Token.isWhitespace, hblank]), List.filter_append,
        List.filter_cons_of_pos (by simp [Token.isWhitespace, hcomma])]
      congr 1
      exact h.significant
    rw [hsignificant, segments_append (h.kind_ne rfl) hcomma, value_ofArguments_cons h, ih,
      List.map_cons]

/-! ## Calls -/

theorem mergeAll_eq_self {ts : List Token} (hmerged : ∀ t ∈ ts, mergeText t = t)
    (hkinds : ∀ t ∈ ts, t.kind ≠ .text) : mergeAll ts = ts := by
  induction ts with
  | nil => rfl
  | cons t ts ih =>
    have ht : t.kind ≠ .text := hkinds t List.mem_cons_self
    have hts : mergeAll ts = ts := ih (fun u hu => hmerged u (List.mem_cons_of_mem t hu))
      fun u hu => hkinds u (List.mem_cons_of_mem t hu)
    rw [mergeAll, hmerged t List.mem_cons_self, hts]
    cases ts with
    | nil => rfl
    | cons u us => simp [ht]

/-- Nothing among arguments is merged. -/
theorem SpellsArgs.merged {us : List Token} {es : List Expr} (h : SpellsArgs us es) :
    ∀ t ∈ us, mergeText t = t ∧ t.kind ≠ .text := by
  have hliteral : ∀ {ts : List Token} {e : Expr}, Spells ts e → ∀ t ∈ ts,
      mergeText t = t ∧ t.kind ≠ .text :=
    fun h t ht => ⟨h.merged t ht, h.kind_ne rfl t ht⟩
  induction h with
  | none => simp
  | @last blank ts e hblank hmerged h =>
    intro t ht
    rcases List.mem_cons.1 ht with rfl | ht
    · exact ⟨hmerged, by simp [hblank]⟩
    · exact hliteral h t ht
  | @next blank comma ts us e es hblank hcomma hmerged h rest ih =>
    intro t ht
    rcases List.mem_append.1 ht with ht | ht
    · rcases List.mem_cons.1 ht with rfl | ht
      · exact ⟨hmerged t (by simp), by simp [hblank]⟩
      · exact hliteral h t ht
    · rcases List.mem_cons.1 ht with rfl | ht
      · exact ⟨hmerged t (by simp), by simp [hcomma]⟩
      · exact ih t ht

/-- A call of a name on arguments spells the call. -/
theorem Spells.call {t name : Token} {us : List Token} {es : List Expr} {called : String}
    (hkind : t.kind = .macroCall) (hchildren : t.children = name :: us)
    (hname : name.kind = .macroName) (hmethod : name.isMethod = false)
    (hcalled : name.name = some called) (hmerged : mergeText name = name) (h : SpellsArgs us es) :
    Spells [t] (.call (.named called) (es.map .value)) := by
  refine .operand (by rw [hkind]; rfl) ?_ ?_
  · have hmerge : mergeAll t.children = t.children := by
      rw [hchildren]
      refine mergeAll_eq_self ?_ ?_
      · exact List.forall_mem_cons.2 ⟨hmerged, fun u hu => (h.merged u hu).1⟩
      · exact List.forall_mem_cons.2 ⟨by simp [hname], fun u hu => (h.merged u hu).2⟩
    rw [mergeText_eq, hmerge]
    cases t
    rfl
  · have hsignificant : Expr.significant t.children = name :: Expr.significant us := by
      rw [hchildren, Expr.significant, List.filter_cons_of_pos (by simp [Token.isWhitespace, hname])]
      rfl
    have hcall : ofOperand t false = ofCall t := by rw [ofOperand, hkind]
    rw [hcall, ofCall]
    split
    · rename_i hnil
      simp [hsignificant] at hnil
    · rename_i name' rest hcons
      rw [hsignificant, List.cons.injEq] at hcons
      obtain ⟨rfl, rfl⟩ := hcons
      simp [hname, hmethod, nameOf, hcalled, h.value]

end StoryScript
