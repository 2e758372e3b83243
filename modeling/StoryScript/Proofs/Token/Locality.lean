/-
  No rule of code looks past a closing parenthesis.

  A scanner is confined if it reads a text before a closing parenthesis as it reads the
  text alone. All patterns of code are, but for two: the parenthesis itself, and
  strings, which may run on over it. So the first match at the start of a text before a
  parenthesis is that of the text alone, or else it is longer than the text.
-/
import Mathlib
import StoryScript.Proofs.Token.CodeRules
import StoryScript.Proofs.Token.Nesting

namespace StoryScript

/-! ## Scanners -/

namespace Scanner

variable {α β : Type}

/-- A text before a closing parenthesis is read as the text alone. -/
def Confined (x : Scanner α) : Prop :=
  ∀ a b, x (a ++ ')' :: b) = (x a).map fun r => (r.1, r.2 ++ ')' :: b)

theorem confined_pure (v : α) : Confined (pure v : Scanner α) := fun _ _ => rfl

theorem confined_failure : Confined (failure : Scanner α) := fun _ _ => rfl

theorem Confined.bind {x : Scanner α} {f : α → Scanner β} (hx : Confined x)
    (hf : ∀ v, Confined (f v)) : Confined (x >>= f) := by
  intro a b
  have hrun : ∀ cs, (x >>= f) cs = (x cs).bind fun r => f r.1 r.2 := fun _ => rfl
  rw [hrun, hrun, hx a b]
  cases x a with
  | none => rfl
  | some r => exact hf r.1 r.2 b

theorem Confined.map {x : Scanner α} (f : α → β) (hx : Confined x) : Confined (f <$> x) := by
  intro a b
  have hrun : ∀ cs, (f <$> x) cs = (x cs).bind fun r => some (f r.1, r.2) := fun _ => rfl
  rw [hrun, hrun, hx a b]
  cases x a <;> rfl

theorem Confined.orElse {x y : Scanner α} (hx : Confined x) (hy : Confined y) :
    Confined (x <|> y) := by
  intro a b
  have hrun : ∀ cs, (x <|> y) cs = (x cs <|> y cs) := fun _ => rfl
  rw [hrun, hrun, hx a b, hy a b]
  cases x a <;> rfl

theorem confined_require (condition : Bool) : Confined (require condition) := by
  intro a b
  cases condition <;> rfl

theorem confined_satisfy {p : Char → Bool} (h : p ')' = false) : Confined (satisfy p) := by
  intro a b
  cases a with
  | nil => simp [satisfy, h]
  | cons c cs => by_cases hc : p c = true <;> simp [satisfy, hc]

theorem confined_char {c : Char} (h : c ≠ ')') : Confined (char c) := by
  intro a b
  cases a with
  | nil => simp [char, h.symm]
  | cons d cs => by_cases hd : d = c <;> simp [char, hd]

theorem confined_takeWhile {p : Char → Bool} (h : p ')' = false) :
    Confined (takeWhile p) := by
  intro a b
  induction a with
  | nil => simp [takeWhile, h]
  | cons c cs ih => by_cases hc : p c = true <;> simp_all [takeWhile]

theorem confined_takeWhile1 {p : Char → Bool} (h : p ')' = false) :
    Confined (takeWhile1 p) :=
  .bind (confined_takeWhile h) fun _ => .bind (confined_require _) fun _ => confined_pure _

theorem startsWithIgnoringCase_append {word : List Char} (h : ')' ∉ word) (a b : List Char) :
    Text.startsWithIgnoringCase word (a ++ ')' :: b) = Text.startsWithIgnoringCase word a := by
  induction word generalizing a with
  | nil => simp [Text.startsWithIgnoringCase]
  | cons w word ih =>
    obtain ⟨hw, hword⟩ := not_or.1 (List.mem_cons.not.1 h)
    cases a with
    | nil =>
      -- a parenthesis is no letter, so only itself is equal to it in any case
      have hlower : w.toLower ≠ ')' := by
        intro heq
        have hsame : (')' : Char).toLower = w.toLower := by rw [heq]; rfl
        exact hw (Text.eq_of_toLower_eq (by decide) hsame).symm
      simp [Text.startsWithIgnoringCase, hlower]
    | cons c cs => simp [Text.startsWithIgnoringCase, ih hword]

theorem confined_literal {word : String} (h : ')' ∉ word.toList) :
    Confined (literal word) := by
  intro a b
  simp only [literal, startsWithIgnoringCase_append h]
  split
  · rename_i hstarts
    have hlength := Text.length_le_of_startsWithIgnoringCase hstarts
    rw [String.length_toList] at hlength
    rw [List.drop_append_of_le_length hlength]
    rfl
  · rfl

theorem confined_boundary : Confined boundary := by
  have hword : Text.isWord ')' = false := by decide
  intro a b
  cases a with
  | nil => simp [boundary, hword]
  | cons c cs => by_cases hc : Text.isWord c = true <;> simp [boundary, hc]

theorem confined_keyword {word : String} (h : ')' ∉ word.toList) :
    Confined (keyword word) :=
  .bind (confined_literal h) fun _ => confined_boundary

theorem confined_blanks1 : Confined blanks1 :=
  confined_takeWhile1 (by decide)

theorem Confined.ahead {x : Scanner α} (hx : Confined x) : Confined (Scanner.ahead x) := by
  intro a b
  rw [Scanner.ahead, Scanner.ahead, hx a b]
  cases x a <;> rfl

theorem Confined.notAhead {x : Scanner α} (hx : Confined x) : Confined (Scanner.notAhead x) := by
  intro a b
  rw [Scanner.notAhead, Scanner.notAhead, hx a b]
  cases x a <;> rfl

end Scanner

/-! ## Patterns -/

namespace Pattern

open Scanner

theorem confined_leaf {x : Scanner Detail} (hx : Confined x) : Confined (leaf x).scan :=
  .bind hx fun _ => confined_pure _

theorem confined_plain {x : Scanner Unit} (hx : Confined x) : Confined (plain x).scan :=
  confined_leaf (.bind hx fun _ => confined_pure _)

theorem confined_named {x : Scanner (List Char)} (hx : Confined x) : Confined (named x).scan :=
  confined_leaf (.bind hx fun _ => confined_pure _)

theorem confined_word {text : String} (h : ')' ∉ text.toList) :
    Confined (word text).scan :=
  confined_plain (confined_keyword h)

/-! ### Names -/

theorem confined_propertyName : Confined propertyName :=
  .bind (confined_takeWhile (by decide)) fun _ =>
    .bind (confined_require _) fun _ => confined_pure _

theorem confined_calledName : Confined calledName :=
  .orElse
    (.bind (confined_char (by decide)) fun _ => .bind confined_propertyName fun _ =>
      .bind (confined_char (by decide)) fun _ => confined_pure _)
    (.bind (confined_satisfy (by decide)) fun _ => .bind (confined_takeWhile (by decide)) fun _ =>
      .bind (confined_char (by decide)) fun _ => confined_pure _)

theorem confined_macroName : Confined macroName.scan :=
  .bind confined_calledName fun ⟨_, _⟩ => confined_pure _

theorem confined_macroFront : Confined macroFront.scan :=
  confined_named <| .bind (confined_char (by decide)) fun _ =>
    .bind confined_calledName.ahead fun ⟨_, _⟩ => confined_pure _

theorem confined_groupingFront : Confined groupingFront.scan :=
  confined_plain <| .bind (confined_char (by decide)) fun _ => confined_calledName.notAhead

theorem confined_hookRef : Confined hookRef.scan :=
  confined_named <| .bind (confined_char (by decide)) fun _ => confined_takeWhile1 (by decide)

theorem confined_storyVariable : Confined storyVariable.scan :=
  confined_named <| .bind (confined_char (by decide)) fun _ => confined_propertyName

theorem confined_tempVariable : Confined tempVariable.scan :=
  confined_named <| .bind (confined_char (by decide)) fun _ => confined_propertyName

theorem confined_whitespace : Confined whitespace.scan :=
  confined_plain (.map _ confined_blanks1)

theorem confined_property : Confined property.scan :=
  confined_named <| .bind (confined_literal (by decide)) fun _ =>
    .bind confined_blanks1 fun _ => confined_propertyName

theorem confined_possessiveOperator : Confined possessiveOperator.scan :=
  confined_plain <| .bind (confined_literal (by decide)) fun _ =>
    .bind confined_blanks1 fun _ => confined_pure _

theorem confined_itsProperty : Confined itsProperty.scan :=
  confined_named <| .bind (confined_literal (by decide)) fun _ =>
    .bind confined_blanks1 fun _ => confined_propertyName

theorem confined_itsOperator : Confined itsOperator.scan :=
  confined_plain <| .bind (confined_literal (by decide)) fun _ =>
    .bind confined_blanks1 fun _ => confined_pure _

theorem confined_ofIt : Confined ofIt :=
  .bind (confined_keyword (by decide)) fun _ => .bind confined_blanks1 fun _ =>
    confined_keyword (by decide)

theorem confined_belongingItProperty : Confined belongingItProperty.scan :=
  confined_named <| .bind confined_propertyName fun _ => .bind confined_blanks1 fun _ =>
    .bind confined_ofIt fun _ => confined_pure _

theorem confined_belongingProperty : Confined belongingProperty.scan :=
  confined_named <| .bind confined_propertyName fun _ => .bind confined_blanks1 fun _ =>
    .bind (confined_keyword (by decide)) fun _ => confined_pure _

/-! ### Literals -/

theorem confined_fraction {digits : Scanner (List Char)} (h : Confined digits) :
    Confined (fraction digits) :=
  .bind (confined_char (by decide)) fun _ => .bind h fun _ => confined_pure _

theorem confined_pointedDigits : Confined pointedDigits :=
  .orElse
    (.bind (confined_takeWhile1 (by decide)) fun _ =>
      .bind (.orElse (confined_fraction (confined_takeWhile (by decide))) (confined_pure _))
        fun _ => confined_pure _)
    (confined_fraction (confined_takeWhile1 (by decide)))

theorem confined_cssTime : Confined cssTime.scan :=
  confined_leaf <| .bind confined_pointedDigits fun _ =>
    .bind (.orElse (.bind (.map _ (confined_satisfy (by decide))) fun _ => confined_pure _)
      (confined_pure _)) fun _ =>
    .bind (confined_literal (by decide)) fun _ => .bind confined_boundary fun _ => confined_pure _

/-- The digits of a colour are skipped by count, which the run of digits bounds. -/
theorem confined_colour : Confined colour.scan := by
  have hrun (a b : List Char) :
      (a ++ ')' :: b).takeWhile Text.isHexDigit = a.takeWhile Text.isHexDigit := by
    have h := confined_takeWhile (p := Text.isHexDigit) (by decide) a b
    simp only [Scanner.takeWhile, Option.map_some, Option.some.injEq, Prod.mk.injEq] at h
    exact h.1
  refine confined_leaf <| .orElse (.bind (confined_char (by decide)) fun _ => ?_)
    (.bind (confined_takeWhile (by decide)) fun _ => ?_)
  · intro a b
    have hrest (cs : List Char) : Scanner.rest cs = some (cs, cs) := rfl
    rw [bind_of_eq_some (hrest _), bind_of_eq_some (hrest _), hrun]
    have hlength : (a.takeWhile Text.isHexDigit).length ≤ a.length :=
      (List.takeWhile_sublist _).length_le
    generalize a.takeWhile Text.isHexDigit = digits at hlength ⊢
    by_cases hdigits : 3 ≤ digits.length
    · have hcount : (if 6 ≤ digits.length then 6 else 3) ≤ a.length := by
        split <;> omega
      generalize (if 6 ≤ digits.length then 6 else 3) = count at hcount ⊢
      have hskip : skip count a = some ((), a.drop count) := if_pos hcount
      have hskip' : skip count (a ++ ')' :: b) = some ((), a.drop count ++ ')' :: b) := by
        rw [skip, if_pos (by rw [List.length_append]; omega),
          List.drop_append_of_le_length hcount]
      have hrequire (cs : List Char) : require (3 ≤ digits.length) cs = some ((), cs) := by
        simp [require, hdigits]
      rw [bind_of_eq_some (hrequire _), bind_of_eq_some (hrequire _), bind_of_eq_some hskip,
        bind_of_eq_some hskip']
      rfl
    · have hrequire (cs : List Char) : require (3 ≤ digits.length) cs = none := by
        simp [require, hdigits]
      rw [bind_of_eq_none (hrequire _), bind_of_eq_none (hrequire _)]
      rfl
  · split
    · exact confined_failure
    · exact confined_pure _

theorem confined_exponent : Confined exponent :=
  .bind (confined_satisfy (by decide)) fun _ =>
    .bind (.orElse (.bind (confined_satisfy (by decide)) fun _ => confined_pure _)
      (confined_pure _)) fun _ =>
    .bind (confined_takeWhile1 (by decide)) fun _ => confined_pure _

theorem confined_number : Confined number.scan :=
  confined_leaf <| .orElse (.bind (confined_keyword (by decide)) fun _ => confined_pure _)
    (.bind (confined_takeWhile1 (by decide)) fun _ =>
      .bind (.orElse (confined_fraction (confined_takeWhile1 (by decide))) (confined_pure _))
      fun _ => .bind (.orElse confined_exponent (confined_pure _)) fun _ =>
      .bind confined_boundary fun _ => confined_pure _)

theorem confined_identifier : Confined identifier.scan :=
  confined_leaf <| .orElse (.bind (confined_keyword (by decide)) fun _ => confined_pure _)
    (.bind (confined_keyword (by decide)) fun _ => confined_pure _)

theorem confined_boolean : Confined boolean.scan :=
  confined_plain (.orElse (confined_keyword (by decide)) (confined_keyword (by decide)))

/-! ### Operators -/

theorem confined_sign {signs : List Char} (h : signs.contains ')' = false) :
    Confined (sign signs).scan :=
  confined_leaf <| .bind (confined_satisfy h) fun _ =>
    .bind (confined_char (by decide)).notAhead fun _ => confined_pure _

theorem confined_inequality : Confined inequality.scan :=
  confined_leaf <| .bind (confined_satisfy (by decide)) fun _ =>
    .bind (.orElse (.bind (confined_char (by decide)) fun _ => confined_pure _)
      (confined_pure _)) fun _ => confined_pure _

theorem confined_augmentedAssign : Confined augmentedAssign.scan :=
  confined_leaf <| .bind (confined_satisfy (by decide)) fun _ =>
    .bind (confined_char (by decide)) fun _ => confined_pure _

theorem confined_is : Confined is.scan := by
  refine confined_plain <| .bind (confined_keyword (by decide)) fun _ => .notAhead ?_
  exact .bind confined_blanks1 fun _ =>
    .orElse (confined_keyword (by decide)) (confined_keyword (by decide))

theorem confined_isNot : Confined isNot.scan :=
  confined_plain <| .bind (confined_keyword (by decide)) fun _ => .bind confined_blanks1 fun _ =>
    confined_keyword (by decide)

theorem confined_isIn : Confined isIn.scan :=
  confined_leaf <| .bind (confined_keyword (by decide)) fun _ => .bind confined_blanks1 fun _ =>
    .bind (.orElse (.bind (confined_keyword (by decide)) fun _ => .bind confined_blanks1 fun _ =>
      confined_pure _) (confined_pure _)) fun _ =>
    .bind (confined_keyword (by decide)) fun _ => confined_pure _

theorem confined_contains : Confined contains.scan :=
  confined_leaf <| .orElse (.bind (confined_keyword (by decide)) fun _ => confined_pure _)
    (.bind (confined_keyword (by decide)) fun _ => .bind confined_blanks1 fun _ =>
      .bind (confined_keyword (by decide)) fun _ => .bind confined_blanks1 fun _ =>
      .bind (confined_keyword (by decide)) fun _ => confined_pure _)

theorem confined_toWord : Confined toWord.scan :=
  confined_plain (.orElse (confined_keyword (by decide)) (confined_literal (by decide)))

theorem confined_comma : Confined (exactly ",").scan :=
  confined_plain (confined_literal (by decide))

theorem confined_spread : Confined spread.scan :=
  confined_plain <| .bind (confined_literal (by decide)) fun _ =>
    (confined_char (by decide)).notAhead

/-! ### Every pattern of code -/

/-- Before a closing parenthesis a pattern matches as in the text alone, or beyond the text. -/
def IsLocal (p : Pattern) : Prop :=
  ∀ a b, p.capture? (a ++ ')' :: b) = p.capture? a ∨
    ∃ c, p.capture? (a ++ ')' :: b) = some c ∧ a.length < c.text.length

theorem capture?_append {p : Pattern} {a b : List Char}
    (h : p.scan (a ++ ')' :: b) = (p.scan a).map fun r => (r.1, r.2 ++ ')' :: b)) :
    p.capture? (a ++ ')' :: b) = p.capture? a := by
  simp only [capture?, h]
  cases p.scan a with
  | none => rfl
  | some r =>
    obtain ⟨⟨detail, inside⟩, rest⟩ := r
    have hlength : (a ++ ')' :: b).length - (rest ++ ')' :: b).length = a.length - rest.length := by
      simp only [List.length_append]
      omega
    simp only [Option.map_some, hlength, List.take_append_of_le_length (Nat.sub_le _ _)]

theorem isLocal_of_confined {p : Pattern} (h : Confined p.scan) : p.IsLocal :=
  fun _ _ => .inl (capture?_append (h _ _))

theorem isLocal_paren : (exactly ")").IsLocal := by
  have hsome (cs : List Char) : (exactly ")").capture? (')' :: cs) = some ⟨[')'], {}, none⟩ :=
    @capture?_plain _ [')'] cs rfl (by simp)
  intro a b
  cases a with
  | nil => exact .inr ⟨_, hsome b, by simp⟩
  | cons c cs =>
    left
    by_cases hc : c = ')'
    · rw [hc, List.cons_append, hsome, hsome]
    · have hnone (ds : List Char) : literal ")" (c :: ds) = none := by
        have hlower : (')' : Char).toLower ≠ c.toLower := fun heq =>
          hc (Text.eq_of_toLower_eq (by decide) heq)
        have hstarts : Text.startsWithIgnoringCase ")".toList (c :: ds) = false := by
          show ((')' : Char).toLower == c.toLower && _) = false
          rw [beq_eq_false_iff_ne.2 hlower, Bool.false_and]
        rw [literal, hstarts]
        rfl
      rw [exactly, List.cons_append, capture?_plain_eq_none (hnone _),
        capture?_plain_eq_none (hnone _)]

theorem splitString_cons {quote c : Char} (hc : c ≠ '\\') (cs : List Char) :
    splitString quote (c :: cs) = if c = quote then some ([], cs)
      else (splitString quote cs).map fun (text, left) => (c :: text, left) := by
  rw [splitString]
  intro _ _ h
  exact absurd h hc

/-- What is found in a text is found whatever follows, or else it ends in what follows. -/
def EndsAlike (rest : List Char) (alone within : Option (List Char × List Char)) : Prop :=
  (∃ text left, alone = some (text, left) ∧ within = some (text, left ++ rest)) ∨
  (alone = none ∧ ∀ text left, within = some (text, left) → left.length < rest.length)

theorem EndsAlike.map {rest : List Char} {alone within : Option (List Char × List Char)}
    (h : EndsAlike rest alone within) (f : List Char → List Char) :
    EndsAlike rest (alone.map fun (text, left) => (f text, left))
      (within.map fun (text, left) => (f text, left)) := by
  rcases h with ⟨text, left, rfl, rfl⟩ | ⟨rfl, hwithin⟩
  · exact .inl ⟨f text, left, rfl, rfl⟩
  · refine .inr ⟨rfl, fun text left h => ?_⟩
    obtain ⟨⟨text', left'⟩, h, heq⟩ := Option.map_eq_some_iff.1 h
    exact (Prod.mk.inj heq).2 ▸ hwithin text' left' h

theorem splitString_append {quote : Char} (hquote : quote ≠ '\\') (rest a : List Char) :
    EndsAlike rest (splitString quote a) (splitString quote (a ++ rest)) := by
  have hshorter {cs text left : List Char} (h : splitString quote cs = some (text, left)) :
      left.length < cs.length := by
    rw [Lexer.append_of_splitString h, List.length_append, List.length_cons]
    omega
  fun_induction splitString quote a with
  | case1 => exact .inr ⟨rfl, fun _ _ h => hshorter h⟩
  | case2 c cs ih => exact ih.map ('\\' :: c :: ·)
  | case3 cs _ =>
    left
    refine ⟨[], cs, rfl, ?_⟩
    rw [List.cons_append, splitString_cons hquote, if_pos rfl]
  | case4 c cs hescape hc ih =>
    by_cases hslash : c = '\\'
    · -- a backslash that ends the text hides what comes after it
      obtain rfl : cs = [] := by
        rcases cs with _ | ⟨d, ds⟩
        · rfl
        · exact (hescape d ds hslash rfl).elim
      refine .inr ⟨rfl, fun text left h => ?_⟩
      rcases rest with _ | ⟨d, rest⟩
      · rw [hslash] at h
        simp [splitString, hquote.symm] at h
      · rw [hslash] at h
        obtain ⟨⟨text', left'⟩, h, heq⟩ := Option.map_eq_some_iff.1 h
        have hlength := hshorter h
        rw [List.length_cons, ← (Prod.mk.inj heq).2]
        omega
    · rw [List.cons_append, splitString_cons hslash, if_neg hc]
      exact ih.map (c :: ·)

theorem scan_plain (x : Scanner Unit) (cs : List Char) :
    (plain x).scan cs = (x cs).map fun r => (({}, none), r.2) := by
  show ((x cs).bind fun r => some (({} : Detail), r.2)).bind (fun r => some ((r.1, none), r.2)) = _
  cases x cs <;> rfl

theorem of_scan_plain {x : Scanner Unit} {cs rest : List Char} {found : Detail × Option Inside}
    (h : (plain x).scan cs = some (found, rest)) : x cs = some ((), rest) := by
  rw [scan_plain] at h
  obtain ⟨⟨⟨⟩, rest'⟩, hx, heq⟩ := Option.map_eq_some_iff.1 h
  rw [hx, show rest' = rest from (Prod.mk.inj heq).2]

theorem scan_string (c : Char) (cs : List Char) :
    string.scan (c :: cs) = if c == '"' || c == '\'' then
      (splitString c cs).map fun r => (({}, none), r.2) else none := by
  rw [string, scan_plain]
  split
  · rename_i hc
    rw [bind_of_eq_some (satisfy_cons hc cs)]
    show ((splitString c cs).bind fun r => some ((), r.2)).map _ = _
    cases splitString c cs <;> rfl
  · rename_i hc
    rw [bind_of_eq_none (satisfy_eq_none (by simpa using hc))]
    rfl

theorem isLocal_string : string.IsLocal := by
  intro a b
  cases a with
  | nil => exact .inl rfl
  | cons c cs =>
    by_cases hc : (c == '"' || c == '\'') = true
    · have hslash : c ≠ '\\' := by
        rintro rfl
        exact absurd hc (by decide)
      rcases splitString_append hslash (')' :: b) cs with
        ⟨text, left, halone, hwithin⟩ | ⟨halone, hwithin⟩
      · left
        apply capture?_append
        rw [List.cons_append, scan_string, scan_string, if_pos hc, if_pos hc, halone, hwithin]
        rfl
      · cases hsplit : splitString c (cs ++ ')' :: b) with
        | none =>
          left
          apply capture?_append
          rw [List.cons_append, scan_string, scan_string, if_pos hc, if_pos hc, halone, hsplit]
          rfl
        | some r =>
          right
          have hshort := hwithin r.1 r.2 hsplit
          have hscan : string.scan (c :: cs ++ ')' :: b) = some (({}, none), r.2) := by
            rw [List.cons_append, scan_string, if_pos hc, hsplit]
            rfl
          have hlong : (c :: cs).length <
              ((c :: cs ++ ')' :: b).take ((c :: cs ++ ')' :: b).length - r.2.length)).length := by
            simp only [List.length_take, List.length_append, List.length_cons] at hshort ⊢
            omega
          have hne := List.ne_nil_of_length_pos (Nat.zero_lt_of_lt hlong)
          exact ⟨⟨_, {}, none⟩, capture?_eq_some.2 ⟨r.2, hscan, rfl, hne⟩, hlong⟩
    · left
      apply capture?_append
      rw [List.cons_append, scan_string, scan_string, if_neg hc, if_neg hc]
      rfl

end Pattern

/-! ## Rules -/

namespace Rule

open Pattern in
/-- The rules of code are local. -/
theorem isLocal_of_mem {rule : Rule} (h : rule ∈ expressionRules ++ codeRules) :
    rule.pattern.IsLocal := by
  have hlocal {p : Pattern} : Scanner.Confined p.scan → p.IsLocal := isLocal_of_confined
  have hexpression : ∀ rule ∈ expressionRules, rule.pattern.IsLocal := by
    simp only [expressionRules, List.forall_mem_cons, List.not_mem_nil, false_implies, implies_true,
      and_true]
    exact ⟨hlocal confined_macroName, hlocal confined_macroFront, isLocal_paren,
      hlocal confined_hookRef, hlocal confined_storyVariable, hlocal confined_tempVariable⟩
  have hcode : ∀ rule ∈ codeRules, rule.pattern.IsLocal := by
    simp only [codeRules, List.forall_mem_cons, List.not_mem_nil, false_implies, implies_true,
      and_true]
    exact ⟨hlocal confined_whitespace, hlocal confined_groupingFront, hlocal confined_property,
      hlocal confined_possessiveOperator, hlocal confined_itsProperty, hlocal confined_itsOperator,
      hlocal confined_belongingItProperty, hlocal (confined_plain confined_ofIt),
      hlocal confined_belongingProperty, hlocal (confined_word (by decide)), isLocal_string,
      hlocal confined_cssTime, hlocal confined_colour, hlocal confined_number,
      hlocal (confined_sign (by decide)), hlocal (confined_sign (by decide)),
      hlocal (confined_sign (by decide)), hlocal (confined_sign (by decide)),
      hlocal confined_inequality, hlocal confined_augmentedAssign, hlocal confined_identifier,
      hlocal confined_boolean, hlocal confined_is, hlocal confined_isIn, hlocal confined_isNot,
      hlocal confined_contains, hlocal confined_toWord, hlocal (confined_word (by decide)),
      hlocal (confined_word (by decide)), hlocal (confined_word (by decide)),
      hlocal (confined_word (by decide)), hlocal (confined_word (by decide)),
      hlocal (confined_word (by decide)), hlocal (confined_word (by decide)),
      hlocal (confined_word (by decide)), hlocal confined_comma, hlocal confined_spread⟩
  exact (List.mem_append.1 h).elim (hexpression rule) (hcode rule)

theorem activeIn_of_fits {rule : Rule} {here : Situation} (hmode : here.mode = .code)
    (hfits : rule.fits here = true) : rule.scope.activeIn .code = true := by
  simp only [fits, hmode, Bool.and_eq_true] at hfits
  exact hfits.1.1.1.1

theorem mem_of_activeIn {rule : Rule} (hrule : rule ∈ all)
    (hactive : rule.scope.activeIn .code = true) : rule ∈ expressionRules ++ codeRules := by
  have htable : (blockRules ++ inlineRules).all (fun rule => !rule.scope.activeIn .code) = true :=
    rfl
  rw [all, List.append_assoc _ expressionRules] at hrule
  rcases List.mem_append.1 hrule with hmarkup | hcode
  · have := List.all_eq_true.1 htable rule hmarkup
    simp [hactive] at this
  · exact hcode

theorem match?_append {rule : Rule} (hrule : rule ∈ all) {here : Situation}
    (hmode : here.mode = .code) {a : List Char} (ha : a ≠ []) (b : List Char) :
    rule.match? here (a ++ ')' :: b) = rule.match? here a ∨
      ∃ c, rule.match? here (a ++ ')' :: b) = some c ∧ a.length < c.text.length := by
  by_cases hfits : rule.fits here = true
  · have hadmits : rule.admits (a ++ ')' :: b) = rule.admits a := by
      obtain ⟨c, cs, rfl⟩ := List.exists_cons_of_ne_nil ha
      rfl
    have hmem := mem_of_activeIn hrule (activeIn_of_fits hmode hfits)
    cases h : rule.admits a with
    | false => simp [match?, hadmits, h]
    | true =>
      rw [match?_of_fits hfits (hadmits.trans h), match?_of_fits hfits h]
      exact isLocal_of_mem hmem a b
  · left
    rw [Bool.not_eq_true] at hfits
    rw [match?_of_not_fits hfits, match?_of_not_fits hfits]

end Rule

/-- Of two searches that agree but where the first finds something long, the first finds what the
second finds, or something long. -/
theorem findSome?_or_long {α β : Type} {l : List α} {f g : α → Option β} {long : β → Prop}
    (h : ∀ x ∈ l, f x = g x ∨ ∃ y, f x = some y ∧ long y) :
    l.findSome? f = l.findSome? g ∨ ∃ y, l.findSome? f = some y ∧ long y := by
  induction l with
  | nil => exact .inl rfl
  | cons x xs ih =>
    obtain ⟨hx, hxs⟩ := List.forall_mem_cons.1 h
    rw [List.findSome?_cons, List.findSome?_cons]
    rcases hx with heq | ⟨y, hy, hlong⟩
    · rw [heq]
      cases g x with
      | none => exact ih hxs
      | some y => exact .inl rfl
    · exact .inr ⟨y, by rw [hy], hlong⟩

namespace Rule

/-- Before a closing parenthesis the first match in code is that of the text alone, or longer than
the text. -/
theorem firstMatch_append {here : Situation} (hmode : here.mode = .code) {a : List Char}
    (ha : a ≠ []) (b : List Char) :
    firstMatch here (a ++ ')' :: b) = firstMatch here a ∨
      ∃ rule c, firstMatch here (a ++ ')' :: b) = some (rule, c) ∧ a.length < c.text.length := by
  have h := @findSome?_or_long _ _ all
    (fun rule => (rule.match? here (a ++ ')' :: b)).map (rule, ·))
    (fun rule => (rule.match? here a).map (rule, ·))
    (fun found => a.length < found.2.text.length) ?_
  · exact h.imp_right fun ⟨⟨rule, c⟩, hfound, hlong⟩ => ⟨rule, c, hfound, hlong⟩
  · intro rule hrule
    rcases match?_append hrule hmode ha b with heq | ⟨c, hc, hlong⟩
    · exact .inl (by rw [heq])
    · exact .inr ⟨(rule, c), by rw [hc]; rfl, hlong⟩

end Rule

/-! ## Situations -/

/-- Two situations in code that differ only in what the rules of code do not ask for: which openers
there are, and whether a grouping starts or the whole text. -/
structure Situation.Alike (here there : Situation) : Prop where
  mode : here.mode = .code ∧ there.mode = .code
  afterWord : here.afterWord = there.afterWord
  last : here.last = there.last ∨ here.last = some .groupingFront ∧ there.last = none

namespace Rule

theorem fits_of_alike {rule : Rule} (hrule : rule ∈ all) {here there : Situation}
    (h : here.Alike there) : rule.fits here = rule.fits there := by
  -- read off the table, for all its rules at once
  have htable : all.all (fun rule => !rule.scope.activeIn .code || (!rule.needsFront &&
      rule.follows.all (fun kinds =>
        !kinds.contains none && !kinds.contains (some .groupingFront)) &&
      !rule.avoids.contains none && !rule.avoids.contains (some .groupingFront))) = true := by
    decide
  have hentry := List.all_eq_true.1 htable rule hrule
  simp only [fits, h.mode, h.afterWord]
  cases hactive : rule.scope.activeIn .code with
  | false => rfl
  | true =>
    simp only [hactive, Bool.not_true, Bool.false_or, Bool.and_eq_true, Bool.not_eq_true'] at hentry
    obtain ⟨⟨⟨hfront, hfollows⟩, hnone⟩, hopen⟩ := hentry
    rcases h.last with hlast | ⟨hlast, hlast'⟩
    · simp only [hlast, hfront, Bool.not_false, Bool.true_or]
    · -- no rule of code asks for either start, and none avoids one of them
      have hsame : rule.follows.all (·.contains (some .groupingFront)) =
          rule.follows.all (·.contains none) := by
        cases hkinds : rule.follows with
        | none => rfl
        | some kinds =>
          simp only [hkinds, Option.all_some, Bool.and_eq_true, Bool.not_eq_true'] at hfollows ⊢
          rw [hfollows.1, hfollows.2]
      simp only [hlast, hlast', hsame, hnone, hopen, hfront, Bool.not_false, Bool.true_or]

theorem firstMatch_of_alike {here there : Situation} (h : here.Alike there) (source : List Char) :
    firstMatch here source = firstMatch there source := by
  have hsame : ∀ rule ∈ all, (rule.match? here source).map (rule, ·) =
      (rule.match? there source).map (rule, ·) := by
    intro rule hrule
    rw [match?, match?, fits_of_alike hrule h]
  rw [firstMatch, firstMatch]
  -- the search is the same over any rules, and the table is better not unfolded
  generalize all = rules at hsame ⊢
  induction rules with
  | nil => rfl
  | cons rule rules ih =>
    obtain ⟨hrule, hrules⟩ := List.forall_mem_cons.1 hsame
    rw [List.findSome?_cons, List.findSome?_cons, hrule, ih hrules]

/-- What is found before a closing parenthesis, if it does not reach the parenthesis, is found in
the text alone. -/
theorem firstMatch_alone {here there : Situation} (h : here.Alike there) {a b : List Char}
    (ha : a ≠ []) {found : Option (Rule × Capture)}
    (hfound : firstMatch here (a ++ ')' :: b) = found)
    (hshort : ∀ p ∈ found, p.2.text.length ≤ a.length) : firstMatch there a = found := by
  rcases firstMatch_append h.mode.1 ha b with heq | ⟨rule, c, hlong, hlength⟩
  · rw [← firstMatch_of_alike h, ← heq, hfound]
  · exact absurd (hshort (rule, c) (hfound.symm.trans hlong)) (Nat.not_le_of_lt hlength)

end Rule

end StoryScript
