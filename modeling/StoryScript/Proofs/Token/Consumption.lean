/-
  How far rules read.

  A scanner consumes at least a number of characters if whatever it leaves is the end of
  what it was given, that many characters further on. Sequences and choices of such
  scanners are such scanners, so each pattern follows from its primitives, and the table
  from its patterns (`consumes_of_mem_all`): no rule loses its place, and no rule that the
  table tries succeeds where it stands (`length_lt_of_scan`).
-/
import Mathlib
import StoryScript.Proofs.Token.Nesting

namespace StoryScript

/-! ## Scanners -/

namespace Scanner

variable {α β : Type} {m n : Nat}

/-- Leaves the end of what it is given, at least `n` characters further on. -/
def Consumes (n : Nat) (x : Scanner α) : Prop :=
  ∀ cs a rest, x cs = some (a, rest) → ∃ used, cs = used ++ rest ∧ n ≤ used.length

theorem Consumes.mono {x : Scanner α} (h : Consumes n x) (hle : m ≤ n) : Consumes m x := by
  intro cs a rest hx
  obtain ⟨used, hcs, hused⟩ := h cs a rest hx
  exact ⟨used, hcs, by omega⟩

theorem Consumes.weaken {x : Scanner α} (h : Consumes n x) : Consumes 0 x :=
  h.mono (Nat.zero_le n)

/-- What two scanners in a row consume adds up. -/
theorem Consumes.bind {x : Scanner α} {f : α → Scanner β} (hx : Consumes m x)
    (hf : ∀ a, Consumes n (f a)) : Consumes (m + n) (x >>= f) := by
  intro cs b rest h
  obtain ⟨a, mid, hread, hnext⟩ := bind_eq_some.1 h
  obtain ⟨first, rfl, hfirst⟩ := hx cs a mid hread
  obtain ⟨second, rfl, hsecond⟩ := hf a mid b rest hnext
  refine ⟨first ++ second, by rw [List.append_assoc], ?_⟩
  rw [List.length_append]
  omega

/-- Once enough is consumed, the scanners that follow need only keep their place. -/
theorem Consumes.andThen {x : Scanner α} {f : α → Scanner β} (hx : Consumes n x)
    (hf : ∀ a, Consumes 0 (f a)) : Consumes n (x >>= f) :=
  hx.bind hf

theorem Consumes.orElse {x y : Scanner α} (hx : Consumes n x) (hy : Consumes n y) :
    Consumes n (x <|> y) := by
  intro cs a rest h
  rcases orElse_eq_some.1 h with h | ⟨-, h⟩
  · exact hx cs a rest h
  · exact hy cs a rest h

/-- A scanner that consumes nothing keeps its place. -/
theorem consumes_of_stays {x : Scanner α} (h : ∀ cs a rest, x cs = some (a, rest) → rest = cs) :
    Consumes 0 x :=
  fun cs a rest hx => ⟨[], (h cs a rest hx).symm, Nat.le_refl 0⟩

theorem consumes_pure (a : α) : Consumes 0 (pure a : Scanner α) :=
  consumes_of_stays fun _ _ _ h => (pure_eq_some.1 h).2.symm

theorem consumes_failure : Consumes n (failure : Scanner α) := by
  intro cs a rest h
  cases h

theorem consumes_rest : Consumes 0 rest :=
  consumes_of_stays fun _ _ _ h => (congrArg Prod.snd (Option.some.inj h)).symm

theorem consumes_require (condition : Bool) : Consumes 0 (require condition) :=
  consumes_of_stays fun _ _ _ h => (require_eq_some.1 h).2.symm

theorem consumes_boundary : Consumes 0 boundary := by
  refine consumes_of_stays fun cs u rest h => ?_
  simp only [boundary] at h
  split at h
  · cases h
  · exact (congrArg Prod.snd (Option.some.inj h)).symm

theorem consumes_ahead (x : Scanner α) : Consumes 0 (ahead x) := by
  refine consumes_of_stays fun cs a rest h => ?_
  simp only [ahead, Option.map_eq_some_iff, Prod.mk.injEq] at h
  obtain ⟨-, -, -, rfl⟩ := h
  rfl

theorem consumes_notAhead (x : Scanner α) : Consumes 0 (notAhead x) := by
  refine consumes_of_stays fun cs u rest h => ?_
  simp only [notAhead] at h
  split at h
  · cases h
  · exact (congrArg Prod.snd (Option.some.inj h)).symm

theorem consumes_satisfy (p : Char → Bool) : Consumes 1 (satisfy p) := by
  intro cs c rest h
  exact ⟨[c], (append_of_satisfy h).1, Nat.le_refl 1⟩

theorem consumes_char (c : Char) : Consumes 1 (char c) := by
  intro cs u rest h
  exact ⟨[c], append_of_char h, Nat.le_refl 1⟩

theorem consumes_takeWhile (p : Char → Bool) : Consumes 0 (takeWhile p) := by
  intro cs run rest h
  exact ⟨run, append_of_takeWhile h, Nat.zero_le _⟩

theorem consumes_takeWhile1 (p : Char → Bool) : Consumes 1 (takeWhile1 p) := by
  intro cs run rest h
  refine ⟨run, append_of_takeWhile1 h, ?_⟩
  simp only [takeWhile1, bind_eq_some, require_eq_some, pure_eq_some] at h
  obtain ⟨_, _, -, _, _, ⟨hne, -⟩, rfl, -⟩ := h
  exact List.length_pos_iff.2 (by simpa using hne)

/-- A run that is required to be long is as long. -/
theorem consumes_run {p : Char → Bool} {f : List Char → Unit → Scanner α}
    (hf : ∀ run u, Consumes 0 (f run u)) :
    Consumes n (takeWhile p >>= fun run => require (n ≤ run.length) >>= f run) := by
  intro cs a rest h
  simp only [bind_eq_some, require_eq_some, decide_eq_true_eq] at h
  obtain ⟨run, _, hrun, u, mid, ⟨hlong, rfl⟩, hnext⟩ := h
  obtain ⟨used, hused, -⟩ := hf run u _ a rest hnext
  refine ⟨run ++ used, by rw [append_of_takeWhile hrun, hused, List.append_assoc], ?_⟩
  rw [List.length_append]
  omega

theorem consumes_blanks1 : Consumes 0 blanks1 := (consumes_takeWhile1 _).weaken

theorem consumes_skip (count : Nat) : Consumes count (skip count) := by
  intro cs u rest h
  simp only [skip] at h
  split at h
  · rename_i hcount
    obtain rfl : cs.drop count = rest := congrArg Prod.snd (Option.some.inj h)
    exact ⟨cs.take count, (List.take_append_drop count cs).symm, by simpa using hcount⟩
  · cases h

theorem consumes_literal (word : String) : Consumes word.length (literal word) := by
  intro cs u rest h
  have hlength := length_of_literal h
  simp only [literal] at h
  split at h
  · obtain rfl : cs.drop word.length = rest := congrArg Prod.snd (Option.some.inj h)
    refine ⟨cs.take word.length, (List.take_append_drop _ cs).symm, ?_⟩
    rw [List.length_take]
    omega
  · cases h

theorem consumes_keyword (word : String) : Consumes word.length (keyword word) :=
  (consumes_literal word).andThen fun _ => consumes_boundary

theorem consumes_endOfLine : Consumes 0 endOfLine := by
  intro cs u rest h
  obtain ⟨used, hused⟩ := append_of_endOfLine h
  exact ⟨used, hused, Nat.zero_le _⟩

theorem Consumes.discard {x : Scanner α} (h : Consumes n x) : Consumes n (Functor.discard x) :=
  h.andThen fun _ => consumes_pure ()

theorem consumes_optional {x : Scanner α} (h : Consumes n x) : Consumes 0 (optional x) :=
  .orElse (h.weaken.andThen fun a => consumes_pure (some a)) (consumes_pure none)

theorem consumes_ofSplit {f : List Char → Option (α × List Char)}
    (h : ∀ cs a rest, f cs = some (a, rest) → rest <:+ cs) : Consumes 0 (ofSplit f) := by
  intro cs a rest hx
  obtain ⟨used, hused⟩ := h cs a rest hx
  exact ⟨used, hused.symm, Nat.zero_le _⟩

end Scanner

/-! ## Patterns -/

namespace Pattern

open Scanner

/-! ### Searches -/

theorem suffix_of_skipOldMacro {quote : Option Char} {cs rest : List Char}
    (h : skipOldMacro quote cs = some rest) : rest <:+ cs := by
  fun_induction skipOldMacro quote cs with
  | case1 => cases h
  | case2 cs =>
    cases h
    exact ⟨['>', '>'], rfl⟩
  | case3 quote c cs ih => exact (ih h).trans ⟨['\\', c], rfl⟩
  | case4 c cs _ _ ih => exact (ih h).trans (List.suffix_cons c cs)
  | case5 q c cs _ ih => exact (ih h).trans (List.suffix_cons c cs)

theorem suffix_of_skipPast {word cs rest : List Char} (h : skipPast word cs = some rest) :
    rest <:+ cs := by
  fun_induction skipPast word cs with
  | case1 =>
    cases h
    exact List.suffix_rfl
  | case2 => cases h
  | case3 c cs _ =>
    cases h
    exact List.drop_suffix _ _
  | case4 c cs _ ih => exact (ih h).trans (List.suffix_cons c cs)

theorem suffix_of_skipTag {quote : Option Char} {cs rest : List Char}
    (h : skipTag quote cs = some rest) : rest <:+ cs := by
  fun_induction skipTag quote cs with
  | case1 => cases h
  | case2 q c cs ih => exact (ih h).trans (List.suffix_cons c cs)
  | case3 =>
    cases h
    exact List.suffix_cons '>' _
  | case4 => cases h
  | case5 c cs _ _ ih => exact (ih h).trans (List.suffix_cons c cs)

/-- A search keeps its place wherever it stops. -/
theorem consumes_search {f : List Char → Option (List Char)}
    (h : ∀ cs rest, f cs = some rest → rest <:+ cs) :
    Consumes 0 (ofSplit fun cs => (f cs).map fun rest => ((), rest)) := by
  refine consumes_ofSplit fun cs u rest hx => ?_
  simp only [Option.map_eq_some_iff, Prod.mk.injEq, true_and] at hx
  obtain ⟨_, hx, rfl⟩ := hx
  exact h cs _ hx

theorem consumes_linkText : Consumes 0 linkText := by
  intro cs text rest h
  exact ⟨text, append_of_linkText h, Nat.zero_le _⟩

theorem consumes_splitString (quote : Char) : Consumes 0 (ofSplit (splitString quote)) :=
  consumes_ofSplit fun _ text _ h => ⟨text ++ [quote], by
    rw [Lexer.append_of_splitString h, List.append_assoc, List.singleton_append]⟩

/-! ### Scanners that are shared -/

/-- A name has a character that is no digit, so it has a character. -/
theorem consumes_propertyName : Consumes 1 propertyName := by
  intro cs name rest h
  refine ⟨name, append_of_propertyName h, ?_⟩
  simp only [propertyName, bind_eq_some, require_eq_some, pure_eq_some] at h
  obtain ⟨_, _, -, _, _, ⟨hdigits, -⟩, rfl, -⟩ := h
  refine List.length_pos_iff.2 fun hnil => ?_
  simp [hnil] at hdigits

theorem consumes_calledName : Consumes 1 calledName :=
  .orElse
    ((consumes_char _).andThen fun _ => consumes_propertyName.weaken.andThen fun _ =>
      (consumes_char _).weaken.andThen fun _ => consumes_pure _)
    ((consumes_satisfy _).andThen fun _ => (consumes_takeWhile _).andThen fun _ =>
      (consumes_char _).weaken.andThen fun _ => consumes_pure _)

theorem consumes_ofIt : Consumes 1 ofIt :=
  ((consumes_keyword _).mono (by decide)).andThen fun _ =>
    (consumes_takeWhile1 _).weaken.andThen fun _ => (consumes_keyword _).weaken

theorem consumes_nameTag : Consumes 1 nameTag :=
  (consumes_char _).andThen fun _ => (consumes_takeWhile _).andThen fun _ =>
    (consumes_char _).weaken.andThen fun _ => consumes_pure _

theorem consumes_fraction {digits : Scanner (List Char)} (h : Consumes n digits) :
    Consumes 1 (fraction digits) :=
  (consumes_char _).andThen fun _ => h.weaken.andThen fun _ => consumes_pure _

theorem consumes_pointedDigits : Consumes 1 pointedDigits :=
  .orElse
    ((consumes_takeWhile1 _).andThen fun _ =>
      (Consumes.orElse (consumes_fraction (consumes_takeWhile _)).weaken (consumes_pure _)).andThen
        fun _ => consumes_pure _)
    (consumes_fraction (consumes_takeWhile1 _))

theorem consumes_exponent : Consumes 1 exponent :=
  (consumes_satisfy _).andThen fun _ =>
    (Consumes.orElse ((consumes_satisfy _).weaken.andThen fun _ => consumes_pure _)
      (consumes_pure _)).andThen fun _ =>
    (consumes_takeWhile1 _).weaken.andThen fun _ => consumes_pure _

theorem consumes_arrowLine {arrow : Scanner String} (h : Consumes 1 arrow) :
    Consumes 1 (arrowLine arrow) :=
  ((consumes_takeWhile _).bind fun _ => h.andThen fun _ => (consumes_takeWhile _).andThen fun _ =>
    consumes_endOfLine.andThen fun _ => consumes_pure _).mono (by decide)

theorem consumes_markedLine {marks : List Char → List Char × List Char}
    {gap : Scanner (List Char)} {depth : List Char → Nat}
    (hmarks : ∀ cs, (marks cs).1 ++ (marks cs).2 = cs) (hgap : Consumes n gap) :
    Consumes 1 (markedLine marks gap depth) := by
  intro source found rest h
  simp only [markedLine, bind_eq_some, require_eq_some, pure_eq_some, ofSplit,
    Function.comp_apply, Option.some.injEq] at h
  obtain ⟨indent, r₁, h₁, mark, r₂, h₂, _, _, ⟨hne, rfl⟩, space, r₃, h₃, body, r₄, h₄, _, _,
    ⟨-, rfl⟩, _, r₅, h₅, -, rfl⟩ := h
  have hmark : r₁ = mark ++ r₂ := by rw [← hmarks r₁, h₂]
  have hbody : r₃ = body ++ r₄ := by rw [← splitLine_append r₃, h₄]
  obtain ⟨gapText, hgapText, -⟩ := hgap r₂ space r₃ h₃
  obtain ⟨ending, hending⟩ := append_of_endOfLine h₅
  refine ⟨indent ++ mark ++ gapText ++ body ++ ending, ?_, ?_⟩
  · rw [append_of_takeWhile h₁, hmark, hgapText, hbody, hending]
    simp only [List.append_assoc]
  · -- the mark alone is a character
    have hpos : 0 < mark.length := List.length_pos_iff.2 (by simpa using hne)
    simp only [List.length_append]
    omega

/-! ### Patterns by their form -/

theorem consumes_leaf {x : Scanner Detail} (h : Consumes n x) : Consumes n (Pattern.leaf x).scan :=
  h.andThen fun _ => consumes_pure _

theorem consumes_plain {x : Scanner Unit} (h : Consumes n x) : Consumes n (Pattern.plain x).scan :=
  consumes_leaf (h.andThen fun _ => consumes_pure _)

theorem consumes_named {x : Scanner (List Char)} (h : Consumes n x) : Consumes n (named x).scan :=
  consumes_leaf (h.andThen fun _ => consumes_pure _)

theorem consumes_exactly {text : String} (h : n ≤ text.length) : Consumes n (exactly text).scan :=
  consumes_plain ((consumes_literal text).mono h)

theorem consumes_word {text : String} (h : n ≤ text.length) : Consumes n (word text).scan :=
  consumes_plain ((consumes_keyword text).mono h)

/-! ### Blocks -/

theorem consumes_horizontalRule : Consumes 1 horizontalRule.scan :=
  (consumes_plain ((consumes_takeWhile _).bind fun _ => consumes_run fun _ _ =>
    (consumes_takeWhile _).andThen fun _ => consumes_endOfLine)).mono (by decide)

theorem consumes_bulleted : Consumes 1 bulleted.scan :=
  consumes_markedLine (fun _ => List.takeWhile_append_dropWhile) (consumes_takeWhile1 _)

theorem consumes_numbered : Consumes 1 numbered.scan :=
  consumes_markedLine splitZeroDots_append (consumes_takeWhile1 _)

theorem consumes_heading : Consumes 1 heading.scan :=
  consumes_markedLine (splitAtMost_append _ _) (consumes_takeWhile _)

theorem consumes_rightArrow : Consumes 1 rightArrow :=
  (consumes_run fun _ _ => (consumes_char _).weaken.andThen fun _ => consumes_pure _).mono
    (by decide)

theorem consumes_leftArrow : Consumes 1 leftArrow :=
  (consumes_char _).andThen fun _ => (consumes_takeWhile1 _).weaken.andThen fun _ =>
    consumes_pure _

theorem consumes_balancedArrow : Consumes 1 balancedArrow :=
  (consumes_takeWhile1 _).andThen fun _ => (consumes_literal _).weaken.andThen fun _ =>
    (consumes_takeWhile1 _).weaken.andThen fun _ => consumes_pure _

theorem consumes_doubleArrow : Consumes 1 doubleArrow :=
  (consumes_char _).andThen fun _ => (consumes_takeWhile _).andThen fun _ =>
    (consumes_require _).andThen fun _ => (consumes_char _).weaken.andThen fun _ =>
    consumes_pure _

theorem consumes_align : Consumes 1 align.scan :=
  consumes_leaf (.orElse (consumes_arrowLine consumes_rightArrow)
    (.orElse (consumes_arrowLine consumes_leftArrow)
    (.orElse (consumes_arrowLine consumes_balancedArrow)
    (consumes_arrowLine consumes_doubleArrow))))

/-! ### Inline markup -/

theorem consumes_oldMacro : Consumes 1 oldMacro.scan :=
  consumes_leaf (((consumes_literal _).mono (by decide)).andThen fun _ =>
    (consumes_takeWhile1 _).weaken.andThen fun _ =>
    (consumes_search fun _ _ => suffix_of_skipOldMacro).andThen fun _ => consumes_pure _)

theorem consumes_lineBreak : Consumes 1 lineBreak.scan :=
  consumes_plain ((consumes_char _).andThen fun _ => consumes_notAhead _)

theorem consumes_escapedLine : Consumes 1 escapedLine.scan :=
  consumes_plain (.orElse (((consumes_literal _).mono (by decide)).andThen fun _ =>
    (consumes_optional (consumes_char _)).andThen fun _ => consumes_pure _)
    ((consumes_literal _).mono (by decide)))

theorem consumes_scriptStyleTag : Consumes 1 scriptStyleTag.scan :=
  consumes_plain ((consumes_char _).andThen fun _ => (consumes_takeWhile _).andThen fun _ =>
    (consumes_require _).andThen fun _ => (consumes_takeWhile _).andThen fun _ =>
    (consumes_char _).weaken.andThen fun _ => consumes_search fun _ _ => suffix_of_skipPast)

theorem consumes_tag : Consumes 1 tag.scan :=
  consumes_leaf ((consumes_char _).andThen fun _ =>
    (consumes_optional (consumes_char _)).andThen fun _ =>
    (consumes_satisfy _).weaken.andThen fun _ => (consumes_takeWhile _).andThen fun _ =>
    (consumes_search fun _ _ => suffix_of_skipTag).andThen fun _ => consumes_pure _)

theorem consumes_url : Consumes 1 url.scan := by
  have hscheme {text : String} (h : 1 ≤ text.length) : Consumes 1 (literal text) :=
    (consumes_literal text).mono h
  refine consumes_plain (Consumes.andThen ?_ fun _ => (consumes_literal _).weaken.andThen fun _ =>
    consumes_rest.andThen fun _ => (consumes_require _).andThen fun _ => (consumes_skip _).weaken)
  exact .orElse (hscheme (by decide)) (.orElse (hscheme (by decide)) (.orElse (hscheme (by decide))
    (.orElse (hscheme (by decide)) (.orElse (hscheme (by decide)) (hscheme (by decide))))))

theorem consumes_passageLink : Consumes 1 passageLink.scan := by
  refine ((consumes_literal _).mono (by decide)).andThen fun _ =>
    (consumes_notAhead _).andThen fun _ => (consumes_takeWhile _).andThen fun inner =>
    (consumes_literal _).weaken.andThen fun _ => ?_
  cases splitLink inner with
  | none => exact consumes_failure
  | some parts => exact consumes_pure _

theorem consumes_simpleLink : Consumes 1 simpleLink.scan :=
  ((consumes_literal _).mono (by decide)).andThen fun _ => consumes_linkText.andThen fun _ =>
    (consumes_literal _).weaken.andThen fun _ => consumes_pure _

theorem consumes_barLink : Consumes 1 barLink.scan :=
  ((consumes_literal _).mono (by decide)).andThen fun _ => consumes_linkText.andThen fun _ =>
    (consumes_char _).weaken.andThen fun _ => consumes_linkText.andThen fun _ =>
    (consumes_literal _).weaken.andThen fun _ => consumes_pure _

theorem consumes_hookPrependedFront : Consumes 1 hookPrependedFront.scan :=
  consumes_leaf ((consumes_char _).andThen fun _ => (consumes_takeWhile _).andThen fun _ =>
    (consumes_literal _).weaken.andThen fun _ => consumes_pure _)

theorem consumes_hookBack : Consumes 1 hookBack.scan :=
  consumes_plain ((consumes_char _).andThen fun _ => consumes_notAhead _)

theorem consumes_hookAppendedBack : Consumes 1 hookAppendedBack.scan :=
  consumes_leaf ((consumes_char _).andThen fun _ => consumes_nameTag.weaken.andThen fun _ =>
    consumes_pure _)

/-- A run of backticks may be empty: it is tried only at a backtick. -/
theorem consumes_verbatimOpener : Consumes 0 verbatimOpener.scan :=
  consumes_leaf ((consumes_takeWhile _).andThen fun _ => consumes_pure _)

/-! ### Calls, variables and properties -/

theorem consumes_macroName : Consumes 1 macroName.scan :=
  consumes_calledName.andThen fun _ => consumes_pure _

theorem consumes_macroFront : Consumes 1 macroFront.scan :=
  consumes_named ((consumes_char _).andThen fun _ => (consumes_ahead _).andThen fun _ =>
    consumes_pure _)

theorem consumes_groupingFront : Consumes 1 groupingFront.scan :=
  consumes_plain ((consumes_char _).andThen fun _ => consumes_notAhead _)

theorem consumes_hookRef : Consumes 1 hookRef.scan :=
  consumes_named ((consumes_char _).andThen fun _ => (consumes_takeWhile1 _).weaken)

theorem consumes_storyVariable : Consumes 1 storyVariable.scan :=
  consumes_named ((consumes_char _).andThen fun _ => consumes_propertyName.weaken)

theorem consumes_tempVariable : Consumes 1 tempVariable.scan :=
  consumes_named ((consumes_char _).andThen fun _ => consumes_propertyName.weaken)

theorem consumes_property : Consumes 1 property.scan :=
  consumes_named (((consumes_literal _).mono (by decide)).andThen fun _ =>
    consumes_blanks1.andThen fun _ => consumes_propertyName.weaken)

theorem consumes_possessiveOperator : Consumes 1 possessiveOperator.scan :=
  consumes_plain (((consumes_literal _).mono (by decide)).andThen fun _ =>
    consumes_blanks1.andThen fun _ => consumes_pure _)

theorem consumes_itsProperty : Consumes 1 itsProperty.scan :=
  consumes_named (((consumes_literal _).mono (by decide)).andThen fun _ =>
    consumes_blanks1.andThen fun _ => consumes_propertyName.weaken)

theorem consumes_itsOperator : Consumes 1 itsOperator.scan :=
  consumes_plain (((consumes_literal _).mono (by decide)).andThen fun _ =>
    consumes_blanks1.andThen fun _ => consumes_pure _)

theorem consumes_belongingItProperty : Consumes 1 belongingItProperty.scan :=
  consumes_named (consumes_propertyName.andThen fun _ => consumes_blanks1.andThen fun _ =>
    consumes_ofIt.weaken.andThen fun _ => consumes_pure _)

theorem consumes_belongingItOperator : Consumes 1 belongingItOperator.scan :=
  consumes_plain consumes_ofIt

theorem consumes_belongingProperty : Consumes 1 belongingProperty.scan :=
  consumes_named (consumes_propertyName.andThen fun _ => consumes_blanks1.andThen fun _ =>
    (consumes_keyword _).weaken.andThen fun _ => consumes_pure _)

/-! ### Literals -/

theorem consumes_whitespace : Consumes 1 whitespace.scan :=
  consumes_plain (consumes_takeWhile1 _).discard

theorem consumes_string : Consumes 1 string.scan :=
  consumes_plain ((consumes_satisfy _).andThen fun _ => (consumes_splitString _).discard)

theorem consumes_cssTime : Consumes 1 cssTime.scan :=
  consumes_leaf (consumes_pointedDigits.andThen fun _ =>
    (Consumes.orElse ((consumes_satisfy _).weaken.discard.andThen fun _ => consumes_pure _)
      (consumes_pure _)).andThen fun _ =>
    (consumes_literal _).weaken.andThen fun _ => consumes_boundary.andThen fun _ =>
    consumes_pure _)

theorem consumes_colour : Consumes 1 colour.scan := by
  refine consumes_leaf (.orElse ((consumes_char _).andThen fun _ => consumes_rest.andThen fun _ =>
    (consumes_require _).andThen fun _ => (consumes_skip _).weaken.andThen fun _ =>
    consumes_pure _) ?_)
  intro cs found rest h
  obtain ⟨name, mid, hname, hcode⟩ := bind_eq_some.1 h
  cases hc : Colour.codeOfName? (String.ofList name) with
  | none =>
    rw [hc] at hcode
    cases hcode
  | some code =>
    rw [hc] at hcode
    obtain ⟨-, rfl⟩ := pure_eq_some.1 hcode
    -- the empty text is no colour's name
    refine ⟨name, append_of_takeWhile hname, List.length_pos_iff.2 ?_⟩
    rintro rfl
    have hempty : Colour.codeOfName? (String.ofList []) = none := rfl
    rw [hempty] at hc
    cases hc

theorem consumes_number : Consumes 1 number.scan :=
  consumes_leaf (.orElse
    (((consumes_keyword _).mono (by decide)).andThen fun _ => consumes_pure _)
    ((consumes_takeWhile1 _).andThen fun _ =>
      (Consumes.orElse (consumes_fraction (consumes_takeWhile1 _)).weaken
        (consumes_pure _)).andThen fun _ =>
      (Consumes.orElse consumes_exponent.weaken (consumes_pure _)).andThen fun _ =>
      consumes_boundary.andThen fun _ => consumes_pure _))

theorem consumes_identifier : Consumes 1 identifier.scan :=
  consumes_leaf (.orElse
    (((consumes_keyword _).mono (by decide)).andThen fun _ => consumes_pure _)
    (((consumes_keyword _).mono (by decide)).andThen fun _ => consumes_pure _))

theorem consumes_boolean : Consumes 1 boolean.scan :=
  consumes_plain (.orElse ((consumes_keyword _).mono (by decide))
    ((consumes_keyword _).mono (by decide)))

/-! ### Operators -/

theorem consumes_sign (signs : List Char) : Consumes 1 (sign signs).scan :=
  consumes_leaf ((consumes_satisfy _).andThen fun _ => (consumes_notAhead _).andThen fun _ =>
    consumes_pure _)

theorem consumes_inequality : Consumes 1 inequality.scan :=
  consumes_leaf ((consumes_satisfy _).andThen fun _ =>
    (Consumes.orElse ((consumes_char _).weaken.andThen fun _ => consumes_pure _)
      (consumes_pure _)).andThen fun _ => consumes_pure _)

theorem consumes_augmentedAssign : Consumes 1 augmentedAssign.scan :=
  consumes_leaf ((consumes_satisfy _).andThen fun _ => (consumes_char _).weaken.andThen fun _ =>
    consumes_pure _)

theorem consumes_is : Consumes 1 Pattern.is.scan :=
  consumes_plain (((consumes_keyword _).mono (by decide)).andThen fun _ => consumes_notAhead _)

theorem consumes_isNot : Consumes 1 isNot.scan :=
  consumes_plain (((consumes_keyword _).mono (by decide)).andThen fun _ =>
    consumes_blanks1.andThen fun _ => (consumes_keyword _).weaken)

theorem consumes_isIn : Consumes 1 isIn.scan :=
  consumes_leaf (((consumes_keyword _).mono (by decide)).andThen fun _ =>
    consumes_blanks1.andThen fun _ =>
    (Consumes.orElse ((consumes_keyword _).weaken.andThen fun _ => consumes_blanks1.andThen fun _ =>
      consumes_pure _) (consumes_pure _)).andThen fun _ =>
    (consumes_keyword _).weaken.andThen fun _ => consumes_pure _)

theorem consumes_contains : Consumes 1 Pattern.contains.scan :=
  consumes_leaf (.orElse
    (((consumes_keyword _).mono (by decide)).andThen fun _ => consumes_pure _)
    (((consumes_keyword _).mono (by decide)).andThen fun _ => consumes_blanks1.andThen fun _ =>
      (consumes_keyword _).weaken.andThen fun _ => consumes_blanks1.andThen fun _ =>
      (consumes_keyword _).weaken.andThen fun _ => consumes_pure _))

theorem consumes_toWord : Consumes 1 toWord.scan :=
  consumes_plain (.orElse ((consumes_keyword _).mono (by decide))
    ((consumes_literal _).mono (by decide)))

theorem consumes_spread : Consumes 1 spread.scan :=
  consumes_plain (((consumes_literal _).mono (by decide)).andThen fun _ => consumes_notAhead _)

end Pattern

/-! ## The table -/

namespace Rule

open Scanner Pattern

/-- The least number of characters that a rule reads. A run of backticks may be empty. -/
def least (rule : Rule) : Nat :=
  if rule.kind = .verbatimOpener then 0 else 1

theorem consumes_block : ∀ rule ∈ blockRules, Consumes rule.least rule.pattern.scan := by
  simp only [blockRules, List.forall_mem_cons, List.not_mem_nil, false_implies, implies_true,
    and_true]
  exact ⟨consumes_horizontalRule, consumes_bulleted, consumes_numbered, consumes_heading,
    consumes_align⟩

theorem consumes_inline : ∀ rule ∈ inlineRules, Consumes rule.least rule.pattern.scan := by
  have hexactly {text : String} (h : 1 ≤ text.length) : Consumes 1 (exactly text).scan :=
    consumes_exactly h
  simp only [inlineRules, List.forall_mem_cons, List.not_mem_nil, false_implies, implies_true,
    and_true]
  exact ⟨consumes_oldMacro, consumes_lineBreak, hexactly (by decide), hexactly (by decide),
    hexactly (by decide), hexactly (by decide), hexactly (by decide), hexactly (by decide),
    hexactly (by decide), hexactly (by decide), hexactly (by decide), hexactly (by decide),
    consumes_scriptStyleTag, consumes_tag, consumes_url, consumes_passageLink, consumes_simpleLink,
    consumes_barLink, consumes_hookPrependedFront, hexactly (by decide), hexactly (by decide),
    consumes_hookBack, consumes_hookAppendedBack, consumes_verbatimOpener, hexactly (by decide),
    hexactly (by decide), consumes_escapedLine⟩

theorem consumes_expression : ∀ rule ∈ expressionRules, Consumes rule.least rule.pattern.scan := by
  simp only [expressionRules, List.forall_mem_cons, List.not_mem_nil, false_implies, implies_true,
    and_true]
  exact ⟨consumes_macroName, consumes_macroFront, consumes_exactly (by decide), consumes_hookRef,
    consumes_storyVariable, consumes_tempVariable⟩

theorem consumes_code : ∀ rule ∈ codeRules, Consumes rule.least rule.pattern.scan := by
  have hword {text : String} (h : 1 ≤ text.length) : Consumes 1 (word text).scan :=
    consumes_word h
  simp only [codeRules, List.forall_mem_cons, List.not_mem_nil, false_implies, implies_true,
    and_true]
  exact ⟨consumes_whitespace, consumes_groupingFront, consumes_property,
    consumes_possessiveOperator, consumes_itsProperty, consumes_itsOperator,
    consumes_belongingItProperty, consumes_belongingItOperator, consumes_belongingProperty,
    hword (by decide), consumes_string, consumes_cssTime, consumes_colour, consumes_number,
    consumes_sign _, consumes_sign _, consumes_sign _, consumes_sign _, consumes_inequality,
    consumes_augmentedAssign, consumes_identifier, consumes_boolean, consumes_is, consumes_isIn,
    consumes_isNot, consumes_contains, consumes_toWord, hword (by decide), hword (by decide),
    hword (by decide), hword (by decide), hword (by decide), hword (by decide), hword (by decide),
    hword (by decide), consumes_exactly (by decide), consumes_spread⟩

/-- No rule loses its place. -/
theorem consumes_of_mem_all {rule : Rule} (h : rule ∈ all) :
    Consumes rule.least rule.pattern.scan := by
  simp only [all, List.mem_append] at h
  rcases h with ((h | h) | h) | h
  · exact consumes_block rule h
  · exact consumes_inline rule h
  · exact consumes_expression rule h
  · exact consumes_code rule h

/-- A run of backticks that starts at a backtick is not empty. -/
theorem length_lt_of_verbatimOpener {c : Char} {cs rest : List Char}
    {found : Detail × Option Inside} (hc : c ∈ "`".toList)
    (hscan : verbatimOpener.scan (c :: cs) = some (found, rest)) :
    rest.length < (c :: cs).length := by
  obtain rfl : c = Char.ofNat 0x60 := List.mem_singleton.1 hc
  simp only [verbatimOpener, Pattern.scan, bind_eq_some, pure_eq_some] at hscan
  obtain ⟨_, _, ⟨ticks, _, hticks, -, rfl⟩, -, rfl⟩ := hscan
  simp only [takeWhile, Option.some.injEq, Prod.mk.injEq] at hticks
  obtain ⟨-, rfl⟩ := hticks
  rw [List.dropWhile_cons_of_pos rfl, List.length_cons]
  have hle := (List.dropWhile_sublist (· == Char.ofNat 0x60) (l := cs)).length_le
  omega

theorem verbatim_rules : all.filter (fun rule => rule.kind = .verbatimOpener) =
    [{ ofInline .verbatimOpener "`" verbatimOpener with isFront := true }] :=
  rfl

/-- Where a rule is tried it reads something: a run of backticks is tried only at a backtick. -/
theorem length_lt_of_scan {rule : Rule} (h : rule ∈ all) {source rest : List Char}
    {found : Detail × Option Inside} (hadmits : rule.admits source = true)
    (hscan : rule.pattern.scan source = some (found, rest)) : rest.length < source.length := by
  by_cases hkind : rule.kind = .verbatimOpener
  · have hmem : rule ∈ all.filter (fun rule => rule.kind = .verbatimOpener) := by simp [h, hkind]
    rw [verbatim_rules, List.mem_singleton] at hmem
    subst hmem
    cases source with
    | nil => cases hadmits
    | cons c cs => exact length_lt_of_verbatimOpener (List.contains_iff_mem.1 hadmits) hscan
  · obtain ⟨used, rfl, hused⟩ := consumes_of_mem_all h source found rest hscan
    simp only [least, hkind, if_false] at hused
    rw [List.length_append]
    omega

end Rule

end StoryScript
