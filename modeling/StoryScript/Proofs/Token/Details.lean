/-
  What tokens carry.

  The kind of a token says what it has to carry: a sign its operator, a colour a code that can be
  read, an error its message, the name of a call the name or the variable that holds the call, and
  a call its name in front. `IsComplete` says so of one token. For the tokens of rules it follows
  from the patterns; calls are not made by rules but by folding.
-/
import Mathlib
import StoryScript.Proofs.Token.CodeRules
import StoryScript.Proofs.Token.NormalForm

namespace StoryScript

/-! ## Complete tokens -/

/-- The kinds whose tokens have to carry something. -/
def Kind.asks : Kind → Bool
  | addition | subtraction | multiplication | division | inequality | colour | error | macroName
  | macroCall => true
  | _ => false

namespace Token

/-- The name of a call: written out, or a story variable, which is then the only token inside. -/
inductive IsCallName (t : Token) : Prop where
  | written {name : String} (plain : t.isMethod = false) (named : t.name = some name)
  | held {v : Token} {name : String} (method : t.isMethod = true) (only : t.children = [v])
      (kind : v.kind = .storyVariable) (holds : v.name = some name)
      (named : t.name = some ("$" ++ name))

/-- What lexing says about malformed text. -/
def lexingErrors : List String :=
  ["This hook doesn't have a matching ].", "Twine 1 macro syntax isn't supported."]

/-- A token that carries what its kind asks for. -/
structure IsComplete (t : Token) : Prop where
  operator : t.kind ∈ [.addition, .subtraction, .multiplication, .division, .inequality] →
    ∃ op, t.operator = some op
  colour : t.kind = .colour →
    ∃ code, t.colour = some code ∧ (Colour.ofHex? code).isSome = true
  error : t.kind = .error → ∃ message ∈ lexingErrors, t.message = some message
  name : t.kind = .macroName → t.IsCallName
  call : t.kind = .macroCall → ∃ name rest, t.children = name :: rest ∧
    name.kind = .macroName ∧ name.name = t.name

theorem isComplete_of_not_asks {t : Token} (h : t.kind.asks = false) : t.IsComplete := by
  constructor
  all_goals
    intro hkind
    first
    | rw [hkind] at h
      cases h
    | simp only [List.mem_cons, List.not_mem_nil, or_false] at hkind
      rcases hkind with hkind | hkind | hkind | hkind | hkind <;> (rw [hkind] at h; cases h)

end Token

/-! ## Codes of colours -/

namespace Colour

theorem exists_hexValue {c : Char} (h : Text.isHexDigit c = true) : ∃ n, hexValue? c = some n := by
  unfold hexValue?
  split_ifs with hdigit hlower hupper
  · exact ⟨_, rfl⟩
  · exact ⟨_, rfl⟩
  · exact ⟨_, rfl⟩
  · simp [Text.isHexDigit, hdigit, hlower, hupper] at h

theorem exists_pair {high low : Char} (hhigh : Text.isHexDigit high = true)
    (hlow : Text.isHexDigit low = true) : ∃ n, pair? high low = some n := by
  obtain ⟨h, hh⟩ := exists_hexValue hhigh
  obtain ⟨l, hl⟩ := exists_hexValue hlow
  by_cases hplus : high = '+'
  · exact ⟨_, by simp [pair?, hplus, hl]; rfl⟩
  · exact ⟨_, by simp [pair?, hplus, hh, hl]; rfl⟩

/-- Three or six hexadecimal digits are the code of a colour. -/
theorem isSome_ofHex? {digits : List Char} (h : ∀ c ∈ digits, Text.isHexDigit c = true)
    (hlength : digits.length = 3 ∨ digits.length = 6) :
    (ofHex? (String.ofList ('#' :: digits))).isSome = true := by
  rw [ofHex?, String.toList_ofList]
  rcases hlength with hlength | hlength
  · obtain ⟨r, g, b, rfl⟩ := List.length_eq_three.1 hlength
    obtain ⟨_, hr⟩ := exists_hexValue (h r (by simp))
    obtain ⟨_, hg⟩ := exists_hexValue (h g (by simp))
    obtain ⟨_, hb⟩ := exists_hexValue (h b (by simp))
    simp [doubled?, hr, hg, hb]
  · match digits, hlength with
    | [r, r', g, g', b, b'], _ =>
      obtain ⟨_, hr⟩ := exists_pair (h r (by simp)) (h r' (by simp))
      obtain ⟨_, hg⟩ := exists_pair (h g (by simp)) (h g' (by simp))
      obtain ⟨_, hb⟩ := exists_pair (h b (by simp)) (h b' (by simp))
      simp [hr, hg, hb]

/-- The named colours have codes that can be read. -/
theorem isSome_ofHex?_of_codeOfName? {name code : String} (h : codeOfName? name = some code) :
    (ofHex? code).isSome = true := by
  have hnames : names.all (fun entry => (ofHex? entry.2).isSome) = true := by decide
  rw [codeOfName?, List.lookup_eq_some_iff] at h
  obtain ⟨before, after, hmem, -⟩ := h
  exact List.all_eq_true.1 hnames (Text.lower name, code) (by simp [hmem])

end Colour

/-! ## What patterns read -/

namespace Pattern

open Scanner

/-- A sign is one of those given, and has the operator of that sign. -/
theorem operator_of_sign {signs source : List Char} {c : Capture}
    (h : (Pattern.sign signs).capture? source = some c) :
    ∃ s ∈ signs, c.detail.operator = BinaryOp.ofSign? [s] := by
  obtain ⟨rest, hscan, -, -⟩ := capture?_eq_some.1 h
  simp only [Pattern.sign, Pattern.scan, bind_eq_some, pure_eq_some, Prod.mk.injEq] at hscan
  obtain ⟨_, _, ⟨s, _, hsign, _, _, -, rfl, -⟩, ⟨hdetail, -⟩, -⟩ := hscan
  have hmem : signs.contains s = true := (append_of_satisfy hsign).2
  exact ⟨s, by simpa using hmem, by rw [← hdetail]⟩

theorem operator_of_inequality {source : List Char} {c : Capture}
    (h : Pattern.inequality.capture? source = some c) : ∃ op, c.detail.operator = some op := by
  obtain ⟨rest, hscan, -, -⟩ := capture?_eq_some.1 h
  simp only [Pattern.inequality, Pattern.scan, bind_eq_some, pure_eq_some, Prod.mk.injEq] at hscan
  obtain ⟨_, _, ⟨s, _, hsign, equals, _, hequals, rfl, -⟩, ⟨hdetail, -⟩, -⟩ := hscan
  have hs := (append_of_satisfy hsign).2
  simp only [Bool.or_eq_true, beq_iff_eq] at hs
  have hequals : equals = ['='] ∨ equals = [] := by
    rcases orElse_eq_some.1 hequals with h | ⟨-, h⟩
    · simp only [bind_eq_some, pure_eq_some] at h
      obtain ⟨_, _, -, rfl, -⟩ := h
      exact .inl rfl
    · exact .inr (pure_eq_some.1 h).1.symm
  rw [← hdetail]
  -- four signs are left
  rcases hs with rfl | rfl <;> rcases hequals with rfl | rfl <;> exact ⟨_, rfl⟩

theorem colour_of_colour {source : List Char} {c : Capture}
    (h : Pattern.colour.capture? source = some c) :
    ∃ code, c.detail.colour = some code ∧ (Colour.ofHex? code).isSome = true := by
  obtain ⟨rest, hscan, -, -⟩ := capture?_eq_some.1 h
  simp only [Pattern.colour, Pattern.scan, bind_eq_some, pure_eq_some, Prod.mk.injEq] at hscan
  obtain ⟨_, _, hread, ⟨rfl, -⟩, -⟩ := hscan
  rcases orElse_eq_some.1 hread with hread | ⟨-, hread⟩
  · simp only [bind_eq_some, require_eq_some, pure_eq_some] at hread
    obtain ⟨_, _, -, text, _, -, _, _, ⟨hlength, -⟩, _, _, -, hdetail, -⟩ := hread
    simp only [decide_eq_true_eq] at hlength
    rw [← hdetail]
    refine ⟨_, rfl, Colour.isSome_ofHex? ?_ ?_⟩
    · intro d hd
      exact List.mem_takeWhile_imp (List.mem_of_mem_take hd)
    · rw [List.length_take]
      split <;> omega
  · simp only [bind_eq_some] at hread
    obtain ⟨name, _, -, hread⟩ := hread
    cases hcode : Colour.codeOfName? (String.ofList name) with
    | none => simp [hcode, failure, StateT.failure] at hread
    | some code =>
      simp only [hcode, pure_eq_some] at hread
      rw [← hread.1]
      exact ⟨code, rfl, Colour.isSome_ofHex?_of_codeOfName? hcode⟩

theorem message_of_oldMacro {source : List Char} {c : Capture}
    (h : Pattern.oldMacro.capture? source = some c) :
    c.detail.message = some "Twine 1 macro syntax isn't supported." := by
  obtain ⟨rest, hscan, -, -⟩ := capture?_eq_some.1 h
  simp only [Pattern.oldMacro, Pattern.scan, bind_eq_some, pure_eq_some, Prod.mk.injEq] at hscan
  obtain ⟨_, _, ⟨_, _, -, _, _, -, _, _, -, rfl, -⟩, ⟨hdetail, -⟩, -⟩ := hscan
  rw [← hdetail]

/-- What reads the name of a call: the name, and the name again to be lexed if it is a variable. -/
theorem of_macroName {source : List Char} {c : Capture}
    (h : Pattern.macroName.capture? source = some c) :
    ∃ name isMethod rest, calledName source = some ((name, isMethod), rest) ∧
      c.detail.name = some (String.ofList name) ∧ c.detail.isMethod = isMethod ∧
      c.inside = if isMethod then some { lead := [], body := name } else none := by
  obtain ⟨rest, hscan, -, -⟩ := capture?_eq_some.1 h
  simp only [Pattern.macroName, Pattern.scan, bind_eq_some, pure_eq_some, Prod.mk.injEq] at hscan
  obtain ⟨⟨name, isMethod⟩, left, hcalled, ⟨hdetail, hinside⟩, -⟩ := hscan
  exact ⟨name, isMethod, left, hcalled, by rw [← hdetail], by rw [← hdetail], hinside.symm⟩

/-- What opens a call: a parenthesis, right before the name of the call, which it carries. -/
theorem of_macroFront {source rest : List Char} {c : Capture} (hsource : source = c.text ++ rest)
    (h : Pattern.macroFront.capture? source = some c) :
    c.text = ['('] ∧ ∃ name isMethod after, calledName rest = some ((name, isMethod), after) ∧
      c.detail.name = some (String.ofList name) := by
  obtain ⟨left, hscan, htext, -⟩ := capture?_eq_some.1 h
  simp only [Pattern.macroFront, Pattern.named, Pattern.scan, bind_eq_some, pure_eq_some,
    Prod.mk.injEq] at hscan
  obtain ⟨_, _, ⟨_, _, ⟨_, mid, hchar, called, _, hahead, rfl, rfl⟩, rfl, rfl⟩, ⟨hdetail, -⟩, rfl⟩ :=
    hscan
  simp only [Scanner.ahead, Option.map_eq_some_iff, Prod.exists, Prod.mk.injEq] at hahead
  obtain ⟨name, isMethod, after, hcalled, rfl, rfl⟩ := hahead
  -- looking ahead takes nothing away, so the match is the parenthesis alone
  have hparen := append_of_char hchar
  have hone : c.text = ['('] := htext.trans (take_of_append hparen)
  have hmid : rest = mid := by
    rw [hsource, hone] at hparen
    exact (List.cons.inj hparen).2
  exact ⟨hone, name, isMethod, after, by rw [hmid, hcalled], by rw [← hdetail]⟩

/-- A name that has been read is a name up to its end. -/
theorem propertyName_self {cs name rest : List Char} (h : propertyName cs = some (name, rest)) :
    propertyName name = some (name, []) := by
  simp only [propertyName, bind_eq_some, require_eq_some, pure_eq_some] at h
  obtain ⟨run, _, htake, _, _, ⟨hdigits, -⟩, rfl, -⟩ := h
  have hrun : ∀ c ∈ run, Text.isWord c = true := by
    intro c hc
    simp only [Scanner.takeWhile, Option.some.injEq, Prod.mk.injEq] at htake
    rw [← htake.1] at hc
    exact List.mem_takeWhile_imp hc
  have hwhole : Scanner.takeWhile Text.isWord (run ++ []) = some (run, []) :=
    takeWhile_append hrun (by simp)
  rw [List.append_nil] at hwhole
  rw [propertyName, bind_of_eq_some hwhole]
  simp [bind, StateT.bind, require, hdigits]

/-- A variable that is called is a whole variable by itself. -/
theorem variable_of_calledName {source called rest : List Char}
    (h : calledName source = some ((called, true), rest)) :
    ∃ name, called = '$' :: name ∧ propertyName name = some (name, []) := by
  rcases orElse_eq_some.1 h with h | ⟨-, h⟩
  · simp only [bind_eq_some, pure_eq_some, Prod.mk.injEq] at h
    obtain ⟨_, _, -, name, _, hname, _, _, -, ⟨rfl, -⟩, -⟩ := h
    exact ⟨name, rfl, propertyName_self hname⟩
  · simp only [bind_eq_some, pure_eq_some, Prod.mk.injEq] at h
    obtain ⟨_, _, -, _, _, -, _, _, -, ⟨-, hmethod⟩, -⟩ := h
    cases hmethod

/-- `$name` alone is read as a variable. -/
theorem capture?_storyVariable {name : List Char} (h : propertyName name = some (name, [])) :
    Pattern.storyVariable.capture? ('$' :: name) =
      some ⟨'$' :: name, { name := some (String.ofList name) }, none⟩ := by
  have hread : (do char '$'; propertyName : Scanner (List Char)) ('$' :: name) = some (name, []) := by
    rw [bind_of_eq_some (char_cons '$' name), h]
  have hscan : Pattern.storyVariable.scan ('$' :: name) =
      some (({ name := some (String.ofList name) }, none), []) := by
    rw [storyVariable, named, Pattern.scan, bind_of_eq_some (bind_of_eq_some hread)]
    rfl
  exact capture?_eq_some.2 ⟨[], hscan, by simp, by simp⟩

end Pattern

/-! ## Tokens of rules -/

namespace Lexer

section

variable {here : Situation} {source : List Char} {rule : Rule} {capture : Capture}
  (found : Rule.firstMatch here source = some (rule, capture))

include found

theorem operator_of_firstMatch
    (hkind : rule.kind ∈ [.addition, .subtraction, .multiplication, .division, .inequality]) :
    ∃ op, capture.detail.operator = some op := by
  obtain ⟨hrule, hmatch⟩ := Rule.of_firstMatch found
  have hcapture := Rule.capture?_of_match? hmatch
  have htable : Rule.all.filter (fun rule => rule.kind ∈
      [.addition, .subtraction, .multiplication, .division, .inequality]) =
      [Rule.ofCode .addition "+" (Pattern.sign ['+']),
       Rule.ofCode .subtraction "-" (Pattern.sign ['-']),
       Rule.ofCode .multiplication "*" (Pattern.sign ['*']),
       Rule.ofCode .division "/%" (Pattern.sign ['/', '%']),
       Rule.ofCode .inequality "<>" Pattern.inequality] := rfl
  have hmem : rule ∈ Rule.all.filter (fun rule => rule.kind ∈
      [.addition, .subtraction, .multiplication, .division, .inequality]) := by
    simpa [hrule] using hkind
  have hsign : ∀ signs, rule.pattern = Pattern.sign signs →
      signs.all (fun s => (BinaryOp.ofSign? [s]).isSome) = true →
      ∃ op, capture.detail.operator = some op := by
    intro signs hpattern hsigns
    rw [hpattern] at hcapture
    obtain ⟨s, hs, hoperator⟩ := Pattern.operator_of_sign hcapture
    rw [hoperator]
    exact Option.isSome_iff_exists.1 (List.all_eq_true.1 hsigns s hs)
  rw [htable] at hmem
  simp only [List.mem_cons, List.not_mem_nil, or_false] at hmem
  rcases hmem with rfl | rfl | rfl | rfl | rfl
  · exact hsign ['+'] rfl rfl
  · exact hsign ['-'] rfl rfl
  · exact hsign ['*'] rfl rfl
  · exact hsign ['/', '%'] rfl rfl
  · exact Pattern.operator_of_inequality hcapture

theorem colour_of_firstMatch (hkind : rule.kind = .colour) :
    ∃ code, capture.detail.colour = some code ∧ (Colour.ofHex? code).isSome = true := by
  obtain ⟨hrule, hmatch⟩ := Rule.of_firstMatch found
  have hcapture := Rule.capture?_of_match? hmatch
  have htable : Rule.all.filter (fun rule => rule.kind = .colour) =
      [(Rule.ofCode .colour "" Pattern.colour).asKeyword] := rfl
  rw [rule_of_kind hrule hkind htable] at hcapture
  exact Pattern.colour_of_colour hcapture

theorem message_of_firstMatch (hkind : rule.kind = .error) :
    ∃ message ∈ Token.lexingErrors, capture.detail.message = some message := by
  obtain ⟨hrule, hmatch⟩ := Rule.of_firstMatch found
  have hcapture := Rule.capture?_of_match? hmatch
  have htable : Rule.all.filter (fun rule => rule.kind = .error) =
      [Rule.ofInline .error "<" Pattern.oldMacro] := rfl
  rw [rule_of_kind hrule hkind htable] at hcapture
  exact ⟨_, by simp [Token.lexingErrors], Pattern.message_of_oldMacro hcapture⟩

/-- The opener of a call is a parenthesis, and carries the name that is ahead. -/
theorem macroFront_of_firstMatch {rest : List Char} (hsource : source = capture.text ++ rest)
    (hkind : rule.kind = .macroFront) :
    capture.text = ['('] ∧ ∃ name isMethod after,
      Pattern.calledName rest = some ((name, isMethod), after) ∧
      capture.detail.name = some (String.ofList name) := by
  obtain ⟨hrule, hmatch⟩ := Rule.of_firstMatch found
  have hcapture := Rule.capture?_of_match? hmatch
  have htable : Rule.all.filter (fun rule => rule.kind = .macroFront) =
      [{ Rule.ofExpression .macroFront "(" Pattern.macroFront with isFront := true }] := rfl
  rw [rule_of_kind hrule hkind htable] at hcapture
  exact Pattern.of_macroFront hsource hcapture

end

/-- What closes a call carries no name of its own. -/
theorem name_of_groupingBack {here : Situation} {source : List Char} {rule : Rule}
    {capture : Capture} (found : Rule.firstMatch here source = some (rule, capture))
    (hkind : rule.kind = .groupingBack) : capture.detail.name = none := by
  obtain ⟨hrule, hmatch⟩ := Rule.of_firstMatch found
  have hcapture := Rule.capture?_of_match? hmatch
  have htable : Rule.all.filter (fun rule => rule.kind = .groupingBack) =
      [Rule.ofExpression .groupingBack ")" (Pattern.exactly ")")] := rfl
  rw [rule_of_kind hrule hkind htable] at hcapture
  obtain ⟨rest, hscan, -, -⟩ := Pattern.capture?_eq_some.1 hcapture
  simp only [Rule.ofExpression, Pattern.exactly, Pattern.plain, Pattern.scan, Scanner.bind_eq_some,
    Scanner.pure_eq_some, Prod.mk.injEq] at hscan
  obtain ⟨_, _, ⟨_, _, -, rfl, -⟩, ⟨hdetail, -⟩, -⟩ := hscan
  rw [← hdetail]

/-- `$name` alone is a story variable, but right after the opener of a call. -/
theorem firstMatch_of_variable {here : Situation} (hmode : here.mode = .code)
    (hlast : here.last ≠ some .macroFront) {name : List Char}
    (h : Pattern.propertyName name = some (name, [])) :
    Rule.firstMatch here ('$' :: name) =
      some (Rule.ofExpression .storyVariable "$" Pattern.storyVariable,
        ⟨'$' :: name, { name := some (String.ofList name) }, none⟩) := by
  refine Rule.firstMatch_of_candidates hmode [Rule.nameRule] ⟨_, rfl⟩ ?_ ?_
  · refine Rule.match?_of_not_fits ?_
    simp [Rule.fits, Rule.nameRule, hlast]
  · rw [Rule.match?_of_fits (by simp [Rule.fits, Rule.ofExpression, Scope.activeIn]) (by rfl)]
    exact Pattern.capture?_storyVariable h

/-- Lexing a variable alone gives one token. -/
theorem Lexes.of_variable {offset : Nat} {name : List Char} {tokens : List Token}
    (h : Lexes .code { offset } ('$' :: name) tokens)
    (hname : Pattern.propertyName name = some (name, [])) :
    ∃ v, tokens = [v] ∧ v.kind = .storyVariable ∧ v.name = some (String.ofList name) := by
  have hlast : (State.situation { offset } .code).last ≠ some .macroFront := by
    simp [State.situation, State.last]
  have hfirst := firstMatch_of_variable (by rfl) hlast hname
  cases h with
  | defer unclaimed => simp [hfirst] at unclaimed
  | @accept _ _ _ rest rule capture children _ found split leaf held next =>
    rw [hfirst, Option.some.injEq, Prod.mk.injEq] at found
    obtain ⟨rfl, rfl⟩ := found
    have hrest : rest = [] := by simpa using split
    subst hrest
    cases next with
    | finish => exact ⟨_, rfl, rfl, rfl⟩
    | accept found =>
      obtain ⟨htext, hprefix⟩ := Rule.text_of_firstMatch found
      exact absurd (List.prefix_nil.1 hprefix) htext

end Lexer

end StoryScript
