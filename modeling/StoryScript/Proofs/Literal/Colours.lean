/-
  Codes of colours.

  A code is three or six hexadecimal digits, after a `#` or not. Each channel is read on its own:
  one digit of three stands for itself written twice, so `pair?_eq_some_iff` says once what a
  channel is read as, and it says so by what the channel is written as again. In a code of six a
  plus sign may stand where the first digit of a channel is expected, and it counts as a zero.
-/
import Mathlib
import StoryScript.Proofs.Literal.Codes

namespace StoryScript.Colour

open Text (isHexDigit)

/-! ## One digit -/

/-- The hexadecimal digits, in both cases. -/
def hexDigits : List Char :=
  ['0', '1', '2', '3', '4', '5', '6', '7', '8', '9', 'a', 'b', 'c', 'd', 'e', 'f', 'A', 'B', 'C',
   'D', 'E', 'F']

theorem mem_hexDigits_of_isHexDigit {c : Char} (h : isHexDigit c = true) : c ∈ hexDigits := by
  have hval : c.toNat = c.val.toNat := rfl
  have hrange : 48 ≤ c.toNat ∧ c.toNat ≤ 57 ∨ 97 ≤ c.toNat ∧ c.toNat ≤ 102 ∨
      65 ≤ c.toNat ∧ c.toNat ≤ 70 := by
    simp only [isHexDigit, Char.isDigit, Bool.or_eq_true, Bool.and_eq_true, decide_eq_true_eq,
      ge_iff_le, Char.le_def, UInt32.le_iff_toNat_le] at h
    simp at h
    omega
  have hc : Char.ofNat c.toNat = c := Char.ofNat_toNat c
  generalize c.toNat = n at hc hrange
  subst hc
  rcases hrange with ⟨hlow, hhigh⟩ | ⟨hlow, hhigh⟩ | ⟨hlow, hhigh⟩ <;> interval_cases n <;> decide

theorem isSome_hexValue? (c : Char) : (hexValue? c).isSome = isHexDigit c := by
  simp only [hexValue?, isHexDigit]
  split
  · simp [*]
  · split
    · simp [*]
    · split <;> simp [*]

/-- The value of a digit is below sixteen, and the digit is written for it, in lower case. -/
theorem digitChar_of_hexValue? {c : Char} {n : ℕ} (h : hexValue? c = some n) :
    n < 16 ∧ Nat.digitChar n = c.toLower := by
  have hall : (hexDigits.all fun c =>
      (hexValue? c).all fun n => n < 16 ∧ Nat.digitChar n = c.toLower) = true := rfl
  have hmem : c ∈ hexDigits := by
    refine mem_hexDigits_of_isHexDigit ?_
    rw [← isSome_hexValue?, h, Option.isSome_some]
  simpa [h] using List.all_eq_true.1 hall c hmem

/-! ## One channel -/

/-- The two characters of a channel in a code of six. -/
def IsPair (high low : Char) : Prop :=
  (isHexDigit high = true ∨ high = '+') ∧ isHexDigit low = true

/-- A digit as it is written: in lower case, and a zero for a plus sign. -/
def standard (c : Char) : Char :=
  if c = '+' then '0' else c.toLower

theorem hexPair_of_lt {high low : ℕ} (hhigh : high < 16) (hlow : low < 16) :
    hexPair (high * 16 + low).toUInt8 = [Nat.digitChar high, Nat.digitChar low] := by
  have hvalue : (high * 16 + low).toUInt8.toNat = high * 16 + low := by
    rw [Nat.toUInt8, UInt8.toNat_ofNat']
    omega
  have hdiv : (high * 16 + low) / 16 = high := by omega
  have hmod : (high * 16 + low) % 16 = low := by omega
  rw [hexPair, hvalue, hdiv, hmod]

theorem hexPair_injective {a b : UInt8} (h : hexPair a = hexPair b) : a = b := by
  have hpairs : some a = some b := by
    rw [hexPair, hexPair, List.cons.injEq, List.cons.injEq] at h
    rw [← pair?_hexPair a, ← pair?_hexPair b, h.1, h.2.1]
  exact Option.some.inj hpairs

/-- What the first character of a channel counts for. -/
def highValue? (c : Char) : Option ℕ :=
  if c = '+' then some 0 else hexValue? c

theorem pair?_eq (high low : Char) :
    pair? high low = (highValue? high).bind fun h =>
      (hexValue? low).map fun l => (h * 16 + l).toUInt8 := by
  by_cases hplus : high = '+' <;> simp [pair?, highValue?, hplus, Option.map_eq_bind]

theorem isSome_highValue? (c : Char) :
    (highValue? c).isSome = true ↔ isHexDigit c = true ∨ c = '+' := by
  by_cases hplus : c = '+' <;> simp [highValue?, hplus, isSome_hexValue?]

theorem digitChar_of_highValue? {c : Char} {n : ℕ} (h : highValue? c = some n) :
    n < 16 ∧ Nat.digitChar n = standard c := by
  by_cases hplus : c = '+'
  · rw [highValue?, if_pos hplus, Option.some.injEq] at h
    rw [← h, standard, if_pos hplus]
    decide
  · rw [highValue?, if_neg hplus] at h
    rw [standard, if_neg hplus]
    exact digitChar_of_hexValue? h

theorem highValue?_of_hexValue? {c : Char} {n : ℕ} (h : hexValue? c = some n) :
    highValue? c = some n := by
  have hplus : c ≠ '+' := by
    rintro rfl
    simp [show hexValue? '+' = none from rfl] at h
  rw [highValue?, if_neg hplus, h]

theorem isSome_pair? {high low : Char} : (pair? high low).isSome = true ↔ IsPair high low := by
  rw [IsPair, ← isSome_highValue?, ← isSome_hexValue?, pair?_eq]
  cases highValue? high <;> simp

/-- A channel is read from a pair of characters if it is written as the pair again. -/
theorem pair?_eq_some_iff {high low : Char} {n : UInt8} :
    pair? high low = some n ↔ IsPair high low ∧ hexPair n = [standard high, standard low] := by
  rw [← isSome_pair?, pair?_eq]
  cases hhigh : highValue? high with
  | none => simp
  | some h =>
    cases hlow : hexValue? low with
    | none => simp
    | some l =>
      obtain ⟨hh, hhchar⟩ := digitChar_of_highValue? hhigh
      obtain ⟨hl, hlchar⟩ := digitChar_of_highValue? (highValue?_of_hexValue? hlow)
      have hwritten := hexPair_of_lt hh hl
      rw [hhchar, hlchar] at hwritten
      rw [← hwritten]
      simp only [Option.bind_some, Option.map_some, Option.some.injEq, Option.isSome_some, true_and]
      exact ⟨fun heq => by rw [heq], fun heq => (hexPair_injective heq).symm⟩

/-- A channel of one digit is that digit written twice. -/
theorem doubled?_eq_pair? (c : Char) : doubled? c = pair? c c := by
  by_cases hplus : c = '+'
  · subst hplus
    rfl
  · have hsum (n : ℕ) : n * 17 = n * 16 + n := by omega
    cases h : hexValue? c with
    | none => simp [doubled?, pair?, h]
    | some n => simp [doubled?, pair?, h, hplus, hsum]

/-! ## Whole codes -/

/-- A code without the `#` that may stand in front. -/
def bare (code : String) : List Char :=
  if code.toList.head? = some '#' then code.toList.tail else code.toList

theorem mem_of_mem_bare {code : String} {c : Char} (h : c ∈ bare code) : c ∈ code.toList := by
  rw [bare] at h
  split at h
  · exact List.mem_of_mem_tail h
  · exact h

/-- Three hexadecimal digits, or six. -/
def IsDigits (cs : List Char) : Prop :=
  (cs.length = 3 ∨ cs.length = 6) ∧ ∀ c ∈ cs, isHexDigit c = true

/-- Six characters, each of them a digit or, where a channel begins, a plus sign. -/
def IsSigned (cs : List Char) : Prop :=
  cs.length = 6 ∧ ∀ i c, cs[i]? = some c → isHexDigit c = true ∨ c = '+' ∧ i % 2 = 0

/-- The six digits of a code as they are written. -/
def written (cs : List Char) : List Char :=
  (if cs.length = 3 then cs.flatMap fun c => [c, c] else cs).map standard

/-- The colour of three channels of two characters each. -/
def ofPairs? (r r' g g' b b' : Char) : Option Colour := do
  return ⟨← pair? r r', ← pair? g g', ← pair? b b'⟩

/-- The colour of the digits of a code. -/
def ofDigits? : List Char → Option Colour
  | [r, g, b] => do return ⟨← doubled? r, ← doubled? g, ← doubled? b⟩
  | [r, r', g, g', b, b'] => ofPairs? r r' g g' b b'
  | _ => none

theorem ofHex?_eq (code : String) : ofHex? code = ofDigits? (bare code) := by
  rw [bare]
  cases hcode : code.toList with
  | nil => simp only [ofHex?, hcode]; rfl
  | cons c cs =>
    by_cases hhash : c = '#'
    · subst hhash
      simp only [ofHex?, hcode]
      rfl
    · have hhead : (c :: cs).head? ≠ some '#' := by simpa using hhash
      rw [if_neg hhead]
      simp only [ofHex?, hcode, List.cons.injEq, hhash, false_and, imp_self, implies_true]
      rfl

/-- Three digits stand for six, each of them written twice. -/
theorem ofDigits?_short (r g b : Char) : ofDigits? [r, g, b] = ofPairs? r r g g b b := by
  rw [ofDigits?, ofPairs?, doubled?_eq_pair?, doubled?_eq_pair?, doubled?_eq_pair?]

theorem isSome_ofPairs? {r r' g g' b b' : Char} :
    (ofPairs? r r' g g' b b').isSome = true ↔ IsPair r r' ∧ IsPair g g' ∧ IsPair b b' := by
  rw [← isSome_pair?, ← isSome_pair?, ← isSome_pair?, ofPairs?]
  cases pair? r r' <;> cases pair? g g' <;> cases pair? b b' <;> simp

theorem ofPairs?_eq_some_iff {r r' g g' b b' : Char} {c : Colour} :
    ofPairs? r r' g g' b b' = some c ↔ (IsPair r r' ∧ IsPair g g' ∧ IsPair b b') ∧
      c.toHex.toList = '#' :: [r, r', g, g', b, b'].map standard := by
  obtain ⟨red, green, blue⟩ := c
  have hcolour : ofPairs? r r' g g' b b' = some ⟨red, green, blue⟩ ↔
      pair? r r' = some red ∧ pair? g g' = some green ∧ pair? b b' = some blue := by
    simp [ofPairs?, Option.bind_eq_some_iff]
  rw [hcolour, pair?_eq_some_iff, pair?_eq_some_iff, pair?_eq_some_iff, toList_toHex]
  simp only [hexPair, List.cons_append, List.nil_append, List.map_cons, List.map_nil,
    List.cons.injEq, and_true, true_and]
  tauto

theorem isPair_self {c : Char} : IsPair c c ↔ isHexDigit c = true := by
  simp only [IsPair, and_iff_right_iff_imp]
  exact .inl

theorem isSigned_pairs {r r' g g' b b' : Char} :
    IsSigned [r, r', g, g', b, b'] ↔ IsPair r r' ∧ IsPair g g' ∧ IsPair b b' := by
  constructor
  · rintro ⟨-, h⟩
    have hr := h 0 r rfl
    have hr' := h 1 r' rfl
    have hg := h 2 g rfl
    have hg' := h 3 g' rfl
    have hb := h 4 b rfl
    have hb' := h 5 b' rfl
    simp at hr hr' hg hg' hb hb'
    exact ⟨⟨hr, hr'⟩, ⟨hg, hg'⟩, hb, hb'⟩
  · rintro ⟨⟨hr, hr'⟩, ⟨hg, hg'⟩, hb, hb'⟩
    refine ⟨rfl, fun i c hi => ?_⟩
    have hlt : i < 6 := (List.getElem?_eq_some_iff.1 hi).1
    interval_cases i <;> obtain rfl := Option.some.inj hi <;> simp [*]

/-- Six digits are a code in which no plus sign stands for any of them. -/
theorem IsDigits.isSigned {cs : List Char} (h : IsDigits cs) (hlength : cs.length = 6) :
    IsSigned cs :=
  ⟨hlength, fun _ c hc => .inl (h.2 c (List.mem_of_getElem? hc))⟩

theorem isDigits_of_isSigned {cs : List Char} (h : IsSigned cs) (hplus : '+' ∉ cs) :
    IsDigits cs := by
  refine ⟨.inr h.1, fun c hc => ?_⟩
  obtain ⟨i, hi⟩ := List.getElem?_of_mem hc
  rcases h.2 i c hi with hdigit | ⟨rfl, -⟩
  · exact hdigit
  · exact absurd hc hplus

/-- What is read as a colour is a row of pairs: three characters count twice each. -/
theorem ofDigits?_cases (cs : List Char) :
    (∃ r r' g g' b b', ofDigits? cs = ofPairs? r r' g g' b b' ∧
      written cs = [r, r', g, g', b, b'].map standard ∧
      (IsDigits cs ∨ IsSigned cs ↔ IsPair r r' ∧ IsPair g g' ∧ IsPair b b')) ∨
    (ofDigits? cs = none ∧ ¬ (IsDigits cs ∨ IsSigned cs)) := by
  rcases cs with _ | ⟨r, _ | ⟨r', _ | ⟨g, _ | ⟨g', _ | ⟨b, _ | ⟨b', _ | ⟨d, cs⟩⟩⟩⟩⟩⟩⟩
  case cons.cons.cons.nil =>
    refine .inl ⟨r, r, r', r', g, g, ofDigits?_short r r' g, rfl, ?_⟩
    simp [IsDigits, IsSigned, isPair_self]
  case cons.cons.cons.cons.cons.cons.nil =>
    refine .inl ⟨r, r', g, g', b, b', rfl, rfl, ?_⟩
    rw [← isSigned_pairs]
    exact or_iff_right_of_imp (·.isSigned rfl)
  all_goals exact .inr ⟨rfl, by simp [IsDigits, IsSigned]⟩

/-- A code is read as the colour that is written as it. -/
theorem ofHex?_eq_some_iff {code : String} {c : Colour} :
    ofHex? code = some c ↔ (IsDigits (bare code) ∨ IsSigned (bare code)) ∧
      c.toHex.toList = '#' :: written (bare code) := by
  rw [ofHex?_eq]
  rcases ofDigits?_cases (bare code) with ⟨r, r', g, g', b, b', hread, hwritten, hcode⟩ | ⟨hread, hcode⟩
  · rw [hread, hwritten, hcode, ofPairs?_eq_some_iff]
  · simp [hread, hcode]

theorem isSome_ofHex?_iff {code : String} :
    (ofHex? code).isSome = true ↔ IsDigits (bare code) ∨ IsSigned (bare code) := by
  rw [ofHex?_eq]
  rcases ofDigits?_cases (bare code) with ⟨r, r', g, g', b, b', hread, -, hcode⟩ | ⟨hread, hcode⟩
  · rw [hread, hcode, isSome_ofPairs?]
  · simp [hread, hcode]

/-- Which texts are codes of colours, and of which. Three or six hexadecimal digits are, after at
most one `#`, and so are six characters with plus signs in place of the first digits of channels;
nothing else is, so a text without a plus sign is a code exactly if it consists of three or six
digits. The colour is written as the code that it was read from, in lower case, with zeros for the
plus signs and with each digit of three doubled, and it is read from that again. -/
theorem hex_codes (code : String) :
    ((ofHex? code).isSome = true ↔ IsDigits (bare code) ∨ IsSigned (bare code)) ∧
    ('+' ∉ code.toList → ((ofHex? code).isSome = true ↔ IsDigits (bare code))) ∧
    (∀ c, ofHex? code = some c →
      c.toHex.toList = '#' :: written (bare code) ∧ ofHex? c.toHex = some c) ∧
    ∀ r g b, bare code = [r, g, b] →
      ofHex? code = ofHex? (String.ofList ['#', r, r, g, g, b, b]) := by
  refine ⟨isSome_ofHex?_iff, fun hplus => ?_, fun c hc => ?_, fun r g b hbare => ?_⟩
  · have hplus' : '+' ∉ bare code := fun hmem => hplus (mem_of_mem_bare hmem)
    rw [isSome_ofHex?_iff, or_iff_left_of_imp fun h => isDigits_of_isSigned h hplus']
  · exact ⟨(ofHex?_eq_some_iff.1 hc).2, ofHex?_toHex c⟩
  · rw [ofHex?_eq, hbare, ofDigits?_short, ofHex?_eq, bare, String.toList_ofList]
    rfl

/-- Three digits in both cases. -/
theorem hex_codes_mixedCase :
    '+' ∉ "#Fa0".toList ∧ IsDigits (bare "#Fa0") ∧ (ofHex? "#Fa0").isSome = true ∧
      bare "#Fa0" = ['F', 'a', '0'] ∧ ofHex? "#Fa0" = ofHex? "#FFaa00" ∧
      ofHex? "#Fa0" = some ⟨255, 170, 0⟩ ∧ ofHex? "#ffaa00" = some ⟨255, 170, 0⟩ := by
  have hplus : '+' ∉ "#Fa0".toList := by decide
  have hdigits : IsDigits (bare "#Fa0") := ⟨.inl rfl, List.all_eq_true.1 rfl⟩
  have hbare : bare "#Fa0" = ['F', 'a', '0'] := rfl
  have hread : ofHex? "#Fa0" = some ⟨255, 170, 0⟩ := rfl
  obtain ⟨-, hformat, hwritten, hdoubled⟩ := hex_codes "#Fa0"
  exact ⟨hplus, hdigits, (hformat hplus).2 hdigits, hbare, hdoubled 'F' 'a' '0' hbare, hread,
    (hwritten _ hread).2⟩

/-- Plus signs are taken for digits. -/
theorem not_isDigits_signed :
    ofHex? "+1+2+3" = some ⟨1, 2, 3⟩ ∧ ¬ IsDigits (bare "+1+2+3") := by
  refine ⟨rfl, fun h => ?_⟩
  exact absurd (h.2 '+' List.mem_cons_self) (by decide)

end StoryScript.Colour
