/-
  Reading by byte offsets.

  A cursor goes through the source by byte offsets. What it looks at it cuts out between
  two offsets, and that is a fault where an offset lies outside the source or inside a
  character. It is a fault as well to go below zero with a difference of offsets, or round
  a loop more often than the source has characters.

  A cursor tracks a scanner from a place of the source if it reads what the scanner reads
  from there, to the offset where the scanner stops, and so meets no fault (`Tracks`). A
  cursor mirrors a scanner if it tracks it from every place where a character starts
  (`Mirrors`).
-/
import Mathlib
import StoryScript.Proofs.Text.Slice
import StoryScript.Proofs.Token.CodeRules

namespace StoryScript

/-! ## Widths -/

namespace Text

theorem width_eq_zero {cs : List Char} : width cs = 0 ↔ cs = [] := by
  cases cs with
  | nil => simp
  | cons c cs =>
    have hpos := c.utf8Size_pos
    rw [width_cons]
    simp only [List.cons_ne_nil, iff_false]
    omega

/-- A text of characters of one byte is as wide as it is long. -/
theorem width_eq_length {cs : List Char} (h : ∀ c ∈ cs, c.utf8Size = 1) :
    width cs = cs.length := by
  induction cs with
  | nil => rfl
  | cons c cs ih =>
    rw [List.forall_mem_cons] at h
    rw [width_cons, h.1, ih h.2, List.length_cons, Nat.add_comm]

theorem utf8Size_of_isAlpha {c : Char} (h : c.isAlpha = true) : c.utf8Size = 1 := by
  rw [Char.utf8Size_eq_one_iff]
  simp only [Char.isAlpha, Char.isUpper, Char.isLower, Bool.or_eq_true, Bool.and_eq_true,
    decide_eq_true_eq, ge_iff_le, UInt32.le_iff_toNat_le] at h ⊢
  simp only [Char.reduceVal, UInt32.reduceToNat] at h ⊢
  omega

theorem utf8Size_of_isHexDigit {c : Char} (h : isHexDigit c = true) : c.utf8Size = 1 := by
  rw [Char.utf8Size_eq_one_iff]
  simp only [isHexDigit, Char.isDigit, Bool.or_eq_true, Bool.and_eq_true, decide_eq_true_eq,
    ge_iff_le, Char.le_def, UInt32.le_iff_toNat_le] at h ⊢
  simp only [Char.reduceVal, UInt32.reduceToNat] at h ⊢
  omega

/-- A letter takes as many bytes in either case. -/
theorem utf8Size_toLower (c : Char) : c.toLower.utf8Size = c.utf8Size := by
  by_cases hupper : c.isUpper = true
  · have halpha : c.isAlpha = true := by simp [Char.isAlpha, hupper]
    rw [utf8Size_of_isAlpha halpha, utf8Size_of_isAlpha]
    rw [Char.isAlpha_toLower_eq_isAlpha, halpha]
  · rw [Char.toLower_eq_of_not_isUpper hupper]

theorem width_map_toLower (cs : List Char) : width (cs.map Char.toLower) = width cs := by
  induction cs with
  | nil => rfl
  | cons c cs ih => rw [List.map_cons, width_cons, width_cons, ih, utf8Size_toLower]

/-- Texts that differ in case alone are equally wide. -/
theorem width_of_map_toLower {a b : List Char} (h : a.map Char.toLower = b.map Char.toLower) :
    width a = width b := by
  rw [← width_map_toLower a, h, width_map_toLower]

theorem startsWithIgnoringCase_iff {word cs : List Char} :
    startsWithIgnoringCase word cs = true ↔
      ∃ front back, cs = front ++ back ∧ front.map Char.toLower = word.map Char.toLower := by
  induction word generalizing cs with
  | nil => simp [startsWithIgnoringCase]
  | cons w word ih =>
    cases cs with
    | nil => simp [startsWithIgnoringCase]
    | cons c cs =>
      rw [startsWithIgnoringCase, Bool.and_eq_true, beq_iff_eq, ih]
      constructor
      · rintro ⟨hc, front, back, rfl, hfront⟩
        exact ⟨c :: front, back, rfl, by rw [List.map_cons, List.map_cons, hc, hfront]⟩
      · rintro ⟨front, back, hcs, hfront⟩
        cases front with
        | nil => cases hfront
        | cons d front =>
          obtain ⟨rfl, rfl⟩ := List.cons.inj hcs
          obtain ⟨hd, hfront⟩ := List.cons.inj hfront
          exact ⟨hd.symm, front, back, rfl, hfront⟩

end Text

/-- What puts an end to reading by offsets. -/
inductive Fault where
  /-- A slice between offsets where no characters start, or in the wrong order. -/
  | slice (start stop : Nat)
  /-- A difference of offsets below zero. -/
  | underflow
  /-- A loop that does not come to its end. -/
  | endless

/-! ## Scanners for single steps -/

namespace Scanner

variable {α β : Type}

/-- Whether `x` succeeds. It reads nothing where it does not. -/
def test (x : Scanner α) : Scanner Bool :=
  (do let _ ← x; return true) <|> pure false

/-- The next character, without reading it. -/
def peek : Scanner (Option Char) := do
  return (← rest).head?

/-- The character after the next one, without reading it. -/
def peekSecond : Scanner (Option Char) := do
  return (← rest)[1]?

/-- One character of any kind. -/
def bump : Scanner Char := satisfy fun _ => true

variable {cs rest : List Char}

theorem map_apply (φ : α → β) (x : Scanner α) (cs : List Char) :
    (φ <$> x) cs = (x cs).map fun found => (φ found.1, found.2) := by
  cases h : x cs <;> simp [Functor.map, StateT.map, h]

theorem bind_congr {x y : Scanner α} {f : α → Scanner β} (h : x cs = y cs) :
    (x >>= f) cs = (y >>= f) cs := by
  simp [bind, StateT.bind, h]

theorem bind_apply (x : Scanner α) (f : α → Scanner β) (cs : List Char) :
    (x >>= f) cs = (x cs).bind fun found => f found.1 found.2 := rfl

theorem orElse_apply (x y : Scanner α) (cs : List Char) : (x <|> y) cs = (x cs).or (y cs) := by
  cases h : x cs <;>
    simp [HOrElse.hOrElse, OrElse.orElse, Alternative.orElse, StateT.orElse, h]

theorem test_of_some {x : Scanner α} {a : α} (h : x cs = some (a, rest)) :
    test x cs = some (true, rest) :=
  orElse_eq_some.2 (.inl ((bind_of_eq_some h).trans rfl))

theorem test_of_none {x : Scanner α} (h : x cs = none) : test x cs = some (false, cs) :=
  orElse_eq_some.2 (.inr ⟨bind_of_eq_none h, rfl⟩)

theorem takeWhile1_apply (p : Char → Bool) (cs : List Char) : takeWhile1 p cs =
    if cs.takeWhile p = [] then none else some (cs.takeWhile p, cs.dropWhile p) := by
  rw [takeWhile1, bind_apply, takeWhile, Option.bind_some]
  cases cs.takeWhile p <;> rfl

theorem boundary_apply (cs : List Char) : boundary cs = require (!cs.head?.any Text.isWord) cs := by
  rw [boundary, require]
  cases cs.head?.any Text.isWord <;> rfl

theorem notAhead_char (c : Char) (cs : List Char) :
    notAhead (char c) cs = require (cs.head? != some c) cs := by
  cases cs with
  | nil => rfl
  | cons d cs => by_cases hd : d = c <;> simp [notAhead, char, require, hd]

/-- Gives the text that it reads. -/
def Echoes (x : Scanner (List Char)) : Prop :=
  ∀ cs text rest, x cs = some (text, rest) → cs = text ++ rest

theorem echoes_takeWhile (p : Char → Bool) : Echoes (takeWhile p) :=
  fun _ _ _ => append_of_takeWhile

theorem echoes_takeWhile1 (p : Char → Bool) : Echoes (takeWhile1 p) :=
  fun _ _ _ => append_of_takeWhile1

/-- A function that splits what is ahead reads the part that it gives. -/
theorem echoes_ofSplit {split : List Char → List Char × List Char}
    (hsplit : ∀ cs, (split cs).1 ++ (split cs).2 = cs) : Echoes (ofSplit (some ∘ split)) := by
  intro cs text rest h
  rw [← hsplit cs, show split cs = (text, rest) from Option.some.inj h]

theorem peek_apply (cs : List Char) : peek cs = some (cs.head?, cs) := rfl

theorem peekSecond_apply (cs : List Char) : peekSecond cs = some (cs[1]?, cs) := rfl

theorem bump_cons (c : Char) (cs : List Char) : bump (c :: cs) = some (c, cs) := rfl

end Scanner

/-! ## Cursors -/

/-- Reads the source from a byte offset on: comes to a fault, does not match, or gives a result
and the offset that it has reached. -/
def Cursor (α : Type) := (source : List Char) → (start : Nat) → Except Fault (Option (α × Nat))

namespace Cursor

variable {α β : Type}

/-- Goes on with the result of `b`, from where `b` stopped. -/
def andThen (b : Cursor α) (f : α → Cursor β) : Cursor β := fun source start =>
  match b source start with
  | .error fault => .error fault
  | .ok none => .ok none
  | .ok (some (a, stop)) => f a source stop

/-- Goes back to where `b` started, if `b` does not match, and tries `c`. -/
def otherwise (b : Cursor α) (c : Unit → Cursor α) : Cursor α := fun source start =>
  match b source start with
  | .error fault => .error fault
  | .ok none => c () source start
  | .ok (some found) => .ok (some found)

instance : Monad Cursor where
  pure a := fun _ start => .ok (some (a, start))
  bind := andThen

instance : Alternative Cursor where
  failure := fun _ _ => .ok none
  orElse := otherwise

/-! ## Offsets and slices -/

/-- Comes to a fault. -/
def raise (fault : Fault) : Cursor α := fun _ _ => .error fault

/-- The whole source. -/
def whole : Cursor (List Char) := fun source start => .ok (some (source, start))

/-- The offset that is reached. -/
def offset : Cursor Nat := fun _ start => .ok (some (start, start))

/-- Goes to an offset. -/
def seek (target : Nat) : Cursor Unit := fun _ _ => .ok (some ((), target))

/-- The text between two offsets of a text. -/
def cut (text : List Char) (start stop : Nat) : Cursor (List Char) :=
  match Text.slice? text start stop with
  | some slice => pure slice
  | none => raise (.slice start stop)

/-- The source between two offsets. -/
def slice (start stop : Nat) : Cursor (List Char) := do
  cut (← whole) start stop

/-- The source from an offset up to the one reached. -/
def since (start : Nat) : Cursor (List Char) := do
  slice start (← offset)

/-- The source from the offset reached. -/
def rest : Cursor (List Char) := do
  let source ← whole
  slice (← offset) (Text.width source)

/-- How far an offset lies above another. -/
def minus (a b : Nat) : Cursor Nat :=
  if b ≤ a then pure (a - b) else raise .underflow

/-- Goes on by a number of bytes. -/
def advance (count : Nat) : Cursor Unit := do
  seek ((← offset) + count)

/-! ## Steps -/

/-- Succeeds where a condition holds. -/
def require (condition : Bool) : Cursor Unit :=
  if condition then pure () else failure

/-- The next character, without reading it. -/
def peek : Cursor (Option Char) := do
  return (← rest).head?

/-- The character after the next one, without reading it. -/
def peekSecond : Cursor (Option Char) := do
  return (← rest)[1]?

/-- One character that satisfies `p`. -/
def satisfy (p : Char → Bool) : Cursor Char := do
  match ← peek with
  | none => failure
  | some c =>
    require (p c)
    advance c.utf8Size
    return c

/-- One character of any kind. -/
def bump : Cursor Char := satisfy fun _ => true

/-- The character `c`. -/
def char (c : Char) : Cursor Unit := do
  let _ ← satisfy (· == c)

/-- The given text, in any case: as many bytes as it has are compared with it. -/
def literal (word : String) : Cursor Unit := do
  let size := Text.width word.toList
  let front := (Text.splitBytes? size (← rest)).map Prod.fst
  require (front.any fun text => Text.sameIgnoringCase (String.ofList text) word)
  advance size

/-- Succeeds where no word character follows. -/
def boundary : Cursor Unit := do
  require (!(← peek).any Text.isWord)

/-- A word in any case, which must end there. -/
def keyword (word : String) : Cursor Unit := do
  literal word
  boundary

/-- Succeeds where the source ends. -/
def atEnd : Cursor Unit := do
  let source ← whole
  require (Text.width source ≤ (← offset))

/-- A line break, or the end of the source. -/
def endOfLine : Cursor Unit :=
  char '\n' <|> atEnd

/-- Whether `b` succeeds. It reads nothing where it does not. -/
def test (b : Cursor α) : Cursor Bool :=
  (do let _ ← b; return true) <|> pure false

/-- Runs `b` without reading. -/
def ahead (b : Cursor α) : Cursor α := do
  let here ← offset
  let a ← b
  seek here
  return a

/-- Succeeds where `b` fails. -/
def refuse (b : Cursor α) : Cursor Unit := do
  if ← test b then failure else pure ()

/-! ## Loops -/

/-- Takes a step again and again, at most `count` times, until one gives a result. -/
def loopFor (step : Cursor (Option α)) : (count : Nat) → Cursor α
  | 0 => raise .endless
  | count + 1 => do (← step).elim (loopFor step count) pure

/-- Takes a step again and again until one gives a result. Each but the last has a character to
read, so there are no more than the source has characters, and one. -/
def loop (step : Cursor (Option α)) : Cursor α :=
  fun source start => loopFor step (source.length + 1) source start

/-- The text that `b` reads. -/
def sliced (b : Cursor α) : Cursor (List Char) := do
  let start ← offset
  let _ ← b
  since start

/-- Takes a step as long as there is one to take. -/
def whileTrue (step : Cursor Bool) : Cursor Unit :=
  loop do return if ← step then none else some ()

/-- The longest run of characters that satisfy `p`. -/
def takeWhile (p : Char → Bool) : Cursor (List Char) :=
  sliced (whileTrue (test (satisfy p)))

/-- The longest run of characters that satisfy `p`, at least one. -/
def takeWhile1 (p : Char → Bool) : Cursor (List Char) := do
  let run ← takeWhile p
  require (!run.isEmpty)
  return run

/-- Blanks, if any. -/
def blanks : Cursor (List Char) := takeWhile Text.isBlank

/-- At least one blank. -/
def blanks1 : Cursor (List Char) := takeWhile1 Text.isBlank

/-! ## Following a scanner -/

/-- From an offset, where `before` has been read of the source and `after` has not, the cursor
does what the scanner does with `after`. -/
def Tracks (before after : List Char) (start : Nat) (b : Cursor α) (x : Scanner α) : Prop :=
  (x after = none ∧ b (before ++ after) start = .ok none) ∨
  ∃ a used rest, after = used ++ rest ∧ x after = some (a, rest) ∧
    b (before ++ after) start = .ok (some (a, Text.width (before ++ used)))

/-- The cursor does what the scanner does, wherever a character starts. -/
def Mirrors (b : Cursor α) (x : Scanner α) : Prop :=
  ∀ before after, Tracks before after (Text.width before) b x

section Tracks

variable {before after : List Char} {start stop : Nat}

theorem bind_of_ok {b : Cursor α} {f : α → Cursor β} {source : List Char} {a : α}
    (h : b source start = .ok (some (a, stop))) : (b >>= f) source start = f a source stop := by
  show andThen b f source start = _
  rw [andThen, h]

theorem bind_of_none {b : Cursor α} {f : α → Cursor β} {source : List Char}
    (h : b source start = .ok none) : (b >>= f) source start = .ok none := by
  show andThen b f source start = _
  rw [andThen, h]

theorem test_of_ok {b : Cursor α} {source : List Char} {a : α}
    (h : b source start = .ok (some (a, stop))) :
    test b source start = .ok (some (true, stop)) := by
  show otherwise (b >>= fun _ => pure true) (fun _ => pure false) source start = _
  rw [otherwise, bind_of_ok h]
  rfl

theorem test_of_none {b : Cursor α} {source : List Char} (h : b source start = .ok none) :
    test b source start = .ok (some (false, start)) := by
  show otherwise (b >>= fun _ => pure true) (fun _ => pure false) source start = _
  rw [otherwise, bind_of_none h]
  rfl

/-- The scanner may be replaced by one that does the same with what is ahead. -/
theorem Tracks.congr {b : Cursor α} {x y : Scanner α} (h : Tracks before after start b x)
    (hsame : y after = x after) : Tracks before after start b y := by
  rwa [Tracks, hsame]

/-- A step of the cursor that the scanner does not take. -/
theorem Tracks.move {b : Cursor α} {f : α → Cursor β} {x : Scanner β} {a : α}
    (h : b (before ++ after) start = .ok (some (a, stop)))
    (hf : Tracks before after stop (f a) x) : Tracks before after start (b >>= f) x := by
  rwa [Tracks, bind_of_ok h]

/-- Where the scanner reads something, the cursor gets past it. -/
theorem Tracks.run {b : Cursor α} {x : Scanner α} {a : α} {used rest : List Char}
    (h : Tracks before after start b x) (hused : after = used ++ rest)
    (hx : x after = some (a, rest)) :
    b (before ++ after) start = .ok (some (a, Text.width (before ++ used))) := by
  rcases h with ⟨hnone, -⟩ | ⟨a', used', rest', hused', hsome, hb⟩
  · rw [hnone] at hx
    cases hx
  · rw [hsome] at hx
    cases hx
    rw [hb, List.append_cancel_right (hused'.symm.trans hused)]

/-- What is read of `after` may be counted to `before`. -/
theorem Tracks.shift {b : Cursor α} {x y : Scanner α} {used rest : List Char}
    (h : Tracks (before ++ used) rest start b y) (hx : x (used ++ rest) = y rest) :
    Tracks before (used ++ rest) start b x := by
  rw [Tracks, hx, ← List.append_assoc]
  rcases h with h | ⟨a, used', rest', rfl, hy, hb⟩
  · exact .inl h
  · refine .inr ⟨a, used ++ used', rest', by rw [List.append_assoc], hy, ?_⟩
    rw [hb, List.append_assoc before]

/-- A step of both, whose results `φ` relates; the steps after it start where a character
starts. -/
theorem Tracks.bindMap {γ : Type} {b : Cursor γ} {f : γ → Cursor β} {φ : α → γ} {x : Scanner α}
    {g : α → Scanner β} (h : Tracks before after start b (φ <$> x))
    (hf : ∀ a used rest, after = used ++ rest → x after = some (a, rest) →
      Tracks (before ++ used) rest (Text.width (before ++ used)) (f (φ a)) (g a)) :
    Tracks before after start (b >>= f) (x >>= g) := by
  rcases h with ⟨hx, hb⟩ | ⟨c, used, rest, rfl, hx, hb⟩
  · rw [Scanner.map_apply, Option.map_eq_none_iff] at hx
    exact .inl ⟨Scanner.bind_of_eq_none hx, bind_of_none hb⟩
  · rw [Scanner.map_apply, Option.map_eq_some_iff] at hx
    obtain ⟨⟨a, rest'⟩, hx, heq⟩ := hx
    obtain ⟨rfl, rfl⟩ := Prod.mk.inj heq
    exact .move hb ((hf a used rest' rfl hx).shift (Scanner.bind_of_eq_some hx))

theorem Tracks.bind {b : Cursor α} {f : α → Cursor β} {x : Scanner α} {g : α → Scanner β}
    (h : Tracks before after start b x)
    (hf : ∀ a used rest, after = used ++ rest → x after = some (a, rest) →
      Tracks (before ++ used) rest (Text.width (before ++ used)) (f a) (g a)) :
    Tracks before after start (b >>= f) (x >>= g) := by
  have hid : Tracks before after start b (id <$> x) := by rwa [id_map]
  exact hid.bindMap hf

/-- A step of both, where the scanner gives the text it reads. -/
theorem Tracks.bindEcho {γ : Type} {b : Cursor γ} {f : γ → Cursor β} {φ : List Char → γ}
    {x : Scanner (List Char)} {g : List Char → Scanner β}
    (h : Tracks before after start b (φ <$> x)) (hx : x.Echoes)
    (hf : ∀ text rest, after = text ++ rest →
      Tracks (before ++ text) rest (Text.width (before ++ text)) (f (φ text)) (g text)) :
    Tracks before after start (b >>= f) (x >>= g) := by
  refine h.bindMap fun text used rest hsplit hread => ?_
  obtain rfl : used = text := List.append_cancel_right (hsplit.symm.trans (hx _ _ _ hread))
  exact hf used rest hsplit

/-- A step of both that gives the text it reads. -/
theorem Tracks.bindText {b : Cursor (List Char)} {f : List Char → Cursor β}
    {x : Scanner (List Char)} {g : List Char → Scanner β} (h : Tracks before after start b x)
    (hx : x.Echoes) (hf : ∀ text rest, after = text ++ rest →
      Tracks (before ++ text) rest (Text.width (before ++ text)) (f text) (g text)) :
    Tracks before after start (b >>= f) (x >>= g) := by
  have hid : Tracks before after start b (id <$> x) := by rwa [id_map]
  exact hid.bindEcho hx hf

/-- The cursor works out, without reading, what the scanner has in hand. -/
theorem tracks_value {b : Cursor α} {a : α}
    (h : b (before ++ after) start = .ok (some (a, Text.width before))) :
    Tracks before after start b (pure a) :=
  .inr ⟨a, [], after, rfl, rfl, by rw [h, List.append_nil]⟩

theorem tracks_pure {a : α} : Tracks before after (Text.width before) (pure a) (pure a) :=
  tracks_value rfl

/-- Going to an offset is going on by what stands up to it. -/
theorem tracks_seek {used rest : List Char} {target : Nat} (hafter : after = used ++ rest)
    (htarget : target = Text.width (before ++ used)) :
    Tracks before after start (seek target) (Scanner.skip used.length) := by
  subst hafter htarget
  refine .inr ⟨(), used, rest, rfl, ?_, rfl⟩
  rw [Scanner.skip, if_pos (by rw [List.length_append]; omega), List.drop_left]

theorem tracks_failure : Tracks before after start (failure : Cursor α) failure :=
  .inl ⟨rfl, rfl⟩

/-! ### Looking at the source -/

theorem offset_ok {source : List Char} : offset source start = .ok (some (start, start)) := rfl

theorem cut_ok {text source : List Char} {low high : Nat} (front part back : List Char)
    (htext : text = front ++ part ++ back) (hlow : low = Text.width front)
    (hhigh : high = Text.width (front ++ part)) :
    cut text low high source start = .ok (some (part, start)) := by
  have hslice : Text.slice? text low high = some part :=
    Text.slice?_eq_some_iff.2 ⟨front, back, htext, hlow, by rw [hhigh, hlow, Text.width_append]⟩
  rw [cut, hslice]
  rfl

theorem slice_ok {source : List Char} {low high : Nat} (front part back : List Char)
    (hsource : source = front ++ part ++ back) (hlow : low = Text.width front)
    (hhigh : high = Text.width (front ++ part)) :
    slice low high source start = .ok (some (part, start)) :=
  cut_ok front part back hsource hlow hhigh

theorem since_ok {source : List Char} {low : Nat} (front part back : List Char)
    (hsource : source = front ++ part ++ back) (hlow : low = Text.width front)
    (hstart : start = Text.width (front ++ part)) :
    since low source start = .ok (some (part, start)) :=
  cut_ok front part back hsource hlow hstart

theorem minus_ok {a b : Nat} (h : b ≤ a) (source : List Char) :
    minus a b source start = .ok (some (a - b, start)) := by
  rw [minus, if_pos h]
  rfl

theorem rest_ok :
    rest (before ++ after) (Text.width before) = .ok (some (after, Text.width before)) :=
  cut_ok before after [] (List.append_nil _).symm rfl rfl

theorem peek_ok : peek (before ++ after) (Text.width before) =
    .ok (some (after.head?, Text.width before)) := by
  rw [peek, bind_of_ok rest_ok]
  rfl

theorem require_ok {condition : Bool} (h : condition = true) (source : List Char) :
    require condition source start = .ok (some ((), start)) := by
  rw [require, if_pos h]
  rfl

/-- A condition that both require. -/
theorem Tracks.require {condition : Bool} {f : Unit → Cursor β} {g : Unit → Scanner β}
    (hf : condition = true → Tracks before after start (f ()) (g ())) :
    Tracks before after start (require condition >>= f) (Scanner.require condition >>= g) := by
  cases condition with
  | false => exact .inl ⟨rfl, rfl⟩
  | true => exact hf rfl

theorem require_none {condition : Bool} (h : condition = false) (source : List Char) :
    require condition source start = .ok none := by
  rw [require, if_neg (by simp [h])]
  rfl

end Tracks

end Cursor

end StoryScript
