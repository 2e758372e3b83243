/-
  Cursors that mirror scanners.

  Every step of a cursor mirrors the scanner of the same name, and sequences, choices and
  loops of cursors mirror those of the scanners they mirror. A loop needs each round to
  leave less to read (`Unrolls`). What a cursor that tracks a pattern captures, cut out of
  the source by offsets, is what the pattern captures (`capture?_of_tracks`).
-/
import Mathlib
import StoryScript.Proofs.Token.Cursor.Basic

namespace StoryScript.Cursor

variable {α β : Type}

/-! ## Mirroring -/

section Mirrors

variable {before after : List Char} {start : Nat}

theorem mirrors_pure (a : α) : Mirrors (pure a) (pure a) :=
  fun _ _ => tracks_pure

theorem mirrors_failure : Mirrors (failure : Cursor α) failure :=
  fun _ _ => tracks_failure

theorem Mirrors.bind {b : Cursor α} {f : α → Cursor β} {x : Scanner α} {g : α → Scanner β}
    (h : Mirrors b x) (hf : ∀ a, Mirrors (f a) (g a)) : Mirrors (b >>= f) (x >>= g) :=
  fun before after => (h before after).bind fun a _ _ _ _ => hf a _ _

theorem Tracks.orElse {b c : Cursor α} {x y : Scanner α} (hb : Tracks before after start b x)
    (hc : Tracks before after start c y) : Tracks before after start (b <|> c) (x <|> y) := by
  show Tracks before after start (otherwise b fun _ => c) (x <|> y)
  rcases hb with ⟨hx, hb⟩ | ⟨a, used, rest, hsplit, hx, hb⟩
  · have hother : (x <|> y) after = y after := by rw [Scanner.orElse_apply, hx, Option.none_or]
    have hgo : otherwise b (fun _ => c) (before ++ after) start = c (before ++ after) start := by
      rw [otherwise, hb]
    rwa [Tracks, hother, hgo]
  · have hfirst : (x <|> y) after = x after := by rw [Scanner.orElse_apply, hx, Option.some_or]
    have hgo : otherwise b (fun _ => c) (before ++ after) start = b (before ++ after) start := by
      rw [otherwise, hb]
    rw [Tracks, hfirst, hgo]
    exact .inr ⟨a, used, rest, hsplit, hx, hb⟩

theorem Mirrors.orElse {b c : Cursor α} {x y : Scanner α} (hb : Mirrors b x) (hc : Mirrors c y) :
    Mirrors (b <|> c) (x <|> y) :=
  fun before after => (hb before after).orElse (hc before after)

/-- Both take the same side of a choice. -/
theorem mirrors_if {p : Prop} [Decidable p] {b c : Cursor α} {x y : Scanner α}
    (hb : p → Mirrors b x) (hc : ¬ p → Mirrors c y) :
    Mirrors (if p then b else c) (if p then x else y) := by
  split
  · exact hb ‹p›
  · exact hc ‹¬ p›

theorem mirrors_require (condition : Bool) :
    Mirrors (require condition) (Scanner.require condition) := by
  cases condition with
  | false => exact mirrors_failure
  | true => exact mirrors_pure ()

theorem mirrors_rest : Mirrors rest Scanner.rest :=
  fun _ after => .inr ⟨after, [], after, rfl, rfl, by rw [rest_ok, List.append_nil]⟩

theorem mirrors_peek : Mirrors peek Scanner.peek :=
  mirrors_rest.bind fun _ => mirrors_pure _

theorem mirrors_peekSecond : Mirrors peekSecond Scanner.peekSecond :=
  mirrors_rest.bind fun _ => mirrors_pure _

theorem mirrors_satisfy (p : Char → Bool) : Mirrors (satisfy p) (Scanner.satisfy p) := by
  intro before after
  refine .move peek_ok ?_
  cases after with
  | nil => exact tracks_failure
  | cons c cs =>
    cases hp : p c with
    | false =>
      refine .inl ⟨by rw [Scanner.satisfy, if_neg (by simp [hp])], ?_⟩
      exact bind_of_none (require_none hp _)
    | true =>
      refine .inr ⟨c, [c], cs, rfl, by rw [Scanner.satisfy, if_pos hp], ?_⟩
      refine (bind_of_ok (require_ok hp _)).trans ?_
      rw [Text.width_append]
      rfl

/-- What follows one character starts right after it. -/
theorem tracks_satisfy {p : Char → Bool} {f : Char → Cursor α} {g : Char → Scanner α}
    (hf : ∀ c rest, after = c :: rest → p c = true →
      Tracks (before ++ [c]) rest (Text.width (before ++ [c])) (f c) (g c)) :
    Tracks before after (Text.width before) (satisfy p >>= f) (Scanner.satisfy p >>= g) := by
  refine (mirrors_satisfy p before after).bind fun c used rest hused hread => ?_
  obtain ⟨hafter, hp⟩ := Scanner.append_of_satisfy hread
  obtain rfl : used = [c] := List.append_cancel_right (hused.symm.trans hafter)
  exact hf c rest hafter hp

theorem mirrors_bump : Mirrors bump Scanner.bump := mirrors_satisfy _

theorem mirrors_char (c : Char) : Mirrors (char c) (Scanner.char c) := by
  intro before after
  have hchar : Scanner.char c after = (Scanner.satisfy (· == c) >>= fun _ => pure ()) after := by
    cases after with
    | nil => rfl
    | cons d cs =>
      by_cases hd : d = c
      · simp [Scanner.char, Scanner.satisfy, bind, StateT.bind, pure, StateT.pure, hd]
      · simp [Scanner.char, Scanner.satisfy, bind, StateT.bind, hd]
  exact (((mirrors_satisfy _).bind fun _ => mirrors_pure ()) before after).congr hchar

theorem mirrors_boundary : Mirrors boundary Scanner.boundary := by
  intro before after
  exact .move peek_ok ((mirrors_require _ before after).congr (Scanner.boundary_apply after))

/-- A boundary takes nothing. -/
theorem Tracks.boundary {before after : List Char} {f : Unit → Cursor β} {g : Unit → Scanner β}
    (h : Tracks before after (Text.width before) (f ()) (g ())) :
    Tracks before after (Text.width before) (boundary >>= f) (Scanner.boundary >>= g) := by
  refine (mirrors_boundary before after).bind fun _ used rest hsplit hread => ?_
  rw [Scanner.boundary_apply, Scanner.require_eq_some] at hread
  obtain ⟨-, rfl⟩ := hread
  obtain rfl : used = [] := List.append_left_eq_self.1 hsplit.symm
  rwa [List.append_nil]

theorem mirrors_literal (word : String) : Mirrors (literal word) (Scanner.literal word) := by
  intro before after
  refine .move rest_ok ?_
  have hlower {front : List Char} : Text.sameIgnoringCase (String.ofList front) word = true ↔
      front.map Char.toLower = word.toList.map Char.toLower := by
    simp [Text.sameIgnoringCase, Text.lower, String.ofList_inj]
  by_cases hstarts : Text.startsWithIgnoringCase word.toList after = true
  · obtain ⟨front, back, rfl, hsame⟩ := Text.startsWithIgnoringCase_iff.1 hstarts
    -- what is compared is as wide as the word, so it ends where a character does
    have hwidth : Text.width word.toList = Text.width front := Text.width_of_map_toLower hsame.symm
    have hlength : front.length = word.length := by
      simpa [String.length_toList] using congrArg List.length hsame
    refine .inr ⟨(), front, back, rfl, ?_, ?_⟩
    · rw [Scanner.literal, if_pos hstarts, ← hlength, List.drop_left]
    · rw [hwidth, Text.splitBytes?_append, Text.width_append]
      exact bind_of_ok (require_ok (hlower.2 hsame) _)
  · refine .inl ⟨by rw [Scanner.literal, if_neg hstarts], bind_of_none (require_none ?_ _)⟩
    cases hsplit : Text.splitBytes? (Text.width word.toList) after with
    | none => rfl
    | some parts =>
      obtain ⟨rfl, -⟩ := Text.append_of_splitBytes? hsplit
      refine Bool.eq_false_iff.2 fun hsame => hstarts ?_
      exact Text.startsWithIgnoringCase_iff.2 ⟨_, _, rfl, hlower.1 hsame⟩

theorem mirrors_keyword (word : String) : Mirrors (keyword word) (Scanner.keyword word) :=
  (mirrors_literal word).bind fun _ => mirrors_boundary

theorem mirrors_atEnd : Mirrors atEnd Scanner.atEnd := by
  intro before after
  refine .move rfl (.move rfl ?_)
  refine (mirrors_require _ before after).congr ?_
  cases after with
  | nil => simp [Scanner.atEnd, Scanner.require]
  | cons c cs =>
    have hpos := c.utf8Size_pos
    have hlong : ¬ Text.width (before ++ c :: cs) ≤ Text.width before := by
      rw [Text.width_append, Text.width_cons]
      omega
    rw [decide_eq_false hlong]
    rfl

theorem mirrors_endOfLine : Mirrors endOfLine Scanner.endOfLine :=
  (mirrors_char '\n').orElse mirrors_atEnd

end Mirrors

/-! ### Looking ahead -/

section Ahead

variable {b : Cursor α} {x : Scanner α}

theorem Mirrors.test (h : Mirrors b x) : Mirrors (test b) (Scanner.test x) :=
  (h.bind fun _ => mirrors_pure true).orElse (mirrors_pure false)

/-- What follows a test is the one or the other side. -/
theorem Mirrors.ite {c d : Cursor β} {y z : Scanner β} (h : Mirrors b x) (hc : Mirrors c y)
    (hd : Mirrors d z) : Mirrors (do if ← Cursor.test b then c else d)
      (do if ← Scanner.test x then y else z) := by
  refine h.test.bind fun found => ?_
  cases found with
  | false => exact hd
  | true => exact hc

/-- What may stand or be left out. -/
theorem Mirrors.bindOptional {c : Cursor β} {y : Scanner β} (h : Mirrors b x) (hc : Mirrors c y) :
    Mirrors (Cursor.test b >>= fun _ => c) (optional x >>= fun _ => y) := by
  intro before after
  have htest : (Option.isSome <$> optional x) after = Scanner.test x after := by
    cases hx : x after with
    | none =>
      have hleft : optional x after = some (none, after) :=
        Scanner.orElse_eq_some.2 (.inr ⟨by rw [Scanner.map_apply, hx]; rfl, rfl⟩)
      rw [Scanner.map_apply, hleft, Scanner.test_of_none hx]
      rfl
    | some found =>
      have hread : optional x after = some (some found.1, found.2) :=
        Scanner.orElse_eq_some.2 (.inl (by rw [Scanner.map_apply, hx]; rfl))
      rw [Scanner.map_apply, hread, Scanner.test_of_some hx]
      rfl
  exact ((h.test before after).congr htest).bindMap fun _ _ _ _ _ => hc _ _

theorem Mirrors.ahead (h : Mirrors b x) : Mirrors (ahead b) (Scanner.ahead x) := by
  intro before after
  refine .move rfl ?_
  rcases h before after with ⟨hx, hb⟩ | ⟨a, used, rest, rfl, hx, hb⟩
  · exact .inl ⟨by rw [Scanner.ahead, hx]; rfl, bind_of_none hb⟩
  · refine .inr ⟨a, [], used ++ rest, rfl, by rw [Scanner.ahead, hx]; rfl, ?_⟩
    rw [bind_of_ok hb, List.append_nil]
    rfl

theorem Mirrors.refuse (h : Mirrors b x) : Mirrors (refuse b) (Scanner.notAhead x) := by
  intro before after
  rcases h before after with ⟨hx, hb⟩ | ⟨a, used, rest, -, hx, hb⟩
  · refine .inr ⟨(), [], after, rfl, by rw [Scanner.notAhead, hx]; rfl, ?_⟩
    rw [Cursor.refuse, bind_of_ok (test_of_none hb), List.append_nil]
    rfl
  · refine .inl ⟨by rw [Scanner.notAhead, hx]; rfl, ?_⟩
    rw [Cursor.refuse, bind_of_ok (test_of_ok hb)]
    rfl

end Ahead

/-! ### Loops -/

/-- The scanner `x` is the step `once`, and then `x` again unless the step gave a result. A step
that gives none reads something. -/
inductive Unrolls (once : Scanner (Option α)) (x : Scanner α) (cs : List Char) : Prop where
  | fails (step : once cs = none) (whole : x cs = none)
  | stops {a : α} {rest : List Char} (step : once cs = some (some a, rest))
      (whole : x cs = some (a, rest))
  | goes {rest : List Char} (step : once cs = some (none, rest)) (shorter : rest.length < cs.length)
      (whole : x cs = x rest)

/-- A loop mirrors a scanner that unrolls into what its step mirrors. -/
theorem mirrors_loop {step : Cursor (Option α)} {once : Scanner (Option α)} {x : Scanner α}
    (hstep : Mirrors step once) (hx : ∀ cs, Unrolls once x cs) : Mirrors (loop step) x := by
  have hloop : ∀ count before after, after.length < count →
      Tracks before after (Text.width before) (loopFor step count) x := by
    intro count
    induction count with
    | zero => intro before after hlength; omega
    | succ count ih =>
      intro before after hlength
      have hnext : x after = (once >>= fun found => found.elim x pure) after := by
        rcases hx after with ⟨honce, hwhole⟩ | ⟨honce, hwhole⟩ | ⟨honce, -, hwhole⟩
        · rw [hwhole, Scanner.bind_of_eq_none honce]
        · rw [hwhole, Scanner.bind_of_eq_some honce]
          rfl
        · rw [hwhole, Scanner.bind_of_eq_some honce]
          rfl
      refine Tracks.congr ((hstep before after).bind fun found used rest hsplit honce => ?_) hnext
      cases found with
      | some a => exact tracks_pure
      | none =>
        -- a step without a result reads something, so fewer steps are left to take
        rcases hx after with ⟨hnone, -⟩ | ⟨hsome, -⟩ | ⟨hgoes, hshorter, -⟩
        · rw [hnone] at honce
          cases honce
        · rw [hsome] at honce
          cases honce
        · rw [hgoes] at honce
          cases honce
          exact ih (before ++ used) rest (by omega)
  intro before after
  refine hloop ((before ++ after).length + 1) before after ?_
  rw [List.length_append]
  omega

/-- A loop that goes on as long as a test succeeds. -/
theorem mirrors_whileTrue {b : Cursor β} {y : Scanner β} {x : Scanner Unit} (hb : Mirrors b y)
    (hx : ∀ cs, (y cs = none ∧ x cs = some ((), cs)) ∨
      ∃ a rest, y cs = some (a, rest) ∧ rest.length < cs.length ∧ x cs = x rest) :
    Mirrors (whileTrue (test b)) x := by
  refine mirrors_loop (hb.test.bind fun found => mirrors_pure _) fun cs => ?_
  rcases hx cs with ⟨hy, hwhole⟩ | ⟨a, rest, hy, hshorter, hwhole⟩
  · exact .stops (Scanner.bind_of_eq_some (Scanner.test_of_none hy)) hwhole
  · exact .goes (Scanner.bind_of_eq_some (Scanner.test_of_some hy)) hshorter hwhole

/-- The text that a cursor reads is what the scanner gives, where that is what it reads. -/
theorem Tracks.since {before after : List Char} {b : Cursor Unit} {x : Scanner (List Char)}
    (hb : Tracks before after (Text.width before) b ((fun _ => ()) <$> x)) (hx : x.Echoes) :
    Tracks before after (Text.width before) (b >>= fun _ => since (Text.width before)) x := by
  rw [← bind_pure x]
  exact hb.bindEcho hx fun text rest _ => tracks_value (since_ok before text rest rfl rfl rfl)

theorem mirrors_sliced {b : Cursor Unit} {x : Scanner (List Char)}
    (hb : Mirrors b ((fun _ => ()) <$> x)) (hx : x.Echoes) : Mirrors (sliced b) x :=
  fun before after => .move offset_ok ((hb before after).since hx)

/-- The same for a function that splits what is ahead. -/
theorem mirrors_split {b : Cursor Unit} {split : List Char → List Char × List Char}
    (hb : Mirrors b fun cs => some ((), (split cs).2))
    (hsplit : ∀ cs, (split cs).1 ++ (split cs).2 = cs) :
    Mirrors (sliced b) (Scanner.ofSplit (some ∘ split)) :=
  mirrors_sliced hb (Scanner.echoes_ofSplit hsplit)

/-- A run of characters, one after another. -/
theorem mirrors_takeWhile (p : Char → Bool) : Mirrors (takeWhile p) (Scanner.takeWhile p) := by
  refine mirrors_sliced (mirrors_whileTrue (mirrors_satisfy p) fun cs => ?_)
    (Scanner.echoes_takeWhile p)
  cases cs with
  | nil => exact .inl ⟨rfl, rfl⟩
  | cons c cs =>
    cases hp : p c with
    | false =>
      refine .inl ⟨by simp [Scanner.satisfy, hp], ?_⟩
      rw [Scanner.map_apply, Scanner.takeWhile, List.dropWhile_cons_of_neg (by simp [hp])]
      rfl
    | true =>
      refine .inr ⟨c, cs, by simp [Scanner.satisfy, hp], Nat.lt_succ_self _, ?_⟩
      rw [Scanner.map_apply, Scanner.takeWhile, List.dropWhile_cons_of_pos hp]
      rfl

theorem takeWhile_ok (p : Char → Bool) (before after : List Char) :
    takeWhile p (before ++ after) (Text.width before) =
      .ok (some (after.takeWhile p, Text.width (before ++ after.takeWhile p))) :=
  (mirrors_takeWhile p before after).run List.takeWhile_append_dropWhile.symm rfl

theorem mirrors_takeWhile1 (p : Char → Bool) : Mirrors (takeWhile1 p) (Scanner.takeWhile1 p) :=
  (mirrors_takeWhile p).bind fun _ => (mirrors_require _).bind fun _ => mirrors_pure _

theorem mirrors_blanks : Mirrors blanks Scanner.blanks := mirrors_takeWhile _

theorem mirrors_blanks1 : Mirrors blanks1 Scanner.blanks1 := mirrors_takeWhile1 _

/-! ## Captures -/

/-- A cursor that gives no text to lex. -/
def leaf (b : Cursor Detail) : Cursor (Detail × Option Inside) := do
  return (← b, none)

/-- A cursor that tells nothing but how far it reads. -/
def plain (b : Cursor Unit) : Cursor (Detail × Option Inside) :=
  leaf (do b; return {})

section Forms

variable {before after : List Char} {start : Nat}

theorem Tracks.leaf {b : Cursor Detail} {x : Scanner Detail} (h : Tracks before after start b x) :
    Tracks before after start (leaf b) (Pattern.leaf x).scan :=
  h.bind fun _ _ _ _ _ => tracks_pure

theorem Tracks.plain {b : Cursor Unit} {x : Scanner Unit} (h : Tracks before after start b x) :
    Tracks before after start (plain b) (Pattern.plain x).scan :=
  Tracks.leaf (h.bind fun _ _ _ _ _ => tracks_pure)

theorem mirrors_leaf {b : Cursor Detail} {x : Scanner Detail} (h : Mirrors b x) :
    Mirrors (leaf b) (Pattern.leaf x).scan :=
  fun before after => (h before after).leaf

theorem mirrors_plain {b : Cursor Unit} {x : Scanner Unit} (h : Mirrors b x) :
    Mirrors (plain b) (Pattern.plain x).scan :=
  fun before after => (h before after).plain

end Forms

/-- What `b` reads from the start of the source, cut out of it. To read nothing is no match. -/
def capture (b : Cursor (Detail × Option Inside)) : Cursor Capture := do
  let found ← b
  require ((← offset) != 0)
  return { text := ← since 0, detail := found.1, inside := found.2 }

/-- Matches at the start of the source. -/
def capture? (b : Cursor (Detail × Option Inside)) (source : List Char) :
    Except Fault (Option Capture) :=
  (capture b source 0).map (Option.map Prod.fst)

/-- A cursor that follows a pattern from the start of the source captures what the pattern
captures. -/
theorem capture?_of_tracks {b : Cursor (Detail × Option Inside)} {p : Pattern}
    {source : List Char} (h : Tracks [] source 0 b p.scan) :
    capture? b source = .ok (p.capture? source) := by
  rw [capture?, capture]
  rcases h with ⟨hscan, hb⟩ | ⟨⟨detail, inside⟩, used, rest, hsplit, hscan, hb⟩
  · rw [List.nil_append] at hb
    rw [bind_of_none hb]
    simp [Pattern.capture?, hscan, Except.map]
  · rw [List.nil_append, List.nil_append] at hb
    rw [bind_of_ok hb]
    have htext := Pattern.take_of_append hsplit
    by_cases hused : used = []
    · have hzero : (Text.width used != 0) = false := by simp [hused]
      have hnone : p.capture? source = none := by simp [Pattern.capture?, hscan, htext, hused]
      rw [bind_of_ok offset_ok, bind_of_none (require_none hzero source), hnone]
      rfl
    · have hpos : (Text.width used != 0) = true := by simp [Text.width_eq_zero, hused]
      have hsome : p.capture? source = some { text := used, detail, inside } := by
        simp [Pattern.capture?, hscan, htext, hused]
      have hsince : since 0 source (Text.width used) = .ok (some (used, Text.width used)) :=
        since_ok [] used rest hsplit rfl rfl
      rw [bind_of_ok offset_ok, bind_of_ok (require_ok hpos source), bind_of_ok hsince, hsome]
      rfl

theorem Mirrors.capture? {b : Cursor (Detail × Option Inside)} {p : Pattern}
    (h : Mirrors b p.scan) (source : List Char) : capture? b source = .ok (p.capture? source) :=
  capture?_of_tracks (h [] source)

end StoryScript.Cursor
