/-
  Assignments that use the old value.

  An assignment evaluates its destination first, and what the destination leads to is `it` while the
  source is evaluated. So `$a to it` writes back what is there, and changes nothing unless it adds an
  entry to a datamap that is asked for one NaN and finds another. An assignment such as `$a += e`
  leaves the old value to its performance, which reads the destination again. Without calls `e`
  touches nothing but `it`, on which no reference depends, so that is the value which
  `$a to it + (e)` has read already, and the two do the same.

  Calls in the destination are another matter. What their macros have changed stays, however the
  assignment ends.
-/
import Mathlib
import StoryScript.Host.Library
import StoryScript.Proofs.Eval.Gating
import StoryScript.Proofs.Eval.Reading
import StoryScript.Proofs.Reference.WritingBack

namespace StoryScript

/-! ## Carrying out an assignment -/

/-- Performs a value that is an assignment. An error fails, and any other value asks for nothing. -/
def Value.carryOut : Value → Eval (Except ScriptError Unit)
  | assignment a => a.perform
  | error e => return .error e
  | _ => return .ok ()

/-- Evaluates an expression and performs the assignment that it gives. -/
def Expr.carryOut (host : Host) (e : Expr) : Eval (Except ScriptError Unit) := do
  (← e.eval host).carryOut

namespace Assignment

variable (r : Reference Value) (v : Value) (c : Context)

/-- A reference can be assigned whatever is no error. -/
theorem create_ref {v : Value} (hv : v.isError = false) (op : AssignOp) :
    create (.ref r) v op = .assignment ⟨r, v, op⟩ := by
  cases v <;> first | rfl | cases hv

/-- Nothing is assigned to an error. -/
theorem carryOut_create_error (e : ScriptError) (op : AssignOp) :
    (create (.error e) v op).carryOut.run c = (.error e, c) := rfl

/-- A plain assignment writes its value. Where that is an error there is no assignment, and a write
would fail with the same error. -/
theorem carryOut_create_setTo : (create (.ref r) v .setTo).carryOut.run c = r.set c v := by
  cases v <;> rfl

/-- An assignment that combines two values reads the old one when it is performed. -/
theorem carryOut_create_augmented {op : BinaryOp} (hop : op.isComparison = false) {v : Value}
    (hv : v.isError = false) :
    (create (.ref r) v (.augmented op)).carryOut.run c = r.set c (op.apply (r.get c) v) := by
  have hbinary : (Eval.binary op (r.get c) v).run c = (op.apply (r.get c) v, c) := by
    rw [Eval.run_binary, BinaryOp.setsIt, hop]
    rfl
  have hperform : (perform ⟨r, v, .augmented op⟩).run c =
      (Eval.attempt (r.set · ((Eval.binary op (r.get c) v).run c).1)).run
        ((Eval.binary op (r.get c) v).run c).2 := rfl
  rw [create_ref r hv, Value.carryOut, hperform, hbinary]
  rfl

/-- Combining the old value with another when the assignment is performed or before it comes about
leads to the same context, and both fail or neither does. If they fail, nothing has changed. -/
theorem carryOut_combined {op : BinaryOp} (hop : op.isComparison = false) :
    let augmented := (create (.ref r) v (.augmented op)).carryOut.run c
    let combined := (create (.ref r) (op.apply (r.get c) v) .setTo).carryOut.run c
    augmented.2 = combined.2 ∧
    ((augmented.1 = .ok () ∧ combined.1 = .ok ()) ∨
      ((∃ x, augmented.1 = .error x) ∧ (∃ x, combined.1 = .error x) ∧ augmented.2 = c)) := by
  dsimp only
  rw [carryOut_create_setTo]
  cases hv : v.isError with
  | true =>
    -- the two may report different errors, since the old value may be one too
    obtain ⟨x, rfl⟩ := (Value.isError_iff v).1 hv
    have herror : (op.apply (r.get c) (.error x)).isError = true := op.isError_apply (.inr rfl)
    obtain ⟨y, hy⟩ := (Value.isError_iff _).1 herror
    rw [hy]
    exact ⟨rfl, .inr ⟨⟨x, rfl⟩, ⟨y, rfl⟩, rfl⟩⟩
  | false =>
    rw [carryOut_create_augmented r c hop hv]
    refine ⟨rfl, ?_⟩
    cases hset : (r.set c (op.apply (r.get c) v)).1 with
    | ok _ => exact .inl ⟨rfl, rfl⟩
    | error x => exact .inr ⟨⟨x, rfl⟩, ⟨x, rfl⟩, r.atomic_set _ c x hset⟩

end Assignment

/-! ## References in contexts that differ in `it` -/

theorem Context.sameStore_it (c : Context) (v : Value) : c.SameStore { c with it := v } :=
  ⟨rfl, rfl, rfl⟩

namespace Reference

variable {c c' : Context} (h : c.SameStore c') (r : Reference Value)

include h

/-- What a reference leads to depends on the variables and options only. -/
theorem resolve_of_sameStore : r.resolve c' = r.resolve c := by
  have hstart : ∀ base key, c'.start base key = c.start base key := by
    intro base key
    cases base <;> simp only [Context.start, h.story, h.temps, h.options]
  unfold resolve Context.follow
  cases r.keys with
  | nil => rfl
  | cons first rest => simp only [hstart]

theorem get_of_sameStore : r.get c' = r.get c := by
  rw [get, get, resolve_of_sameStore h]

theorem startsSet_of_sameStore (hset : r.StartsSet c) : r.StartsSet c' := by
  unfold StartsSet at hset ⊢
  rw [h.story, h.temps]
  exact hset

end Reference

/-! ## Evaluating the destination and the source -/

namespace Expr

variable {host : Host} {c : Context}

theorem eq_ref_of_innerRef? {g : Expr} : ∀ {e : Expr}, e.innerRef? = some g →
    ∃ object property, g = ref object property
  | ref object property, h => ⟨object, property, (Option.some.inj h).symm⟩
  | group e, h => @eq_ref_of_innerRef? g e h

/-- A destination gives an error, or a reference to what is `it` from then on. -/
theorem run_destination {d : Expr} (hd : d.innerRef?.isSome = true) :
    (∃ e c₁, (d.eval host).run c = (.error e, c₁)) ∨
    ∃ r c₁, (d.eval host).run c = (.ref r, c₁) ∧ c₁.it = r.get c₁ := by
  obtain ⟨g, hg⟩ := Option.isSome_iff_exists.1 hd
  have heval : d.eval host = g.evalWith host true := evalWith_of_innerRef? hg
  obtain ⟨object, property, rfl⟩ := eq_ref_of_innerRef? hg
  rw [heval]
  rcases @run_ref host c object property with ⟨e, c₁, hrun⟩ | ⟨r, c₁, hrun⟩
  · exact .inl ⟨e, c₁, hrun true⟩
  · exact .inr ⟨r, _, hrun true, it_ref (hrun true)⟩

/-- The source is evaluated in the context that the destination leaves. -/
theorem run_assign {d : Expr} {v : Value} {c₁ : Context} (hd : (d.eval host).run c = (v, c₁))
    (e : Expr) (op : AssignOp) : ((assign d e op).eval host).run c =
      (Assignment.create v ((e.eval host).run c₁).1 op, ((e.eval host).run c₁).2) := by
  show (Assignment.create ((d.eval host).run c).1 ((e.eval host).run ((d.eval host).run c).2).1 op,
    ((e.eval host).run ((d.eval host).run c).2).2) = _
  rw [hd]

theorem run_carryOut {e : Expr} {v : Value} {c₁ : Context} (he : (e.eval host).run c = (v, c₁)) :
    (e.carryOut host).run c = v.carryOut.run c₁ := by
  show ((e.eval host).run c).1.carryOut.run ((e.eval host).run c).2 = _
  rw [he]

/-- `it` is read before what it is combined with can change it. -/
theorem run_it_binary {op : BinaryOp} (hop : op.isComparison = false) (e : Expr) :
    ((binary it op (group e)).eval host).run c =
      (op.apply c.it ((e.eval host).run c).1, ((e.eval host).run c).2) := by
  show (Eval.binary op c.it ((e.eval host).run c).1).run ((e.eval host).run c).2 = _
  rw [Eval.run_binary, BinaryOp.setsIt, hop]
  rfl

/-- Evaluation leaves the variables alone if there are no calls, or none that touches them. -/
theorem sameStore_eval {e : Expr} (h : e.CallFree ∨ host.Keeps Context.SameStore) (c : Context) :
    c.SameStore ((e.eval host).run c).2 := by
  rcases h with hfree | hhost
  · obtain ⟨v, hv⟩ := @touchesIt_evalWith host true e hfree c
    rw [eval, hv]
    exact c.sameStore_it v
  · exact e.keeps_evalWith Context.isRespected_sameStore hhost true c

end Expr

/-! ## Writing back what is `it` -/

/-- Only hooks whose text is known are stored as something else. -/
theorem Value.stored_eq_self {v : Value} (h : ∀ name text, v ≠ .hooks ⟨name, some text⟩) :
    v.stored = v := by
  cases v with
  | hooks hooks =>
    obtain ⟨name, _ | text⟩ := hooks
    · rfl
    · exact absurd rfl (h name text)
  | _ => rfl

/-- What a reference reads as can be assigned only if the reference leads there. -/
theorem Reference.resolve_of_create {r : Reference Value} {c : Context} {op : AssignOp}
    {a : Assignment Value} (h : Assignment.create (.ref r) (r.get c) op = .assignment a) :
    a = ⟨r, r.get c, op⟩ ∧ r.resolve c = .ok (r.get c) := by
  cases hvalue : (r.get c).isError with
  | true =>
    obtain ⟨e, he⟩ := (Value.isError_iff _).1 hvalue
    rw [he] at h
    cases h
  | false =>
    rw [Assignment.create_ref r hvalue] at h
    refine ⟨(Value.assignment.inj h).symm, ?_⟩
    -- an error on the way would be read as an error
    unfold get at hvalue ⊢
    cases hresolve : r.resolve c with
    | error e =>
      rw [hresolve] at hvalue
      cases hvalue
    | ok v => rfl

/-- `d to it` writes back what is there. On a host whose macros leave the variables and options
alone, let `d` be a variable or property, perhaps in parentheses, that starts from a variable which
is set, or from no variable at all, and does not read as hooks with a known text. Then evaluating
the assignment and performing it leaves every variable as it was, whether that succeeds or fails,
with one exception: where the last key is a NaN and is looked up in a datamap whose only name is a
NaN with another hash, the datamap may get a second entry, with the same value. What is assigned is
what the destination reads as. -/
theorem store_assign_it (host : Host) (hhost : host.Keeps Context.SameStore) (d : Expr)
    (hd : d.innerRef?.isSome = true) (c : Context)
    (hdest : ∀ r c₁, (d.eval host).run c = (.ref r, c₁) →
      r.StartsSet c ∧ ∀ name text, r.get c ≠ .hooks ⟨name, some text⟩) :
    let evaluated := ((Expr.assign d .it .setTo).eval host).run c
    c.SameStore evaluated.2 ∧
    ∀ a, evaluated.1 = .assignment a →
      a.src = a.dest.get c ∧
      (c.SameStore (a.perform.run evaluated.2).2 ∨
        a.dest.Doubled a.src evaluated.2 (a.perform.run evaluated.2).2) := by
  refine ⟨Expr.sameStore_eval (.inr hhost) c, fun a ha => ?_⟩
  have hd₁ : c.SameStore ((d.eval host).run c).2 := Expr.sameStore_eval (.inr hhost) c
  rcases @Expr.run_destination host c d hd with ⟨e, c₁, hrun⟩ | ⟨r, c₁, hrun, hit⟩
  · -- an error as destination gives no assignment
    rw [Expr.run_assign hrun] at ha
    cases ha
  · have hc₁ : c.SameStore c₁ := by
      rw [hrun] at hd₁
      exact hd₁
    obtain ⟨hset, htext⟩ := hdest r c₁ hrun
    have hget : r.get c₁ = r.get c := r.get_of_sameStore hc₁
    have heval : ((Expr.assign d .it .setTo).eval host).run c =
        (Assignment.create (.ref r) (r.get c₁) .setTo, c₁) := by
      rw [Expr.run_assign hrun, ← hit]
      rfl
    rw [heval] at ha ⊢
    obtain ⟨rfl, hresolve⟩ := Reference.resolve_of_create ha
    refine ⟨hget, ?_⟩
    show c.SameStore (r.set c₁ (r.get c₁)).2 ∨ r.Doubled (r.get c₁) c₁ (r.set c₁ (r.get c₁)).2
    have hstored : (r.get c₁).stored = r.get c₁ := by
      rw [hget]
      exact Value.stored_eq_self htext
    rcases Reference.set_of_resolve hresolve (r.startsSet_of_sameStore hc₁ hset) hstored with
      hback | hdoubled
    · rw [hback]
      exact .inl hc₁
    · exact .inr hdoubled

/-- `($list's last's 2nd)` -/
def lastLetter : Expr :=
  .group (.ref (.of (.ref (.of (.ref .story (.name "list"))) (.name "last"))) (.name "2nd"))

/-- The reference that `lastLetter` gives in `nestedStory`. -/
def lastLetterRef : Reference Value :=
  { base := .story, path := [.string "list", .number (.ofFloat (-1))], property := .number 1 }

open Reference in
theorem run_lastLetter : (lastLetter.eval .bare).run nestedStory =
    (.ref lastLetterRef, { nestedStory with it := .string "b" }) := rfl

open Reference in
/-- A character of a string inside an array is written over itself. -/
theorem store_assign_it_lastLetter :
    lastLetter.innerRef?.isSome = true ∧ Host.bare.Keeps Context.SameStore ∧
    (∀ r c₁, (lastLetter.eval .bare).run nestedStory = (.ref r, c₁) →
      r.StartsSet nestedStory ∧ ∀ name text, r.get nestedStory ≠ .hooks ⟨name, some text⟩) ∧
    (((Expr.assign lastLetter .it .setTo).carryOut .bare).run nestedStory).1 = .ok () ∧
    ∀ a, (((Expr.assign lastLetter .it .setTo).eval .bare).run nestedStory).1 = .assignment a →
      nestedStory.SameStore
        (a.perform.run (((Expr.assign lastLetter .it .setTo).eval .bare).run nestedStory).2).2 := by
  have hhost : Host.bare.Keeps Context.SameStore := Host.keeps_bare Context.isRespected_sameStore
  have hdest : ∀ r c₁, (lastLetter.eval .bare).run nestedStory = (.ref r, c₁) →
      r.StartsSet nestedStory ∧ ∀ name text, r.get nestedStory ≠ .hooks ⟨name, some text⟩ := by
    intro r c₁ h
    rw [run_lastLetter] at h
    obtain rfl : lastLetterRef = r := Value.ref.inj (congrArg Prod.fst h)
    refine ⟨rfl, fun name text hhooks => ?_⟩
    have hletter : lastLetterRef.get nestedStory = .string "b" := rfl
    rw [hletter] at hhooks
    cases hhooks
  refine ⟨rfl, hhost, hdest, rfl, fun a ha => ?_⟩
  rcases ((store_assign_it .bare hhost lastLetter rfl nestedStory hdest).2 a ha).2 with
    hsame | ⟨m, hholder, -⟩
  · exact hsame
  · -- the last key is looked up in a string
    have ha' : Value.assignment ⟨lastLetterRef, .string "b", .setTo⟩ = .assignment a := ha
    obtain rfl := Value.assignment.inj ha'
    cases hholder

/-- A story with a datamap whose only name is a NaN, and with another NaN. -/
def nanStory : Context :=
  { story := { entries :=
      [(.string "m", .map { entries := [(.writtenNaN, .number 1)] }),
       (.string "k", .number (0 / 0))] } }

/-- `$m's ($k)` -/
def nanEntry : Expr :=
  .ref (.of (.ref .story (.name "m"))) (.computed (.get (.ref .story (.name "k"))))

/-- The reference that `nanEntry` gives in `nanStory`. -/
def nanEntryRef : Reference Value :=
  { base := .story, path := [.string "m"], property := .resultNaN }

theorem run_nanEntry : (nanEntry.eval .bare).run nanStory =
    (.ref nanEntryRef, { nanStory with it := .number 1 }) := rfl

/-- A datamap is asked for a NaN that is not its own: it finds what it has, and when that is written
back it has it twice. -/
theorem not_sameStore_assign_it_nanEntry :
    let assigned := ((Expr.assign nanEntry .it .setTo).carryOut .bare).run nanStory
    (nanEntry.innerRef?.isSome = true ∧ Host.bare.Keeps Context.SameStore ∧
      ∀ r c₁, (nanEntry.eval .bare).run nanStory = (.ref r, c₁) →
        r.StartsSet nanStory ∧ ∀ name text, r.get nanStory ≠ .hooks ⟨name, some text⟩) ∧
    assigned.1 = .ok () ∧ ¬nanStory.SameStore assigned.2 := by
  refine ⟨⟨rfl, Host.keeps_bare Context.isRespected_sameStore, ?_⟩, rfl, fun hsame => ?_⟩
  · intro r c₁ h
    rw [run_nanEntry] at h
    obtain rfl : nanEntryRef = r := Value.ref.inj (congrArg Prod.fst h)
    refine ⟨rfl, fun name text hhooks => ?_⟩
    have hone : nanEntryRef.get nanStory = .number 1 := rfl
    rw [hone] at hhooks
    cases hhooks
  · have hentries : some (Value.map
          { entries := [(.writtenNaN, .number 1), (.resultNaN, .number 1)] }) =
        some (.map { entries := [(.writtenNaN, .number 1)] }) :=
      congrArg (·.get? (.string "m")) hsame.story
    simp at hentries

/-! ## Combining the old value with another -/

/-- An assignment that combines the old value with another is one that spells the combination out.
Let `op` be any operator but a comparison, such as those of arithmetic, `d` a variable or property,
perhaps in parentheses, and `e` an expression without calls. Then carrying out `d op= e` and
`d to it op (e)` in the same context leads to the same context, and both succeed or both fail. If
they fail, the variables are what evaluating `d` has left, and that leaves them alone if it makes no
calls, or none that touches them. -/
theorem carryOut_augmented (host : Host) (op : BinaryOp) (hop : op.isComparison = false) (d : Expr)
    (hd : d.innerRef?.isSome = true) (e : Expr) (he : e.CallFree) (c : Context) :
    let destined := ((d.eval host).run c).2
    let augmented := ((Expr.assign d e (.augmented op)).carryOut host).run c
    let spelled := ((Expr.assign d (.binary .it op (.group e)) .setTo).carryOut host).run c
    augmented.2 = spelled.2 ∧
    ((augmented.1 = .ok () ∧ spelled.1 = .ok ()) ∨
      ((∃ x, augmented.1 = .error x) ∧ (∃ x, spelled.1 = .error x) ∧
        destined.SameStore augmented.2)) ∧
    (d.CallFree ∨ host.Keeps Context.SameStore → c.SameStore destined) := by
  dsimp only
  rw [← and_assoc]
  refine ⟨?_, fun h => Expr.sameStore_eval h c⟩
  rcases @Expr.run_destination host c d hd with ⟨x, c₁, hrun⟩ | ⟨r, c₁, hrun, hit⟩
  all_goals
    have hc₂ : c₁.SameStore ((e.eval host).run c₁).2 := Expr.sameStore_eval (.inl he) c₁
    rw [Expr.run_carryOut (Expr.run_assign hrun _ _), Expr.run_carryOut (Expr.run_assign hrun _ _),
      Expr.run_it_binary hop, hrun]
  · -- without a destination both end with its error
    simp only [Assignment.carryOut_create_error]
    exact ⟨trivial, .inr ⟨⟨x, rfl⟩, ⟨x, rfl⟩, hc₂⟩⟩
  · -- the old value is the same before and after the source is evaluated
    rw [hit, ← r.get_of_sameStore hc₂]
    obtain ⟨hsame, hends⟩ := Assignment.carryOut_combined r ((e.eval host).run c₁).1
      ((e.eval host).run c₁).2 hop
    refine ⟨hsame, hends.imp_right ?_⟩
    rintro ⟨hx, hy, hunchanged⟩
    rw [hunchanged]
    exact ⟨hx, hy, hc₂⟩

/-- `$m's ((put: 1 into $b))` -/
def fillingDestination : Expr :=
  .ref (.of (.ref .story (.name "m"))) (.computed (.group (.call (.named "put")
    [.value (.assign (.ref .story (.name "b")) (.number 1) .putInto)])))

/-- A failure does not take back what a call in the destination has done: a number has no
properties, so there is nothing to assign to, but `$b` is set by then. -/
theorem not_sameStore_augmented_filling :
    let augmented := ((Expr.assign fillingDestination (.number 1) (.augmented .add)).carryOut
      (.library {})).run {}
    let spelled := ((Expr.assign fillingDestination (.binary .it .add (.group (.number 1)))
      .setTo).carryOut (.library {})).run {}
    (fillingDestination.innerRef?.isSome = true ∧ (Expr.number 1).CallFree) ∧
    (augmented.1.isOk = false ∧ ¬Context.SameStore {} augmented.2) ∧
    spelled.1.isOk = false ∧ ¬Context.SameStore {} spelled.2 := by
  have hchanged : ∀ c : Context, c.story.contains (.string "b") = true →
      ¬Context.SameStore {} c := by
    intro c hc hsame
    rw [hsame.story] at hc
    cases hc
  refine ⟨⟨rfl, by decide⟩, ⟨by decide +kernel, hchanged _ ?_⟩, by decide +kernel, hchanged _ ?_⟩
  · decide +kernel
  · decide +kernel

/-- `$list's last` -/
def lastItem : Expr :=
  .ref (.of (.ref .story (.name "list"))) (.name "last")

/-- `($list)'s last`, which makes the whole list `it` -/
def distractingItem : Expr :=
  .get (.ref (.of (.group (.ref .story (.name "list")))) (.name "last"))

open Reference in
/-- The source changes `it`, and still the old value is combined with it in both spellings. -/
theorem carryOut_augmented_distracted :
    (BinaryOp.add.isComparison = false ∧ lastItem.innerRef?.isSome = true ∧
      distractingItem.CallFree) ∧
    ((distractingItem.eval .bare).run { nestedStory with it := .string "ab" }).2.it =
      .array [.number 1, .string "ab"] ∧
    (((Expr.assign lastItem (.binary .it .add (.group distractingItem)) .setTo).carryOut
      .bare).run nestedStory).1 = .ok () ∧
    (((Expr.assign lastItem (.binary .it .add (.group distractingItem)) .setTo).carryOut
      .bare).run nestedStory).2.story.get? (.string "list") =
        some (.array [.number 1, .string "abab"]) := by
  have hfree : distractingItem.CallFree := by decide
  obtain ⟨hsame, hends, -⟩ := carryOut_augmented .bare .add rfl lastItem rfl distractingItem hfree
    nestedStory
  refine ⟨⟨rfl, rfl, hfree⟩, rfl, ?_, ?_⟩
  · rcases hends with ⟨-, hok⟩ | ⟨⟨x, hx⟩, -⟩
    · exact hok
    · cases hx
  · rw [← hsame]
    rfl

end StoryScript
