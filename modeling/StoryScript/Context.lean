/-
  The context of an evaluation: variables, options, `it`, and what was reported.
-/
import StoryScript.Notice
import StoryScript.Temps
import StoryScript.Value.Operation

namespace StoryScript

/-- Settings of an evaluation. -/
structure Options where
  /-- What a story variable reads as before it is set. -/
  defaultValue : Value := .number 0
  /-- Whether reading a temp variable before it is set is an error; otherwise it reads as the
  default value. -/
  strictTemps : Bool := true

/-- What an evaluation reads and changes. -/
structure Context where
  /-- The story variables. -/
  story : DataMap Value := {}
  options : Options := {}
  /-- The left operand of the last comparison, or the old value of what is being assigned. -/
  it : Value := .number 0
  temps : Temps := {}
  /-- What was reported, latest first. -/
  log : List Notice := []

/-- A computation in a context. -/
abbrev Eval := StateM Context

namespace Context

/-- What was reported, in order. -/
def notices (c : Context) : List Notice :=
  c.log.reverse

end Context

namespace Eval

/-- Reports a notice. -/
def note (n : Notice) : Eval Unit :=
  modify fun c => { c with log := n :: c.log }

/-- Makes a value `it`. -/
def setIt (v : Value) : Eval Unit :=
  modify fun c => { c with it := v }

/-- Adds an innermost frame of temp variables. -/
def pushFrame (frame : Frame) : Eval Unit :=
  modify fun c => { c with temps := c.temps.push frame }

/-- Removes the innermost frame of temp variables. The outermost one stays. -/
def popFrame : Eval (Option Frame) := do
  match (← get).temps.inner with
  | frame :: rest =>
    modify fun c => { c with temps := { c.temps with inner := rest } }
    return some frame
  | [] =>
    note .outermostFrame
    return none

/-- Applies an operator; a comparison leaves its left operand in `it`. -/
def binary (op : BinaryOp) (lhs rhs : Value) : Eval Value := do
  if op.setsIt lhs rhs then setIt lhs
  return op.apply lhs rhs

/-! ## What each step does to the context -/

theorem run_bind {α β : Type} (x : Eval α) (f : α → Eval β) (c : Context) :
    (x >>= f).run c = (f (x.run c).1).run (x.run c).2 := rfl

@[simp] theorem run_note (n : Notice) (c : Context) :
    (note n).run c = ((), { c with log := n :: c.log }) := rfl

@[simp] theorem run_setIt (v : Value) (c : Context) :
    (setIt v).run c = ((), { c with it := v }) := rfl

@[simp] theorem run_pushFrame (frame : Frame) (c : Context) :
    (pushFrame frame).run c = ((), { c with temps := c.temps.push frame }) := rfl

/-- An operator touches nothing but `it`. -/
theorem run_binary (op : BinaryOp) (lhs rhs : Value) (c : Context) :
    (binary op lhs rhs).run c =
      (op.apply lhs rhs, if op.setsIt lhs rhs then { c with it := lhs } else c) := by
  cases h : op.setsIt lhs rhs
  · simp only [binary, h]
    rfl
  · simp only [binary, h]
    rfl

/-- Removing a frame that was just added gives back what was there before. -/
theorem run_popFrame_push (frame : Frame) (c : Context) :
    popFrame.run { c with temps := c.temps.push frame } = (some frame, c) := rfl

end Eval

end StoryScript
