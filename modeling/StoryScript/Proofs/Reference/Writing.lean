/-
  Writing through a reference, then reading through it.

  Reading and writing walk along the same keys by functions of their own. One step of
  either leads to the same value (`lookup_of_findChild`), and what is put at the end is
  looked up there (`lookup_of_put`), also where an array or a string has grown by it.
  The rest is the walk, by induction on the keys, and the variable it starts from, which
  is the only thing in the context that a write touches.
-/
import Mathlib
import StoryScript.Proofs.Data.Frames
import StoryScript.Reference

namespace StoryScript

/-! ## What a change that succeeds has done -/

namespace Change

variable {σ α : Type}

theorem write_ok {make : σ → Except ScriptError σ} {s s' : σ} (h : write make s = (.ok (), s')) :
    make s = .ok s' := by
  cases hmake : make s with
  | ok t =>
    simp only [write, hmake, Prod.mk.injEq, true_and] at h
    rw [h]
  | error e => simp [write, hmake] at h

theorem inside_ok {part : Part σ α} {change : Change α} {s s' : σ}
    (h : inside part change s = (.ok (), s')) :
    ∃ a a', part.find s = .ok a ∧ change a = (.ok (), a') ∧ s' = part.replace s a' := by
  cases hfind : part.find s with
  | ok a =>
    simp only [inside, hfind, Prod.mk.injEq] at h
    exact ⟨a, (change a).2, rfl, Prod.ext h.1 rfl, h.2.symm⟩
  | error e => simp [inside, hfind] at h

end Change

/-! ## One key -/

/-- An index one past the end is within the sequence once something has been appended. -/
theorem index?_append {n : Number} {length : Nat} (h : index? n length = some length) :
    index? n (length + 1) = some length := by
  cases hwhole : Decimal.whole? n.float with
  | none => simp [index?, hwhole] at h
  | some i =>
    simp only [index?, hwhole, Option.ite_none_right_eq_some, Option.some.injEq] at h ⊢
    -- an index from the end is never one past it
    have hi : ¬ i < 0 := by
      intro hneg
      rw [if_pos hneg] at h
      omega
    rw [if_neg hi] at h ⊢
    exact h

namespace Value

/-- What is put in a sequence is found there. -/
theorem getElem?_of_putAt {α : Type} {items items' : List α} {n : Number} {a : α}
    (h : putAt items n a = some items') : (index? n items'.length).bind (items'[·]?) = some a := by
  cases hi : index? n items.length with
  | none => simp [putAt, hi] at h
  | some i =>
    simp only [putAt, hi] at h
    split at h
    · rename_i hlt
      simp only [Option.some.injEq] at h
      subst h
      simp [hi, hlt]
    · simp only [Option.ite_none_right_eq_some, Option.some.injEq] at h
      obtain ⟨rfl, rfl⟩ := h
      simp [index?_append hi]

/-- A string that is a single character. -/
theorem eq_of_character? {v : Value} {c : Char} (h : v.character? = some c) :
    v = string (String.singleton c) := by
  cases v <;> simp only [character?, reduceCtorEq] at h
  rename_i s
  split at h
  · rename_i d hs
    simp only [Option.some.injEq] at h
    rw [← h, ← String.ofList_toList (s := s), hs]
    rfl
  · simp at h

/-- What is put under a key is looked up under it. -/
theorem lookup_of_put {object object' v : Value} {key : Key} (h : object.put key v = .ok object') :
    object'.lookup key = .ok v := by
  cases object with
  | array items =>
    cases key with
    | number n =>
      simp only [put] at h
      split at h
      · rename_i items' hput
        simp only [Except.ok.injEq] at h
        subst h
        simp [lookup, getElem?_of_putAt hput]
      · simp at h
    | string name => simp only [put] at h; split at h <;> simp at h
  | string s =>
    cases key with
    | number n =>
      simp only [put] at h
      split at h
      · rename_i c hc
        split at h
        · rename_i cs hput
          simp only [Except.ok.injEq] at h
          subst h
          simp [lookup, getElem?_of_putAt hput, eq_of_character? hc]
        · simp at h
      · simp at h
    | string name => simp only [put] at h; split at h <;> simp at h
  | map m =>
    simp only [put] at h
    split at h
    · simp at h
    · simp only [Except.ok.injEq] at h
      subst h
      simp [lookup, DataMap.get?_insert_self]
  | _ => simp [put] at h

/-- Reading finds the child that writing goes through. -/
theorem lookup_of_findChild {object v : Value} {key : Key} (h : findChild key object = .ok v) :
    object.lookup key = .ok v := by
  rcases findChild_eq_ok h with ⟨items, n, i, rfl, rfl, hi, hitem⟩ | ⟨m, rfl, hentry⟩
  · simp [lookup, hi, hitem]
  · simp [lookup, hentry]

/-! ## A path of keys -/

/-- A change at the end of a path leaves there what it makes of what it finds there. -/
theorem changeAt_ok {make : Value → Except ScriptError Value} {path : List Key}
    {object object' : Value} (h : changeAt (Change.write make) path object = (.ok (), object')) :
    ∃ inner inner', path.foldlM lookup object = .ok inner ∧ make inner = .ok inner' ∧
      path.foldlM lookup object' = .ok inner' := by
  induction path generalizing object object' with
  | nil => exact ⟨object, object', rfl, Change.write_ok h, rfl⟩
  | cons first rest ih =>
    obtain ⟨w, w', hfind, hrest, rfl⟩ := Change.inside_ok h
    have hfound : findChild first ((child first).replace object w') = .ok w' :=
      (child first).find_replace w' hfind
    rw [List.foldlM_cons, List.foldlM_cons, lookup_of_findChild hfind, lookup_of_findChild hfound]
    exact ih hrest

/-- What is put at the end of a path is found at its end. -/
theorem foldlM_lookup_of_changeAt {key : Key} {v : Value} {path : List Key} {object object' : Value}
    (h : changeAt (Change.write (·.put key v)) path object = (.ok (), object')) :
    (path ++ [key]).foldlM lookup object' = .ok v := by
  obtain ⟨inner, inner', -, hput, hinner'⟩ := changeAt_ok h
  rw [List.foldlM_append, hinner']
  show [key].foldlM lookup inner' = .ok v
  rw [List.foldlM_cons, lookup_of_put hput]
  rfl

end Value

/-! ## The variable at the start -/

/-- The first key of a reference, which names the variable it starts from. -/
def Reference.first (r : Reference Value) : Key :=
  r.path.headD r.property

/-- Two contexts that agree in all but what one variable holds. The variable may be new in the
second, and then it comes after those that were there. -/
structure Context.AgreeBut (base : Place Value) (name : Key) (c c' : Context) : Prop where
  it : c'.it = c.it
  options : c'.options = c.options
  log : c'.log = c.log
  story : c'.story = c.story ∨ base = .story ∧ c.story.AgreeBut name c'.story
  temps : c'.temps = c.temps ∨ base = .temp ∧ c.temps.AgreeBut name c'.temps

namespace Context

theorem agreeBut_story {c : Context} {name : Key} {story : DataMap Value}
    (h : c.story.AgreeBut name story) : AgreeBut .story name c { c with story } where
  it := rfl
  options := rfl
  log := rfl
  story := .inr ⟨rfl, h⟩
  temps := .inl rfl

theorem agreeBut_temp (c : Context) (name : Key) (v : Value) :
    AgreeBut .temp name c { c with temps := c.temps.insert name v } where
  it := rfl
  options := rfl
  log := rfl
  story := .inl rfl
  temps := .inr ⟨rfl, c.temps.agreeBut_insert name v⟩

theorem follow_cons {c : Context} {base : Place Value} {name : Key} {v : Value}
    (h : c.start base name = .ok v) (keys : List Key) :
    c.follow base (name :: keys) = keys.foldlM Value.lookup v := by
  rw [follow, h]
  rfl

/-- Reading finds the variable that writing starts from. -/
theorem start_of_findVariable {c : Context} {base : Place Value} {name : Key} {v : Value}
    (h : Reference.findVariable base name c = .ok v) : c.start base name = .ok v := by
  rcases Reference.findVariable_eq_ok h with ⟨rfl, hv⟩ | ⟨rfl, hv⟩
  · simp [start, hv]
  · simp [start, hv]

end Context

namespace Reference

theorem agreeBut_replaceVariable {base : Place Value} {name : Key} {c : Context} {v : Value}
    (h : findVariable base name c = .ok v) (w : Value) :
    Context.AgreeBut base name c (replaceVariable base name c w) := by
  rcases findVariable_eq_ok h with ⟨rfl, -⟩ | ⟨rfl, -⟩
  · exact Context.agreeBut_story (c.story.agreeBut_replace name w)
  · exact c.agreeBut_temp name w

/-- Setting a variable sets it, and touches nothing else. -/
theorem setVariable_ok {base : Place Value} {name : Key} {v : Value} {c c' : Context}
    (h : setVariable base name v c = .ok c') :
    c'.start base name = .ok v ∧ Context.AgreeBut base name c c' := by
  cases base with
  | story =>
    simp only [setVariable] at h
    split at h
    · simp at h
    · simp only [Except.ok.injEq] at h
      subst h
      exact ⟨by simp [Context.start, DataMap.get?_insert_self],
        Context.agreeBut_story (c.story.agreeBut_insert name v)⟩
  | temp =>
    simp only [setVariable, Except.ok.injEq] at h
    subst h
    exact ⟨by simp [Context.start, Temps.get?_insert_self], c.agreeBut_temp name v⟩
  | of object => simp [setVariable] at h

/-- What is written along the keys of a reference is found along them, and only the variable at
their start is touched. -/
theorem follow_of_change {r : Reference Value} {c c' : Context} {v : Value}
    (h : r.change (setVariable r.base r.property v) (·.put r.property v) c = (.ok (), c')) :
    c'.follow r.base r.keys = .ok v ∧ Context.AgreeBut r.base r.first c c' := by
  unfold keys first
  cases hpath : r.path with
  | nil =>
    simp only [change, hpath] at h
    obtain ⟨hstart, hagree⟩ := setVariable_ok (Change.write_ok h)
    exact ⟨Context.follow_cons hstart [], hagree⟩
  | cons first rest =>
    simp only [change, hpath] at h
    obtain ⟨object, object', hfind, hrest, rfl⟩ := Change.inside_ok h
    refine ⟨?_, agreeBut_replaceVariable hfind object'⟩
    -- the variable holds what the walk has left in it
    have hstart := Context.start_of_findVariable (findVariable_replaceVariable object' hfind)
    rw [List.cons_append]
    exact (Context.follow_cons hstart _).trans (Value.foldlM_lookup_of_changeAt hrest)

/-- What a variable can hold is the value as it is stored. -/
theorem stored_of_storable {v w : Value} (h : storable v = .ok w) : w = v.stored := by
  unfold storable at h
  split at h <;> simp_all

end Reference

/-- Writing, then reading, through one reference: if a write succeeds, the reference then reads as
the value that was stored, and nothing but the variable it starts from has changed. -/
theorem get_of_set (r : Reference Value) (c c' : Context) (v : Value)
    (h : r.set c v = (.ok (), c')) :
    r.get c' = v.stored ∧ Context.AgreeBut r.base r.first c c' := by
  cases hv : Reference.storable v with
  | error e => simp [Reference.set, hv, Change.fail] at h
  | ok w =>
    simp only [Reference.set, hv] at h
    obtain ⟨hfollow, hagree⟩ := Reference.follow_of_change h
    refine ⟨?_, hagree⟩
    rw [Reference.get, Reference.resolve, hfollow, ← Reference.stored_of_storable hv]
    rfl

namespace Reference

/-- A context with two frames; the outer one holds a string inside an array. -/
def layered (text : String) : Context :=
  { temps := {
      inner := [{ entries := [(.string "u", .number 1)] }]
      outer := { entries := [(.string "t", .array [.number 1, .string text])] } } }

/-- One past the end of the string in `layered "a"`. -/
def pastTheEnd : Reference Value :=
  { base := .temp, path := [.string "t", .number 1], property := .number 1 }

/-- Hooks whose text is known. -/
def texted : Value :=
  .hooks { name := "h", text := some "b" }

end Reference

open Reference in
/-- The text of hooks is appended to a string inside an array in the outer frame. -/
theorem get_of_set_layered :
    pastTheEnd.set (layered "a") texted = (.ok (), layered "ab") ∧
    pastTheEnd.get (layered "ab") = .string "b" ∧
    Context.AgreeBut .temp (.string "t") (layered "a") (layered "ab") := by
  have hset : pastTheEnd.set (layered "a") texted = (.ok (), layered "ab") := rfl
  exact ⟨hset, get_of_set pastTheEnd (layered "a") (layered "ab") texted hset⟩

end StoryScript
