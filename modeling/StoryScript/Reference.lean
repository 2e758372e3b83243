/-
  References: ways to a value that can be read, written and deleted.

  A write or a deletion walks along the keys and changes the variable in place.
-/
import StoryScript.Context
import StoryScript.Value.Property

namespace StoryScript

open ScriptError

/-- The value under the first key of a reference. -/
def Context.start (c : Context) : Place Value → Key → Except ScriptError Value
  | .story, name => .ok ((c.story.get? name).getD c.options.defaultValue)
  | .temp, name =>
    match c.temps.get? name with
    | some v => .ok v
    | none => if c.options.strictTemps then .error (noTemp name) else .ok c.options.defaultValue
  | .of v, key => v.lookup key

/-- The value at the end of a chain of keys to look up. -/
def Context.follow (c : Context) (base : Place Value) : List Key → Except ScriptError Value
  | [] => .error noKeys
  | first :: rest => do rest.foldlM Value.lookup (← c.start base first)

namespace Reference

/-! ## Reading -/

/-- The value that a reference leads to. -/
def resolve (r : Reference Value) (c : Context) : Except ScriptError Value :=
  c.follow r.base r.keys

/-- The value that a reference leads to, or the error on the way. -/
def get (r : Reference Value) (c : Context) : Value :=
  Value.ofExcept (r.resolve c)

/-- The value in which the last key is looked up. -/
def holder (r : Reference Value) (c : Context) : Value :=
  match r.path, r.base with
  | [], .story => .map c.story
  | [], .temp => .map ((c.temps.frame? r.property).getD {})
  | [], .of v => v
  | path, base => Value.ofExcept (c.follow base path)

/-- The reference to a property of what a reference leads to now. -/
def extend (r : Reference Value) (c : Context) (key : Key) :
    Except ScriptError (Reference Value) := do
  let key ← (← r.resolve c).lookupKey key
  return { r with path := r.keys, property := key }

/-- The reference along a chain of keys as written. -/
def create (c : Context) (base : Place Value) :
    List Key → Except ScriptError (Reference Value)
  | [] => .error noKeys
  | first :: rest => do
    let property ← match base with
      | .of v => v.lookupKey first
      | .story | .temp => .ok first
    rest.foldlM (fun r key => r.extend c key) { base, path := [], property }

/-! ## Changing -/

/-- What a variable that is set holds. -/
def findVariable (base : Place Value) (name : Key) (c : Context) : Except ScriptError Value :=
  match base with
  | .story =>
    match c.story.get? name with
    | some v => .ok v
    | none => .error (noDataIn name)
  | .temp =>
    match c.temps.get? name with
    | some v => .ok v
    | none => .error (noTemp name)
  | .of v => .error (cannotChangeInValue v)

/-- Writes over a variable. -/
def replaceVariable (base : Place Value) (name : Key) (c : Context) (v : Value) : Context :=
  match base with
  | .story => { c with story := c.story.replace name v }
  | .temp => { c with temps := c.temps.insert name v }
  | .of _ => c

/-- A variable that is set is a story variable or a temp variable. -/
theorem findVariable_eq_ok {base : Place Value} {name : Key} {c : Context} {v : Value}
    (h : findVariable base name c = .ok v) :
    (base = .story ∧ c.story.get? name = some v) ∨ (base = .temp ∧ c.temps.get? name = some v) := by
  cases base with
  | story =>
    simp only [findVariable] at h
    split at h
    · rename_i w hw
      simp only [Except.ok.injEq] at h
      exact .inl ⟨rfl, h ▸ hw⟩
    · simp at h
  | temp =>
    simp only [findVariable] at h
    split at h
    · rename_i w hw
      simp only [Except.ok.injEq] at h
      exact .inr ⟨rfl, h ▸ hw⟩
    · simp at h
  | of w => simp [findVariable] at h

theorem replaceVariable_findVariable {base : Place Value} {name : Key} {c : Context} {v : Value}
    (h : findVariable base name c = .ok v) : replaceVariable base name c v = c := by
  rcases findVariable_eq_ok h with ⟨rfl, hv⟩ | ⟨rfl, hv⟩
  · simp [replaceVariable, DataMap.replace_of_get? hv]
  · simp [replaceVariable, Temps.insert_of_get? hv]

theorem findVariable_replaceVariable {base : Place Value} {name : Key} {c : Context} {v : Value}
    (w : Value) (h : findVariable base name c = .ok v) :
    findVariable base name (replaceVariable base name c w) = .ok w := by
  rcases findVariable_eq_ok h with ⟨rfl, hv⟩ | ⟨rfl, hv⟩
  · simp [replaceVariable, findVariable, DataMap.get?_replace_of_get? w hv]
  · simp [replaceVariable, findVariable, Temps.get?_insert_of_get? w hv]

/-- What the variable under the first key of a reference holds, as a part of the context. -/
def root (base : Place Value) (name : Key) : Part Context Value where
  find := findVariable base name
  replace := replaceVariable base name
  replace_find := replaceVariable_findVariable
  find_replace := findVariable_replaceVariable

/-- The context with a variable set. -/
def setVariable (base : Place Value) (name : Key) (v : Value) (c : Context) :
    Except ScriptError Context :=
  match base with
  | .story =>
    if c.story.isSealed && !c.story.contains name then .error (noNewVariables name)
    else .ok { c with story := c.story.insert name v }
  | .temp => .ok { c with temps := c.temps.insert name v }
  | .of object => .error (cannotStoreInValue object)

/-- The context without a variable. -/
def deleteVariable (base : Place Value) (name : Key) (c : Context) : Except ScriptError Context :=
  match base with
  | .story =>
    if c.story.isSealed then .error (cannotDeleteVariable name)
    else .ok { c with story := c.story.erase name }
  | .temp => .ok { c with temps := c.temps.erase name }
  | .of object => .error (cannotDeleteFromValue object)

/-- The value to store, unless it is one that no variable can hold. -/
def storable (v : Value) : Except ScriptError Value :=
  match v.stored with
  | .error e => .error e
  | .ref r => .error (notStorable (.ref r))
  | .assignment a => .error (notStorable (.assignment a))
  | v => .ok v

/-- Changes a variable, or what the last key is applied to inside it. -/
def change (r : Reference Value) (whole : Context → Except ScriptError Context)
    (property : Value → Except ScriptError Value) : Change Context :=
  match r.path with
  | [] => Change.write whole
  | first :: rest => Change.inside (root r.base first) (Value.changeAt (Change.write property) rest)

/-- Writes a value. -/
def set (r : Reference Value) (c : Context) (v : Value) : Except ScriptError Unit × Context :=
  match storable v with
  | .ok v => r.change (setVariable r.base r.property v) (·.put r.property v) c
  | .error e => Change.fail e c

/-- Deletes what the last key leads to. -/
def delete (r : Reference Value) : Change Context :=
  r.change (deleteVariable r.base r.property) (·.delete r.property)

end Reference

namespace Eval

/-- Runs a change of the context, and tells whether it failed. -/
def attempt (change : Change Context) : Eval (Except ScriptError Unit) :=
  modifyGet change

end Eval

/-- The assignment of a value to what a reference leads to; anything else cannot be assigned to. -/
def Assignment.create (dest src : Value) (op : AssignOp) : Value :=
  (Value.firstError? [dest, src]).getD <|
    match dest with
    | .ref dest => .assignment { dest, src, op }
    | v => .error (notDestination v)

/-- Performs an assignment, combining the old value with the new one first if it says so. -/
def Assignment.perform (a : Assignment Value) : Eval (Except ScriptError Unit) := do
  let v ← match a.op with
    | .setTo | .putInto => pure a.src
    | .augmented op => Eval.binary op (a.dest.get (← get)) a.src
  Eval.attempt (a.dest.set · v)

end StoryScript
