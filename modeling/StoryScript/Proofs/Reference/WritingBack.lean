/-
  Reading through a reference, then writing back what was read.

  A write along the keys of a reference either fails, and then nothing has changed, or it puts the
  value where the read has found it. So one key at a time nothing changes (`put_of_lookup`), and
  along a path every step writes back the child that it has gone through. Two cases are different.
  A variable that is not set yet reads as the default value, and writing that sets it. And a datamap
  whose only name is a NaN finds its entry under any NaN, but a write under one with another hash
  adds a second entry.
-/
import Mathlib
import StoryScript.Proofs.Reference.Atomic
import StoryScript.Proofs.Reference.Writing

namespace StoryScript

/-! ## One key -/

namespace Value

/-- What is found in a sequence can be put there, and that changes nothing. -/
theorem putAt_of_getElem? {α : Type} {items : List α} {n : Number} {a : α}
    (h : (index? n items.length).bind (items[·]?) = some a) : putAt items n a = some items := by
  obtain ⟨i, hi, hitem⟩ := Option.bind_eq_some_iff.1 h
  obtain ⟨hlt, rfl⟩ := List.getElem?_eq_some_iff.1 hitem
  simp only [putAt, hi, if_pos hlt, List.set_getElem_self]

theorem character?_singleton (c : Char) :
    (string (String.singleton c)).character? = some c := by
  simp [character?]

/-- The value is a datamap whose only name the key doubles: a write under it adds an entry. -/
def IsDoubledBy (object : Value) (key : Key) : Prop :=
  ∃ m, object = map m ∧ key.Doubles m.keys

/-- Under a key that can be written, writing what was read changes nothing. -/
theorem put_of_lookup {object object' v : Value} {key : Key} (hkey : ¬object.IsDoubledBy key)
    (h : object.lookup key = .ok v) (hput : object.put key v = .ok object') : object' = object := by
  cases object with
  | array items =>
    cases key with
    | number n =>
      simp only [lookup] at h
      split at h
      · rename_i w hw
        obtain rfl : w = v := by simpa using h
        simp only [put, putAt_of_getElem? hw, Except.ok.injEq] at hput
        exact hput.symm
      · simp at h
    | string name =>
      -- what an array has under a name, such as its length, cannot be written
      simp only [put] at hput
      split at hput <;> simp at hput
  | string s =>
    cases key with
    | number n =>
      simp only [lookup] at h
      split at h
      · rename_i c hc
        obtain rfl : string (String.singleton c) = v := by simpa using h
        simp only [put, character?_singleton, putAt_of_getElem? hc, String.ofList_toList,
          Except.ok.injEq] at hput
        exact hput.symm
      · simp at h
    | string name =>
      simp only [put] at hput
      split at hput <;> simp at hput
  | map m =>
    simp only [lookup] at h
    split at h
    · rename_i w hw
      obtain rfl : w = v := by simpa using h
      simp only [put] at hput
      split at hput
      · simp at hput
      · have hsingle : ¬key.Doubles m.keys := fun hdoubles => hkey ⟨m, rfl, hdoubles⟩
        simp only [DataMap.insert_of_get? hw hsingle, Except.ok.injEq] at hput
        exact hput.symm
    · simp at h
  | _ => simp [put] at hput

/-- Under a key that doubles the only name of a datamap, even a sealed one takes another entry. -/
theorem put_of_doubles {m : DataMap Value} {key : Key} (hkey : key.Doubles m.keys) (v : Value) :
    (map m).put key v = .ok (map { m with entries := m.entries ++ [(key, v)] }) := by
  simp only [put, DataMap.contains_of_doubles hkey, DataMap.insert_of_doubles hkey, Bool.not_true,
    Bool.and_false, Bool.false_eq_true, if_false]

/-! ## A path of keys -/

/-- Whether it succeeds or not, writing at the end of a path what was read there changes nothing. -/
theorem changeAt_of_lookup {key : Key} {v : Value} {path : List Key} {object : Value}
    (hkey : ∀ inner, path.foldlM lookup object = .ok inner → ¬inner.IsDoubledBy key)
    (h : (path ++ [key]).foldlM lookup object = .ok v) :
    (changeAt (Change.write (·.put key v)) path object).2 = object := by
  induction path generalizing object with
  | nil =>
    have hlookup : object.lookup key = .ok v := by
      rw [List.nil_append, List.foldlM_cons] at h
      exact (bind_pure _).symm.trans h
    show (Change.write (·.put key v) object).2 = object
    cases hput : object.put key v with
    | error e => simp [Change.write, hput]
    | ok object' => simpa [Change.write, hput] using put_of_lookup (hkey object rfl) hlookup hput
  | cons first rest ih =>
    show (Change.inside (child first)
      (changeAt (Change.write (·.put key v)) rest) object).2 = object
    cases hfind : findChild first object with
    | error e => simp [Change.inside, child, hfind]
    | ok w =>
      -- the write goes through the child that the read has gone through
      rw [List.cons_append, List.foldlM_cons, lookup_of_findChild hfind] at h
      rw [List.foldlM_cons, lookup_of_findChild hfind] at hkey
      have hfound : (child first).find object = .ok w := hfind
      simp only [Change.inside, hfound, ih hkey h]
      exact (child first).replace_find hfound

end Value

/-! ## The variable at the start -/

namespace Reference

/-- The variable that the reference starts from is set. One that starts from a value needs none. -/
def StartsSet (r : Reference Value) (c : Context) : Prop :=
  match r.base with
  | .story => (c.story.get? r.first).isSome = true
  | .temp => (c.temps.get? r.first).isSome = true
  | .of _ => True

/-- Setting a variable to what it reads as changes nothing, if it is set. Only the story variables
can get another one, if the name doubles the only name they have. -/
theorem setVariable_of_start {base : Place Value} {name : Key} {c c' : Context} {v : Value}
    (hset : (⟨base, [], name⟩ : Reference Value).StartsSet c) (hstart : c.start base name = .ok v)
    (h : setVariable base name v c = .ok c') :
    c' = c ∨ base = .story ∧ name.Doubles c.story.keys ∧
      c'.story = { c.story with entries := c.story.entries ++ [(name, v)] } := by
  cases base with
  | story =>
    obtain ⟨w, hw⟩ : ∃ w, c.story.get? name = some w := Option.isSome_iff_exists.1 hset
    obtain rfl : w = v := by simpa [Context.start, hw] using hstart
    simp only [setVariable] at h
    split at h
    · simp at h
    · simp only [Except.ok.injEq] at h
      subst h
      by_cases hname : name.Doubles c.story.keys
      · exact .inr ⟨rfl, hname, DataMap.insert_of_doubles hname w⟩
      · rw [DataMap.insert_of_get? hw hname]
        exact .inl rfl
  | temp =>
    obtain ⟨w, hw⟩ : ∃ w, c.temps.get? name = some w := Option.isSome_iff_exists.1 hset
    obtain rfl : w = v := by simpa [Context.start, hw] using hstart
    simp only [setVariable, Temps.insert_of_get? hw] at h
    exact .inl (Except.ok.inj h).symm
  | of object => simp [setVariable] at h

theorem holder_eq_follow {r : Reference Value} {c : Context} (h : r.path ≠ []) :
    r.holder c = Value.ofExcept (c.follow r.base r.path) := by
  obtain ⟨base, path, property⟩ := r
  cases path with
  | nil => exact absurd rfl h
  | cons first rest => rfl

/-- The write has added an entry to the datamap in which the last key is looked up, since the key
doubles the only name there. Nothing but the variable at the start has changed. -/
def Doubled (r : Reference Value) (v : Value) (c c' : Context) : Prop :=
  ∃ m, r.holder c = .map m ∧ r.property.Doubles m.keys ∧
    r.holder c' = .map { m with entries := m.entries ++ [(r.property, v)] } ∧
    Context.AgreeBut r.base r.first c c'

/-- Writing through a reference what it leads to leaves the context as it was, whether the write
succeeds or fails, unless it has added an entry under a NaN. -/
theorem set_of_resolve {r : Reference Value} {c : Context} {v : Value} (h : r.resolve c = .ok v)
    (hset : r.StartsSet c) (hstored : v.stored = v) :
    (r.set c v).2 = c ∨ r.Doubled v c (r.set c v).2 := by
  obtain ⟨result, c', hc'⟩ : ∃ result c', r.set c v = (result, c') := ⟨_, _, rfl⟩
  rw [hc']
  cases result with
  | error e =>
    have hatomic : (r.set c v).2 = c := r.atomic_set v c e (congrArg Prod.fst hc')
    rw [hc'] at hatomic
    exact .inl hatomic
  | ok _ =>
    cases hv : storable v with
    | error e => simp [set, hv, Change.fail] at hc'
    | ok w =>
      obtain rfl : w = v := (stored_of_storable hv).trans hstored
      simp only [set, hv] at hc'
      have hagree := (follow_of_change hc').2
      obtain ⟨base, path, property⟩ := r
      cases path with
      | nil =>
        have hstart : c.start base property = .ok w := (bind_pure _).symm.trans h
        rcases setVariable_of_start hset hstart (Change.write_ok hc') with hc | ⟨rfl, hname, hstory⟩
        · exact .inl hc
        · exact .inr ⟨c.story, rfl, hname, congrArg Value.map hstory, hagree⟩
      | cons first rest =>
        obtain ⟨object, object', hfind, hrest, rfl⟩ := Change.inside_ok hc'
        obtain ⟨inner, inner', hinner, hput, hinner'⟩ := Value.changeAt_ok hrest
        have hstart := Context.start_of_findVariable hfind
        by_cases hkey : inner.IsDoubledBy property
        · obtain ⟨m, rfl, hdoubles⟩ := hkey
          rw [Value.put_of_doubles hdoubles, Except.ok.injEq] at hput
          subst hput
          have hstart' := Context.start_of_findVariable (findVariable_replaceVariable object' hfind)
          refine .inr ⟨m, ?_, hdoubles, ?_, hagree⟩
          · rw [holder_eq_follow (List.cons_ne_nil _ _), Context.follow_cons hstart, hinner]
            rfl
          · rw [holder_eq_follow (List.cons_ne_nil _ _)]
            exact congrArg Value.ofExcept ((Context.follow_cons hstart' rest).trans hinner')
        · -- every step writes back the child that it has gone through
          have hread : (rest ++ [property]).foldlM Value.lookup object = .ok w :=
            (Context.follow_cons hstart _).symm.trans h
          have hback := Value.changeAt_of_lookup (fun inner₁ h₁ => by
            obtain rfl := Except.ok.inj (h₁.symm.trans hinner)
            exact hkey) hread
          rw [hrest] at hback
          left
          rw [show object' = object from hback]
          exact (root base first).replace_find hfind

end Reference

end StoryScript
