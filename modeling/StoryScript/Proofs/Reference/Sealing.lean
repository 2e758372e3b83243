/-
  Sealed maps keep their names.

  The seal of a map is looked at by whoever writes on behalf of a script: where a
  variable is set or deleted, and where a property is put or deleted. A change deeper
  down goes through the map without looking at its seal; it writes back a value under a
  name that it has found there, which adds no name. So one command keeps the names of a
  sealed map in every case, whether it succeeds or fails, and so does any run of them.

  One name can slip in. A map whose only name is a NaN says that it has every NaN, so
  the seal lets a write under another one pass, and the write adds it. That happens
  once: from then on the map has two names and is searched by hashes.
-/
import Mathlib
import StoryScript.Proofs.Reference.Atomic
import StoryScript.Proofs.Reference.Writing

namespace StoryScript

/-! ## Commands -/

/-- A change of the variables that a macro can make. -/
inductive Command where
  | set (r : Reference Value) (v : Value)
  | delete (r : Reference Value)
  | perform (a : Assignment Value)

namespace Command

/-- The reference that a command goes along. -/
def dest : Command → Reference Value
  | set r _ => r
  | delete r => r
  | perform a => a.dest

/-- Runs a command, and tells whether it failed. -/
def run : Command → Eval (Except ScriptError Unit)
  | set r v => Eval.attempt (r.set · v)
  | delete r => Eval.attempt r.delete
  | perform a => a.perform

/-- The context after commands in a row. A command that fails does not stop the others. -/
def after (c : Context) (commands : List Command) : Context :=
  commands.foldl (fun c command => (command.run.run c).2) c

/-- The command goes along keys that end at, or pass through, what stands at the end of a path. -/
def Through (base : Place Value) (path : List Key) (command : Command) : Prop :=
  command.dest.base = base ∧ path <+: command.dest.path

/-- What every command keeps, a run of commands keeps. -/
theorem after_induction (P : Context → Prop) {commands : List Command}
    (step : ∀ command ∈ commands, ∀ c, P c → P (command.run.run c).2) {c : Context} (h : P c) :
    P (after c commands) := by
  induction commands generalizing c with
  | nil => exact h
  | cons command rest ih =>
    obtain ⟨hfirst, hrest⟩ := List.forall_mem_cons.1 step
    exact ih hrest (hfirst c h)

end Command

/-! ## One map -/

/-- The names that a sealed map may have after commands: those it had before, in their order, and
a NaN more if it doubles the only one. -/
def Key.KeepsNames (names names' : List Key) : Prop :=
  names' = names ∨ ∃ key : Key, key.Doubles names ∧ names' = names ++ [key]

/-- A sealed map whose names have come from these. -/
structure DataMap.IsSealedWith (names : List Key) (m : DataMap Value) : Prop where
  isSealed : m.isSealed = true
  keys : Key.KeepsNames names m.keys

namespace DataMap.IsSealedWith

variable {names : List Key} {m : DataMap Value}

/-- Writing under a name that is there keeps the names. -/
theorem insert (h : m.IsSealedWith names) {key : Key} (hkey : m.contains key = true) (v : Value) :
    (m.insert key v).IsSealedWith names := by
  refine ⟨h.isSealed, ?_⟩
  rcases any_alike_or_doubles hkey with hhash | hdoubles
  · rw [keys_insert, if_pos hhash]
    exact h.keys
  · rw [keys_insert, hdoubles.any_alike, if_neg Bool.false_ne_true]
    rcases h.keys with hnames | ⟨other, ⟨name, rfl, -⟩, hnames⟩
    · rw [hnames] at hdoubles ⊢
      exact .inr ⟨key, hdoubles, rfl⟩
    · -- two names cannot be doubled
      obtain ⟨_, hsingle, -⟩ := hdoubles
      rw [hnames] at hsingle
      cases hsingle

/-- Changing a value keeps the names. -/
theorem replace (h : m.IsSealedWith names) (key : Key) (v : Value) :
    (m.replace key v).IsSealedWith names := by
  refine ⟨h.isSealed, ?_⟩
  rw [keys_replace]
  exact h.keys

end DataMap.IsSealedWith

/-! ## The story variables -/

namespace Reference

open DataMap (IsSealedWith)

variable {names : List Key} {c c' : Context}

theorem sealed_setVariable {base : Place Value} {name : Key} {v : Value}
    (h : setVariable base name v c = .ok c') (hc : c.story.IsSealedWith names) :
    c'.story.IsSealedWith names := by
  cases base with
  | story =>
    simp only [setVariable, hc.isSealed, Bool.true_and, Bool.not_eq_true'] at h
    split at h
    · simp at h
    · rename_i hname
      simp only [Except.ok.injEq] at h
      subst h
      exact hc.insert (Bool.eq_true_of_not_eq_false hname) v
  | temp =>
    simp only [setVariable, Except.ok.injEq] at h
    subst h
    exact hc
  | of object => simp [setVariable] at h

theorem sealed_deleteVariable {base : Place Value} {name : Key}
    (h : deleteVariable base name c = .ok c') (hc : c.story.IsSealedWith names) :
    c'.story.IsSealedWith names := by
  cases base with
  | story => simp [deleteVariable, hc.isSealed] at h
  | temp =>
    simp only [deleteVariable, Except.ok.injEq] at h
    subst h
    exact hc
  | of object => simp [deleteVariable] at h

/-- A change through a reference keeps the names of a sealed story, if what it does to a whole
variable does: deeper down it only writes back a variable that it has found. -/
theorem sealed_change (r : Reference Value) {whole : Context → Except ScriptError Context}
    (property : Value → Except ScriptError Value)
    (hwhole : ∀ c', whole c = .ok c' → c'.story.IsSealedWith names)
    (hc : c.story.IsSealedWith names) : (r.change whole property c).2.story.IsSealedWith names := by
  cases hpath : r.path with
  | nil =>
    simp only [change, hpath]
    cases hmade : whole c with
    | ok c' =>
      simp only [Change.write, hmade]
      exact hwhole c' hmade
    | error e =>
      simp only [Change.write, hmade]
      exact hc
  | cons first rest =>
    simp only [change, hpath]
    cases hfind : findVariable r.base first c with
    | error e =>
      simp only [Change.inside, root, hfind]
      exact hc
    | ok v =>
      simp only [Change.inside, root, hfind]
      rcases findVariable_eq_ok hfind with ⟨hbase, -⟩ | ⟨hbase, -⟩
      · rw [hbase]
        exact hc.replace first _
      · rw [hbase]
        exact hc

theorem sealed_set (r : Reference Value) (v : Value) (hc : c.story.IsSealedWith names) :
    (r.set c v).2.story.IsSealedWith names := by
  unfold set
  split
  · exact r.sealed_change _ (fun _ h => sealed_setVariable h hc) hc
  · exact hc

theorem sealed_delete (r : Reference Value) (hc : c.story.IsSealedWith names) :
    (r.delete c).2.story.IsSealedWith names :=
  r.sealed_change _ (fun _ h => sealed_deleteVariable h hc) hc

end Reference

/-- One command keeps the names of a sealed story. -/
theorem Command.sealed_run (command : Command) {names : List Key} {c : Context}
    (hc : c.story.IsSealedWith names) : (command.run.run c).2.story.IsSealedWith names := by
  cases command with
  | set r v => exact r.sealed_set v hc
  | delete r => exact r.sealed_delete hc
  | perform a =>
    obtain ⟨it, hrun⟩ := a.run_perform c
    have hit : ({ c with it } : Context).story.IsSealedWith names := hc
    show (a.perform.run c).2.story.IsSealedWith names
    rw [hrun]
    exact a.dest.sealed_set (a.value c) hit

/-! ## A map inside a variable -/

namespace Value

/-- A sealed map with these names stands at the end of a path of keys. -/
def HasSealed (names path : List Key) (object : Value) : Prop :=
  ∃ m, path.foldlM lookup object = .ok (map m) ∧ m.IsSealedWith names

variable {names : List Key}

theorem hasSealed_nil {object : Value} :
    HasSealed names [] object ↔ ∃ m, object = map m ∧ m.IsSealedWith names := by
  show (∃ m, Except.ok object = .ok (map m) ∧ _) ↔ _
  simp only [Except.ok.injEq]

theorem hasSealed_cons {key : Key} {path : List Key} {object : Value} :
    HasSealed names (key :: path) object ↔
      ∃ v, object.lookup key = .ok v ∧ HasSealed names path v := by
  unfold HasSealed
  rw [List.foldlM_cons]
  cases hlookup : object.lookup key with
  | error e =>
    constructor
    · rintro ⟨m, h, -⟩
      cases h
    · rintro ⟨v, h, -⟩
      cases h
  | ok v =>
    constructor
    · intro h
      exact ⟨v, rfl, h⟩
    · rintro ⟨w, hw, h⟩
      cases hw
      exact h

/-- Putting a property keeps a sealed map: a new name is refused. -/
theorem HasSealed.put {object : Value} (h : HasSealed names [] object) (key : Key) (v : Value) :
    HasSealed names [] (Change.write (·.put key v) object).2 := by
  obtain ⟨m, rfl, hm⟩ := hasSealed_nil.1 h
  rw [hasSealed_nil]
  simp only [Change.write, Value.put, hm.isSealed, Bool.true_and]
  cases hkey : m.contains key with
  | true => exact ⟨m.insert key v, rfl, hm.insert hkey v⟩
  | false => exact ⟨m, rfl, hm⟩

/-- Deleting a property keeps a sealed map: it is refused. -/
theorem HasSealed.delete {object : Value} (h : HasSealed names [] object) (key : Key) :
    HasSealed names [] (Change.write (·.delete key) object).2 := by
  obtain ⟨m, rfl, hm⟩ := hasSealed_nil.1 h
  rw [hasSealed_nil]
  simp only [Change.write, Value.delete, hm.isSealed, if_true]
  exact ⟨m, rfl, hm⟩

/-- A change of an entry keeps a sealed map: the entry is there. -/
theorem HasSealed.inside {object : Value} (h : HasSealed names [] object) (key : Key)
    (change : Change Value) : HasSealed names [] (Change.inside (child key) change object).2 := by
  obtain ⟨m, rfl, hm⟩ := hasSealed_nil.1 h
  cases hfind : findChild key (map m) with
  | error e =>
    simp only [Change.inside, child, hfind]
    exact h
  | ok v =>
    rcases findChild_eq_ok hfind with ⟨_, _, _, hne, -⟩ | ⟨m', hm', -⟩
    · cases hne
    · cases hm'
      simp only [Change.inside, child, hfind, replaceChild]
      exact hasSealed_nil.2 ⟨_, rfl, hm.replace key _⟩

/-- A change at the end of a longer path keeps a sealed map at the end of a shorter one, if it
keeps the map where the two paths end together. -/
theorem HasSealed.changeAt {change : Change Value} {path : List Key} {object : Value}
    (hend : ∀ object, HasSealed names [] object → HasSealed names [] (change object).2)
    (h : HasSealed names path object) (rest : List Key) :
    HasSealed names path (Value.changeAt change (path ++ rest) object).2 := by
  induction path generalizing object with
  | nil =>
    cases rest with
    | nil => exact hend object h
    | cons key keys => exact h.inside key _
  | cons key path ih =>
    obtain ⟨v, hv, hpath⟩ := hasSealed_cons.1 h
    rw [List.cons_append, Value.changeAt]
    cases hfind : findChild key object with
    | error e =>
      simp only [Change.inside, child, hfind]
      exact h
    | ok w =>
      -- writing goes through the same child as reading
      have hw := lookup_of_findChild hfind
      rw [hv, Except.ok.injEq] at hw
      subst hw
      simp only [Change.inside, child, hfind]
      exact hasSealed_cons.2 ⟨_, lookup_of_findChild (findChild_replaceChild _ hfind), ih hpath⟩

end Value

/-- A sealed map with these names stands at the end of a path of keys. -/
def Context.HasSealed (names : List Key) (base : Place Value) (path : List Key) (c : Context) :
    Prop :=
  ∃ m, c.follow base path = .ok (.map m) ∧ m.IsSealedWith names

namespace Reference

variable {names path : List Key} {c : Context}

theorem hasSealed_change (r : Reference Value) (whole : Context → Except ScriptError Context)
    {property : Value → Except ScriptError Value}
    (hproperty : ∀ object, Value.HasSealed names [] object →
      Value.HasSealed names [] (Change.write property object).2)
    (hpath : path <+: r.path) (hc : c.HasSealed names r.base path) :
    (r.change whole property c).2.HasSealed names r.base path := by
  obtain ⟨rest, hrest⟩ := hpath
  cases path with
  | nil =>
    obtain ⟨m, hm, -⟩ := hc
    cases hm
  | cons first keys =>
    rw [List.cons_append] at hrest
    simp only [change, ← hrest]
    cases hfind : findVariable r.base first c with
    | error e =>
      simp only [Change.inside, root, hfind]
      exact hc
    | ok v =>
      obtain ⟨m, hm, hsealed⟩ := hc
      rw [Context.follow_cons (Context.start_of_findVariable hfind)] at hm
      obtain ⟨m', hm', hsealed'⟩ := Value.HasSealed.changeAt hproperty ⟨m, hm, hsealed⟩ rest
      refine ⟨m', ?_, hsealed'⟩
      -- the variable holds what the change has left in it
      simp only [Change.inside, root, hfind]
      rw [Context.follow_cons
        (Context.start_of_findVariable (findVariable_replaceVariable _ hfind))]
      exact hm'

theorem hasSealed_set (r : Reference Value) (v : Value) (hpath : path <+: r.path)
    (hc : c.HasSealed names r.base path) : (r.set c v).2.HasSealed names r.base path := by
  unfold set
  split
  · exact r.hasSealed_change _ (fun _ h => h.put r.property _) hpath hc
  · exact hc

theorem hasSealed_delete (r : Reference Value) (hpath : path <+: r.path)
    (hc : c.HasSealed names r.base path) : (r.delete c).2.HasSealed names r.base path :=
  r.hasSealed_change _ (fun _ h => h.delete r.property) hpath hc

end Reference

/-- One command keeps the names of a sealed map that it ends at or passes through. -/
theorem Command.hasSealed_run {command : Command} {names path : List Key} {base : Place Value}
    {c : Context} (hthrough : command.Through base path) (hc : c.HasSealed names base path) :
    (command.run.run c).2.HasSealed names base path := by
  obtain ⟨rfl, hpath⟩ := hthrough
  cases command with
  | set r v => exact r.hasSealed_set v hpath hc
  | delete r => exact r.hasSealed_delete hpath hc
  | perform a =>
    obtain ⟨it, hrun⟩ := a.run_perform c
    -- reading does not look at `it`
    have hit : ({ c with it } : Context).HasSealed names a.dest.base path := by
      obtain ⟨m, hm, hsealed⟩ := hc
      refine ⟨m, ?_, hsealed⟩
      rw [← hm]
      cases path <;> rfl
    show (a.perform.run c).2.HasSealed names a.dest.base path
    rw [hrun]
    exact a.dest.hasSealed_set (a.value c) hpath hit

/-- Setting a story variable under a NaN that doubles the only name adds it, sealed or not. -/
theorem Command.keys_set_of_doubles {c : Context} {key : Key} (hkey : key.Doubles c.story.keys)
    {v w : Value} (hv : Reference.storable v = .ok w) :
    (after c [.set { base := .story, path := [], property := key } v]).story.keys =
      c.story.keys ++ [key] := by
  have hset : Reference.setVariable .story key w c =
      .ok { c with story := c.story.insert key w } := by
    rw [Reference.setVariable, DataMap.contains_of_doubles hkey, Bool.not_true, Bool.and_false,
      if_neg Bool.false_ne_true]
  have hrun : (Reference.set { base := .story, path := [], property := key } c v).2 =
      { c with story := c.story.insert key w } := by
    simp only [Reference.set, hv, Reference.change, Change.write, hset]
  show (Reference.set { base := .story, path := [], property := key } c v).2.story.keys = _
  rw [hrun, DataMap.keys_insert, hkey.any_alike, if_neg Bool.false_ne_true]

/-- Sealed maps keep their names over whole runs. If the story variables are sealed, they have the
same names in the same order, and are sealed, after any commands, whether these succeed or fail.
The same holds of a sealed map inside a variable, for commands that end at it or pass through it.
The exception is a map whose only name is a NaN: it may have one more in the end, a NaN with another
hash, and a command that sets such a name adds it. -/
theorem names_of_sealed (c : Context) (commands : List Command) :
    (c.story.isSealed = true →
      (Command.after c commands).story.isSealed = true ∧
      Key.KeepsNames c.story.keys (Command.after c commands).story.keys) ∧
    (∀ base path m, c.follow base path = .ok (.map m) → m.isSealed = true →
      (∀ command ∈ commands, command.Through base path) →
      ∃ m', (Command.after c commands).follow base path = .ok (.map m') ∧
        m'.isSealed = true ∧ Key.KeepsNames m.keys m'.keys) ∧
    ∀ key v w, key.Doubles c.story.keys → Reference.storable v = .ok w →
      (Command.after c [.set { base := .story, path := [], property := key } v]).story.keys =
        c.story.keys ++ [key] := by
  refine ⟨?_, ?_, fun key v w hkey hv => Command.keys_set_of_doubles hkey hv⟩
  · intro hsealed
    obtain ⟨hafter, hkeys⟩ := Command.after_induction (·.story.IsSealedWith c.story.keys)
      (fun command _ _ => command.sealed_run) ⟨hsealed, .inl rfl⟩
    exact ⟨hafter, hkeys⟩
  · intro base path m hm hsealed hthrough
    obtain ⟨m', hm', hafter, hkeys⟩ := Command.after_induction (·.HasSealed m.keys base path)
      (fun command hmem _ => Command.hasSealed_run (hthrough command hmem))
      ⟨m, hm, hsealed, .inl rfl⟩
    exact ⟨m', hm', hafter, hkeys⟩

namespace Command

/-- A sealed map with an array inside. -/
def box : DataMap Value :=
  { entries := [(.string "count", .number 1), (.string "list", .array [.string "a", .string "b"])]
    isSealed := true }

/-- A sealed story that holds `box` in an array. -/
def boxed : Context :=
  { story :=
      { entries := [(.string "boxes", .array [.boolean true, .map box])], isSealed := true } }

/-- The way to `box`. -/
def boxPath : List Key :=
  [.string "boxes", .number 1]

/-- A new name, a name that is there, a deletion, and a sum in the array inside. -/
def boxCommands : List Command :=
  [.set { base := .story, path := boxPath, property := .string "new" } (.number 3),
   .set { base := .story, path := boxPath, property := .string "count" } (.number 5),
   .delete { base := .story, path := boxPath, property := .string "list" },
   .perform {
      dest := { base := .story, path := boxPath ++ [.string "list"], property := .number 1 }
      src := .string "c"
      op := .augmented .add }]

/-- A sealed map whose only name is a NaN. -/
def nanBox : DataMap Value :=
  { entries := [(.writtenNaN, .number 1)], isSealed := true }

/-- A sealed story whose only variable is named by a NaN. -/
def nanNamed : Context :=
  { story := nanBox }

/-- A story that holds `nanBox`. -/
def nanBoxed : Context :=
  { story := { entries := [(.string "m", .map nanBox)] } }

/-- Another NaN in `nanBox`. -/
def nanBoxRef : Reference Value :=
  { base := .story, path := [.string "m"], property := .resultNaN }

theorem through_boxCommands : ∀ command ∈ boxCommands, command.Through .story boxPath := by
  simp only [boxCommands, List.forall_mem_cons, List.not_mem_nil, false_implies, implies_true,
    and_true]
  exact ⟨⟨rfl, [], rfl⟩, ⟨rfl, [], rfl⟩, ⟨rfl, [], rfl⟩, rfl, [.string "list"], rfl⟩

end Command

open Command in
/-- The new name and the deletion are refused, the other two commands change `box`, and neither it
nor the story gets or loses a name. A name that is added is a NaN. -/
theorem names_of_sealed_boxCommands :
    (boxed.story.isSealed = true ∧ boxed.follow .story boxPath = .ok (.map box) ∧
      box.isSealed = true ∧ (∀ command ∈ boxCommands, command.Through .story boxPath) ∧
      (after boxed boxCommands).follow .story (boxPath ++ [.string "list", .number 1]) =
        .ok (.string "bc") ∧
      (after boxed boxCommands).story.isSealed = true ∧
      (after boxed boxCommands).story.keys = [.string "boxes"] ∧
      ∃ m', (after boxed boxCommands).follow .story boxPath = .ok (.map m') ∧
        m'.isSealed = true ∧ m'.keys = [.string "count", .string "list"]) ∧
    Key.resultNaN.Doubles (nanNamed.story.keys) ∧
    Reference.storable (.number 2) = .ok (.number 2) ∧
    (after nanNamed [.set { base := .story, path := [], property := .resultNaN }
      (.number 2)]).story.keys = [.writtenNaN, .resultNaN] := by
  have hfollow : boxed.follow .story boxPath = .ok (.map box) := rfl
  obtain ⟨hstory, hinside, -⟩ := names_of_sealed boxed boxCommands
  obtain ⟨m', hm', hsealed, hnames⟩ := hinside .story boxPath box hfollow rfl through_boxCommands
  refine ⟨⟨rfl, hfollow, rfl, through_boxCommands, rfl, (hstory rfl).1, ?_, m', hm', hsealed, ?_⟩,
    Key.doubles_resultNaN, rfl,
    (names_of_sealed nanNamed []).2.2 _ _ _ Key.doubles_resultNaN rfl⟩
  · exact (hstory rfl).2.resolve_right fun ⟨_, ⟨_, hname, hnan, _⟩, _⟩ => by cases hname; cases hnan
  · exact hnames.resolve_right fun ⟨_, ⟨_, hname, _⟩, _⟩ => by cases hname

open Command in
/-- A sealed map inside a variable takes a second NaN. -/
theorem not_names_of_sealed_nanBoxed :
    nanBoxed.follow .story [.string "m"] = .ok (.map nanBox) ∧ nanBox.isSealed = true ∧
    (Command.set nanBoxRef (.number 2)).Through .story [.string "m"] ∧
    (after nanBoxed [.set nanBoxRef (.number 2)]).follow .story [.string "m"] =
      .ok (.map { nanBox with entries := [(.writtenNaN, .number 1), (.resultNaN, .number 2)] }) ∧
    nanBox.keys ≠ [.writtenNaN, .resultNaN] := by
  refine ⟨rfl, rfl, ⟨rfl, [], rfl⟩, rfl, fun h => ?_⟩
  cases h

end StoryScript
