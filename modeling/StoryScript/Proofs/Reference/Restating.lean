/-
  References read back from their source text.

  A reference is printed as its variable and then each further key in parentheses, after
  `'s`. The keys that it holds are those to look up, but the text is read as keys as written:
  each is compiled once more, against the value that the keys before it lead to. So a
  reference reads back as itself if each of its keys stays what it is, and as another one, or
  not at all, if one of them is an index counted from the start of an array or a string.
-/
import Mathlib
import StoryScript.Proofs.Expr.Possessives
import StoryScript.Proofs.Reference.Stepwise
import StoryScript.Proofs.Value.Indices

namespace StoryScript

open Decimal

/-! ## Keys in parentheses -/

theorem Decimal.IsNumeral.notMem_colon {text : List Char} (h : IsNumeral text) : ':' ∉ text := by
  have hdigits {digits : List Char} (h : digits.all Char.isDigit = true) : ':' ∉ digits :=
    fun hmem => absurd (List.all_eq_true.1 h _ hmem) (by decide)
  cases h with
  | whole _ h => exact hdigits h
  | fraction _ h _ h' =>
    rw [List.mem_append, List.mem_cons]
    rintro (hmem | hmem | hmem)
    · exact hdigits h hmem
    · exact absurd hmem (by decide)
    · exact hdigits h' hmem

/-- A group of the expression gives a key, or fails to, and changes nothing. -/
def Expr.Names (host : Host) (e : Expr) (key : Except ScriptError Key) : Prop :=
  ∀ c, (evalProperty host (.computed (.group e))).run c = (key, c)

/-- Text in parentheses that gives a key, or fails to. -/
def Keyed (host : Host) (text : List Char) (key : Except ScriptError Key) : Prop :=
  ∃ e, Grouped text e ∧ Expr.Names host e key

theorem Expr.names_of_run {host : Host} {e : Expr} {v : Value}
    (h : ∀ c, (e.evalWith host true).run c = (v, c)) : Names host e (Key.ofValue v) := by
  intro c
  rw [evalProperty, evalWith]
  show (Key.ofValue ((e.evalWith host true).run c).1, ((e.evalWith host true).run c).2) = _
  rw [h]

/-- The error of `inf` where code is expected. -/
def ScriptError.infinite : ScriptError where
  kind := .malformed
  message := "`inf` isn't valid code here."

theorem Decimal.toList_render_of_isInf {n : Float} (h : n.isInf = true) :
    (render n).toList = ['i', 'n', 'f'] ∨ (render n).toList = ['-', 'i', 'n', 'f'] := by
  have hnan : n.isNaN = false := by
    have hinf : n.toModel.unpack.isInf = true := h
    rw [isNaN_eq_false_iff]
    intro hu
    rw [hu] at hinf
    exact Bool.false_ne_true hinf
  rw [render, hnan, if_neg Bool.false_ne_true, String.toList_ofList, unsignedText, h, if_pos rfl]
  cases isNegative n
  · exact .inl rfl
  · exact .inr rfl

theorem keyed_inf (host : Host) : Keyed host ['i', 'n', 'f'] (.error .infinite) := by
  refine ⟨_, grouped_inf, @Expr.names_of_run host _ (.error .infinite) fun c => ?_⟩
  rw [infError, Expr.evalWith]
  rfl

/-- A difference with an error in it is the error. -/
theorem keyed_negative_inf (host : Host) :
    Keyed host ['-', 'i', 'n', 'f'] (.error .infinite) := by
  refine ⟨_, grouped_negative_inf, @Expr.names_of_run host _ (.error .infinite) fun c => ?_⟩
  rw [Expr.evalWith, infError, Expr.evalWith, Expr.evalWith]
  rfl

namespace Key

/-- A key that is not NaN. -/
def IsProper : Key → Prop
  | string _ => True
  | number n => n.float.isFinite = true ∨ n.float.isInf = true

/-- The key that its source text gives. There is no numeral for infinity. -/
def reread : Key → Except ScriptError Key
  | string name => .ok (string name)
  | number n =>
    if n.float.isInf then .error .infinite else .ok (number n.plain)

theorem IsData.isProper {key : Key} (h : key.IsData) : key.IsProper := by
  cases key with
  | string name => trivial
  | number n => exact .inl h

theorem IsData.reread {key : Key} (h : key.IsData) : key.reread = .ok key.plain := by
  cases key with
  | string name => rfl
  | number n =>
    rw [Key.reread, isInf_of_isFinite h]
    rfl

/-- Of the proper keys only data reads back. -/
theorem isData_of_reread {key key' : Key} (h : key.IsProper) (hread : key.reread = .ok key') :
    key.IsData ∧ key' = key.plain := by
  have hdata : key.IsData := by
    cases key with
    | string name => trivial
    | number n =>
      refine h.resolve_right fun hinf => ?_
      rw [reread, hinf] at hread
      cases hread
  rw [hdata.reread] at hread
  exact ⟨hdata, (Except.ok.inj hread).symm⟩

theorem keyed_source (host : Host) {key : Key} (h : key.IsProper) :
    Keyed host key.source.toList key.reread := by
  have hdata (hkey : key.IsData)
      (hcalled : ∀ rest, Pattern.calledName (key.source.toList ++ ')' :: rest) = none) :
      Keyed host key.source.toList key.reread := by
    obtain ⟨e, hreads, heval⟩ := @stands_key host key hkey
    rw [hkey.reread, ← Key.ofValue_toValue]
    exact ⟨e, hreads.grouped hcalled, Expr.names_of_run heval⟩
  cases key with
  | string name =>
    refine hdata trivial fun rest => ?_
    rw [show (Key.string name).source = Text.literal name from rfl, Text.toList_literal]
    exact Pattern.calledName_quote _
  | number n =>
    have hsource : (number n).source = Decimal.render n.float := rfl
    rcases h with hfinite | hinf
    · refine hdata hfinite (Pattern.calledName_eq_none ?_)
      have hnumeral := (isNumeral_unsignedText (isInf_of_isFinite hfinite)).notMem_colon
      rw [hsource, Decimal.render, isNaN_of_isFinite hfinite]
      cases isNegative n.float <;> simpa using hnumeral
    · rw [hsource, reread, if_pos hinf]
      rcases toList_render_of_isInf hinf with htext | htext <;> rw [htext]
      · exact keyed_inf host
      · exact keyed_negative_inf host

end Key

/-! ## Evaluating a chain -/

/-- The reference to a story variable. -/
def Reference.named (name : String) : Reference Value :=
  { base := .story, path := [], property := .string name }

namespace Expr

/-- An expression that evaluates to a reference, or fails. Nothing changes unless the reference is
recorded. -/
structure Refers (host : Host) (c : Context) (e : Expr)
    (x : Except ScriptError (Reference Value)) : Prop where
  unrecorded : (e.evalWith host false).run c = (Value.ofExcept (Value.ref <$> x), c)
  recorded : ((e.evalWith host true).run c).1 = Value.ofExcept (Value.ref <$> x)

variable {host : Host} {c : Context}

theorem refers_variable (v : String) : Refers host c (.ref .story (.name v)) (.ok (.named v)) := by
  constructor <;> simp only [evalWith, evalPlace, evalProperty] <;> rfl

/-- A property of a reference extends it by the key that its name gives. -/
theorem Refers.property {owner : Expr} {x : Except ScriptError (Reference Value)}
    (h : Refers host c owner x) {property : Property Expr} {key : Except ScriptError Key}
    (hkey : ∀ c, (evalProperty host property).run c = (key, c)) :
    Refers host c (.ref (.of owner) property) (do (← x).extend c (← key)) := by
  have hget : (getThe Context : Eval Context).run c = (c, c) := rfl
  have hrun (record : Bool) : ∃ c', ((ref (.of owner) property).evalWith host record).run c =
      (Value.ofExcept (Value.ref <$> (do (← x).extend c (← key))), c') ∧
      (record = false → c' = c) := by
    have hplace : (evalPlace host (.of owner)).run c =
        (Origin.ofValue (Value.ofExcept (Value.ref <$> x)), c) := by
      rw [evalPlace, Eval.run_bind, h.unrecorded]
      rfl
    cases x with
    | error e =>
      simp only [evalWith, Eval.run_bind, hplace]
      exact ⟨c, rfl, fun _ => rfl⟩
    | ok r =>
      have horigin : Origin.ofValue (Value.ofExcept (Value.ref <$> .ok r)) =
        .ok (.reference r) := rfl
      simp only [evalWith, Eval.run_bind, hplace, horigin, hkey]
      cases key with
      | error e => exact ⟨c, rfl, fun _ => rfl⟩
      | ok key =>
        simp only [Eval.run_bind, hget]
        have hproperty : (Origin.reference r).property c key = r.extend c key := rfl
        have hbind : (do (← Except.ok r).extend c (← Except.ok key)) = r.extend c key := rfl
        rw [hproperty, hbind]
        cases r.extend c key with
        | error e => exact ⟨c, rfl, fun _ => rfl⟩
        | ok r' =>
          cases record with
          | false => exact ⟨c, rfl, fun _ => rfl⟩
          | true => exact ⟨_, rfl, by simp⟩
  obtain ⟨c', hfalse, hc'⟩ := hrun false
  obtain ⟨c'', htrue, -⟩ := hrun true
  exact ⟨by rw [hfalse, hc' rfl], by rw [htrue]⟩

/-- Keys that are computed one after the other extend a reference along them. -/
theorem Refers.chain {owner : Expr} {x : Except ScriptError (Reference Value)}
    (h : Refers host c owner x) {es : List Expr} {keys : List (Except ScriptError Key)}
    (hkeys : List.Forall₂ (Names host) es keys) :
    Refers host c (es.foldl (fun owner e => .ref (.of owner) (.computed (.group e))) owner)
      (x >>= fun r => keys.foldlM (fun r key => do r.extend c (← key)) r) := by
  induction hkeys generalizing owner x with
  | nil =>
    rw [show (x >>= fun r => [].foldlM _ r) = x from bind_pure x]
    exact h
  | @cons e key es keys hkey _ ih =>
    have hstep := ih (h.property hkey)
    rw [bind_assoc] at hstep
    exact hstep

end Expr

theorem exists_computed {host : Host} {texts : List (List Char)}
    {keys : List (Except ScriptError Key)} (h : List.Forall₂ (Keyed host) texts keys) :
    ∃ es, List.Forall₂ Grouped texts es ∧ List.Forall₂ (Expr.Names host) es keys := by
  induction h with
  | nil => exact ⟨[], .nil, .nil⟩
  | cons hfirst _ ih =>
    obtain ⟨e, hgrouped, heval⟩ := hfirst
    obtain ⟨es, hgrouped', heval'⟩ := ih
    exact ⟨e :: es, .cons hgrouped hgrouped', .cons heval heval'⟩

/-! ## Reading a reference back -/

namespace Reference

/-- What the source text of a reference evaluates to as a reference. -/
def reread (host : Host) (c : Context) (r : Reference Value) : Value :=
  (((compile (lexExpression (Value.ref r).source).children true).eval host).run c).1

/-- The reference along keys that are compiled once more. -/
def retrace (c : Context) (name : String) (keys : List Key) :
    Except ScriptError (Reference Value) :=
  keys.foldlM (fun r key => do r.extend c (← key.reread)) (named name)

theorem toList_possessives (keys : List Key) :
    (possessives keys).toList = groupedText (keys.map (·.source.toList)) := by
  induction keys with
  | nil => rfl
  | cons key keys ih =>
    have hcons : possessives (key :: keys) = "'s (" ++ key.source ++ ")" ++ possessives keys := by
      rw [possessives, List.map_cons, String.join_cons, possessives]
    rw [hcons, String.toList_append, ih]
    simp [groupedText]

variable {host : Host} {c : Context} {r : Reference Value} {name : String} {keys : List Key}

theorem reread_eq (hname : IsName name.toList) (hkeys : ∀ key ∈ keys, key.IsProper)
    (hbase : r.base = .story) (hr : r.keys = .string name :: keys) :
    r.reread host c = Value.ofExcept (Value.ref <$> retrace c name keys) := by
  have hkeyed : List.Forall₂ (Keyed host) (keys.map (·.source.toList)) (keys.map Key.reread) := by
    rw [List.forall₂_map_left_iff, List.forall₂_map_right_iff, List.forall₂_same]
    exact fun key hkey => key.keyed_source host (hkeys key hkey)
  obtain ⟨es, hgrouped, heval⟩ := exists_computed hkeyed
  have hsource : (Value.ref r).source.toList =
      '$' :: name.toList ++ groupedText (keys.map (·.source.toList)) := by
    obtain ⟨base, path, property⟩ := r
    obtain rfl : base = .story := hbase
    have hr : path ++ [property] = .string name :: keys := hr
    rw [Value.source, Value.refSource, hr, variableSource, String.toList_append, toList_possessives]
    simp [Key.render]
  rw [reread, compile_grouped hname hgrouped hsource, Expr.eval]
  have hchain := ((@Expr.refers_variable host c name).chain heval).recorded
  have hfold : (keys.map Key.reread).foldlM (fun r key => do r.extend c (← key)) (named name) =
      retrace c name keys := List.foldlM_map
  rw [computedChain, hchain, ← hfold]
  rfl

end Reference

/-! ## References that read back as themselves -/

theorem Context.follow_plain {c : Context} {keys : List Key} {v : Value}
    (h : c.follow .story keys = .ok v) : c.follow .story (keys.map Key.plain) = .ok v := by
  cases keys with
  | nil => exact h
  | cons first rest =>
    have hstart : c.start .story first.plain = c.start .story first := by
      rw [start, start, DataMap.get?_plain]
    rw [List.map_cons, follow, hstart]
    exact Value.foldlM_lookup_plain h

namespace Reference

variable {c : Context} {r : Reference Value} {name : String}

/-- The reference to a property, by the key to look up. -/
def child (r : Reference Value) (key : Key) : Reference Value :=
  { r with path := r.keys, property := key }

@[simp] theorem keys_child (r : Reference Value) (key : Key) :
    (r.child key).keys = r.keys ++ [key] :=
  rfl

theorem extend_eq_ok_iff {key : Key} {r' : Reference Value} :
    r.extend c key = .ok r' ↔
      ∃ v key', r.resolve c = .ok v ∧ v.lookupKey key = .ok key' ∧ r' = r.child key' := by
  cases hr : r.resolve c with
  | error e => simp [extend_of_resolve_error hr]
  | ok v =>
    rw [extend_of_resolve hr]
    cases hkey : v.lookupKey key with
    | error e => simp [hkey, Except.map]
    | ok key' => simp [hkey, Except.map, child, eq_comm]

/-- References are equal if they have the same base and equal keys. -/
def Same (r' r : Reference Value) : Prop :=
  r'.base = r.base ∧ List.Forall₂ (fun a b : Key => (a == b) = true) r'.keys r.keys

theorem same_child {r' : Reference Value} {key key' : Key} :
    (r'.child key').Same (r.child key) ↔ r'.Same r ∧ (key' == key) = true := by
  rw [Same, Same, keys_child, keys_child, ← List.forall₂_reverse_iff, List.reverse_concat,
    List.reverse_concat, List.forall₂_cons, List.forall₂_reverse_iff, child, child]
  tauto

/-- Each key after the first restates itself in what the keys before it lead to. -/
def Restates (c : Context) (r : Reference Value) : Prop :=
  ∀ path key rest, r.keys = path ++ key :: rest → path ≠ [] →
    (Value.ofExcept (c.follow r.base path)).Restates key

theorem restates_child {v : Value} (hv : r.resolve c = .ok v) (key : Key) :
    (r.child key).Restates c ↔ r.Restates c ∧ v.Restates key := by
  have hfollow : Value.ofExcept (c.follow r.base r.keys) = v := by
    rw [← resolve, hv]
    rfl
  constructor
  · intro h
    refine ⟨fun path key' rest hr hpath => ?_, ?_⟩
    · exact h path key' (rest ++ [key]) (by simp [hr]) hpath
    · rw [← hfollow]
      exact h r.keys key [] (by simp) (by simp [keys])
  · rintro ⟨hr, hkey⟩ path key' rest hsplit hpath
    rw [keys_child] at hsplit
    rcases List.eq_nil_or_concat rest with rfl | ⟨rest, last, rfl⟩
    · obtain ⟨hkeys, hlast⟩ := List.append_inj' hsplit rfl
      rw [← hkeys, ← List.singleton_inj.1 hlast]
      exact hfollow.symm ▸ hkey
    · rw [List.concat_eq_append, ← List.cons_append, ← List.append_assoc] at hsplit
      obtain ⟨hkeys, -⟩ := List.append_inj' hsplit rfl
      exact hr path key' rest hkeys hpath

/-- The reference with the signs of zeros among its keys dropped. -/
def plain (r : Reference Value) : Reference Value :=
  { r with path := r.path.map Key.plain, property := r.property.plain }

theorem keys_plain (r : Reference Value) : r.plain.keys = r.keys.map Key.plain := by
  simp [keys, plain]

theorem same_plain (r : Reference Value) : r.plain.Same r := by
  refine ⟨rfl, ?_⟩
  rw [keys_plain, List.forall₂_map_left_iff, List.forall₂_same]
  intro key _
  rw [← Key.beq_plain, Key.plain_plain, Key.beq_plain]
  exact BEq.rfl

theorem resolve_plain (hbase : r.base = .story) {v : Value} (h : r.resolve c = .ok v) :
    r.plain.resolve c = .ok v := by
  rw [resolve, hbase] at h
  rw [resolve, keys_plain, show r.plain.base = .story from hbase]
  exact Context.follow_plain h

end Reference

/-! ## Along a whole chain -/

theorem Decimal.IsIndex.isProper {n : Number} (h : IsIndex n.float) :
    (Key.number n).IsProper := by
  refine h.imp_left ?_
  rintro ⟨i, hi⟩
  by_contra hfinite
  rw [value?_of_not_isFinite (Bool.eq_false_iff.2 hfinite)] at hi
  cases hi

theorem Value.isProper_of_lookupKey {v : Value} {key key' : Key} (hkey : key.IsData)
    (h : v.lookupKey key = .ok key') : key'.IsProper := by
  by_cases hv : v.IsSequence
  · rcases lookupKey_of_isSequence hv h with rfl | ⟨n, rfl, hindex⟩
    · trivial
    · exact hindex.isProper
  · rw [(lookupKey_of_not_isSequence hv h).1]
    exact hkey.isProper

namespace Reference

variable {c : Context} {r : Reference Value} {name : String} {keys : List Key}

/-- The last key is compiled once more against what the keys before it come to. -/
theorem retrace_append_eq_ok_iff {key : Key} {r' : Reference Value} :
    retrace c name (keys ++ [key]) = .ok r' ↔
      ∃ r read, retrace c name keys = .ok r ∧ key.reread = .ok read ∧ r.extend c read = .ok r' := by
  have happend : retrace c name (keys ++ [key]) =
      retrace c name keys >>= fun r => key.reread >>= fun read => r.extend c read :=
    List.foldlM_append.trans (bind_congr fun _ => List.foldlM_cons.trans (bind_pure _))
  rw [happend]
  cases retrace c name keys with
  | error e => simp [bind, Except.bind]
  | ok r => cases key.reread <;> simp [bind, Except.bind]

/-- What compiling the keys of a reference once more comes to: the reference again if its keys
restate themselves, and never an equal one if they do not. -/
structure Traced (c : Context) (name : String) (keys : List Key) (r : Reference Value) : Prop where
  base : r.base = .story
  keys_eq : r.keys = .string name :: keys
  proper : ∀ key ∈ keys, key.IsProper
  again : r.Restates c → retrace c name keys = .ok r.plain
  restates : ∀ r', retrace c name keys = .ok r' → r'.Same r → r.Restates c

theorem restates_named (c : Context) (name : String) : (named name).Restates c := by
  intro path key rest h hpath
  have hlength := congrArg List.length h
  have hpos := List.length_pos_iff.2 hpath
  simp [named, Reference.keys] at hlength
  omega

theorem traced_named (c : Context) (name : String) : Traced c name [] (named name) where
  base := rfl
  keys_eq := rfl
  proper := by simp
  again _ := rfl
  restates _ _ _ := restates_named c name

/-- One more key, as written. -/
theorem Traced.extend (h : Traced c name keys r) {key : Key} (hkey : key.IsData)
    {r' : Reference Value} (hextend : r.extend c key = .ok r') :
    ∃ key', Traced c name (keys ++ [key']) r' := by
  obtain ⟨v, key', hresolve, hlookup, rfl⟩ := extend_eq_ok_iff.1 hextend
  refine ⟨key', h.base, by rw [keys_child, h.keys_eq, List.cons_append], ?_, ?_, ?_⟩
  · intro k hk
    rcases List.mem_append.1 hk with hk | hk
    · exact h.proper k hk
    · rw [List.mem_singleton.1 hk]
      exact Value.isProper_of_lookupKey hkey hlookup
  · rw [restates_child hresolve]
    rintro ⟨hr, hrestates⟩
    obtain ⟨hdata, hplain⟩ := Value.lookupKey_plain hkey hlookup hrestates
    have hchild : (r.child key').plain = r.plain.child key'.plain := by
      simp [plain, child, Reference.keys]
    rw [hchild, retrace_append_eq_ok_iff]
    refine ⟨r.plain, key'.plain, h.again hr, hdata.reread, ?_⟩
    exact extend_eq_ok_iff.2 ⟨v, _, resolve_plain h.base hresolve, hplain, rfl⟩
  · intro s hretrace hsame
    obtain ⟨r₀, read, hkeys, hread, hextend₀⟩ := retrace_append_eq_ok_iff.1 hretrace
    obtain ⟨w, key'', hresolve₀, hlookup₀, rfl⟩ := extend_eq_ok_iff.1 hextend₀
    obtain ⟨hsame₀, hkey''⟩ := same_child.1 hsame
    have hr := h.restates r₀ hkeys hsame₀
    -- the keys so far restate themselves, so the same value is asked again
    obtain rfl : r₀ = r.plain := Except.ok.inj (hkeys.symm.trans (h.again hr))
    obtain rfl : w = v := Except.ok.inj (hresolve₀.symm.trans (resolve_plain h.base hresolve))
    obtain ⟨hdata, rfl⟩ := Key.isData_of_reread (Value.isProper_of_lookupKey hkey hlookup) hread
    have hrestates := Value.restates_of_lookupKey hdata hlookup₀ hkey''
    exact (restates_child hresolve key').2 ⟨hr, hrestates⟩

/-- Every reference to properties of a story variable. -/
theorem exists_traced (hkeys : ∀ key ∈ keys, key.IsData)
    (h : create c .story (.string name :: keys) = .ok r) : ∃ path, Traced c name path r := by
  have hfold : keys.foldlM (fun r key => r.extend c key) (named name) = .ok r := h
  have htraced : ∃ path, Traced c name path (named name) := ⟨[], traced_named c name⟩
  clear h
  generalize named name = start at hfold htraced
  induction keys generalizing start with
  | nil =>
    obtain rfl : start = r := Except.ok.inj hfold
    exact htraced
  | cons key keys ih =>
    obtain ⟨hkey, hkeys⟩ := List.forall_mem_cons.1 hkeys
    obtain ⟨path, htraced⟩ := htraced
    rw [List.foldlM_cons] at hfold
    cases hextend : start.extend c key with
    | error e =>
      rw [hextend] at hfold
      cases hfold
    | ok next =>
      rw [hextend] at hfold
      obtain ⟨key', hnext⟩ := htraced.extend hkey hextend
      exact ih hkeys next hfold ⟨_, hnext⟩

/-- If all keys are data, reading them back is following them as keys as written. -/
theorem retrace_of_isData (hkeys : ∀ key ∈ keys, key.IsData) :
    retrace c name keys = create c .story (.string name :: keys.map Key.plain) := by
  show _ = (keys.map Key.plain).foldlM (fun r key => r.extend c key) (named name)
  rw [retrace]
  generalize named name = start
  induction keys generalizing start with
  | nil => rfl
  | cons key keys ih =>
    obtain ⟨hkey, hkeys⟩ := List.forall_mem_cons.1 hkeys
    rw [List.map_cons, List.foldlM_cons, List.foldlM_cons, hkey.reread]
    exact bind_congr fun next => ih hkeys next

theorem create_pair (c : Context) (name : String) (key : Key) :
    create c .story [.string name, key] = (named name).extend c key := by
  show [key].foldlM (fun r key => r.extend c key) (named name) = _
  rw [List.foldlM_cons]
  exact bind_pure _

end Reference

/-- A reference to a property of a property, and so on, of a story variable, along strings and
finite numbers. Its source text evaluates to a reference equal to it if and only if each of its keys
after the first restates itself: in an array or a string it has to be `length`, a position from the
end, or a position beyond all that numbers tell apart. In general its keys, which are those to look
up, are taken for keys as written. -/
theorem reread_reference (host : Host) (c : Context) {name : String} (hname : IsName name.toList)
    {keys : List Key} (hkeys : ∀ key ∈ keys, key.IsData) {r : Reference Value}
    (hr : Reference.create c .story (.string name :: keys) = .ok r) :
    ((∃ r', r.reread host c = .ref r' ∧ r'.Same r) ↔ r.Restates c) ∧
    ((∀ key ∈ r.keys, key.IsData) → r.reread host c =
      Value.ofExcept (Value.ref <$> Reference.create c .story (r.keys.map Key.plain))) := by
  obtain ⟨path, htraced⟩ := Reference.exists_traced hkeys hr
  have hreread : r.reread host c = Value.ofExcept (Value.ref <$> Reference.retrace c name path) :=
    Reference.reread_eq hname htraced.proper htraced.base htraced.keys_eq
  refine ⟨⟨?_, fun hrestates => ?_⟩, fun hdata => ?_⟩
  · rintro ⟨r', hr', hsame⟩
    rw [hreread] at hr'
    cases hretrace : Reference.retrace c name path with
    | error e =>
      rw [hretrace] at hr'
      cases hr'
    | ok s =>
      rw [hretrace] at hr'
      obtain rfl : s = r' := Value.ref.inj hr'
      exact htraced.restates s hretrace hsame
  · exact ⟨r.plain, by rw [hreread, htraced.again hrestates]; rfl, r.same_plain⟩
  · rw [htraced.keys_eq] at hdata ⊢
    rw [hreread, Reference.retrace_of_isData (List.forall_mem_cons.1 hdata).2]
    rfl

/-- A story with an array in a variable, and one in a datamap in another. -/
def Context.armoury : Context :=
  { story := .ofList [(.string "inv", .array [.string "sword", .string "gem"]),
      (.string "chest", .map (.ofList [(.string "top", .array [.string "ring", .string "key"])]))] }

/-- The last item of the array in the datamap. -/
def Reference.lastInChest : Reference Value :=
  ((named "chest").child (.string "top")).child (.number (.ofFloat (-1)))

/-- The first item of the array in the variable. -/
def Reference.firstInInventory : Reference Value :=
  (named "inv").child (.number 0)

open Context Reference in
/-- A name in a datamap and a position from the end read back. -/
theorem reread_reference_last :
    IsName "chest".toList ∧
    create armoury .story [.string "chest", .string "top", .string "last"] = .ok lastInChest ∧
    ∃ r', lastInChest.reread (.demo 0) armoury = .ref r' ∧ r'.Same lastInChest := by
  have hname : IsName "chest".toList := ⟨List.all_eq_true.1 rfl, rfl⟩
  have hr : create armoury .story [.string "chest", .string "top", .string "last"] =
      .ok lastInChest := rfl
  refine ⟨hname, hr, ((reread_reference (.demo 0) armoury hname ?_ hr).1).2 ?_⟩
  · simp [Key.IsData]
  · have htop : (named "chest").resolve armoury =
        .ok (.map (.ofList [(.string "top", .array [.string "ring", .string "key"])])) := rfl
    have hitems : ((named "chest").child (.string "top")).resolve armoury =
        .ok (.array [.string "ring", .string "key"]) := rfl
    refine (restates_child hitems _).2 ⟨(restates_child htop _).2 ⟨restates_named _ _, ?_⟩, ?_⟩
    · rintro ⟨⟩
    · rintro - n hn
      rw [← Key.number.inj hn]
      exact ⟨rfl, .inl (by decide)⟩

open Context Reference in
/-- The first position is kept as index zero, and zero is no position. -/
theorem not_reread_reference_first :
    create armoury .story [.string "inv", .string "1st"] = .ok firstInInventory ∧
    (Value.ref firstInInventory).source = "$inv's (0)" ∧
    ¬ ∃ r', firstInInventory.reread (.demo 0) armoury = .ref r' ∧ r'.Same firstInInventory := by
  refine ⟨rfl, by decide +kernel, ?_⟩
  rintro ⟨r', hr', -⟩
  have hname : IsName "inv".toList := ⟨List.all_eq_true.1 rfl, rfl⟩
  have hdata : ∀ key ∈ [Key.number 0], key.IsData := by
    simp only [List.mem_singleton, forall_eq]
    rfl
  have hitems : (named "inv").resolve armoury = .ok (.array [.string "sword", .string "gem"]) := rfl
  have hretrace : retrace armoury "inv" [.number 0] =
      .error (.positionZero (.array [.string "sword", .string "gem"])) := by
    rw [retrace_of_isData hdata, List.map_singleton, create_pair, extend_of_resolve hitems,
      Key.plain, Value.lookupKey_number (.array _),
      Value.indexOfPosition_zero (beq_zero_iff.1 rfl)]
    rfl
  rw [reread_eq hname (fun key hkey => (hdata key hkey).isProper) rfl rfl, hretrace] at hr'
  cases hr'

end StoryScript
