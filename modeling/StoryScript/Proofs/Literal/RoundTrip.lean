/-
  Data read back from its source text.

  The source text of plain data, compiled and evaluated on a host with the macros of
  collections, gives data equal to it: every literal reads as an expression of its
  value, and calls rebuild the collections entry by entry.
-/
import Mathlib
import StoryScript.Host.Demo
import StoryScript.Proofs.Decimal.RoundTrip
import StoryScript.Proofs.Literal.Data
import StoryScript.Proofs.Literal.Reading

namespace StoryScript

/-- The macros `a`, `dm` and `ds` give what those of the demonstration host give. -/
def Host.HasCollections (host : Host) : Prop :=
  ∀ name ∈ ["a", "dm", "ds"], ∀ (args : List Value) (c : Context),
    ((host.run (.named name) args).run c).1 = (((Host.demo 0).run (.named name) args).run c).1

/-- A text that reads as an expression with this value in every context. -/
def Denotes (host : Host) (text : String) (v : Value) : Prop :=
  ∃ e, Reads text.toList e ∧ ∀ c, ((e.evalWith host true).run c).1 = v

/-- A text that reads as an expression with this value, whose evaluation changes nothing. -/
def Stands (host : Host) (text : String) (v : Value) : Prop :=
  ∃ e, Reads text.toList e ∧ ∀ c, (e.evalWith host true).run c = (v, c)

theorem Stands.denotes {host : Host} {text : String} {v : Value} (h : Stands host text v) :
    Denotes host text v := by
  obtain ⟨e, hreads, heval⟩ := h
  exact ⟨e, hreads, fun c => congrArg Prod.fst (heval c)⟩

section

variable {host : Host}

/-! ## Literals of one value -/

theorem stands_string (s : String) : Stands host (Text.literal s) (.string s) :=
  ⟨_, reads_string s, fun _ => by rw [Expr.evalWith]; rfl⟩

theorem denotes_boolean (b : Bool) : Denotes host (toString b) (.boolean b) :=
  ⟨_, reads_boolean b, fun _ => by rw [Expr.evalWith]; rfl⟩

theorem denotes_colour (c : Colour) : Denotes host c.toHex (.colour c) :=
  ⟨_, reads_colour c, fun _ => by rw [Expr.evalWith, Colour.ofHex?_toHex]; rfl⟩

/-- A negative number is a difference from zero. -/
theorem stands_number {n : Number} (h : n.float.isFinite = true) :
    Stands host (Decimal.render n.float) (.number n.plain) := by
  have hnumeral := Decimal.isNumeral_unsignedText (Decimal.isInf_of_isFinite h)
  have hnan := Decimal.isNaN_of_isFinite h
  have hback := Decimal.readBack_eq h
  rw [Decimal.readBack] at hback
  -- what is read is not NaN, so it is known by its float
  have hread {m : Number} (hm : m.float = Decimal.plain n.float) : m = n.plain :=
    Number.eq_of_float_eq (by rw [hm, Decimal.isNaN_plain, hnan]) (hm.trans n.float_plain.symm)
  rw [Decimal.render, hnan, if_neg Bool.false_ne_true]
  cases hneg : Decimal.isNegative n.float with
  | true =>
    rw [hneg, if_pos rfl] at hback
    refine ⟨_, by rw [if_pos rfl, String.toList_ofList]; exact reads_negative hnumeral, fun c => ?_⟩
    have hvalue : (0 : Number) - .ofFloat (Pattern.numberOf (Decimal.unsignedText n.float)) =
        n.plain := hread (by rw [Number.float_sub, Number.float_zero, Number.float_ofFloat, hback])
    rw [← hvalue, Expr.evalWith, Expr.evalWith, Expr.evalWith]
    rfl
  | false =>
    rw [hneg, if_neg Bool.false_ne_true] at hback
    refine ⟨_, by rw [if_neg Bool.false_ne_true, String.toList_ofList]; exact reads_numeral hnumeral,
      fun c => ?_⟩
    have hvalue : Number.ofFloat (Pattern.numberOf (Decimal.unsignedText n.float)) = n.plain :=
      hread (by rw [Number.float_ofFloat, hback])
    rw [Expr.evalWith, hvalue]
    rfl

theorem stands_key {key : Key} (h : key.IsData) : Stands host key.source key.plain.toValue := by
  cases key with
  | string name => exact stands_string name
  | number n => exact stands_number h

/-! ## Calls -/

/-- Texts that denote values are arguments with these values. -/
theorem exists_args {texts : List String} {values : List Value}
    (h : List.Forall₂ (Denotes host) texts values) :
    ∃ es, List.Forall₂ (fun text e => Reads text.toList e) texts es ∧
      ∀ c, ((Expr.evalArgs host (es.map .value)).run c).1 = values := by
  induction h with
  | nil => exact ⟨[], .nil, fun _ => by rw [List.map_nil, Expr.evalArgs]; rfl⟩
  | @cons text v texts values hfirst _ ih =>
    obtain ⟨e, hreads, heval⟩ := hfirst
    obtain ⟨es, hreads', heval'⟩ := ih
    refine ⟨e :: es, .cons hreads hreads', fun c => ?_⟩
    rw [List.map_cons, Expr.evalArgs]
    show ((e.evalWith host true).run c).1 ::
      ((Expr.evalArgs host (es.map .value)).run ((e.evalWith host true).run c).2).1 = v :: values
    rw [heval, heval']

/-- A call of a macro of collections denotes what the macro makes of the values of the arguments. -/
theorem denotes_call (hhost : host.HasCollections) {name : String} (hname : name ∈ ["a", "dm", "ds"])
    {texts : List String} {values : List Value} (hargs : List.Forall₂ (Denotes host) texts values)
    {v : Value} (hv : ∀ c, (((Host.demo 0).run (.named name) values).run c).1 = v) :
    Denotes host (macroSource name texts) v := by
  obtain ⟨es, hreads, heval⟩ := exists_args hargs
  have hplain : Rule.IsPlainName name.toList := by
    simp only [List.mem_cons, List.not_mem_nil, or_false] at hname
    rcases hname with rfl | rfl | rfl <;> exact ⟨by decide, rfl⟩
  refine ⟨_, reads_call hplain hreads, fun c => ?_⟩
  -- the macro runs in some context after the arguments, and its result is that of the call
  have hcall : ∃ c', ((Expr.evalWith host true (.call (.named name) (es.map .value))).run c).1 =
      ((host.run (.named name) ((Expr.evalArgs host (es.map .value)).run c).1).run c').1 := by
    rw [Expr.evalWith, Expr.evalCallee]
    exact ⟨_, rfl⟩
  obtain ⟨c', hcall⟩ := hcall
  rw [hcall, heval, hhost name hname, hv]

/-! ## Rebuilding collections -/

/-- The demonstration host runs a macro if no argument is an error. -/
theorem run_demo {name : String} {m : DemoMacro} (hname : DemoMacro.ofName? name = some m)
    {args : List Value} (hargs : ∀ v ∈ args, v.isError = false) :
    (Host.demo 0).run (.named name) args = m.run (.named name) args := by
  have hnone : Value.firstError? args = none := by
    rw [Value.firstError?, List.find?_eq_none]
    intro v hv
    rw [hargs v hv]
    exact Bool.false_ne_true
  show Macro.unlessError args _ = _
  rw [Macro.unlessError, hnone]
  simp only [hname]

theorem isError_plain {v : Value} (h : v.IsData) : v.plain.isError = false := by
  cases h <;> rfl

theorem isError_plainAll {items : List Value} (h : ∀ v ∈ items, v.IsData) :
    ∀ v ∈ Value.plainAll items, v.isError = false := by
  rw [Value.plainAll_eq]
  exact List.forall_mem_map.2 fun v hv => isError_plain (h v hv)

theorem forall₂_sources {items : List Value} (h : ∀ v ∈ items, Denotes host v.source v.plain) :
    List.Forall₂ (Denotes host) (Value.sources items) (Value.plainAll items) := by
  induction items with
  | nil =>
    rw [Value.sources, Value.plainAll]
    exact .nil
  | cons v rest ih =>
    rw [Value.sources, Value.plainAll]
    exact .cons (h v List.mem_cons_self) (ih fun w hw => h w (List.mem_cons_of_mem v hw))

/-- A datamap takes an entry with a new key at its end. -/
theorem insertEntry_of_new {key : Key} {entries : List (Key × Value)}
    (h : ∀ entry ∈ entries, entry.1.alike key = false) (v : Value) :
    DataMap.insertEntry key v entries = entries ++ [(key, v)] := by
  induction entries with
  | nil => rfl
  | cons entry rest ih =>
    rw [DataMap.insertEntry, h entry List.mem_cons_self, if_neg Bool.false_ne_true,
      ih fun e he => h e (List.mem_cons_of_mem entry he), List.cons_append]

/-- Keys and values in turn. -/
def pairs (entries : List (Key × Value)) : List Value :=
  entries.flatMap fun entry => [entry.1.toValue, entry.2]

theorem addPairs_of_distinct {m : DataMap Value} {entries : List (Key × Value)}
    (h : (m.entries ++ entries).Pairwise fun a b => a.1.alike b.1 = false) :
    Macro.addPairs m (pairs entries) = .ok ⟨m.entries ++ entries, m.isSealed⟩ := by
  induction entries generalizing m with
  | nil => simp [pairs, Macro.addPairs]
  | cons entry rest ih =>
    obtain ⟨key, v⟩ := entry
    have hnew : ∀ e ∈ m.entries, e.1.alike key = false :=
      fun e he => (List.pairwise_append.1 h).2.2 e he (key, v) List.mem_cons_self
    have hinsert : m.insert key v = ⟨m.entries ++ [(key, v)], m.isSealed⟩ := by
      rw [DataMap.insert, insertEntry_of_new hnew]
    have hpairs : pairs ((key, v) :: rest) = key.toValue :: v :: pairs rest := rfl
    rw [hpairs, Macro.addPairs, Key.ofValue_toValue]
    show Macro.addPairs (m.insert key v) (pairs rest) = _
    rw [hinsert, ih]
    · simp
    · simpa using h

theorem isError_pairs {entries : List (Key × Value)} (h : ∀ e ∈ entries, e.2.IsData) :
    ∀ v ∈ pairs (Value.plainEntries entries), v.isError = false := by
  intro v hv
  rw [pairs, Value.plainEntries_eq, List.mem_flatMap] at hv
  obtain ⟨e, he, hv⟩ := hv
  obtain ⟨f, hf, rfl⟩ := List.mem_map.1 he
  rcases List.mem_pair.1 hv with rfl | rfl
  · cases f.1 <;> rfl
  · exact isError_plain (h f hf)

theorem forall₂_entrySources {entries : List (Key × Value)} (hkeys : ∀ e ∈ entries, e.1.IsData)
    (h : ∀ e ∈ entries, Denotes host e.2.source e.2.plain) :
    List.Forall₂ (Denotes host) (Value.entrySources entries) (pairs (Value.plainEntries entries)) := by
  induction entries with
  | nil =>
    rw [Value.entrySources, Value.plainEntries]
    exact .nil
  | cons e rest ih =>
    rw [Value.entrySources, Value.plainEntries]
    exact .cons (stands_key (hkeys e List.mem_cons_self)).denotes (.cons (h e List.mem_cons_self)
      (ih (fun f hf => hkeys f (List.mem_cons_of_mem e hf)) fun f hf => h f (List.mem_cons_of_mem e hf)))

/-- The source text of data denotes the data, without the signs of zeros. -/
theorem denotes_source (hhost : host.HasCollections) {v : Value} (h : v.IsData) :
    Denotes host v.source v.plain := by
  induction h with
  | number finite =>
    rw [Value.source, Value.plain]
    exact (stands_number finite).denotes
  | string s =>
    rw [Value.source]
    exact (stands_string s).denotes
  | boolean b =>
    rw [Value.source]
    exact denotes_boolean b
  | colour c =>
    rw [Value.source]
    exact denotes_colour c
  | @array items data ih =>
    rw [Value.source, Value.plain]
    refine denotes_call hhost (by simp) (forall₂_sources ih) fun c => ?_
    rw [@run_demo "a" .array rfl _ (isError_plainAll data)]
    rfl
  | @map entries isSealed distinct keys data ih =>
    rw [Value.source, Value.plain]
    refine denotes_call hhost (by simp) (forall₂_entrySources keys ih) fun c => ?_
    -- keys that differ still differ without the signs of zeros
    have hpairs : Macro.addPairs {} (pairs (Value.plainEntries entries)) =
        .ok ⟨Value.plainEntries entries, false⟩ := by
      refine addPairs_of_distinct ?_
      rw [Value.plainEntries_eq]
      refine List.pairwise_map.2 (distinct.imp ?_)
      intro a b hab
      refine Bool.eq_false_iff.2 fun halike => ?_
      rw [← Key.beq_plain, Key.beq_of_alike halike] at hab
      exact Bool.noConfusion hab
    rw [@run_demo "dm" .datamap rfl _ (isError_pairs data)]
    show Macro.datamap (pairs (Value.plainEntries entries)) = _
    rw [Macro.datamap, hpairs]
  | @set items distinct data ih =>
    rw [Value.source, Value.plain]
    refine denotes_call hhost (by simp) (forall₂_sources ih) fun c => ?_
    have hitems : DataSet.ofList (Value.plainAll items) = ⟨Value.plainAll items⟩ := by
      refine DataSet.ofList_of_distinct ?_
      rw [Value.plainAll_eq]
      refine List.pairwise_map.2 (distinct.imp ?_)
      intro a b hab
      rw [Value.same_plain, hab]
    rw [@run_demo "ds" .dataset rfl _ (isError_plainAll data)]
    show Value.set (DataSet.ofList (Value.plainAll items)) = _
    rw [hitems]

end

/-- The source text of data evaluates to data equal to it, in every context and on every host with
the macros of collections. -/
theorem same_eval_source (v : Value) (hv : v.IsData) (host : Host) (hhost : host.HasCollections)
    (c : Context) : (((compileExpression v.source).eval host).run c).1.same v = true := by
  obtain ⟨e, hreads, heval⟩ := denotes_source hhost hv
  rw [hreads.compileExpression, Expr.eval, heval]
  exact hv.same_plain_self

/-- A sealed datamap of both kinds of keys, with collections inside. -/
def nestedData : Value :=
  .map ⟨[(.string "say \"x\"\n", .array [.number (.ofFloat (-1.5)), .boolean true, .colour ⟨255, 0, 16⟩]),
    (.number (.ofFloat (-0.1)), .set ⟨[.string "a\\", .array [], .number (.ofFloat (-0.0))]⟩)], true⟩

theorem same_eval_source_nestedData :
    nestedData.IsData ∧ (Host.demo 0).HasCollections ∧
      (((compileExpression nestedData.source).eval (Host.demo 0)).run {}).1.same nestedData = true := by
  have hdata : nestedData.IsData := by
    refine .map (by decide) ?_ ?_
    · simp only [List.forall_mem_cons, List.not_mem_nil, false_implies, implies_true, and_true]
      exact ⟨trivial, rfl⟩
    · simp only [List.forall_mem_cons, List.not_mem_nil, false_implies, implies_true, and_true]
      refine ⟨.array ?_, .set (by decide) ?_⟩
      · simp only [List.forall_mem_cons, List.not_mem_nil, false_implies, implies_true, and_true]
        exact ⟨.number rfl, .boolean true, .colour _⟩
      · simp only [List.forall_mem_cons, List.not_mem_nil, false_implies, implies_true, and_true]
        exact ⟨.string _, .array (by simp), .number rfl⟩
  have hhost : (Host.demo 0).HasCollections := fun _ _ _ _ => rfl
  exact ⟨hdata, hhost, same_eval_source nestedData hdata (Host.demo 0) hhost {}⟩

end StoryScript
