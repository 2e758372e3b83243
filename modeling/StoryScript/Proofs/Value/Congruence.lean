/-
  Operations on collections cannot tell equal values apart.

  Equal datamaps and datasets may hold their contents in another order, equal keys may be `0` and
  `-0`, and hooks that hold different texts are equal by name. Tests for contents, sums and
  differences see none of this, as long as no operand is hooks itself. Arrays are compared place by
  place. Datasets are equal if they contain each other (`same_set_iff_contains`), and datamaps if
  they have equal values in all slots (`same_map_of_slots`); that they have the same size too is a
  matter of counting.

  Sums of datamaps see one difference. Two datamaps with a single entry are equal if their names
  are, and all NaN are; but what is written over the one may be added to the other, if the hashes of
  the two NaN are not the same.
-/
import Mathlib
import StoryScript.Proofs.Value.Sets

namespace StoryScript

/-! ## Related lists and options -/

/-- If each element of a list has a partner in another list, and no two have one in common, then the
other list is as long at least. -/
theorem length_le_of_partners {α β : Type} {R : α → β → Prop} {xs : List α} {ys : List β}
    (hpartner : ∀ x ∈ xs, ∃ y ∈ ys, R x y)
    (hapart : xs.Pairwise fun a b => ∀ y ∈ ys, R a y → ¬R b y) : xs.length ≤ ys.length := by
  by_contra hlonger
  have hlt : ys.length < xs.length := by omega
  -- as many elements as the other list has take up all partners
  have hlength : (xs.take ys.length).length = ys.length := by
    rw [List.length_take]
    omega
  have hall := exists_partner hlength (fun x hx => hpartner x (List.mem_of_mem_take hx))
    (hapart.sublist (List.take_sublist ys.length xs))
  -- so there is none left for the next one
  have hnext : xs[ys.length] ∈ xs.drop ys.length := by
    rw [List.drop_eq_getElem_cons hlt]
    exact List.mem_cons_self
  obtain ⟨y, hy, hnexty⟩ := hpartner _ (List.mem_of_mem_drop hnext)
  obtain ⟨x, hx, hxy⟩ := hall y hy
  rw [← List.take_append_drop ys.length xs] at hapart
  exact (List.pairwise_append.1 hapart).2.2 x hx _ hnext y hy hxy hnexty

theorem any_eq_of_forall₂ {α β : Type} {R : α → β → Prop} {p : α → Bool} {q : β → Bool}
    {xs : List α} {ys : List β} (h : List.Forall₂ R xs ys) (hpq : ∀ x y, R x y → p x = q y) :
    xs.any p = ys.any q := by
  induction h with
  | nil => rfl
  | cons hxy _ ih => rw [List.any_cons, List.any_cons, hpq _ _ hxy, ih]

theorem isSome_eq_of_rel {α β : Type} {R : α → β → Prop} {a : Option α} {b : Option β}
    (h : Option.Rel R a b) : a.isSome = b.isSome := by
  cases h <;> rfl

theorem rel_or {α β : Type} {R : α → β → Prop} {a c : Option α} {b d : Option β}
    (hab : Option.Rel R a b) (hcd : Option.Rel R c d) : Option.Rel R (a.or c) (b.or d) := by
  cases hab with
  | some h => exact .some h
  | none => simpa using hcd

/-! ## Datamaps written over datamaps -/

namespace DataMap

variable {m n : DataMap Value}

theorem wellFormed_insert (hm : (Value.map m).WellFormed) (key : Key) {v : Value}
    (hv : v.WellFormed) : (Value.map (m.insert key v)).WellFormed := by
  refine .map (distinct_insert hm.of_map.1 key v) fun e he => ?_
  rcases mem_insertEntry he with hold | rfl
  · exact hm.of_map.2 e hold
  · exact hv

theorem wellFormed_insertMany (hm : (Value.map m).WellFormed) {entries : List (Key × Value)}
    (hentries : ∀ e ∈ entries, e.2.WellFormed) : (Value.map (m.insertMany entries)).WellFormed := by
  induction entries generalizing m with
  | nil => exact hm
  | cons e rest ih =>
    obtain ⟨he, hrest⟩ := List.forall_mem_cons.1 hentries
    exact ih (wellFormed_insert hm e.1 he) hrest

theorem wellFormed_empty : (Value.map {}).WellFormed :=
  .map .nil (by simp)

/-- The entries of two datamaps, with those of the second in place of those of the first. -/
def overlay (m n : DataMap Value) : DataMap Value :=
  (ofList m.entries).merge n

theorem add_map (m n : DataMap Value) :
    BinaryOp.add.apply (.map m) (.map n) = .map (m.overlay n) := rfl

theorem wellFormed_overlay (hm : (Value.map m).WellFormed) (hn : (Value.map n).WellFormed) :
    (Value.map (m.overlay n)).WellFormed :=
  wellFormed_insertMany (wellFormed_insertMany wellFormed_empty hm.of_map.2) hn.of_map.2

theorem slot?_ofList (hm : (Value.map m).WellFormed) (key : Key) :
    (ofList m.entries).slot? key = m.slot? key := by
  rw [ofList, slot?_insertMany hm.of_map.1]
  exact Option.or_none

/-- In a slot that both datamaps have, a sum has the value of the second. -/
theorem slot?_overlay (hm : (Value.map m).WellFormed) (hn : (Value.map n).WellFormed) (key : Key) :
    (m.overlay n).slot? key = (n.slot? key).or (m.slot? key) := by
  rw [overlay, slot?_merge hn.of_map.1, slot?_ofList hm]

/-- A sum has the keys of the first datamap, and then those of the second whose hash is new. -/
theorem keys_overlay (hm : (Value.map m).WellFormed) (hn : (Value.map n).WellFormed) :
    (m.overlay n).keys = m.keys ++ n.keys.filter fun key => !m.keys.any (·.alike key) := by
  have hcopy : (ofList m.entries).keys = m.keys := by
    rw [ofList, keys_insertMany hm.of_map.1]
    simp [keys]
  rw [overlay, merge, keys_insertMany hn.of_map.1, hcopy]
  rfl

/-- Each of two datamaps has a NaN as its only name, and the two NaN have different hashes. -/
def Diverge (m n : DataMap Value) : Prop :=
  ∃ key, n.keys = [key] ∧ key.Doubles m.keys

end DataMap

/-! ## Equal values -/

namespace Value

/-- Two well-formed values are equal. -/
structure Alike (v w : Value) : Prop where
  left : v.WellFormed
  right : w.WellFormed
  same : v.same w = true

namespace Alike

variable {v v' w w' : Value}

theorem symm (h : Alike v w) : Alike w v :=
  ⟨h.right, h.left, (h.left.coherent.symm h.right).1 h.same⟩

/-- Equality cannot tell equal values apart. -/
theorem same_eq (hv : Alike v v') (hw : Alike w w') : v.same w = v'.same w' :=
  calc v.same w
      = v.same w' := same_congr_right hv.left hw.left hw.right hw.same
    _ = w'.same v := same_comm hv.left hw.right
    _ = w'.same v' := same_congr_right hw.right hv.left hv.right hv.same
    _ = v'.same w' := same_comm hw.right hv.right

theorem isError_eq (h : Alike v w) : v.isError = w.isError := by
  have hkind := sameKind_of_same h.same
  cases v <;> cases w <;> first | rfl | exact absurd hkind Bool.false_ne_true

theorem text?_eq (h : Alike v w) (hv : ∀ hooks, v ≠ .hooks hooks) : v.text? = w.text? := by
  have hsame := h.same
  have hkind := sameKind_of_same hsame
  cases v <;> cases w <;> first | rfl | exact absurd hkind Bool.false_ne_true | skip
  case string.string a b =>
    rw [same_string, beq_iff_eq] at hsame
    rw [hsame]
  case hooks.hooks => exact absurd rfl (hv _)

end Alike

/-! ## Arrays -/

theorem forall₂_alike {items items' : List Value} (hitems : ∀ v ∈ items, v.WellFormed)
    (hitems' : ∀ v ∈ items', v.WellFormed)
    (h : List.Forall₂ (fun v w => v.same w = true) items items') :
    List.Forall₂ Alike items items' := by
  induction h with
  | nil => exact .nil
  | cons hvw _ ih =>
    obtain ⟨hv, hrest⟩ := List.forall_mem_cons.1 hitems
    obtain ⟨hw, hrest'⟩ := List.forall_mem_cons.1 hitems'
    exact .cons ⟨hv, hw, hvw⟩ (ih hrest hrest')

/-- What is equal to an array is an array of equal values in the same places. -/
theorem Alike.exists_array {items : List Value} {w : Value} (h : Alike (array items) w) :
    ∃ items', w = array items' ∧ List.Forall₂ Alike items items' := by
  obtain ⟨hv, hw, hsame⟩ := h
  cases w
  case array items' =>
    rw [same_array_iff] at hsame
    exact ⟨items', rfl, forall₂_alike hv.of_array hw.of_array hsame⟩
  all_goals exact absurd hsame Bool.false_ne_true

theorem same_array {items items' : List Value} (h : List.Forall₂ Alike items items') :
    (array items).same (array items') = true :=
  same_array_iff.2 (h.imp fun _ _ => Alike.same)

/-! ## Datasets -/

variable {s t : DataSet Value}

/-- Each value of a dataset is in every dataset equal to it. -/
theorem contains_of_same (h : (set s).same (set t) = true) :
    ∀ v ∈ s.items, t.contains v = true :=
  fun v hv => DataSet.contains_iff.2 ((same_set_iff.1 h).2 v hv)

theorem length_le_of_contains (hs : (set s).WellFormed) (ht : (set t).WellFormed)
    (h : ∀ v ∈ s.items, t.contains v = true) : s.items.length ≤ t.items.length := by
  refine length_le_of_partners (R := fun v w => w.same v = true)
    (fun v hv => DataSet.contains_iff.1 (h v hv)) ?_
  -- two values equal to a third would be equal
  refine hs.of_set.1.imp_of_mem fun {v v'} hv hv' hne w hw hwv hwv' => ?_
  have hformed := ht.of_set.2 w hw
  have hvw := (hformed.coherent.symm (hs.of_set.2 v hv)).1 hwv
  rw [(hs.of_set.2 v hv).coherent.first hformed (hs.of_set.2 v' hv') hvw hwv'] at hne
  exact Bool.noConfusion hne

/-- Datasets are equal if each contains the values of the other. -/
theorem same_set_iff_contains (hs : (set s).WellFormed) (ht : (set t).WellFormed) :
    (set s).same (set t) = true ↔
      (∀ v ∈ s.items, t.contains v = true) ∧ ∀ v ∈ t.items, s.contains v = true := by
  constructor
  · intro h
    exact ⟨contains_of_same h, contains_of_same ((hs.coherent.symm ht).1 h)⟩
  · rintro ⟨hst, hts⟩
    have hlength : s.items.length = t.items.length :=
      Nat.le_antisymm (length_le_of_contains hs ht hst) (length_le_of_contains ht hs hts)
    exact same_set_iff.2 ⟨hlength, fun v hv => DataSet.contains_iff.1 (hst v hv)⟩

/-- What is equal to a dataset is a dataset. -/
theorem Alike.exists_set {w : Value} (h : Alike (set s) w) : ∃ t, w = set t := by
  have hsame := h.same
  cases w
  case set t => exact ⟨t, rfl⟩
  all_goals exact absurd hsame Bool.false_ne_true

namespace Alike

theorem contains_of_mem (h : Alike (set s) (set t)) : ∀ v ∈ s.items, t.contains v = true :=
  contains_of_same h.same

theorem contains_of_contains (h : Alike (set s) (set t)) {v : Value} (hv : v.WellFormed)
    (hcontains : s.contains v = true) : t.contains v = true := by
  obtain ⟨u, hu, huv⟩ := DataSet.contains_iff.1 hcontains
  rw [← DataSet.contains_congr h.right (h.left.of_set.2 u hu) hv huv]
  exact h.contains_of_mem u hu

/-- Equal datasets contain the same values. -/
theorem contains_eq (h : Alike (set s) (set t)) {v : Value} (hv : v.WellFormed) :
    s.contains v = t.contains v :=
  Bool.eq_iff_iff.2 ⟨h.contains_of_contains hv, h.symm.contains_of_contains hv⟩

end Alike

/-! ## Datamaps -/

variable {m n : DataMap Value}

/-- What a datamap has under a key, every datamap equal to it has too. -/
theorem get?_of_same (hm : (map m).WellFormed) (hn : (map n).WellFormed)
    (h : (map m).same (map n) = true) {key : Key} {v : Value} (hv : m.get? key = some v) :
    ∃ w, n.get? key = some w ∧ v.same w = true := by
  obtain ⟨hsize, hpartner⟩ := (same_map_iff_matched hn).1 h
  obtain ⟨e, he, hkey, rfl⟩ := (DataMap.get?_eq_some_iff hm.of_map.1).1 hv
  obtain ⟨e', he', hkey', hsame⟩ := hpartner e he
  -- both are searched in the same way
  have hmeets : key.meets n.size e.1 = true := by rwa [← show m.size = n.size from hsize]
  exact ⟨e'.2, (DataMap.get?_eq_some_iff hn.of_map.1).2
    ⟨e', he', Key.meets_trans hmeets hkey', rfl⟩, hsame⟩

/-- What is equal to a datamap is a datamap. -/
theorem Alike.exists_map {w : Value} (h : Alike (map m) w) : ∃ n, w = map n := by
  have hsame := h.same
  cases w
  case map n => exact ⟨n, rfl⟩
  all_goals exact absurd hsame Bool.false_ne_true

/-- Equal datamaps have equal values under every key. -/
theorem Alike.rel_get? (h : Alike (map m) (map n)) (key : Key) :
    Option.Rel (fun v w => v.same w = true) (m.get? key) (n.get? key) := by
  cases hmkey : m.get? key with
  | some v =>
    obtain ⟨w, hw, hvw⟩ := get?_of_same h.left h.right h.same hmkey
    rw [hw]
    exact .some hvw
  | none =>
    cases hnkey : n.get? key with
    | none => exact .none
    | some w =>
      obtain ⟨v, hv, -⟩ := get?_of_same h.right h.left h.symm.same hnkey
      rw [hmkey] at hv
      cases hv

/-- Equal datamaps have equal values in every slot, unless they diverge. -/
theorem Alike.rel_slot? (h : Alike (map m) (map n)) (hdiverge : ¬m.Diverge n) (key : Key) :
    Option.Rel (fun v w => v.same w = true) (m.slot? key) (n.slot? key) := by
  obtain ⟨hsize, hpartner⟩ := (same_map_iff_matched h.right).1 h.same
  by_cases hone : n.size = 1
  · obtain ⟨e, he⟩ := DataMap.eq_singleton_of_size (hsize.trans hone)
    obtain ⟨e', hmem, hkey, hsame⟩ := hpartner e (by rw [he]; exact List.mem_cons_self)
    obtain ⟨only, honly⟩ := DataMap.eq_singleton_of_size hone
    have he' : n.entries = [e'] := by
      rw [honly] at hmem ⊢
      rw [List.mem_singleton.1 hmem]
    -- equal names with one hash have one slot
    have halike : e.1.alike e'.1 = true := by
      refine Bool.eq_true_of_not_eq_false fun hhash => hdiverge ⟨e'.1, ?_, ?_⟩
      · rw [DataMap.keys, he', List.map_singleton]
      · rw [DataMap.keys, he, List.map_singleton]
        exact Key.doubles_singleton (Key.beq_of_meets hkey) hhash
    have hslot : e.1.alike key = e'.1.alike key := by
      rw [Key.alike_comm, Key.alike_congr_right halike, Key.alike_comm]
    rw [DataMap.slot?, DataMap.slot?, he, he', List.find?_singleton, List.find?_singleton, hslot]
    cases e'.1.alike key with
    | true => exact .some hsame
    | false => exact .none
  · rw [← DataMap.get?_eq_slot? hone, ← DataMap.get?_eq_slot? (hsize.trans_ne hone)]
    exact h.rel_get? key

theorem length_le_of_slot? (hm : (map m).WellFormed) (hn : (map n).WellFormed)
    (h : ∀ e ∈ m.entries, (n.slot? e.1).isSome = true) : m.entries.length ≤ n.entries.length := by
  refine length_le_of_partners (R := fun e e' => e.1.alike e'.1 = true) (fun e he => ?_) ?_
  · obtain ⟨w, hw⟩ := Option.isSome_iff_exists.1 (h e he)
    obtain ⟨e', he', hkey, -⟩ := (DataMap.slot?_eq_some_iff hn.of_map.1).1 hw
    exact ⟨e', he', hkey⟩
  · -- two keys with the hash of a third have one hash
    refine hm.of_map.1.imp fun {e e'} hne e'' _ hkey hkey' => ?_
    rw [Key.alike_trans hkey (Key.alike_symm hkey')] at hne
    exact Bool.noConfusion hne

/-- Datamaps are equal if they have equal values in every slot. -/
theorem same_map_of_slots (hm : (map m).WellFormed) (hn : (map n).WellFormed)
    (h : ∀ key, Option.Rel (fun v w => v.same w = true) (m.slot? key) (n.slot? key)) :
    (map m).same (map n) = true := by
  have hself : ∀ e ∈ m.entries, m.slot? e.1 = some e.2 :=
    fun e he => DataMap.slot?_of_mem hm.of_map.1 he
  have hself' : ∀ e ∈ n.entries, n.slot? e.1 = some e.2 :=
    fun e he => DataMap.slot?_of_mem hn.of_map.1 he
  -- each has the slots of the other, so neither has more of them
  have hlength : m.entries.length = n.entries.length := by
    refine Nat.le_antisymm (length_le_of_slot? hm hn fun e he => ?_)
      (length_le_of_slot? hn hm fun e he => ?_)
    · rw [← isSome_eq_of_rel (h e.1), hself e he]
      rfl
    · rw [isSome_eq_of_rel (h e.1), hself' e he]
      rfl
  refine same_map_iff.2 ⟨hlength, fun e he => ?_⟩
  have hrel := h e.1
  rw [hself e he] at hrel
  generalize hslot : n.slot? e.1 = found at hrel
  cases hrel with
  | some hsame => exact ⟨_, DataMap.get?_of_slot? hslot, hsame⟩

/-- Equal values denote equal keys, which are not NaN, or neither denotes one. -/
theorem Alike.ofValue {v w : Value} (h : Alike v w) :
    (∃ key key', Key.ofValue v = .ok key ∧ Key.ofValue w = .ok key' ∧ (key == key') = true ∧
      key.isNaN = false) ∨
    ∃ e e', Key.ofValue v = .error e ∧ Key.ofValue w = .error e' := by
  have hsame := h.same
  cases v <;> cases w
  case number.number x y =>
    rw [same_number] at hsame
    refine .inl ⟨.number x, .number y, rfl, rfl, ?_, (Number.beq_iff_plain.1 hsame).1⟩
    show (x == y || (x.float.isNaN && y.float.isNaN)) = true
    rw [hsame, Bool.true_or]
  case string.string x y =>
    rw [same_string] at hsame
    exact .inl ⟨.string x, .string y, rfl, rfl, hsame, rfl⟩
  all_goals first | exact .inr ⟨_, _, rfl, rfl⟩ | exact absurd hsame Bool.false_ne_true

/-! ## Tests for contents -/

/-- A string can be asked only for what can stand for text. -/
theorem holds_string (text : String) (v : Value) : (holds (string text) v).toOption =
    v.text?.map fun needle => Text.occursIn needle.toList text.toList := by
  have htext : (string text).text? = some text := rfl
  simp only [holds, htext]
  cases v.text? <;> rfl

/-- Whether a value holds another does not change if both are replaced by equal ones. -/
theorem holds_eq {a a' b b' : Value} (ha : Alike a a') (hb : Alike b b')
    (hahooks : ∀ h, a ≠ .hooks h) (hbhooks : ∀ h, b ≠ .hooks h) :
    (holds a b).toOption = (holds a' b').toOption := by
  cases a
  case array items =>
    obtain ⟨items', rfl, hitems⟩ := ha.exists_array
    rw [holds, holds, any_eq_of_forall₂ hitems fun v w hvw => hvw.same_eq hb]
  case set s =>
    obtain ⟨t, rfl⟩ := ha.exists_set
    rw [holds, holds, ha.contains_eq hb.left,
      DataSet.contains_congr ha.right hb.left hb.right hb.same]
  case map m =>
    obtain ⟨n, rfl⟩ := ha.exists_map
    -- the keys may be the two zeros
    rcases hb.ofValue with ⟨key, key', hkey, hkey', heq, hnan⟩ | ⟨e, e', he, he'⟩
    · have hmeets : key'.meets n.size key = true := by
        rw [Key.meets_eq_beq hnan]
        exact BEq.symm heq
      have hcontains : m.contains key = n.contains key' := by
        rw [DataMap.contains_eq_isSome_get?, DataMap.contains_eq_isSome_get?, n.get?_congr hmeets]
        exact isSome_eq_of_rel (ha.rel_get? key)
      simp only [holds, hkey, hkey', hcontains]
    · simp only [holds, he, he']
  case hooks h => exact absurd rfl (hahooks h)
  case string text =>
    have hsame := ha.same
    cases a'
    case string text' =>
      rw [same_string, beq_iff_eq] at hsame
      subst hsame
      rw [holds_string, holds_string, hb.text?_eq hbhooks]
    all_goals exact absurd hsame Bool.false_ne_true
  all_goals
    -- what has neither contents nor a text holds what it is equal to
    have hsame := ha.same
    cases a' <;> first
      | exact absurd hsame Bool.false_ne_true
      | exact congrArg (fun x => (Except.ok x : Except ScriptError Bool).toOption) (ha.same_eq hb)

/-- Two results of a test are the same truth value, or both are errors. -/
def AgreeAsTests (v w : Value) : Prop :=
  (∃ x, v = .boolean x ∧ w = .boolean x) ∨ (v.isError = true ∧ w.isError = true)

theorem agreeAsTests_of_toOption {x y : Except ScriptError Bool} (h : x.toOption = y.toOption) :
    AgreeAsTests (ofExcept (boolean <$> x)) (ofExcept (boolean <$> y)) := by
  cases x <;> cases y
  case error.error => exact .inr ⟨rfl, rfl⟩
  case ok.ok x y =>
    obtain rfl : x = y := Option.some.inj h
    exact .inl ⟨x, rfl, rfl⟩
  all_goals cases h

/-- A test for contents does not change if its operands are replaced by equal ones. -/
theorem agreeAsTests_apply {op : BinaryOp} (test : Value → Value → Except ScriptError Bool)
    (hop : ∀ v w, op.result v w = boolean <$> test v w) {v v' w w' : Value} (hv : Alike v v')
    (hw : Alike w w') (htest : (test v w).toOption = (test v' w').toOption) :
    AgreeAsTests (op.apply v w) (op.apply v' w') := by
  cases herror : v.isError || w.isError with
  | true =>
    have h : v.isError = true ∨ w.isError = true := by simpa using herror
    have h' : v'.isError = true ∨ w'.isError = true := by rwa [← hv.isError_eq, ← hw.isError_eq]
    exact .inr ⟨op.isError_apply h, op.isError_apply h'⟩
  | false =>
    obtain ⟨hv₀, hw₀⟩ : v.isError = false ∧ w.isError = false := by simpa using herror
    rw [op.apply_of_not_isError hv₀ hw₀, op.apply_of_not_isError (hv.isError_eq ▸ hv₀)
      (hw.isError_eq ▸ hw₀), hop, hop]
    exact agreeAsTests_of_toOption htest

/-! ## Sums and differences -/

/-- Two results are equal, and are no errors. -/
def AgreeAsData (v w : Value) : Prop :=
  v.isError = false ∧ v.same w = true

section Array

variable {x x' y y' : List Value}

theorem agree_add_array (hx : List.Forall₂ Alike x x') (hy : List.Forall₂ Alike y y') :
    AgreeAsData (BinaryOp.add.apply (array x) (array y))
      (BinaryOp.add.apply (array x') (array y')) :=
  ⟨rfl, same_array (List.rel_append hx hy)⟩

theorem agree_subtract_array (hx : List.Forall₂ Alike x x') (hy : List.Forall₂ Alike y y') :
    AgreeAsData (BinaryOp.subtract.apply (array x) (array y))
      (BinaryOp.subtract.apply (array x') (array y')) := by
  refine ⟨rfl, same_array (List.rel_filter (R := Alike) (fun v v' hv => ?_) hx)⟩
  -- a value stays on one side if and only if its equal stays on the other
  show (!y.any (v.same ·)) = true ↔ (!y'.any (v'.same ·)) = true
  rw [any_eq_of_forall₂ hy fun w w' hw => hv.same_eq hw]

end Array

section Set

variable {s s' t t' : DataSet Value}

theorem contains_union_of_alike (hs : Alike (set s) (set s')) (ht : Alike (set t) (set t')) :
    ∀ v ∈ (s.union t).items, (s'.union t').contains v = true := by
  intro v hv
  -- it is a value of the first dataset, or one of the second that is new
  rw [DataSet.items_union hs.left ht.left, List.mem_append] at hv
  rcases hv with hv | hv
  · rw [DataSet.contains_union hs.right ht.right (hs.left.of_set.2 v hv), hs.contains_of_mem v hv,
      Bool.true_or]
  · have hmem := List.mem_of_mem_filter hv
    rw [DataSet.contains_union hs.right ht.right (ht.left.of_set.2 v hmem),
      ht.contains_of_mem v hmem, Bool.or_true]

theorem agree_add_set (hs : Alike (set s) (set s')) (ht : Alike (set t) (set t')) :
    AgreeAsData (BinaryOp.add.apply (set s) (set t)) (BinaryOp.add.apply (set s') (set t')) := by
  refine ⟨rfl, ?_⟩
  rw [DataSet.add_set, DataSet.add_set, same_set_iff_contains (DataSet.wellFormed_union hs.left ht.left)
    (DataSet.wellFormed_union hs.right ht.right)]
  exact ⟨contains_union_of_alike hs ht, contains_union_of_alike hs.symm ht.symm⟩

theorem contains_diff_of_alike (hs : Alike (set s) (set s')) (ht : Alike (set t) (set t')) :
    ∀ v ∈ (s.diff t).items, (s'.diff t').contains v = true := by
  intro v hv
  rw [DataSet.items_diff hs.left, List.mem_filter] at hv
  have hformed := hs.left.of_set.2 v hv.1
  rw [DataSet.contains_diff hs.right ht.right hformed, hs.contains_of_mem v hv.1,
    ← ht.contains_eq hformed, hv.2, Bool.and_self]

theorem agree_subtract_set (hs : Alike (set s) (set s')) (ht : Alike (set t) (set t')) :
    AgreeAsData (BinaryOp.subtract.apply (set s) (set t))
      (BinaryOp.subtract.apply (set s') (set t')) := by
  refine ⟨rfl, ?_⟩
  rw [DataSet.subtract_set, DataSet.subtract_set, same_set_iff_contains (DataSet.wellFormed_diff hs.left t)
    (DataSet.wellFormed_diff hs.right t')]
  exact ⟨contains_diff_of_alike hs ht, contains_diff_of_alike hs.symm ht.symm⟩

end Set

section Map

variable {m m' n n' : DataMap Value}

open DataMap

theorem agree_add_map (hm : Alike (map m) (map m')) (hn : Alike (map n) (map n'))
    (hdiverge : ¬m.Diverge m') (hdiverge' : ¬n.Diverge n') :
    AgreeAsData (BinaryOp.add.apply (map m) (map n)) (BinaryOp.add.apply (map m') (map n')) := by
  refine ⟨rfl, ?_⟩
  rw [add_map, add_map]
  refine same_map_of_slots (wellFormed_overlay hm.left hn.left)
    (wellFormed_overlay hm.right hn.right) fun key => ?_
  rw [slot?_overlay hm.left hn.left, slot?_overlay hm.right hn.right]
  exact rel_or (hn.rel_slot? hdiverge' key) (hm.rel_slot? hdiverge key)

/-- Datamaps that diverge are told apart by what is added to them: one of them takes the other's
name for its own, and the other does not. -/
theorem same_add_of_diverge (hm : (map m).WellFormed) (hm' : (map m').WellFormed)
    (h : m.Diverge m') :
    (BinaryOp.add.apply (map m) (map m)).same (BinaryOp.add.apply (map m') (map m)) = false := by
  obtain ⟨key, hkeys', name, hkeys, -, -, hhash⟩ := h
  have hsize : (m.overlay m).size = 1 := by
    rw [size_eq_length_keys, keys_overlay hm hm, hkeys]
    simp [Key.alike_self]
  have hsize' : (m'.overlay m).size = 2 := by
    rw [size_eq_length_keys, keys_overlay hm' hm, hkeys, hkeys']
    simp [Key.alike_comm key name, hhash]
  rw [add_map, add_map, Bool.eq_false_iff]
  intro hsame
  have hequal := (same_map_iff.1 hsame).1
  omega

end Map

end Value

open Value in
/-- Equality is a congruence for operations on collections. Among well-formed values other than
hooks, replacing both operands by equal ones changes neither whether a test for contents succeeds
nor what it says. The sums of arrays and of datasets and the differences of arrays and of datasets
are then equal, and none is an error. So are the sums of datamaps, unless one of them and its equal
have two NaN with different hashes as their only names. Such datamaps are told apart by sums. -/
theorem congruence_same {a a' b b' : Value} (ha : Alike a a') (hb : Alike b b')
    (hahooks : ∀ h, a ≠ .hooks h) (hbhooks : ∀ h, b ≠ .hooks h) :
    (AgreeAsTests (BinaryOp.contains.apply a b) (BinaryOp.contains.apply a' b') ∧
      AgreeAsTests (BinaryOp.isIn.apply b a) (BinaryOp.isIn.apply b' a')) ∧
    (∀ x y, a = .array x → b = .array y →
      AgreeAsData (BinaryOp.add.apply a b) (BinaryOp.add.apply a' b') ∧
      AgreeAsData (BinaryOp.subtract.apply a b) (BinaryOp.subtract.apply a' b')) ∧
    (∀ m m' n n', a = .map m → a' = .map m' → b = .map n → b' = .map n' →
      (¬m.Diverge m' → ¬n.Diverge n' →
        AgreeAsData (BinaryOp.add.apply a b) (BinaryOp.add.apply a' b')) ∧
      (m.Diverge m' → (BinaryOp.add.apply a a).same (BinaryOp.add.apply a' a) = false)) ∧
    (∀ s t, a = .set s → b = .set t →
      AgreeAsData (BinaryOp.add.apply a b) (BinaryOp.add.apply a' b') ∧
      AgreeAsData (BinaryOp.subtract.apply a b) (BinaryOp.subtract.apply a' b')) := by
  have hholds := holds_eq ha hb hahooks hbhooks
  refine ⟨⟨?_, ?_⟩, ?_, ?_, ?_⟩
  · exact agreeAsTests_apply holds (fun _ _ => rfl) ha hb hholds
  · exact agreeAsTests_apply (fun v w => holds w v) (fun _ _ => rfl) hb ha hholds
  · rintro x y rfl rfl
    obtain ⟨x', rfl, hx⟩ := ha.exists_array
    obtain ⟨y', rfl, hy⟩ := hb.exists_array
    exact ⟨agree_add_array hx hy, agree_subtract_array hx hy⟩
  · rintro m m' n n' rfl rfl rfl rfl
    exact ⟨agree_add_map ha hb, same_add_of_diverge ha.left ha.right⟩
  · rintro s t rfl rfl
    obtain ⟨s', rfl⟩ := ha.exists_set
    obtain ⟨t', rfl⟩ := hb.exists_set
    exact ⟨agree_add_set ha hb, agree_subtract_set ha hb⟩

/-- A datamap with a dataset under zero. -/
def zeroMap : Value :=
  .map ⟨[(.number 0, nestedSet), (.string "k", .number 1)], false⟩

/-- The same in another order, with an equal dataset under the other zero. -/
def minusZeroMap : Value :=
  .map ⟨[(.string "k", .number 1), (.number (.ofFloat (-0)), shuffledSet)], true⟩

theorem alike_nestedSet : Value.Alike nestedSet shuffledSet :=
  ⟨wellFormed_nestedSet, wellFormed_shuffledSet, by decide⟩

theorem alike_letters : Value.Alike (DataSet.letters "x" "y") (DataSet.letters "y" "x") :=
  ⟨DataSet.wellFormed_letters (by decide), DataSet.wellFormed_letters (by decide), by decide⟩

theorem alike_zeroMap : Value.Alike zeroMap minusZeroMap := by
  refine ⟨.map (by decide +kernel) ?_, .map (by decide +kernel) ?_, by decide +kernel⟩
  · simp [wellFormed_nestedSet, Value.WellFormed.number]
  · simp [wellFormed_shuffledSet, Value.WellFormed.number]

/-- Two entries cannot diverge from anything. -/
theorem not_diverge_zeroMap (n : DataMap Value) :
    ¬DataMap.Diverge ⟨[(.number 0, nestedSet), (.string "k", .number 1)], false⟩ n := by
  rintro ⟨_, -, _, hname, -⟩
  cases hname

/-- A datamap with one entry. -/
def loneMap (key : Key) (value : Number) : Value :=
  .map ⟨[(key, .number value)], false⟩

theorem alike_loneMap : Value.Alike (loneMap .writtenNaN 1) (loneMap .resultNaN 1) :=
  ⟨.map (List.pairwise_singleton _ _) (by simp [Value.WellFormed.number]),
    .map (List.pairwise_singleton _ _) (by simp [Value.WellFormed.number]), by decide +kernel⟩

open Value in
/-- Datasets within datasets in another order, datamaps with the two zeros as keys, and arrays of
them. Two datamaps with a NaN each are told apart. -/
theorem congruence_same_shuffled :
    (Alike nestedSet shuffledSet ∧ Alike (DataSet.letters "x" "y") (DataSet.letters "y" "x") ∧
      Alike zeroMap minusZeroMap ∧ (∀ h, nestedSet ≠ .hooks h) ∧ ∀ h, zeroMap ≠ .hooks h) ∧
    BinaryOp.contains.apply shuffledSet (DataSet.letters "y" "x") = .boolean true ∧
    AgreeAsData (BinaryOp.subtract.apply nestedSet (DataSet.letters "x" "y"))
      (BinaryOp.subtract.apply shuffledSet (DataSet.letters "y" "x")) ∧
    AgreeAsData (BinaryOp.add.apply zeroMap zeroMap)
      (BinaryOp.add.apply minusZeroMap minusZeroMap) ∧
    AgreeAsData (BinaryOp.subtract.apply (.array [zeroMap]) (.array [zeroMap]))
      (BinaryOp.subtract.apply (.array [minusZeroMap]) (.array [minusZeroMap])) ∧
    (BinaryOp.add.apply (loneMap .writtenNaN 1) (loneMap .writtenNaN 1)).same
      (BinaryOp.add.apply (loneMap .resultNaN 1) (loneMap .writtenNaN 1)) = false := by
  have hnested : ∀ h, nestedSet ≠ .hooks h := fun h heq => Value.noConfusion heq
  have hletters : ∀ h, DataSet.letters "x" "y" ≠ .hooks h := fun h heq => Value.noConfusion heq
  have hzero : ∀ h, zeroMap ≠ .hooks h := fun h heq => Value.noConfusion heq
  have harray : ∀ h, Value.array [zeroMap] ≠ .hooks h := fun h heq => Value.noConfusion heq
  have hlone : ∀ h, loneMap .writtenNaN 1 ≠ .hooks h := fun h heq => Value.noConfusion heq
  have hplaces : Alike (.array [zeroMap]) (.array [minusZeroMap]) :=
    ⟨.array (by simp [alike_zeroMap.left]), .array (by simp [alike_zeroMap.right]),
      same_array (.cons alike_zeroMap .nil)⟩
  obtain ⟨⟨htest, -⟩, -, -, hsets⟩ :=
    congruence_same alike_nestedSet alike_letters hnested hletters
  obtain ⟨-, -, hmaps, -⟩ := congruence_same alike_zeroMap alike_zeroMap hzero hzero
  obtain ⟨-, harrays, -⟩ := congruence_same hplaces hplaces harray harray
  obtain ⟨-, -, hlones, -⟩ := congruence_same alike_loneMap alike_loneMap hlone hlone
  refine ⟨⟨alike_nestedSet, alike_letters, alike_zeroMap, hnested, hzero⟩, ?_,
    (hsets _ _ rfl rfl).2, (hmaps _ _ _ _ rfl rfl rfl rfl).1 ?_ ?_, (harrays _ _ rfl rfl).2,
    (hlones _ _ _ _ rfl rfl rfl rfl).2 ⟨_, rfl, Key.doubles_resultNaN⟩⟩
  · -- the one dataset holds the other, so this is so in any order
    have hheld : BinaryOp.contains.apply nestedSet (DataSet.letters "x" "y") = .boolean true := rfl
    rw [hheld] at htest
    rcases htest with ⟨x, hx, hx'⟩ | ⟨herror, -⟩
    · rw [hx', hx]
    · cases herror
  · exact not_diverge_zeroMap _
  · exact not_diverge_zeroMap _

open Value in
/-- Under NaN keys with different hashes, adding one datamap to equal ones gives one entry and two. -/
theorem not_congruence_same_loneMap :
    Alike (loneMap .writtenNaN 1) (loneMap .resultNaN 1) ∧
    Alike (loneMap .writtenNaN 2) (loneMap .writtenNaN 2) ∧
    (∀ h, loneMap .writtenNaN 1 ≠ .hooks h) ∧ (∀ h, loneMap .writtenNaN 2 ≠ .hooks h) ∧
    (BinaryOp.add.apply (loneMap .writtenNaN 1) (loneMap .writtenNaN 2)).same
      (BinaryOp.add.apply (loneMap .resultNaN 1) (loneMap .writtenNaN 2)) = false := by
  have hformed : (loneMap .writtenNaN 2).WellFormed :=
    .map (List.pairwise_singleton _ _) (by simp [Value.WellFormed.number])
  exact ⟨alike_loneMap, ⟨hformed, hformed, by decide +kernel⟩,
    fun h heq => Value.noConfusion heq, fun h heq => Value.noConfusion heq, by decide +kernel⟩

end StoryScript
