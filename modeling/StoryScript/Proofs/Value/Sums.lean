/-
  Sums of collections.

  Arrays, changers and texts are added end to end, a dataset takes from another what is new to it,
  and a datamap is written over another. Each of these operations is associative, to the order of
  the contents, and the empty collection of its kind is neutral. For datasets this rests on equality
  being transitive: what the first two do not contain is what neither of them contains. Of two equal
  keys a datamap keeps the older, in its place, with the newer value; so the keys of a sum and what
  is in the slot of each of them are told apart, and together they determine the sum. A key is new
  to a datamap if its hash is: two NaN may be two keys.
-/
import Mathlib
import StoryScript.Proofs.Value.Congruence

namespace StoryScript

/-! ## Datamaps -/

namespace DataMap

variable {m n o : DataMap Value}

/-- A datamap is determined by its keys in their order, by the value in the slot of each of them
and by whether it is sealed. -/
theorem ext_of_slot? (hm : (Value.map m).WellFormed) (hn : (Value.map n).WellFormed)
    (hkeys : m.keys = n.keys) (hslot : ∀ key, m.slot? key = n.slot? key)
    (hsealed : m.isSealed = n.isSealed) : m = n := by
  have hentries : m.entries = n.entries := by
    refine List.ext_getElem (by simpa [keys] using congrArg List.length hkeys) fun i hi hi' => ?_
    have hkey : m.entries[i].1 = n.entries[i].1 := by
      have hat := congrArg (·[i]?) hkeys
      simpa [keys, hi, hi'] using hat
    have hvalue : some m.entries[i].2 = some n.entries[i].2 :=
      calc some m.entries[i].2
          = m.slot? m.entries[i].1 := (slot?_of_mem hm.of_map.1 (List.getElem_mem hi)).symm
        _ = n.slot? n.entries[i].1 := by rw [hslot, hkey]
        _ = some n.entries[i].2 := slot?_of_mem hn.of_map.1 (List.getElem_mem hi')
    exact Prod.ext hkey (Option.some.inj hvalue)
  obtain ⟨entries, isSealed⟩ := m
  obtain ⟨entries', isSealed'⟩ := n
  obtain rfl : entries = entries' := hentries
  obtain rfl : isSealed = isSealed' := hsealed
  rfl

/-- A sum is never sealed. -/
theorem isSealed_overlay (m n : DataMap Value) : (m.overlay n).isSealed = false := by
  rw [overlay, isSealed_merge, ofList, isSealed_insertMany]

theorem any_keys_overlay (hm : (Value.map m).WellFormed) (hn : (Value.map n).WellFormed)
    (key : Key) : (m.overlay n).keys.any (·.alike key) =
      (m.keys.any (·.alike key) || n.keys.any (·.alike key)) := by
  rw [← isSome_slot?, ← isSome_slot?, ← isSome_slot?, slot?_overlay hm hn, Option.isSome_or]
  exact Bool.or_comm _ _

/-- Of equal keys the oldest comes first and the newest has the value, whichever two of three
datamaps are added first. -/
theorem overlay_assoc (hm : (Value.map m).WellFormed) (hn : (Value.map n).WellFormed)
    (ho : (Value.map o).WellFormed) : (m.overlay n).overlay o = m.overlay (n.overlay o) := by
  have hmn := wellFormed_overlay hm hn
  have hno := wellFormed_overlay hn ho
  refine ext_of_slot? (wellFormed_overlay hmn ho) (wellFormed_overlay hm hno) ?_ (fun key => ?_) ?_
  · simp only [keys_overlay hmn ho, any_keys_overlay hm hn, Bool.not_or]
    rw [keys_overlay hm hn, keys_overlay hm hno, keys_overlay hn ho, List.filter_append,
      List.filter_filter, List.append_assoc]
  · rw [slot?_overlay hmn ho, slot?_overlay hm hn, slot?_overlay hm hno, slot?_overlay hn ho,
      Option.or_assoc]
  · rw [isSealed_overlay, isSealed_overlay]

/-- A datamap without its seal. -/
def unsealed (m : DataMap Value) : DataMap Value :=
  { m with isSealed := false }

end DataMap

/-! ## Datasets -/

namespace DataSet

variable {s t u : DataSet Value}

theorem ext_items (h : s.items = t.items) : s = t := by
  cases s
  cases t
  exact congrArg DataSet.mk h

/-- A value is new to a union if it is new to both datasets. -/
theorem union_assoc (hs : (Value.set s).WellFormed) (ht : (Value.set t).WellFormed)
    (hu : (Value.set u).WellFormed) : (s.union t).union u = s.union (t.union u) := by
  refine ext_items ?_
  have hnew : (u.items.filter fun v => !(s.union t).contains v) =
      u.items.filter fun v => !s.contains v && !t.contains v := by
    refine List.filter_congr fun v hv => ?_
    rw [contains_union hs ht (hu.of_set.2 v hv), Bool.not_or]
  rw [items_union (wellFormed_union hs ht) hu, items_union hs ht,
    items_union hs (wellFormed_union ht hu), items_union ht hu, hnew, List.filter_append,
    List.filter_filter, List.append_assoc]

end DataSet

/-! ## Collections of any kind -/

namespace Value

/-- The kinds of collections. -/
inductive Collection where
  | array
  | map
  | set
  | changer
  | text
  deriving DecidableEq

/-- The empty collection of a kind. -/
def Collection.empty : Collection → Value
  | array => .array []
  | map => .map {}
  | set => .set {}
  | changer => .changer []
  | text => .string ""

/-- A collection of a kind. Hooks whose text is known are text. -/
inductive IsCollection : Collection → Value → Prop where
  | array (items : List Value) : IsCollection .array (array items)
  | map {m : DataMap Value} (formed : (map m).WellFormed) : IsCollection .map (map m)
  | set {s : DataSet Value} (formed : (set s).WellFormed) : IsCollection .set (set s)
  | changer (calls : List (ChangerCall Value)) : IsCollection .changer (changer calls)
  | string (text : String) : IsCollection .text (string text)
  | hooks (name text : String) : IsCollection .text (hooks ⟨name, some text⟩)

/-- A collection as a sum has it: a datamap without its seal, hooks as their text. -/
def asSum : Value → Value
  | map m => map m.unsealed
  | v => v.stored

variable {k : Collection} {v w x y z : Value}

theorem IsCollection.text? (h : IsCollection .text v) :
    ∃ text, v.text? = some text ∧ v.asSum = .string text := by
  cases h with
  | string text => exact ⟨text, rfl, rfl⟩
  | hooks name text => exact ⟨text, rfl, rfl⟩

/-- Texts are added end to end, those of hooks too. -/
theorem add_text {a b : String} (hv : v.text? = some a) (hw : w.text? = some b) :
    BinaryOp.add.apply v w = string (a ++ b) := by
  cases v <;> cases w <;> simp_all [text?, BinaryOp.apply, firstError?, isError, BinaryOp.result,
    sum, checkKinds, sameKind, ofExcept, pure, bind, Except.pure, Except.bind]

namespace IsCollection

theorem isError_eq (h : IsCollection k v) : v.isError = false := by
  cases h <;> rfl

theorem add (hx : IsCollection k x) (hy : IsCollection k y) :
    IsCollection k (BinaryOp.add.apply x y) := by
  cases k with
  | array =>
    cases hx
    cases hy
    exact .array _
  | map =>
    cases hx with | map hm =>
    cases hy with | map hn =>
    exact .map (DataMap.wellFormed_overlay hm hn)
  | set =>
    cases hx with | set hs =>
    cases hy with | set ht =>
    exact .set (DataSet.wellFormed_union hs ht)
  | changer =>
    cases hx
    cases hy
    exact .changer _
  | text =>
    obtain ⟨a, ha, -⟩ := hx.text?
    obtain ⟨b, hb, -⟩ := hy.text?
    exact add_text ha hb ▸ .string (a ++ b)

theorem add_assoc (hx : IsCollection k x) (hy : IsCollection k y) (hz : IsCollection k z) :
    BinaryOp.add.apply (BinaryOp.add.apply x y) z =
      BinaryOp.add.apply x (BinaryOp.add.apply y z) := by
  cases k with
  | array =>
    cases hx with | array a =>
    cases hy with | array b =>
    cases hz with | array c =>
    exact congrArg Value.array (List.append_assoc a b c)
  | map =>
    cases hx with | map hm =>
    cases hy with | map hn =>
    cases hz with | map ho =>
    exact congrArg Value.map (DataMap.overlay_assoc hm hn ho)
  | set =>
    cases hx with | set hs =>
    cases hy with | set ht =>
    cases hz with | set hu =>
    exact congrArg Value.set (DataSet.union_assoc hs ht hu)
  | changer =>
    cases hx with | changer a =>
    cases hy with | changer b =>
    cases hz with | changer c =>
    exact congrArg Value.changer (List.append_assoc a b c)
  | text =>
    obtain ⟨a, ha, -⟩ := hx.text?
    obtain ⟨b, hb, -⟩ := hy.text?
    obtain ⟨c, hc, -⟩ := hz.text?
    rw [add_text ha hb, add_text hb hc, add_text rfl hc, add_text ha rfl, String.append_assoc]

end IsCollection

end Value

end StoryScript
