/-
  Equality of values is a partial equivalence.

  Datasets are compared by size and one-way containment, datamaps by size and one-way
  lookup. That this is symmetric is a matter of counting: no two values of a dataset
  have a common partner, so if each has a partner in a dataset of the same size, every
  value of the other one is a partner. The argument needs symmetry and transitivity one
  level down, so the two are proved together. Only NaN, references and assignments keep
  a value from being equal to itself.
-/
import Mathlib
import StoryScript.Proofs.Data.Entries
import StoryScript.Proofs.Expr.Sameness
import StoryScript.Proofs.Value.Comparison

namespace StoryScript

/-! ## Counting partners -/

/-- If each element of a list has a partner in a list of the same length, and no two have one in
common, then each element of the other list is a partner. -/
theorem exists_partner {α β : Type} {R : α → β → Prop} {xs : List α} {ys : List β}
    (hlength : xs.length = ys.length) (hpartner : ∀ x ∈ xs, ∃ y ∈ ys, R x y)
    (hapart : xs.Pairwise fun a b => ∀ y ∈ ys, R a y → ¬R b y) : ∀ y ∈ ys, ∃ x ∈ xs, R x y := by
  induction xs generalizing ys with
  | nil =>
    rw [List.length_nil, eq_comm, List.length_eq_zero_iff] at hlength
    simp [hlength]
  | cons x xs ih =>
    obtain ⟨y, hy, hxy⟩ := hpartner x List.mem_cons_self
    obtain ⟨hx, hxs⟩ := List.pairwise_cons.1 hapart
    obtain ⟨before, after, rfl⟩ := List.append_of_mem hy
    -- with `y` taken by `x`, the others find their partners among the rest
    have hrest : ∀ z ∈ before ++ after, ∃ x ∈ xs, R x z := by
      apply ih
      · simp only [List.length_cons, List.length_append] at hlength ⊢
        omega
      · intro x' hx'
        obtain ⟨z, hz, hxz⟩ := hpartner x' (List.mem_cons_of_mem x hx')
        have hne : z ≠ y := fun h => hx x' hx' y hy hxy (h ▸ hxz)
        exact ⟨z, by simpa [hne] using hz, hxz⟩
      · refine hxs.imp fun h z hz => h z ?_
        simp only [List.mem_append, List.mem_cons] at hz ⊢
        tauto
    intro z hz
    by_cases hzy : z = y
    · exact ⟨x, List.mem_cons_self, hzy ▸ hxy⟩
    · obtain ⟨x', hx', hxz⟩ := hrest z (by simpa [hzy] using hz)
      exact ⟨x', List.mem_cons_of_mem x hx', hxz⟩

/-! ## Relations one level down

Nothing is known about the relation but what holds at one element, whatever place it has in a chain
of two steps. So much is true of a list as soon as it is true of the members of the list. -/

/-- An element at which a relation can be reversed, and through which it can be carried on, among
the elements with a property. -/
structure CoherentIn {α : Type} (R : α → α → Prop) (P : α → Prop) (a : α) : Prop where
  symm : ∀ {b}, P b → (R a b ↔ R b a)
  first : ∀ {b c}, P b → P c → R a b → R b c → R a c
  middle : ∀ {b c}, P b → P c → R b a → R a c → R b c
  last : ∀ {b c}, P b → P c → R b c → R c a → R b a

namespace CoherentIn

variable {α : Type} {R : α → α → Prop} {P : α → Prop}

/-- If the relation is symmetric and transitive, every element will do. -/
theorem of_equiv (hsymm : ∀ a b, R a b → R b a) (htrans : ∀ a b c, R a b → R b c → R a c)
    (a : α) : CoherentIn R P a where
  symm _ := ⟨hsymm _ _, hsymm _ _⟩
  first _ _ := htrans _ _ _
  middle _ _ := htrans _ _ _
  last _ _ := htrans _ _ _

theorem mono {Q : α → Prop} {a : α} (h : CoherentIn R P a) (hQ : ∀ b, Q b → P b) :
    CoherentIn R Q a where
  symm hb := h.symm (hQ _ hb)
  first hb hc := h.first (hQ _ hb) (hQ _ hc)
  middle hb hc := h.middle (hQ _ hb) (hQ _ hc)
  last hb hc := h.last (hQ _ hb) (hQ _ hc)

theorem comap {β : Type} {f : β → α} {b : β} (h : CoherentIn R P (f b)) :
    CoherentIn (fun x y => R (f x) (f y)) (fun x => P (f x)) b :=
  ⟨h.symm, h.first, h.middle, h.last⟩

theorem flip {a : α} (h : CoherentIn R P a) : CoherentIn (fun x y => R y x) P a where
  symm hb := (h.symm hb).symm
  first hb hc hab hbc := h.last hc hb hbc hab
  middle hb hc hba hac := h.middle hc hb hac hba
  last hb hc hbc hca := h.first hc hb hca hbc

/-- Lists compared place by place. -/
theorem forall₂ {xs : List α} (h : ∀ x ∈ xs, CoherentIn R P x) :
    CoherentIn (List.Forall₂ R) (fun ys => ∀ y ∈ ys, P y) xs := by
  have hsymm {xs ys : List α} (hxy : List.Forall₂ R xs ys)
      (hstep : ∀ x ∈ xs, ∀ y ∈ ys, R x y → R y x) : List.Forall₂ R ys xs := by
    induction hxy with
    | nil => exact .nil
    | cons hxy _ ih =>
      simp only [List.forall_mem_cons] at hstep
      exact .cons (hstep.1.1 hxy) (ih fun x hx => (hstep.2 x hx).2)
  have htrans {xs ys zs : List α} (hxy : List.Forall₂ R xs ys) (hyz : List.Forall₂ R ys zs)
      (hstep : ∀ x ∈ xs, ∀ y ∈ ys, ∀ z ∈ zs, R x y → R y z → R x z) : List.Forall₂ R xs zs := by
    induction hxy generalizing zs with
    | nil => exact hyz
    | cons hxy _ ih =>
      obtain _ | ⟨hyz, htail⟩ := hyz
      simp only [List.forall_mem_cons] at hstep
      exact .cons (hstep.1.1.1 hxy hyz) (ih htail fun x hx y hy => ((hstep.2 x hx).2 y hy).2)
  constructor
  · intro ys hys
    exact ⟨fun hxy => hsymm hxy fun x hx y hy => ((h x hx).symm (hys y hy)).1,
      fun hyx => hsymm hyx fun y hy x hx => ((h x hx).symm (hys y hy)).2⟩
  · intro ys zs hys hzs hxy hyz
    exact htrans hxy hyz fun x hx y hy z hz => (h x hx).first (hys y hy) (hzs z hz)
  · intro ys zs hys hzs hyx hxz
    exact htrans hyx hxz fun y hy x hx z hz => (h x hx).middle (hys y hy) (hzs z hz)
  · intro ys zs hys hzs hyz hzx
    exact htrans hyz hzx fun y hy z hz x hx => (h x hx).last (hys y hy) (hzs z hz)

end CoherentIn

/-- Whether each element of a list has a partner in a list of the same length. -/
def Matched {α : Type} (R : α → α → Prop) (xs ys : List α) : Prop :=
  xs.length = ys.length ∧ ∀ x ∈ xs, ∃ y ∈ ys, R x y

/-- Whether no two elements of a list are partners of each other. -/
def Apart {α : Type} (R : α → α → Prop) (xs : List α) : Prop :=
  xs.Pairwise fun a b => ¬(R a b ∧ R b a)

/-- Lists compared in any order. -/
theorem CoherentIn.matched {α : Type} {R : α → α → Prop} {P : α → Prop} {xs : List α}
    (h : ∀ x ∈ xs, CoherentIn R P x) (hxs : ∀ x ∈ xs, P x) (apart : Apart R xs) :
    CoherentIn (Matched R) (fun ys => (∀ y ∈ ys, P y) ∧ Apart R ys) xs := by
  constructor
  · rintro ys ⟨hys, apart'⟩
    constructor
    · rintro ⟨hlength, hpartner⟩
      refine ⟨hlength.symm, fun y hy => ?_⟩
      -- two elements with a common partner would be partners of each other
      have hcommon : xs.Pairwise fun a b => ∀ y ∈ ys, R a y → ¬R b y := by
        refine apart.imp_of_mem fun {a b} ha hb hab y hy hay hby => hab ⟨?_, ?_⟩
        · exact (h a ha).first (hys y hy) (hxs b hb) hay (((h b hb).symm (hys y hy)).1 hby)
        · exact (h b hb).first (hys y hy) (hxs a ha) hby (((h a ha).symm (hys y hy)).1 hay)
      obtain ⟨x, hx, hxy⟩ := exists_partner hlength hpartner hcommon y hy
      exact ⟨x, hx, ((h x hx).symm (hys y hy)).1 hxy⟩
    · rintro ⟨hlength, hpartner⟩
      refine ⟨hlength.symm, fun x hx => ?_⟩
      have hcommon : ys.Pairwise fun a b => ∀ x ∈ xs, R a x → ¬R b x := by
        refine apart'.imp_of_mem fun {a b} ha hb hab x hx hax hbx => hab ⟨?_, ?_⟩
        · exact (h x hx).middle (hys a ha) (hys b hb) hax (((h x hx).symm (hys b hb)).2 hbx)
        · exact (h x hx).middle (hys b hb) (hys a ha) hbx (((h x hx).symm (hys a ha)).2 hax)
      obtain ⟨y, hy, hyx⟩ := exists_partner hlength hpartner hcommon x hx
      exact ⟨y, hy, ((h x hx).symm (hys y hy)).2 hyx⟩
  · rintro ys zs ⟨hys, -⟩ ⟨hzs, -⟩ ⟨hlength, hxy⟩ ⟨hlength', hyz⟩
    refine ⟨hlength.trans hlength', fun x hx => ?_⟩
    obtain ⟨y, hy, hxy⟩ := hxy x hx
    obtain ⟨z, hz, hyz⟩ := hyz y hy
    exact ⟨z, hz, (h x hx).first (hys y hy) (hzs z hz) hxy hyz⟩
  · rintro ys zs ⟨hys, -⟩ ⟨hzs, -⟩ ⟨hlength, hyx⟩ ⟨hlength', hxz⟩
    refine ⟨hlength.trans hlength', fun y hy => ?_⟩
    obtain ⟨x, hx, hyx⟩ := hyx y hy
    obtain ⟨z, hz, hxz⟩ := hxz x hx
    exact ⟨z, hz, (h x hx).middle (hys y hy) (hzs z hz) hyx hxz⟩
  · rintro ys zs ⟨hys, -⟩ ⟨hzs, -⟩ ⟨hlength, hyz⟩ ⟨hlength', hzx⟩
    refine ⟨hlength.trans hlength', fun y hy => ?_⟩
    obtain ⟨z, hz, hyz⟩ := hyz y hy
    obtain ⟨x, hx, hzx⟩ := hzx z hz
    exact ⟨x, hx, (h x hx).last (hys y hy) (hzs z hz) hyz hzx⟩

/-! ## Lambdas -/

namespace Lambda

/-- Whether no number in the bodies of a lambda is NaN. -/
def isNumeric (l : Lambda) : Bool :=
  l.whereBody.all Expr.isNumeric && l.viaBody.all Expr.isNumeric

theorem sameBody_self {a : Option Expr} (h : a.all Expr.isNumeric = true) :
    same.sameBody a a = true := by
  cases a with
  | none => rfl
  | some a => exact Expr.same_self h

theorem sameBody_symm {a b : Option Expr} (h : same.sameBody a b = true) :
    same.sameBody b a = true := by
  cases a <;> cases b
  case none.none => rfl
  case some.some => exact Expr.same_symm h
  all_goals exact absurd h Bool.false_ne_true

theorem sameBody_trans {a b c : Option Expr} (hab : same.sameBody a b = true)
    (hbc : same.sameBody b c = true) : same.sameBody a c = true := by
  cases a <;> cases b <;> cases c
  case none.none.none => rfl
  case some.some.some => exact Expr.same_trans hab hbc
  all_goals first | exact absurd hab Bool.false_ne_true | exact absurd hbc Bool.false_ne_true

theorem same_iff {l m : Lambda} : l.same m = true ↔
    (l.loopName = m.loopName ∧ l.withName = m.withName ∧ l.makingName = m.makingName) ∧
      same.sameBody l.whereBody m.whereBody = true ∧ same.sameBody l.viaBody m.viaBody = true := by
  simp only [same, Bool.and_eq_true, beq_iff_eq, and_assoc]

theorem same_self {l : Lambda} (h : l.isNumeric = true) : l.same l = true := by
  obtain ⟨hwhere, hvia⟩ := Bool.and_eq_true_iff.1 h
  exact same_iff.2 ⟨⟨rfl, rfl, rfl⟩, sameBody_self hwhere, sameBody_self hvia⟩

theorem isNumeric_of_same {l : Lambda} (h : l.same l = true) : l.isNumeric = true := by
  have hbody {a : Option Expr} (ha : same.sameBody a a = true) : a.all Expr.isNumeric = true := by
    cases a with
    | none => rfl
    | some a => exact ((Expr.same_iff a a).1 ha).1
  obtain ⟨-, hwhere, hvia⟩ := same_iff.1 h
  exact Bool.and_eq_true_iff.2 ⟨hbody hwhere, hbody hvia⟩

theorem same_symm {l m : Lambda} (h : l.same m = true) : m.same l = true := by
  obtain ⟨⟨hloop, hwith, hmaking⟩, hwhere, hvia⟩ := same_iff.1 h
  exact same_iff.2
    ⟨⟨hloop.symm, hwith.symm, hmaking.symm⟩, sameBody_symm hwhere, sameBody_symm hvia⟩

theorem same_trans {l m n : Lambda} (hlm : l.same m = true) (hmn : m.same n = true) :
    l.same n = true := by
  obtain ⟨⟨hloop, hwith, hmaking⟩, hwhere, hvia⟩ := same_iff.1 hlm
  obtain ⟨⟨hloop', hwith', hmaking'⟩, hwhere', hvia'⟩ := same_iff.1 hmn
  exact same_iff.2 ⟨⟨hloop.trans hloop', hwith.trans hwith', hmaking.trans hmaking'⟩,
    sameBody_trans hwhere hwhere', sameBody_trans hvia hvia'⟩

end Lambda

namespace Value

/-- The keys of each datamap within a value have different slots, and the values of each dataset
differ. -/
inductive WellFormed : Value → Prop where
  | number (n : Number) : WellFormed (.number n)
  | string (s : String) : WellFormed (.string s)
  | boolean (b : Bool) : WellFormed (.boolean b)
  | colour (c : Colour) : WellFormed (.colour c)
  | lambda (l : Lambda) : WellFormed (.lambda l)
  | hooks (h : HookSet) : WellFormed (.hooks h)
  | ref (r : Reference Value) : WellFormed (.ref r)
  | assignment (a : Assignment Value) : WellFormed (.assignment a)
  | error (e : ScriptError) : WellFormed (.error e)
  | array {items : List Value} (members : ∀ v ∈ items, WellFormed v) : WellFormed (.array items)
  | map {entries : List (Key × Value)} {isSealed : Bool}
      (distinct : entries.Pairwise fun a b => a.1.alike b.1 = false)
      (members : ∀ entry ∈ entries, WellFormed entry.2) : WellFormed (.map ⟨entries, isSealed⟩)
  | set {items : List Value} (distinct : items.Pairwise fun a b => a.same b = false)
      (members : ∀ v ∈ items, WellFormed v) : WellFormed (.set ⟨items⟩)
  | changer {calls : List (ChangerCall Value)}
      (members : ∀ call ∈ calls, ∀ v ∈ call.params, WellFormed v) : WellFormed (.changer calls)

namespace WellFormed

theorem of_array {items : List Value} (h : (Value.array items).WellFormed) :
    ∀ v ∈ items, v.WellFormed := by
  cases h with | array members => exact members

theorem of_map {m : DataMap Value} (h : (Value.map m).WellFormed) :
    (m.entries.Pairwise fun a b => a.1.alike b.1 = false) ∧ ∀ e ∈ m.entries, e.2.WellFormed := by
  cases h with | map distinct members => exact ⟨distinct, members⟩

theorem of_set {s : DataSet Value} (h : (Value.set s).WellFormed) :
    (s.items.Pairwise fun a b => a.same b = false) ∧ ∀ v ∈ s.items, v.WellFormed := by
  cases h with | set distinct members => exact ⟨distinct, members⟩

theorem of_changer {calls : List (ChangerCall Value)} (h : (Value.changer calls).WellFormed) :
    ∀ call ∈ calls, ∀ v ∈ call.params, v.WellFormed := by
  cases h with | changer members => exact members

end WellFormed

/-- No number within a value is NaN, the bodies of lambdas included, nothing within it is a
reference or an assignment, and the keys of each datamap have different slots. NaN may stand as a
key, since as a key it is equal to itself. -/
inductive IsComparable : Value → Prop where
  | number {n : Number} (numeric : n.float.isNaN = false) : IsComparable (.number n)
  | string (s : String) : IsComparable (.string s)
  | boolean (b : Bool) : IsComparable (.boolean b)
  | colour (c : Colour) : IsComparable (.colour c)
  | lambda {l : Lambda} (numeric : l.isNumeric = true) : IsComparable (.lambda l)
  | hooks (h : HookSet) : IsComparable (.hooks h)
  | error (e : ScriptError) : IsComparable (.error e)
  | array {items : List Value} (members : ∀ v ∈ items, IsComparable v) :
      IsComparable (.array items)
  | map {entries : List (Key × Value)} {isSealed : Bool}
      (distinct : entries.Pairwise fun a b => a.1.alike b.1 = false)
      (members : ∀ entry ∈ entries, IsComparable entry.2) :
      IsComparable (.map ⟨entries, isSealed⟩)
  | set {items : List Value} (members : ∀ v ∈ items, IsComparable v) : IsComparable (.set ⟨items⟩)
  | changer {calls : List (ChangerCall Value)}
      (members : ∀ call ∈ calls, ∀ v ∈ call.params, IsComparable v) :
      IsComparable (.changer calls)

/-! ## Symmetry and transitivity -/

/-- A value at which equality can be reversed, and through which it can be carried on. -/
abbrev Coherent (a : Value) : Prop :=
  CoherentIn (fun a b => a.same b = true) WellFormed a

/-- Values of different kinds are never equal. -/
theorem sameKind_of_same {a b : Value} (h : a.same b = true) : a.sameKind b = true := by
  cases a <;> cases b <;> first | rfl | exact absurd h Bool.false_ne_true

/-- Values of one kind are coherent if what makes two of them equal is. -/
theorem coherent_of_kind {α : Type} {kind : α → Value} {R : α → α → Prop} {x : α}
    (hkind : ∀ x b, (kind x).sameKind b = true ∨ b.sameKind (kind x) = true → ∃ y, b = kind y)
    (hsame : ∀ x y, (kind x).same (kind y) = true ↔ R x y)
    (h : CoherentIn R (fun y => (kind y).WellFormed) x) : (kind x).Coherent := by
  have hright {x : α} {b : Value} (hab : (kind x).same b = true) : ∃ y, b = kind y :=
    hkind x b (.inl (sameKind_of_same hab))
  have hleft {x : α} {b : Value} (hba : b.same (kind x) = true) : ∃ y, b = kind y :=
    hkind x b (.inr (sameKind_of_same hba))
  refine ⟨fun hb => ⟨fun hab => ?_, fun hba => ?_⟩, fun hb hc hab hbc => ?_,
    fun hb hc hba hac => ?_, fun hb hc hbc hca => ?_⟩
  · obtain ⟨y, rfl⟩ := hright hab
    exact (hsame y x).2 ((h.symm hb).1 ((hsame x y).1 hab))
  · obtain ⟨y, rfl⟩ := hleft hba
    exact (hsame x y).2 ((h.symm hb).2 ((hsame y x).1 hba))
  · obtain ⟨y, rfl⟩ := hright hab
    obtain ⟨z, rfl⟩ := hright hbc
    exact (hsame x z).2 (h.first hb hc ((hsame x y).1 hab) ((hsame y z).1 hbc))
  · obtain ⟨y, rfl⟩ := hleft hba
    obtain ⟨z, rfl⟩ := hright hac
    exact (hsame y z).2 (h.middle hb hc ((hsame y x).1 hba) ((hsame x z).1 hac))
  · obtain ⟨z, rfl⟩ := hleft hca
    obtain ⟨y, rfl⟩ := hleft hbc
    exact (hsame y x).2 (h.last hb hc ((hsame y z).1 hbc) ((hsame z x).1 hca))

theorem coherent_array {items : List Value} (hitems : ∀ v ∈ items, v.Coherent) :
    (array items).Coherent := by
  refine coherent_of_kind (fun _ b h => ?_) (fun _ _ => same_array_iff)
    ((CoherentIn.forall₂ hitems).mono fun _ => WellFormed.of_array)
  cases b <;> simp_all [sameKind]

theorem coherentIn_call {call : ChangerCall Value} (hparams : ∀ v ∈ call.params, v.Coherent) :
    CoherentIn SameCall (fun c => ∀ v ∈ c.params, v.WellFormed) call := by
  have h := CoherentIn.forall₂ hparams
  refine ⟨fun hc => and_congr eq_comm (h.symm hc), fun hb hc hab hbc => ?_, fun hb hc hba hac => ?_,
    fun hb hc hbc hca => ?_⟩
  · exact ⟨hab.1.trans hbc.1, h.first hb hc hab.2 hbc.2⟩
  · exact ⟨hba.1.trans hac.1, h.middle hb hc hba.2 hac.2⟩
  · exact ⟨hbc.1.trans hca.1, h.last hb hc hbc.2 hca.2⟩

theorem coherent_changer {calls : List (ChangerCall Value)}
    (hcalls : ∀ call ∈ calls, ∀ v ∈ call.params, v.Coherent) : (changer calls).Coherent := by
  have h := CoherentIn.forall₂ fun call hcall => coherentIn_call (hcalls call hcall)
  refine coherent_of_kind (fun _ b h => ?_) (fun _ _ => same_changer_iff)
    (h.mono fun _ => WellFormed.of_changer)
  cases b <;> simp_all [sameKind]

theorem WellFormed.apart_set {s : DataSet Value} (h : (Value.set s).WellFormed) :
    Apart (fun v w => w.same v = true) s.items :=
  h.of_set.1.imp fun hab hboth => by simp [hboth.2] at hab

theorem coherent_set {s : DataSet Value} (formed : (set s).WellFormed)
    (hitems : ∀ v ∈ s.items, v.Coherent) : (set s).Coherent := by
  have h := CoherentIn.matched (fun v hv => (hitems v hv).flip) formed.of_set.2 formed.apart_set
  refine coherent_of_kind (fun _ b h => ?_) (fun _ _ => same_set_iff)
    (h.comap.mono fun _ formed' => ⟨formed'.of_set.2, formed'.apart_set⟩)
  cases b <;> simp_all [sameKind]

/-- Whether two entries have equal values and keys that a table with a number of entries takes for
one. -/
def SameEntry (size : Nat) (e e' : Key × Value) : Prop :=
  e.1.meets size e'.1 = true ∧ e.2.same e'.2 = true

theorem coherentIn_entry (size : Nat) {e : Key × Value} (h : e.2.Coherent) :
    CoherentIn (SameEntry size) (fun e' => e'.2.WellFormed) e where
  symm hb := and_congr ⟨Key.meets_symm, Key.meets_symm⟩ (h.symm hb)
  first hb hc hab hbc := ⟨Key.meets_trans hab.1 hbc.1, h.first hb hc hab.2 hbc.2⟩
  middle hb hc hba hac := ⟨Key.meets_trans hba.1 hac.1, h.middle hb hc hba.2 hac.2⟩
  last hb hc hbc hca := ⟨Key.meets_trans hbc.1 hca.1, h.last hb hc hbc.2 hca.2⟩

/-- Datamaps are equal if each entry of the first one has a partner in the second one. -/
theorem same_map_iff_matched {m n : DataMap Value} (formed : (map n).WellFormed) :
    (map m).same (map n) = true ↔ Matched (SameEntry n.size) m.entries n.entries := by
  rw [same_map_iff]
  refine and_congr_right fun _ => forall₂_congr fun e _ => ?_
  simp only [DataMap.get?_eq_some_iff formed.of_map.1, SameEntry]
  constructor
  · rintro ⟨_, ⟨e', hmem, hkey, rfl⟩, hsame⟩
    exact ⟨e', hmem, hkey, hsame⟩
  · rintro ⟨e', hmem, hkey, hsame⟩
    exact ⟨e'.2, ⟨e', hmem, hkey, rfl⟩, hsame⟩

theorem WellFormed.apart_map {m : DataMap Value} (h : (Value.map m).WellFormed) :
    Apart (SameEntry m.size) m.entries := by
  by_cases hsize : m.size = 1
  · obtain ⟨entry, hentry⟩ := DataMap.eq_singleton_of_size hsize
    rw [hentry]
    exact List.pairwise_singleton _ _
  · refine h.of_map.1.imp fun {a b} hab hboth => ?_
    have hkey := hboth.1.1
    rw [Key.meets, if_neg hsize, hab] at hkey
    exact Bool.noConfusion hkey

theorem coherent_map {m : DataMap Value} (formed : (map m).WellFormed)
    (hentries : ∀ e ∈ m.entries, e.2.Coherent) : (map m).Coherent := by
  have h := CoherentIn.matched (fun e he => coherentIn_entry m.size (hentries e he))
    formed.of_map.2 formed.apart_map
  -- equal datamaps have one size, so a single comparison of keys serves them all
  have hside {n : DataMap Value} (hn : (map n).WellFormed) (hsize : n.size = m.size) :
      (∀ e ∈ n.entries, e.2.WellFormed) ∧ Apart (SameEntry m.size) n.entries :=
    ⟨hn.of_map.2, hsize ▸ hn.apart_map⟩
  refine coherent_of_kind (R := fun m n => (map m).same (map n) = true) (fun _ b h => ?_)
    (fun _ _ => Iff.rfl) ?_
  · cases b <;> simp_all [sameKind]
  constructor
  · intro n hn
    rw [same_map_iff_matched hn, same_map_iff_matched formed]
    constructor
    · intro hmn
      have hsize : n.size = m.size := hmn.1.symm
      rw [hsize] at hmn
      exact (h.symm (hside hn hsize)).1 hmn
    · intro hnm
      have hsize : n.size = m.size := hnm.1
      rw [hsize]
      exact (h.symm (hside hn hsize)).2 hnm
  · intro n o hn ho hmn hno
    rw [same_map_iff_matched hn] at hmn
    rw [same_map_iff_matched ho] at hno ⊢
    have hn' : n.size = m.size := hmn.1.symm
    have ho' : o.size = m.size := hno.1.symm.trans hn'
    rw [hn'] at hmn
    rw [ho'] at hno ⊢
    exact h.first (hside hn hn') (hside ho ho') hmn hno
  · intro n o hn ho hnm hmo
    rw [same_map_iff_matched formed] at hnm
    rw [same_map_iff_matched ho] at hmo ⊢
    have hn' : n.size = m.size := hnm.1
    have ho' : o.size = m.size := hmo.1.symm
    rw [ho'] at hmo ⊢
    exact h.middle (hside hn hn') (hside ho ho') hnm hmo
  · intro n o hn ho hno hom
    rw [same_map_iff_matched formed] at hom ⊢
    rw [same_map_iff_matched ho] at hno
    have ho' : o.size = m.size := hom.1
    have hn' : n.size = m.size := hno.1.trans ho'
    rw [ho'] at hno
    exact h.last (hside hn hn') (hside ho ho') hno hom

theorem coherent_number (n : Number) : (number n).Coherent := by
  refine coherent_of_kind (fun _ b h => ?_) (fun _ _ => by rw [same_number])
    (CoherentIn.of_equiv (R := fun a b => (a == b) = true) (fun _ _ => Number.beq_symm)
      (fun _ _ _ => Number.beq_trans) n)
  cases b <;> simp_all [sameKind]

/-- A well-formed value is coherent. -/
theorem WellFormed.coherent {a : Value} (h : a.WellFormed) : a.Coherent := by
  induction h with
  | number n => exact coherent_number n
  | string | boolean | colour | error =>
    refine coherent_of_kind (R := Eq) (fun _ b h => ?_) (fun _ _ => by simp)
      (CoherentIn.of_equiv (fun _ _ h => h.symm) (fun _ _ _ h h' => h.trans h') _)
    cases b <;> simp_all [sameKind]
  | hooks h =>
    refine coherent_of_kind (R := fun x y => x.name = y.name) (fun _ b h => ?_)
      (fun _ _ => by simp) (CoherentIn.of_equiv (fun _ _ h => h.symm) (fun _ _ _ h h' => h.trans h') _)
    cases b <;> simp_all [sameKind]
  | lambda l =>
    refine coherent_of_kind (fun _ b h => ?_) (fun _ _ => by rw [same_lambda])
      (CoherentIn.of_equiv (R := fun l m => l.same m = true) (fun _ _ => Lambda.same_symm)
        (fun _ _ _ => Lambda.same_trans) l)
    cases b <;> simp_all [sameKind]
  | ref | assignment =>
    -- nothing is equal to these, so nothing is to be shown
    refine ⟨fun {b} _ => ?_, fun _ _ h => absurd h Bool.false_ne_true, fun {b} {c} _ _ h _ => ?_,
      fun {b} {c} _ _ _ h => ?_⟩
    · cases b <;> exact Iff.rfl
    · cases b <;> exact absurd h Bool.false_ne_true
    · cases c <;> exact absurd h Bool.false_ne_true
  | array _ ih => exact coherent_array ih
  | map distinct members ih => exact coherent_map (.map distinct members) ih
  | set distinct members ih => exact coherent_set (.set distinct members) ih
  | changer _ ih => exact coherent_changer ih

/-! ## Reflexivity -/

/-- Without NaN, references and assignments a value is equal to itself. -/
theorem IsComparable.same_self {v : Value} (h : v.IsComparable) : v.same v = true := by
  induction h with
  | number numeric => rw [same_number, Number.beq_self numeric]
  | lambda numeric => rw [same_lambda, Lambda.same_self numeric]
  | string | boolean | colour | hooks | error => simp
  | array _ ih => exact same_array_iff.2 (List.forall₂_same.2 ih)
  | @map entries isSealed distinct _ ih =>
    exact same_map_iff.2 ⟨rfl, fun e he => ⟨e.2, DataMap.get?_of_mem distinct he, ih e he⟩⟩
  | set _ ih => exact same_set_iff.2 ⟨rfl, fun v hv => ⟨v, hv, ih v hv⟩⟩
  | changer _ ih =>
    exact same_changer_iff.2
      (List.forall₂_same.2 fun call hcall => ⟨rfl, List.forall₂_same.2 (ih call hcall)⟩)

/-- A well-formed value with an equal is equal to itself. -/
theorem WellFormed.same_self {a b : Value} (ha : a.WellFormed) (hb : b.WellFormed)
    (h : a.same b = true) : a.same a = true :=
  ha.coherent.first hb ha h ((ha.coherent.symm hb).1 h)

/-- Nothing but NaN, references and assignments keeps a well-formed value from being equal to
itself. -/
theorem WellFormed.isComparable {v : Value} (h : v.WellFormed) (hself : v.same v = true) :
    v.IsComparable := by
  induction h with
  | number n =>
    rw [same_number] at hself
    exact .number (Number.beq_iff_plain.1 hself).1
  | lambda l =>
    rw [same_lambda] at hself
    exact .lambda (Lambda.isNumeric_of_same hself)
  | string s => exact .string s
  | boolean b => exact .boolean b
  | colour c => exact .colour c
  | hooks h => exact .hooks h
  | error e => exact .error e
  | ref | assignment => exact absurd hself Bool.false_ne_true
  | array _ ih =>
    rw [same_array_iff, List.forall₂_same] at hself
    exact .array fun v hv => ih v hv (hself v hv)
  | @map entries isSealed distinct members ih =>
    obtain ⟨-, hpartner⟩ := (same_map_iff_matched (.map distinct members)).1 hself
    refine .map distinct fun e he => ih e he ?_
    -- an entry may have found another one equal, which makes it equal to itself all the same
    obtain ⟨e', he', -, hsame⟩ := hpartner e he
    exact (members e he).same_self (members e' he') hsame
  | set distinct members ih =>
    obtain ⟨-, hpartner⟩ := same_set_iff.1 hself
    refine .set fun v hv => ih v hv ?_
    obtain ⟨w, hw, hsame⟩ := hpartner v hv
    exact (members v hv).same_self (members w hw)
      (((members v hv).coherent.symm (members w hw)).2 hsame)
  | changer _ ih =>
    rw [same_changer_iff, List.forall₂_same] at hself
    exact .changer fun call hcall v hv => ih call hcall v hv
      (List.forall₂_same.1 (hself call hcall).2 v hv)

end Value

/-- Among values whose datasets have distinct values and whose datamaps have distinct keys, equality
is symmetric and transitive. A value whose datamaps have distinct keys is equal to itself if it
holds no NaN, reference or assignment, and among the former values no other is. -/
theorem partialEquivalence_same :
    (∀ a b : Value, a.WellFormed → b.WellFormed → a.same b = true → b.same a = true) ∧
    (∀ a b c : Value, a.WellFormed → b.WellFormed → c.WellFormed → a.same b = true →
      b.same c = true → a.same c = true) ∧
    (∀ a : Value, a.IsComparable → a.same a = true) ∧
    (∀ a : Value, a.WellFormed → a.same a = true → a.IsComparable) :=
  ⟨fun _ _ ha hb => (ha.coherent.symm hb).1, fun _ _ _ ha hb hc => ha.coherent.first hb hc,
    fun _ h => h.same_self, fun _ h => h.isComparable⟩

/-- A dataset of a dataset and a datamap. -/
def nestedSet : Value :=
  .set ⟨[.set ⟨[.string "x", .string "y"]⟩,
    .map ⟨[(.string "k", .boolean true), (.number 1, .string "v")], false⟩]⟩

/-- The same, every collection in another order. -/
def shuffledSet : Value :=
  .set ⟨[.map ⟨[(.number 1, .string "v"), (.string "k", .boolean true)], true⟩,
    .set ⟨[.string "y", .string "x"]⟩]⟩

theorem wellFormed_nestedSet : nestedSet.WellFormed := by
  refine .set (by decide) ?_
  simp only [List.forall_mem_cons, List.not_mem_nil, false_implies, implies_true, and_true]
  refine ⟨.set (by decide) ?_, .map (by decide) ?_⟩
  · simp [Value.WellFormed.string]
  · simp [Value.WellFormed.string, Value.WellFormed.boolean]

theorem wellFormed_shuffledSet : shuffledSet.WellFormed := by
  refine .set (by decide) ?_
  simp only [List.forall_mem_cons, List.not_mem_nil, false_implies, implies_true, and_true]
  refine ⟨.map (by decide) ?_, .set (by decide) ?_⟩
  · simp [Value.WellFormed.string, Value.WellFormed.boolean]
  · simp [Value.WellFormed.string]

theorem partialEquivalence_same_shuffledSet :
    (nestedSet.WellFormed ∧ shuffledSet.WellFormed ∧ nestedSet.same shuffledSet = true) ∧
    shuffledSet.same nestedSet = true ∧ shuffledSet.same shuffledSet = true ∧
    shuffledSet.IsComparable := by
  have hsame : nestedSet.same shuffledSet = true := by decide
  obtain ⟨symm, trans, self, comparable⟩ := partialEquivalence_same
  have hnested := wellFormed_nestedSet
  have hshuffled := wellFormed_shuffledSet
  have hback := symm nestedSet shuffledSet hnested hshuffled hsame
  have hself := trans _ _ _ hshuffled hnested hshuffled hback hsame
  exact ⟨⟨hnested, hshuffled, hsame⟩, hback, self _ (comparable _ hshuffled hself),
    comparable _ hshuffled hself⟩

end StoryScript
