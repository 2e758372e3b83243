/-
  The references that an expression records.

  Evaluating a reference makes the value it leads to `it`, so that an assignment can use the old
  value of its destination. A plain read is not meant to do that: the reference behind it is
  evaluated without recording it, and so is a reference that a property is read of. Parentheses undo
  this. The object of `($a)'s b` is evaluated like anything in parentheses, and `$a` is recorded.

  Which references are recorded can be told from the expression. In compiled code without
  comparisons and assignments they all stand in parentheses as the object of a property.
-/
import Mathlib
import StoryScript.Proofs.Expr.Referencing

namespace StoryScript

/-! ## What is evaluated along with an expression -/

namespace Expr

mutual

/-- The parts of an expression that are evaluated along with it: all but what is inside calls and in
the bodies of lambda clauses. -/
def surface : Expr → List Expr
  | ref object property => ref object property :: (placeSurface object ++ propertySurface property)
  | get e => get e :: surface e
  | not e => not e :: surface e
  | group e => group e :: surface e
  | binary lhs op rhs => binary lhs op rhs :: (surface lhs ++ surface rhs)
  | assign dest src op => assign dest src op :: (surface dest ++ surface src)
  | lambda subject clause => lambda subject clause :: subjectSurface subject
  | call callee args => [call callee args]
  | empty => [empty]
  | number value => [number value]
  | string value => [string value]
  | boolean value => [boolean value]
  | colour code => [colour code]
  | it => [it]
  | time => [time]
  | hooks name => [hooks name]
  | error kind message => [error kind message]

/-- The parts evaluated at the start of a reference. -/
def placeSurface : Place Expr → List Expr
  | .story | .temp => []
  | .of e => surface e

/-- The parts evaluated for a property name. -/
def propertySurface : Property Expr → List Expr
  | .name _ => []
  | .computed e => surface e

/-- The parts evaluated for the subject of a lambda clause. -/
def subjectSurface : Subject Expr → List Expr
  | .implicit | .param _ => []
  | .of e => surface e

end

/-- Whether an expression is a comparison or an assignment. -/
def comparesOrAssigns : Expr → Bool
  | binary _ op _ => op.isComparison
  | assign .. => true
  | _ => false

/-- There is neither a comparison nor an assignment in the expression, outside calls and the bodies
of lambda clauses. -/
def OnlyReads (e : Expr) : Prop :=
  ∀ p ∈ e.surface, p.comparesOrAssigns = false

instance : DecidablePred OnlyReads := fun e =>
  inferInstanceAs (Decidable (∀ p ∈ e.surface, p.comparesOrAssigns = false))

/-- The reference that an expression is, perhaps in parentheses. -/
def innerRef? : Expr → Option Expr
  | ref object property => some (ref object property)
  | group e => innerRef? e
  | _ => none

/-- The reference that stands in parentheses as the object of a property. -/
def groupedObject? : Expr → Option Expr
  | ref (.of (group e)) _ => e.innerRef?
  | _ => none

/-- The references that stand in parentheses as the objects of properties. -/
def groupedObjects (e : Expr) : List Expr :=
  e.surface.filterMap groupedObject?

mutual

/-- The references that evaluating an expression records. -/
def recorded (record : Bool) : Expr → List Expr
  | ref object property =>
    (if record then [ref object property] else []) ++
      (placeRecorded object ++ propertyRecorded property)
  | get e => recorded false e
  | not e => recorded true e
  | group e => recorded true e
  | binary lhs _ rhs => recorded true lhs ++ recorded true rhs
  | assign dest src _ => recorded true dest ++ recorded true src
  | lambda subject _ => subjectRecorded subject
  | call .. | empty | number _ | string _ | boolean _ | colour _ | it | time | hooks _ => []
  | error .. => []

/-- The references recorded at the start of a reference. -/
def placeRecorded : Place Expr → List Expr
  | .story | .temp => []
  | .of e => recorded false e

/-- The references recorded for a property name. -/
def propertyRecorded : Property Expr → List Expr
  | .name _ => []
  | .computed e => recorded true e

/-- The references recorded for the subject of a lambda clause. -/
def subjectRecorded : Subject Expr → List Expr
  | .implicit | .param _ => []
  | .of e => recorded true e

end

/-! ## What compiled code records -/

theorem append_subset_append {α : Type} {l₁ l₂ l₁' l₂' : List α} (h : l₁ ⊆ l₁') (h' : l₂ ⊆ l₂') :
    l₁ ++ l₂ ⊆ l₁' ++ l₂' :=
  List.append_subset.2
    ⟨List.subset_append_of_subset_left _ h, List.subset_append_of_subset_right _ h'⟩

/-- The references in an expression with one operand are those in the operand. -/
theorem groupedObjects_of_operand {e outer : Expr} (hsurface : outer.surface = outer :: e.surface)
    (houter : outer.groupedObject? = none) : outer.groupedObjects = e.groupedObjects := by
  rw [groupedObjects, hsurface, List.filterMap_cons_none houter]
  rfl

theorem groupedObjects_binary (lhs : Expr) (op : BinaryOp) (rhs : Expr) :
    (binary lhs op rhs).groupedObjects = lhs.groupedObjects ++ rhs.groupedObjects := by
  rw [groupedObjects, surface, List.filterMap_cons_none rfl, List.filterMap_append]
  rfl

/-- The references that stand in parentheses as the objects of properties in a property name. -/
def keyObjects (property : Property Expr) : List Expr :=
  (propertySurface property).filterMap groupedObject?

theorem groupedObjects_property (e : Expr) (property : Property Expr) :
    (get (ref (.of e) property)).groupedObjects =
      (groupedObject? (ref (.of e) property)).toList ++
        (e.groupedObjects ++ keyObjects property) := by
  rw [@groupedObjects_of_operand (ref (.of e) property) _ rfl rfl, groupedObjects, surface,
    List.filterMap_cons, List.filterMap_append]
  cases groupedObject? (ref (.of e) property) <;> rfl

theorem Dereferences.groupedObjects_eq {e e' : Expr} (h : Dereferences e e') :
    e'.groupedObjects = e.groupedObjects := by
  induction h with
  | plain => rfl
  | ref => exact groupedObjects_of_operand rfl rfl
  | @group e e' inner ih =>
    calc (Expr.group e').groupedObjects
        = e'.groupedObjects := groupedObjects_of_operand rfl rfl
      _ = e.groupedObjects := ih
      _ = (Expr.group e).groupedObjects := (groupedObjects_of_operand rfl rfl).symm

theorem Dereferences.onlyReads {e e' : Expr} (h : Dereferences e e') (he : e.OnlyReads) :
    e'.OnlyReads := by
  induction h with
  | plain => exact he
  | ref => exact List.forall_mem_cons.2 ⟨rfl, he⟩
  | group inner ih =>
    rw [OnlyReads, surface, List.forall_mem_cons] at he ⊢
    exact ⟨rfl, ih he.2⟩

/-- Whether a reference is recorded matters to a reference only. -/
theorem recorded_of_isPlain {e : Expr} (h : e.isPlain = true) :
    e.recorded false = e.recorded true := by
  cases e
  case ref | get | group => simp [isPlain] at h
  all_goals rfl

/-- An expression records what the value behind it records, and itself if it is a reference. -/
theorem Dereferences.recorded_subset {e e' : Expr} (h : Dereferences e e') :
    e.recorded true ⊆ e.innerRef?.toList ++ e'.recorded true := by
  induction h with
  | plain => exact List.subset_append_right _ _
  | ref => exact List.Subset.refl _
  | group inner ih => exact ih

/-- As the object of a property, an expression records what the value behind it records, and if it
is a reference in parentheses, that one. -/
theorem Dereferences.placeRecorded_subset {e e' : Expr} (h : Dereferences e e')
    (property : Property Expr) :
    placeRecorded (.of e) ⊆
      (groupedObject? (.ref (.of e) property)).toList ++ e'.recorded true := by
  cases h with
  | plain he =>
    rw [placeRecorded, recorded_of_isPlain he]
    exact List.subset_append_right _ _
  | ref => exact List.Subset.refl _
  | group inner => exact inner.recorded_subset

/-- If the expression only reads, it records no references but those that stand in parentheses as
the objects of properties. -/
def RecordsGrouped (e : Expr) : Prop :=
  e.OnlyReads → e.recorded true ⊆ e.groupedObjects

theorem recordsGrouped_of_nil {e : Expr} (h : e.recorded true = []) : e.RecordsGrouped := by
  intro _
  rw [h]
  exact List.nil_subset _

section

variable {e e' lhs rhs : Expr}

/-- An expression with one operand records what the operand does. -/
theorem RecordsGrouped.of_operand {outer : Expr} (h : e.RecordsGrouped)
    (hsurface : outer.surface = outer :: e.surface)
    (hrecorded : outer.recorded true = e.recorded true) (houter : outer.groupedObject? = none) :
    outer.RecordsGrouped := by
  intro hreads
  rw [OnlyReads, hsurface, List.forall_mem_cons] at hreads
  rw [hrecorded, groupedObjects_of_operand hsurface houter]
  exact h hreads.2

theorem RecordsGrouped.binary (hl : lhs.RecordsGrouped) (hr : rhs.RecordsGrouped) (op : BinaryOp) :
    (binary lhs op rhs).RecordsGrouped := by
  intro hreads
  rw [OnlyReads, surface, List.forall_mem_cons, List.forall_mem_append] at hreads
  rw [recorded, groupedObjects_binary]
  exact append_subset_append (hl hreads.2.1) (hr hreads.2.2)

theorem RecordsGrouped.comparison (hl : lhs.RecordsGrouped) (hr : rhs.RecordsGrouped) (op : Token) :
    (comparison lhs op rhs).value.RecordsGrouped := by
  rw [Expr.comparison]
  split
  · exact recordsGrouped_of_nil rfl
  · cases op.negate with
    | true => exact (hl.binary hr _).of_operand rfl rfl rfl
    | false => exact hl.binary hr _

theorem RecordsGrouped.lambda (h : e.RecordsGrouped) (left : List Token) (clause : Clause Expr) :
    (lambda (subjectOf left e) clause).RecordsGrouped := by
  unfold subjectOf
  split
  · exact recordsGrouped_of_nil rfl
  · split
    · exact recordsGrouped_of_nil rfl
    · exact h.of_operand rfl rfl rfl
  · exact h.of_operand rfl rfl rfl

theorem RecordsGrouped.leftOr {absent : Expr} (habsent : absent.RecordsGrouped)
    (h : e.RecordsGrouped) (left : List Token) : (leftOr absent left e).RecordsGrouped := by
  unfold Expr.leftOr
  split
  · exact habsent
  · exact h

/-- What a property records that is looked up in what `e` denotes. -/
theorem RecordsGrouped.property (h : e'.RecordsGrouped) (hderef : Dereferences e e')
    {property : Property Expr}
    (hkey : (∀ p ∈ propertySurface property, p.comparesOrAssigns = false) →
      propertyRecorded property ⊆ keyObjects property) :
    (reference (.of e) property false).RecordsGrouped := by
  intro hreads
  have hparts : e.OnlyReads ∧
      ∀ p ∈ propertySurface property, p.comparesOrAssigns = false := by
    rw [reference, if_neg Bool.false_ne_true, OnlyReads, surface, List.forall_mem_cons, surface,
      List.forall_mem_cons, List.forall_mem_append] at hreads
    exact hreads.2.2
  show placeRecorded (.of e) ++ propertyRecorded property ⊆ _
  rw [reference, if_neg Bool.false_ne_true, groupedObjects_property, ← List.append_assoc]
  refine append_subset_append ?_ (hkey hparts.2)
  refine List.Subset.trans (hderef.placeRecorded_subset property) ?_
  rw [← hderef.groupedObjects_eq]
  exact append_subset_append (List.Subset.refl _) (h (hderef.onlyReads hparts.1))

end

theorem recordsGrouped_ofLeaf (t : Token) : (ofLeaf t false).value.RecordsGrouped := by
  refine recordsGrouped_of_nil ?_
  simp only [ofLeaf]
  split
  all_goals first
    | rfl
    | (dsimp only [Noted.value_pure]; split <;> rfl)
    | (rw [notCode]; split <;> rfl)

/-- Compiled code that only reads records no references but those that stand in parentheses as the
objects of properties. -/
theorem Compiles.recordsGrouped {run : List Token} {e : Bool → Expr} (h : Compiles run e) :
    (e false).RecordsGrouped := by
  have hit : RecordsGrouped .it := recordsGrouped_of_nil rfl
  induction h with
  | empty | malformed | call => exact recordsGrouped_of_nil rfl
  | leaf => exact recordsGrouped_ofLeaf _
  | group _ _ ih => exact ih.of_operand rfl rfl rfl
  | assignTo | assignInto | augment =>
    -- an assignment is a part of itself
    intro hreads
    rw [OnlyReads, surface, List.forall_mem_cons] at hreads
    cases hreads.1
  | lambda _ _ _ ihSubject => exact ihSubject.lambda _ _
  | logic _ _ _ _ ihl ihr => exact ihl.binary ihr _
  | lendRight _ _ _ _ _ ihl ihr => exact ihl.binary (hit.comparison ihr _) _
  | lendLeft _ _ _ _ _ ihl ihr => exact ihr.binary (hit.comparison ihl _) _
  | compare _ _ _ ihl ihr => exact (hit.leftOr ihl _).comparison ihr _
  | arithmetic _ _ _ _ ihl ihr =>
    exact ((recordsGrouped_of_nil rfl).leftOr ihl _).binary ihr _
  | not _ _ ih => exact ih.of_operand rfl rfl rfl
  | property _ object ih | belongingProperty _ object ih =>
    exact ih.property object.dereferences fun _ => List.nil_subset _
  | itsProperty => exact hit.property (.plain rfl) fun _ => List.nil_subset _
  | possessive _ object _ ihObject ihKey => exact ihObject.property object.dereferences ihKey
  | belonging _ _ object ihKey ihObject => exact ihObject.property object.dereferences ihKey
  | its _ _ ihKey => exact hit.property (.plain rfl) ihKey
  | belongingIt _ _ ihKey => exact hit.property (.plain rfl) ihKey

end Expr

end StoryScript
