/-
  Lambdas are built from clauses in any order.

  A clause is attached to a lambda if the lambda has none of its kind yet and no two of its variables
  have one name afterwards. The names are compared anew after each clause, and an error stays. Here
  this is related to a condition on all the clauses together, which does not depend on their order:
  no two are of one kind, and no two of the names are the same as lambdas compare names. If it holds,
  the lambda has each clause as it was given, and nothing else.
-/
import Mathlib
import StoryScript.Lambda

namespace StoryScript

/-- The kinds of clauses of a lambda. -/
inductive ClauseKind where
  | whereBody
  | viaBody
  | withName
  | makingName
  deriving DecidableEq

namespace Clause

/-- The kind of a clause. -/
def kind : Clause Expr → ClauseKind
  | whereBody _ => .whereBody
  | viaBody _ => .viaBody
  | withName _ => .withName
  | makingName _ => .makingName

/-- The variable that a clause names, if it names one. -/
def names : Clause Expr → List String
  | withName name | makingName name => [name]
  | whereBody _ | viaBody _ => []

end Clause

namespace Lambda

open ScriptError

/-! ## The clauses of a lambda -/

/-- The clause of a kind. -/
def clause? (l : Lambda) : ClauseKind → Option (Clause Expr)
  | .whereBody => l.whereBody.map .whereBody
  | .viaBody => l.viaBody.map .viaBody
  | .withName => l.withName.map .withName
  | .makingName => l.makingName.map .makingName

/-- The lambda with a clause put in, in place of another of its kind. -/
def put (l : Lambda) : Clause Expr → Lambda
  | .whereBody body => { l with whereBody := some body }
  | .viaBody body => { l with viaBody := some body }
  | .withName name => { l with withName := some name }
  | .makingName name => { l with makingName := some name }

theorem loopName_put (l : Lambda) (c : Clause Expr) : (l.put c).loopName = l.loopName := by
  cases c <;> rfl

theorem clause?_put (l : Lambda) (c : Clause Expr) (kind : ClauseKind) :
    (l.put c).clause? kind = if c.kind = kind then some c else l.clause? kind := by
  cases c <;> cases kind <;> rfl

/-- Clauses of different kinds can be put in in any order. -/
theorem put_comm (l : Lambda) {c d : Clause Expr} (h : c.kind ≠ d.kind) :
    (l.put c).put d = (l.put d).put c := by
  cases c <;> cases d <;> first | rfl | exact absurd rfl h

/-- A clause of a kind that is not there adds its name to those of the lambda. -/
theorem names_put {l : Lambda} {c : Clause Expr} (h : l.clause? c.kind = none) :
    (l.put c).names.Perm (l.names ++ c.names) := by
  cases c with
  | whereBody body | viaBody body =>
    simp only [Clause.names, List.append_nil]
    exact .refl _
  | withName name =>
    have hnone : l.withName = none := Option.map_eq_none_iff.1 h
    simp only [names, put, hnone, Clause.names, Option.toList_some, Option.toList_none,
      List.append_nil, List.append_assoc]
    exact List.perm_append_comm.append_left _
  | makingName name =>
    have hnone : l.makingName = none := Option.map_eq_none_iff.1 h
    simp only [names, put, hnone, Clause.names, Option.toList_some, Option.toList_none,
      List.append_nil]
    exact .refl _

/-! ## One clause -/

/-- No two of the names are the same as lambdas compare them. -/
def NamesDiffer (names : List String) : Prop :=
  (names.map foldedName).Nodup

instance (names : List String) : Decidable (NamesDiffer names) :=
  inferInstanceAs (Decidable (names.map foldedName).Nodup)

theorem namesDiffer_congr {names names' : List String} (h : names.Perm names') :
    NamesDiffer names ↔ NamesDiffer names' :=
  (h.map foldedName).nodup_iff

theorem repeatedName?_eq_none_iff {seen : List (List Char)} {names : List String} :
    repeatedName? seen names = none ↔
      NamesDiffer names ∧ ∀ name ∈ names, foldedName name ∉ seen := by
  induction names generalizing seen with
  | nil => simp [repeatedName?, NamesDiffer]
  | cons name rest ih =>
    rw [repeatedName?]
    split
    · rename_i hseen
      have hmem : foldedName name ∈ seen := by simpa using hseen
      simp [hmem]
    · rename_i hseen
      have hmem : foldedName name ∉ seen := by simpa using hseen
      -- a later name must differ from this one and from those seen before
      rw [ih]
      simp only [NamesDiffer, List.map_cons, List.nodup_cons, List.mem_map, List.mem_cons,
        forall_eq_or_imp, not_or]
      constructor
      · rintro ⟨hrest, hlater⟩
        refine ⟨⟨?_, hrest⟩, hmem, fun other hother => (hlater other hother).2⟩
        rintro ⟨other, hother, heq⟩
        exact (hlater other hother).1 heq
      · rintro ⟨⟨hfirst, hrest⟩, -, hlater⟩
        exact ⟨hrest, fun other hother => ⟨fun heq => hfirst ⟨other, hother, heq⟩,
          hlater other hother⟩⟩

theorem addClause_of_none {l : Lambda} {c : Clause Expr} (h : l.clause? c.kind = none) :
    l.addClause c = .ok (l.put c) := by
  cases c <;> simp_all [clause?, Clause.kind, addClause, fill, put, bind, Except.bind, pure,
    Except.pure]

theorem addClause_of_some {l : Lambda} {c d : Clause Expr} (h : l.clause? c.kind = some d) :
    ∃ word, l.addClause c = .error (repeatedClause word) := by
  cases c <;> obtain ⟨_, hslot, -⟩ := Option.map_eq_some_iff.1 h <;>
    exact ⟨_, by simp only [addClause, hslot]; rfl⟩

/-- When a clause is attached, and what the lambda is then. -/
theorem extend_eq_ok_iff {l l' : Lambda} {c : Clause Expr} :
    l.extend c = .ok l' ↔
      l.clause? c.kind = none ∧ NamesDiffer (l.names ++ c.names) ∧ l' = l.put c := by
  cases hslot : l.clause? c.kind with
  | some d =>
    obtain ⟨word, hword⟩ := addClause_of_some hslot
    simp [extend, hword, bind, Except.bind]
  | none =>
    rw [← namesDiffer_congr (names_put hslot)]
    have hrepeated : repeatedName? [] (l.put c).names = none ↔ NamesDiffer (l.put c).names := by
      simp [repeatedName?_eq_none_iff]
    simp only [extend, addClause_of_none hslot, bind, Except.bind]
    cases hname : repeatedName? [] (l.put c).names with
    | some name =>
      have hdiffer : ¬NamesDiffer (l.put c).names := by simp [← hrepeated, hname]
      simp [hdiffer, throw, throwThe, MonadExceptOf.throw]
    | none =>
      have hdiffer : NamesDiffer (l.put c).names := hrepeated.1 hname
      simp [hdiffer, pure, Except.pure, eq_comm]

/-- A clause that is not attached is malformed code. -/
theorem kind_of_extend {l : Lambda} {c : Clause Expr} {e : ScriptError} (h : l.extend c = .error e) :
    e.kind = .malformed := by
  cases hslot : l.clause? c.kind with
  | some d =>
    obtain ⟨word, hword⟩ := addClause_of_some hslot
    simp only [extend, hword, bind, Except.bind, Except.error.injEq] at h
    rw [← h]
    rfl
  | none =>
    simp only [extend, addClause_of_none hslot, bind, Except.bind] at h
    split at h
    · simp only [throw, throwThe, MonadExceptOf.throw, Except.error.injEq] at h
      rw [← h]
      rfl
    · cases h

/-! ## One clause after the other -/

theorem loopName_foldl_put (l : Lambda) (clauses : List (Clause Expr)) :
    (clauses.foldl put l).loopName = l.loopName := by
  induction clauses generalizing l with
  | nil => rfl
  | cons c rest ih => rw [List.foldl_cons, ih, loopName_put]

/-- Of clauses of different kinds, each stays as it was put in. -/
theorem clause?_foldl_put {l : Lambda} {clauses : List (Clause Expr)}
    (h : (clauses.map Clause.kind).Nodup) (kind : ClauseKind) :
    (clauses.foldl put l).clause? kind = (clauses.find? (·.kind = kind)).or (l.clause? kind) := by
  induction clauses generalizing l with
  | nil => rfl
  | cons c rest ih =>
    obtain ⟨hfirst, hrest⟩ := List.nodup_cons.1 h
    rw [List.foldl_cons, ih hrest, clause?_put, List.find?_cons]
    by_cases hkind : c.kind = kind
    · -- no later clause is of this kind
      have hlater : rest.find? (·.kind = kind) = none := by
        refine List.find?_eq_none.2 fun d hd hdkind => hfirst ?_
        exact List.mem_map.2 ⟨d, hd, (of_decide_eq_true hdkind).trans hkind.symm⟩
      simp [hkind, hlater]
    · simp [hkind]

/-- The order in which clauses of different kinds are put in makes no difference. -/
theorem foldl_put_perm (l : Lambda) {clauses clauses' : List (Clause Expr)}
    (hperm : clauses.Perm clauses') (h : (clauses.map Clause.kind).Nodup) :
    clauses.foldl put l = clauses'.foldl put l := by
  refine hperm.foldl_eq' (fun c hc d hd l => ?_) l
  by_cases hkind : c.kind = d.kind
  · rw [List.inj_on_of_nodup_map h hc hd hkind]
  · exact l.put_comm hkind

/-- When clauses are attached one after the other, and what the lambda is then. -/
theorem foldlM_extend_eq_ok_iff {l l' : Lambda} {clauses : List (Clause Expr)}
    (hl : NamesDiffer l.names) :
    clauses.foldlM extend l = .ok l' ↔
      ((clauses.map Clause.kind).Nodup ∧ ∀ c ∈ clauses, l.clause? c.kind = none) ∧
      NamesDiffer (l.names ++ clauses.flatMap Clause.names) ∧ l' = clauses.foldl put l := by
  induction clauses generalizing l with
  | nil => simp [hl, pure, Except.pure, eq_comm]
  | cons c rest ih =>
    have hnames (hslot : l.clause? c.kind = none) :
        NamesDiffer ((l.put c).names ++ rest.flatMap Clause.names) ↔
          NamesDiffer (l.names ++ (c :: rest).flatMap Clause.names) := by
      rw [List.flatMap_cons, ← List.append_assoc]
      exact namesDiffer_congr ((names_put hslot).append_right _)
    have hslots : (∀ d ∈ rest, (l.put c).clause? d.kind = none) ↔
        (∀ d ∈ rest, c.kind ≠ d.kind) ∧ ∀ d ∈ rest, l.clause? d.kind = none := by
      rw [← forall₂_and]
      refine forall₂_congr fun d _ => ?_
      rw [clause?_put]
      split <;> simp_all
    have hkinds : ((c :: rest).map Clause.kind).Nodup ↔
        (∀ d ∈ rest, c.kind ≠ d.kind) ∧ (rest.map Clause.kind).Nodup := by
      simp [eq_comm]
    rw [List.foldlM_cons, hkinds, List.forall_mem_cons, List.foldl_cons]
    constructor
    · intro h
      cases hstep : l.extend c with
      | error e =>
        rw [hstep] at h
        cases h
      | ok mid =>
        rw [hstep] at h
        obtain ⟨hslot, hdiffer, rfl⟩ := extend_eq_ok_iff.1 hstep
        have hmid := (namesDiffer_congr (names_put hslot)).2 hdiffer
        obtain ⟨⟨hrest, hfree⟩, hall, hresult⟩ := (ih hmid).1 h
        obtain ⟨hother, hfree⟩ := hslots.1 hfree
        exact ⟨⟨⟨hother, hrest⟩, hslot, hfree⟩, (hnames hslot).1 hall, hresult⟩
    · rintro ⟨⟨⟨hother, hrest⟩, hslot, hfree⟩, hall, hresult⟩
      -- the names so far differ, being some of all the names
      have hdiffer : NamesDiffer (l.names ++ c.names) := by
        refine List.Nodup.sublist (List.Sublist.map foldedName ?_) hall
        rw [List.flatMap_cons, ← List.append_assoc]
        exact List.sublist_append_left _ _
      have hmid := (namesDiffer_congr (names_put hslot)).2 hdiffer
      rw [extend_eq_ok_iff.2 ⟨hslot, hdiffer, rfl⟩]
      exact (ih hmid).2 ⟨⟨hrest, hslots.2 ⟨hother, hfree⟩⟩, (hnames hslot).2 hall, hresult⟩

theorem kind_of_foldlM_extend {l : Lambda} {clauses : List (Clause Expr)} {e : ScriptError}
    (h : clauses.foldlM extend l = .error e) : e.kind = .malformed := by
  induction clauses generalizing l with
  | nil => cases h
  | cons c rest ih =>
    rw [List.foldlM_cons] at h
    cases hstep : l.extend c with
    | error e' =>
      rw [hstep] at h
      obtain rfl : e' = e := Except.error.inj h
      exact kind_of_extend hstep
    | ok mid =>
      rw [hstep] at h
      exact ih h

/-! ## Subjects -/

/-- The subject that clauses are first attached to: a loop variable or nothing. -/
def start : Option String → Subject Value
  | none => .implicit
  | some name => .param name

/-- Attaches clauses one after the other, each to what came of those before it. -/
def attachAll (subject : Subject Value) (clauses : List (Clause Expr)) : Subject Value :=
  clauses.foldl (fun subject c => .of (create subject c)) subject

theorem ofSubject_create (subject : Subject Value) (c : Clause Expr) :
    ofSubject (.of (create subject c)) = ofSubject subject >>= (extend · c) := by
  unfold create
  cases ofSubject subject >>= (extend · c) <;> rfl

/-- Once there is an error, it is what every further clause is attached to. -/
theorem ofSubject_attachAll (subject : Subject Value) (clauses : List (Clause Expr)) :
    ofSubject (attachAll subject clauses) =
      ofSubject subject >>= fun l => clauses.foldlM extend l := by
  induction clauses generalizing subject with
  | nil =>
    show ofSubject subject = _
    cases ofSubject subject <;> rfl
  | cons c rest ih =>
    show ofSubject (attachAll (.of (create subject c)) rest) = _
    rw [ih, ofSubject_create]
    cases ofSubject subject <;> rfl

/-- What comes of one clause or more is a lambda or an error. -/
theorem attachAll_of_ne_nil (subject : Subject Value) {clauses : List (Clause Expr)}
    (h : clauses ≠ []) :
    (∀ l, ofSubject (attachAll subject clauses) = .ok l →
      attachAll subject clauses = .of (.lambda l)) ∧
    ∀ e, ofSubject (attachAll subject clauses) = .error e →
      attachAll subject clauses = .of (.error e) := by
  obtain ⟨before, c, rfl⟩ := (List.eq_nil_or_concat clauses).resolve_left h
  have hlast : attachAll subject (before.concat c) =
      .of (create (attachAll subject before) c) := by
    simp [attachAll]
  rw [hlast, ofSubject_create]
  constructor
  · intro l hl
    rw [create, hl]
  · intro e he
    rw [create, he]

/-- Clauses that make a lambda together: no two are of one kind, and the variable before them and
those that they name differ. -/
structure Composable (loop : Option String) (clauses : List (Clause Expr)) : Prop where
  kinds : (clauses.map Clause.kind).Nodup
  names : NamesDiffer (loop.toList ++ clauses.flatMap Clause.names)

theorem Composable.perm {loop : Option String} {clauses clauses' : List (Clause Expr)}
    (h : Composable loop clauses) (hperm : clauses.Perm clauses') : Composable loop clauses' where
  kinds := (hperm.map Clause.kind).nodup_iff.1 h.kinds
  names := (namesDiffer_congr ((hperm.flatMap_right Clause.names).append_left _)).1 h.names

/-- The clauses before which there is at most a loop variable. -/
theorem ofSubject_attachAll_start (loop : Option String) (clauses : List (Clause Expr)) :
    ofSubject (attachAll (start loop) clauses) = clauses.foldlM extend { loopName := loop } := by
  rw [ofSubject_attachAll]
  cases loop <;> rfl

theorem attachAll_eq_ok_iff {loop : Option String} {clauses : List (Clause Expr)} {l : Lambda} :
    ofSubject (attachAll (start loop) clauses) = .ok l ↔
      Composable loop clauses ∧ l = clauses.foldl put { loopName := loop } := by
  have hempty : ∀ kind, clause? { loopName := loop } kind = none := by
    intro kind
    cases kind <;> rfl
  have hloop : names { loopName := loop } = loop.toList := by simp [names]
  have hdiffer : NamesDiffer (names { loopName := loop }) := by
    rw [hloop]
    cases loop <;> simp [NamesDiffer]
  rw [ofSubject_attachAll_start, foldlM_extend_eq_ok_iff hdiffer, hloop]
  constructor
  · rintro ⟨⟨hkinds, -⟩, hnames, hl⟩
    exact ⟨⟨hkinds, hnames⟩, hl⟩
  · rintro ⟨h, hl⟩
    exact ⟨⟨h.kinds, fun c _ => hempty c.kind⟩, h.names, hl⟩

end Lambda

open Lambda in
/-- Clauses attached one after the other to a loop variable, or to nothing, make a lambda if and only
if no two are of one kind and the names of the variables differ without regard to case, hyphens and
underscores; otherwise they make an error for malformed code. If they make a lambda, they make the
same one in every order; its variable is the one before the clauses, and its clauses are those that
were given. -/
theorem lambda_of_clauses (loop : Option String) (clauses : List (Clause Expr)) :
    ((∃ l, ofSubject (attachAll (start loop) clauses) = .ok l) ↔ Composable loop clauses) ∧
    (¬Composable loop clauses →
      ∃ e, attachAll (start loop) clauses = .of (.error e) ∧ e.kind = .malformed) ∧
    ∀ l, ofSubject (attachAll (start loop) clauses) = .ok l →
      (clauses ≠ [] → attachAll (start loop) clauses = .of (.lambda l)) ∧
      (∀ clauses', clauses.Perm clauses' →
        ofSubject (attachAll (start loop) clauses') = .ok l) ∧
      l.loopName = loop ∧ ∀ kind, l.clause? kind = clauses.find? (·.kind = kind) := by
  refine ⟨?_, ?_, ?_⟩
  · constructor
    · rintro ⟨l, hl⟩
      exact (attachAll_eq_ok_iff.1 hl).1
    · intro h
      exact ⟨_, attachAll_eq_ok_iff.2 ⟨h, rfl⟩⟩
  · intro h
    have hne : clauses ≠ [] := by
      rintro rfl
      refine h ⟨.nil, ?_⟩
      cases loop <;> simp [NamesDiffer]
    cases hresult : ofSubject (attachAll (start loop) clauses) with
    | ok l => exact absurd (attachAll_eq_ok_iff.1 hresult).1 h
    | error e =>
      refine ⟨e, (attachAll_of_ne_nil _ hne).2 e hresult, ?_⟩
      rw [ofSubject_attachAll_start] at hresult
      exact kind_of_foldlM_extend hresult
  · intro l hl
    obtain ⟨h, rfl⟩ := attachAll_eq_ok_iff.1 hl
    refine ⟨fun hne => (attachAll_of_ne_nil _ hne).1 _ hl, fun clauses' hperm => ?_,
      loopName_foldl_put _ _, fun kind => ?_⟩
    · exact attachAll_eq_ok_iff.2 ⟨h.perm hperm, foldl_put_perm _ hperm h.kinds⟩
    · rw [clause?_foldl_put h.kinds]
      cases kind <;> exact Option.or_none

/-- The clauses of `_item making _Total via _Total with _other`, whose names differ. -/
def totalClauses : List (Clause Expr) :=
  [.makingName "Total", .viaBody (.get (.ref .temp (.name "Total"))), .withName "other"]

open Lambda in
/-- The clauses make the same lambda in reverse, with the body as it was given. A second name that
differs from the loop variable by case and hyphens only makes an error. -/
theorem lambda_of_clauses_total :
    Composable (some "item") totalClauses ∧
    (∃ l, attachAll (start (some "item")) totalClauses = .of (.lambda l) ∧
      ofSubject (attachAll (start (some "item")) totalClauses.reverse) = .ok l ∧
      l.clause? .viaBody = some (.viaBody (.get (.ref .temp (.name "Total"))))) ∧
    ¬Composable (some "to-tal") totalClauses ∧
    ∃ e, attachAll (start (some "to-tal")) totalClauses = .of (.error e) ∧
      e.kind = .malformed := by
  have hgood : Composable (some "item") totalClauses := ⟨by decide, by decide +kernel⟩
  have hclash : ¬Composable (some "to-tal") totalClauses := by
    rintro ⟨-, hnames⟩
    exact absurd hnames (by decide +kernel)
  obtain ⟨hiff, -, hall⟩ := lambda_of_clauses (some "item") totalClauses
  obtain ⟨l, hl⟩ := hiff.2 hgood
  obtain ⟨hvalue, hperm, -, hclause⟩ := hall l hl
  refine ⟨hgood, ⟨l, hvalue (by simp [totalClauses]), hperm _ (List.reverse_perm _).symm, ?_⟩,
    hclash, (lambda_of_clauses (some "to-tal") totalClauses).2.1 hclash⟩
  rw [hclause]
  rfl

end StoryScript
