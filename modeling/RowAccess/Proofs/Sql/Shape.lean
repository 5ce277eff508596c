import Mathlib.Data.List.Forall2
import RowAccess.Proofs.Keyed
import RowAccess.Proofs.Outcome
import RowAccess.Proofs.Sql.Form

/-
  RowAccess/Proofs/Sql/Shape.lean
  ===============================
  **Operations of one shape** name the same tables and columns, take the same steps in the same order
  and differ only in texts, numbers and bytes, and in how many rows they ask for.  They are refused
  for one reason, or their statements have one form (`Statement.form_built`).
-/

namespace RowAccess

/-- Texts, numbers and bytes. -/
def Value.isScalar : Value → Bool
  | .text _ | .int _ | .float _ | .bytes _ => true
  | _ => false

/-- Scalars, or the same value. -/
inductive Value.Alike : Value → Value → Prop
  | scalars {v w : Value} (hv : v.isScalar = true) (hw : w.isScalar = true) : Alike v w
  | same (v : Value) : Alike v v

/-- Clauses that differ in scalars only.  A list that begins with a list is the same in both. -/
inductive Clause.SameShape : Clause → Clause → Prop
  | same (c : Clause) : SameShape c c
  | comparison (column : Value) (comparator : Comparator) {v w : Value} (h : v.Alike w) :
    SameShape (.comparison ⟨column, comparator, v⟩) (.comparison ⟨column, comparator, w⟩)
  | like (column : Value) {v w : Value} (h : v.Alike w) :
    SameShape (.like ⟨column, v⟩) (.like ⟨column, w⟩)
  | membership (column : Value) {v w : Value} {vs ws : List Value} (hfirst : v.Alike w)
    (hrest : List.Forall₂ Value.Alike vs ws) (hflat : Sql.Piece.isRows (v :: vs) = false) :
    SameShape (.membership ⟨column, v, vs⟩) (.membership ⟨column, w, ws⟩)
  | range (column : Value) {low low' high high' : Value} (hlow : low.Alike low')
    (hhigh : high.Alike high') :
    SameShape (.range ⟨column, low, high⟩) (.range ⟨column, low', high'⟩)

theorem Clause.SameShape.column_eq {c c' : Clause} (h : c.SameShape c') : c.column = c'.column := by
  cases h <;> rfl

/-- Steps that differ in scalars only, or in the number of rows that they ask for. -/
inductive Step.SameShape : Step → Step → Prop
  | same (s : Step) : SameShape s s
  | starter (kind : StarterKind) {c c' : Clause} (h : c.SameShape c') :
    SameShape (.starter ⟨kind, c⟩) (.starter ⟨kind, c'⟩)
  | andWhere {c c' : Clause} (h : c.SameShape c') : SameShape (.andWhere c) (.andWhere c')
  | orWhere {c c' : Clause} (h : c.SameShape c') : SameShape (.orWhere c) (.orWhere c')
  | orWhereIn {c c' : Clause} (h : c.SameShape c') : SameShape (.orWhereIn c) (.orWhereIn c')
  | limit {v w : Value} {m n : Int} (hv : Sql.countOfValue v = .ok (some m))
    (hw : Sql.countOfValue w = .ok (some n)) : SameShape (.limit v) (.limit w)

/-- Records of the same columns whose values are alike. -/
abbrev SameColumns (record record' : Fields) : Prop :=
  List.Forall₂ (fun e e' => e.1 = e'.1 ∧ e.2.Alike e'.2) record record'

/-- Filtered reads, insertions, updates and deletions that differ in scalars only, or in the number
of rows that they ask for. -/
inductive Operation.SameShape : Operation → Operation → Prop
  | filteredScan (table : Value) {steps steps' : List Step}
    (h : List.Forall₂ Step.SameShape steps steps') :
    SameShape (.filteredScan table steps) (.filteredScan table steps')
  | insert (table idColumn : Value) {record record' : Fields} (h : SameColumns record record') :
    SameShape (.insert table record idColumn) (.insert table record' idColumn)
  | update (table : Value) {c c' : Clause} {record record' : Fields} (hc : c.SameShape c')
    (h : SameColumns record record') :
    SameShape (.update table c record) (.update table c' record')
  | delete (table : Value) {c c' : Clause} (h : c.SameShape c') :
    SameShape (.delete table c) (.delete table c')

end RowAccess

namespace RowAccess.Sql

open Outcome

namespace Predicate

/-- Values that are alike are refused for one reason or give operands of one form. -/
theorem form_ofValue {v w : Value} (h : v.Alike w) :
    (Operand.ofValue v).form = (Operand.ofValue w).form := by
  cases h with
  | same => rfl
  | scalars hv hw =>
    have hbound {v : Value} (hv : v.isScalar = true) :
        (Operand.ofValue v).form = .bound .plain .null := by
      cases v <;> first | rfl | cases hv
    rw [hbound hv, hbound hw]

theorem map_eq_of_alike {α : Type} {f : Value → α} (hf : ∀ {v w : Value}, v.Alike w → f v = f w)
    {vs ws : List Value} (h : List.Forall₂ Value.Alike vs ws) : vs.map f = ws.map f := by
  induction h with
  | nil => rfl
  | cons hvw _ ih => rw [List.map_cons, List.map_cons, hf hvw, ih]

/-- A check of names looks at the operands only to see whether one of them is bound. -/
theorem checkNamed_form (column : Value) (operands : List Operand) :
    checkNamed column (operands.map Operand.form) = checkNamed column operands := by
  have hbound : (operands.map Operand.form).any Operand.isBound = operands.any Operand.isBound := by
    rw [List.any_map]
    congr 1
    funext o
    exact o.isBound_form
  unfold checkNamed
  rw [hbound]

theorem map_form_ofValue {vs ws : List Value} (h : List.Forall₂ Value.Alike vs ws) :
    (vs.map Operand.ofValue).map Operand.form = (ws.map Operand.ofValue).map Operand.form := by
  rw [List.map_map, List.map_map]
  exact map_eq_of_alike form_ofValue h

theorem checkNamed_alike (column : Value) {vs ws : List Value} (h : List.Forall₂ Value.Alike vs ws) :
    checkNamed column (vs.map .ofValue) = checkNamed column (ws.map .ofValue) := by
  rw [← checkNamed_form, map_form_ofValue h, checkNamed_form]

theorem ofComparison_scalar (column : Value) (comparator : Comparator) {v : Value}
    (hv : v.isScalar = true) :
    ofComparison ⟨column, comparator, v⟩ = (do
      checkNamed column [.ofValue v]
      return .compare (nameOf column) (.of comparator) (.ofValue v)) := by
  cases v <;> first | cases comparator <;> rfl | cases hv

theorem ofLike_scalar (column : Value) {v : Value} (hv : v.isScalar = true) :
    ofLike ⟨column, v⟩ = (do
      checkNamed column [.ofValue v]
      return .like false (nameOf column) (.ofValue v)) := by
  cases v <;> first | rfl | cases hv

theorem form_ofComparison (column : Value) (comparator : Comparator) {v w : Value}
    (h : v.Alike w) :
    (ofComparison ⟨column, comparator, v⟩).map form =
      (ofComparison ⟨column, comparator, w⟩).map form := by
  cases h with
  | same => rfl
  | scalars hv hw =>
    have halike := Value.Alike.scalars hv hw
    have hcheck := checkNamed_alike column (.cons halike .nil)
    rw [ofComparison_scalar _ _ hv, ofComparison_scalar _ _ hw]
    simp only [List.map_cons, List.map_nil] at hcheck
    rw [hcheck]
    cases checkNamed column [.ofValue w] with
    | error u => rfl
    | ok _ => exact congrArg (fun o => Except.ok (Predicate.compare _ _ o)) (form_ofValue halike)

theorem form_ofLike (column : Value) {v w : Value} (h : v.Alike w) :
    (ofLike ⟨column, v⟩).map form = (ofLike ⟨column, w⟩).map form := by
  cases h with
  | same => rfl
  | scalars hv hw =>
    have halike := Value.Alike.scalars hv hw
    have hcheck := checkNamed_alike column (.cons halike .nil)
    rw [ofLike_scalar _ hv, ofLike_scalar _ hw]
    simp only [List.map_cons, List.map_nil] at hcheck
    rw [hcheck]
    cases checkNamed column [.ofValue w] with
    | error u => rfl
    | ok _ => exact congrArg (fun o => Except.ok (Predicate.like _ _ o)) (form_ofValue halike)

theorem form_ofRange (column : Value) {low low' high high' : Value} (hlow : low.Alike low')
    (hhigh : high.Alike high') :
    (ofRange ⟨column, low, high⟩).map form = (ofRange ⟨column, low', high'⟩).map form := by
  have hcheck := checkNamed_alike column (.cons hlow (.cons hhigh .nil))
  simp only [List.map_cons, List.map_nil] at hcheck
  unfold ofRange
  rw [hcheck]
  cases checkNamed column [.ofValue low', .ofValue high'] with
  | error u => rfl
  | ok _ =>
    show Except.ok (Predicate.between _ _ (Operand.ofValue low).form (Operand.ofValue high).form) =
      .ok (.between _ _ (Operand.ofValue low').form (Operand.ofValue high').form)
    rw [form_ofValue hlow, form_ofValue hhigh]

theorem alike_bindable {v w : Value} (h : v.Alike w) : (bindable v).Alike (bindable w) := by
  cases h with
  | same => exact .same _
  | scalars hv hw =>
    have hscalar {v : Value} (hv : v.isScalar = true) : (bindable v).isScalar = true := by
      cases v <;> first | rfl | cases hv
    exact .scalars (hscalar hv) (hscalar hw)

theorem isVerbatim_alike {v w : Value} (h : v.Alike w) : isVerbatim v = isVerbatim w := by
  cases h with
  | same => rfl
  | scalars hv hw =>
    have hnot {v : Value} (hv : v.isScalar = true) : isVerbatim v = false := by
      cases v <;> first | rfl | cases hv
    rw [hnot hv, hnot hw]

theorem isKey_alike {v w : Value} (h : v.Alike w) : v.isKey = w.isKey := by
  cases h with
  | same => rfl
  | scalars hv hw =>
    have hkey {v : Value} (hv : v.isScalar = true) : v.isKey = true := by
      cases v <;> first | rfl | cases hv
    rw [hkey hv, hkey hw]

theorem isRows_alike {v w : Value} (h : v.Alike w) (vs ws : List Value) :
    Piece.isRows (v :: vs) = Piece.isRows (w :: ws) := by
  cases h with
  | same => cases v <;> rfl
  | scalars hv hw =>
    have hnot {v : Value} (hv : v.isScalar = true) (vs : List Value) :
        Piece.isRows (v :: vs) = false := by
      cases v <;> first | rfl | cases hv
    rw [hnot hv, hnot hw]

theorem isRows_bindable (v : Value) (vs : List Value) :
    Piece.isRows ((v :: vs).map bindable) = Piece.isRows (v :: vs) := by
  cases v with
  | dateLiteral l =>
    simp only [List.map_cons, bindable]
    split <;> rfl
  | _ => rfl

theorem listForm_alike {v w : Value} {vs ws : List Value} (hfirst : v.Alike w)
    (hrest : List.Forall₂ Value.Alike vs ws) (hflat : Piece.isRows (v :: vs) = false) :
    listForm (v :: vs) = listForm (w :: ws) := by
  have hflat' : Piece.isRows (w :: ws) = false := (isRows_alike hfirst vs ws).symm.trans hflat
  simp only [listForm, hflat, hflat', Bool.false_eq_true, if_false]
  exact map_eq_of_alike (fun _ => rfl) (.cons hfirst hrest)

theorem form_ofMembership (column : Value) {v w : Value} {vs ws : List Value}
    (hfirst : v.Alike w) (hrest : List.Forall₂ Value.Alike vs ws)
    (hflat : Piece.isRows (v :: vs) = false) :
    (ofMembership ⟨column, v, vs⟩).map form = (ofMembership ⟨column, w, ws⟩).map form := by
  have hrest' : List.Forall₂ Value.Alike (vs.map bindable) (ws.map bindable) := by
    rw [List.forall₂_map_left_iff, List.forall₂_map_right_iff]
    exact hrest.imp fun _ _ => alike_bindable
  have hvalues : List.Forall₂ Value.Alike ((v :: vs).map bindable) ((w :: ws).map bindable) :=
    .cons (alike_bindable hfirst) hrest'
  have hverbatim : ((v :: vs).map bindable).any isVerbatim =
      ((w :: ws).map bindable).any isVerbatim := by
    have hmap := congrArg (List.any · id) (map_eq_of_alike isVerbatim_alike hvalues)
    simpa only [List.any_map, Function.id_comp] using hmap
  have hkeys : ((v :: vs).map bindable).all Value.isKey =
      ((w :: ws).map bindable).all Value.isKey := by
    have hmap := congrArg (List.all · id) (map_eq_of_alike isKey_alike hvalues)
    simpa only [List.all_map, Function.id_comp] using hmap
  have hlist : listForm ((v :: vs).map bindable) = listForm ((w :: ws).map bindable) :=
    listForm_alike (alike_bindable hfirst) hrest' ((isRows_bindable v vs).trans hflat)
  unfold ofMembership
  simp only [Membership.values, hverbatim, hkeys, checkNamed_alike column hvalues]
  by_cases hany : ((w :: ws).map bindable).any isVerbatim = true
  · by_cases hall : ((w :: ws).map bindable).all Value.isKey = true
    · simp only [hany, hall, Bool.not_true, Bool.false_eq_true, if_true, if_false]
      cases checkNamed column (((w :: ws).map bindable).map .ofValue) with
      | error u => rfl
      | ok _ =>
        exact congrArg (fun os => Except.ok (Predicate.oneOf false _ (.apart os)))
          (map_form_ofValue hvalues)
    · simp only [hany, hall, Bool.not_false, if_true]
      rfl
  · have hbound (p : Preparation) (v : Value) :
        checkNamed column [.bound p v] = checkNamed column [.bound .plain .null] := rfl
    simp only [hany, Bool.false_eq_true, if_false, hbound]
    cases checkNamed column [.bound .plain .null] with
    | error u => rfl
    | ok _ =>
      exact congrArg (fun vs => Except.ok (Predicate.oneOf false _ (.together .plain vs))) hlist

theorem form_ofClause {c c' : Clause} (h : c.SameShape c') :
    (ofClause c).map form = (ofClause c').map form := by
  cases h with
  | same => rfl
  | comparison column comparator h => exact form_ofComparison column comparator h
  | like column h => exact form_ofLike column h
  | membership column hfirst hrest hflat => exact form_ofMembership column hfirst hrest hflat
  | range column hlow hhigh => exact form_ofRange column hlow hhigh

end Predicate

/-! ## Statements of one form -/

variable {backendSchema : Option String}

namespace Condition

section Steps

variable {before before' : Option Condition} (hbefore : before.map form = before'.map form)

include hbefore

theorem form_joined (combine : Condition → Condition → Condition)
    (hcombine : ∀ c d, (combine c d).form = combine c.form d.form) {c c' : Clause}
    (h : c.SameShape c') :
    (do return some (join combine before (← Predicate.ofClause c)) :
      Except Unbuildable (Option Condition)).map (Option.map form) =
        (do return some (join combine before' (← Predicate.ofClause c')) :
          Except Unbuildable (Option Condition)).map (Option.map form) := by
  refine map_bind_congr (Predicate.form_ofClause h) ?_
  intro p p' hp
  show Except.ok (some (join combine before p).form) = .ok (some (join combine before' p').form)
  rw [form_join combine hcombine, form_join combine hcombine, hbefore, hp]

theorem form_afterStep {step step' : Step} (h : step.SameShape step') :
    (afterStep before step).map (Option.map form) =
      (afterStep before' step').map (Option.map form) := by
  have hstarter (kind : StarterKind) {c c' : Clause} (h : c.SameShape c') :
      (afterStep before (.starter ⟨kind, c⟩)).map (Option.map form) =
        (afterStep before' (.starter ⟨kind, c'⟩)).map (Option.map form) := by
    refine map_bind_congr (Predicate.form_ofClause h) ?_
    intro p p' hp
    refine congrArg (fun p => Except.ok (some (Condition.atom p))) ?_
    split
    · rw [Predicate.form_negate, Predicate.form_negate, hp]
    · exact hp
  have hunchanged : (Except.ok before : Except Unbuildable _).map (Option.map form) =
      (Except.ok before').map (Option.map form) := congrArg Except.ok hbefore
  cases h with
  | same =>
    cases step with
    | starter s => exact hstarter s.kind (.same s.clause)
    | andWhere c => exact form_joined hbefore .both (fun _ _ => rfl) (.same c)
    | orWhere c => exact form_joined hbefore .either (fun _ _ => rfl) (.same c)
    | orWhereIn c => exact form_joined hbefore .either (fun _ _ => rfl) (.same c)
    | _ => exact hunchanged
  | starter kind h => exact hstarter kind h
  | andWhere h => exact form_joined hbefore .both (fun _ _ => rfl) h
  | orWhere h => exact form_joined hbefore .either (fun _ _ => rfl) h
  | orWhereIn h => exact form_joined hbefore .either (fun _ _ => rfl) h
  | limit => exact hunchanged

end Steps

theorem form_ofSteps {steps steps' : List Step} (h : List.Forall₂ Step.SameShape steps steps') :
    (ofSteps steps).map (Option.map form) = (ofSteps steps').map (Option.map form) := by
  have hrun : ∀ before before' : Option Condition, before.map form = before'.map form →
      (steps.foldlM afterStep before).map (Option.map form) =
        (steps'.foldlM afterStep before').map (Option.map form) := by
    induction h with
    | nil =>
      intro before before' hbefore
      exact congrArg Except.ok hbefore
    | cons hstep _ ih =>
      intro before before' hbefore
      rw [List.foldlM_cons, List.foldlM_cons]
      exact map_bind_congr (form_afterStep hbefore hstep) ih
  exact hrun none none rfl

end Condition

/-! ### What steps ask for -/

section Views

variable {steps steps' : List Step} (h : List.Forall₂ Step.SameShape steps steps')

include h

theorem foldl_congr {α : Type} {f : α → Step → α} {R : α → α → Prop}
    (hf : ∀ a b step step', R a b → step.SameShape step' → R (f a step) (f b step')) {a b : α}
    (hab : R a b) : R (steps.foldl f a) (steps'.foldl f b) := by
  induction h generalizing a b with
  | nil => exact hab
  | cons hstep _ ih => exact ih (hf _ _ _ _ hab hstep)

theorem stepColumns_eq : stepColumns steps = stepColumns steps' := by
  refine foldl_congr h ?_ rfl
  rintro before _ step step' rfl hstep
  cases hstep <;> rfl

theorem stepOrder_eq : stepOrder steps = stepOrder steps' := by
  refine foldl_congr h ?_ rfl
  rintro before _ step step' rfl hstep
  cases hstep <;> rfl

theorem stepTested_eq : stepTested steps = stepTested steps' := by
  refine foldl_congr h ?_ rfl
  rintro before _ step step' rfl hstep
  cases hstep with
  | same | limit => rfl
  | starter kind h => exact congrArg (fun c => [c]) h.column_eq
  | andWhere h | orWhere h | orWhereIn h => exact congrArg (fun c => before ++ [c]) h.column_eq

/-- The limits are counts of both chains, or of neither. -/
theorem limitOf_stepLimit : (limitOf (stepLimit steps)).map (Option.map fun _ => (0 : Int)) =
    (limitOf (stepLimit steps')).map (Option.map fun _ => (0 : Int)) := by
  refine foldl_congr (R := fun v w => (limitOf v).map (Option.map fun _ => (0 : Int)) =
    (limitOf w).map (Option.map fun _ => (0 : Int))) h ?_ rfl
  intro v w step step' hvw hstep
  cases hstep with
  | same => cases step <;> first | exact hvw | rfl
  | limit hv hw =>
    show (limitOf _).map _ = (limitOf _).map _
    simp [limitOf, hv, hw, Except.map]
  | _ => exact hvw

theorem form_selectionOf {table : Value} :
    (selectionOf backendSchema table steps).map (fun s => (Statement.select s).form) =
      (selectionOf backendSchema table steps').map (fun s => (Statement.select s).form) := by
  unfold selectionOf
  refine map_bind_congr (Condition.form_ofSteps h) ?_
  intro condition condition' hcondition
  refine map_bind_congr (limitOf_stepLimit h) ?_
  intro limit limit' hlimit
  simp only [stepColumns_eq h, stepTested_eq h, stepOrder_eq h]
  refine map_bind_congr (f := fun _ => ()) rfl ?_
  rintro ⟨⟩ ⟨⟩ -
  simp only [Statement.form, hcondition, hlimit, Except.map, pure, Except.pure]

end Views

/-! ### Entries -/

theorem form_stored {v w : Value} (h : v.Alike w) :
    (Operand.stored v).form = (Operand.stored w).form := by
  cases h with
  | same => rfl
  | scalars hv hw =>
    have hbound {v : Value} (hv : v.isScalar = true) :
        (Operand.stored v).form = .bound .plain .null := by
      cases v <;> first | rfl | cases hv
    rw [hbound hv, hbound hw]

section Entries

variable {record record' : Fields} (h : SameColumns record record')

include h

theorem names_eq_of_sameColumns : record.map Prod.fst = record'.map Prod.fst := by
  induction h with
  | nil => rfl
  | cons he _ ih => rw [List.map_cons, List.map_cons, he.1, ih]

theorem entriesForm_entriesOf : entriesForm (entriesOf record) = entriesForm (entriesOf record') := by
  induction h with
  | nil => rfl
  | @cons e e' _ _ he _ ih =>
    show (e.1, (Operand.stored e.2).form) :: entriesForm (entriesOf _) =
      (e'.1, (Operand.stored e'.2).form) :: entriesForm (entriesOf _)
    rw [he.1, form_stored he.2, ih]

theorem returningOf_eq (idColumn : Value) :
    returningOf record idColumn = returningOf record' idColumn := by
  have hhas (c : String) : record.has c = record'.has c := by
    have hexact := Keyed.exact_of_lawful c
    rw [Bool.eq_iff_iff, hexact.has_iff, hexact.has_iff]
    exact iff_of_eq (congrArg (c ∈ ·) (names_eq_of_sameColumns h))
  unfold returningOf
  simp only [hhas]

theorem checkIdColumn_eq (idColumn : Value) :
    checkIdColumn record idColumn = checkIdColumn record' idColumn := by
  have hfind (p : Nat → Bool) : (record.zipIdx.find? fun e => p e.2).map (fun e => e.1.1) =
      (record'.zipIdx.find? fun e => p e.2).map fun e => e.1.1 := by
    have hnames (record : Fields) : (record.zipIdx.find? fun e => p e.2).map (fun e => e.1.1) =
        ((record.map Prod.fst).zipIdx.find? fun e => p e.2).map Prod.fst := by
      rw [List.zipIdx_map, List.find?_map, Option.map_map]
      rfl
    rw [hnames, hnames, names_eq_of_sameColumns h]
  unfold checkIdColumn
  split
  · rfl
  · rfl
  · have hname := hfind fun n => idColumn == .int n
    dsimp only
    revert hname
    cases record.zipIdx.find? fun e => idColumn == .int e.2 with
    | none =>
      cases record'.zipIdx.find? fun e => idColumn == .int e.2 with
      | none => exact fun _ => rfl
      | some e => exact fun hname => nomatch hname
    | some e =>
      cases record'.zipIdx.find? fun e => idColumn == .int e.2 with
      | none => exact fun hname => nomatch hname
      | some e' =>
        intro hname
        exact congrArg (fun n => Except.error (Unbuildable.unconsumed n)) (Option.some.inj hname)

end Entries

theorem checkEntryNames_form (entries : List (String × Operand)) (p : Predicate) :
    checkEntryNames (entriesForm entries) p.form = checkEntryNames entries p := by
  have hbound (n : String) :
      (((entriesForm entries).filter fun e => e.2.isBound).any fun e => e.1 == n) =
        (entries.filter fun e => e.2.isBound).any fun e => e.1 == n := by
    rw [List.any_filter, List.any_filter, entriesForm, List.any_map]
    congr 1
    funext e
    simp only [Function.comp_apply, Operand.isBound_form]
  unfold checkEntryNames
  simp only [hbound, ← p.form_pieces, Draft.slots_form, List.find?_map, Function.comp_def]
  cases (Draft.slots p.pieces).find? _ <;> rfl

theorem Statement.form_ofOperation {o o' : Operation} (h : o.SameShape o') :
    (ofOperation backendSchema o).map form = (ofOperation backendSchema o').map form := by
  have hchecked {x : Except Unbuildable Unit} {k k' : Unit → Except Unbuildable Statement}
      (hk : (k ()).map form = (k' ()).map form) : (x >>= k).map form = (x >>= k').map form :=
    map_bind_congr (f := id) rfl fun _ _ _ => hk
  cases h with
  | filteredScan table h =>
    exact map_bind_congr (form_selectionOf h) fun s s' hs => congrArg Except.ok hs
  | @insert table idColumn record record' h =>
    show (checkIdColumn record idColumn >>= _).map form =
      (checkIdColumn record' idColumn >>= _).map form
    rw [checkIdColumn_eq h]
    refine hchecked (hchecked ?_)
    show Except.ok (insert _ (entriesForm (entriesOf record)) (returningOf record idColumn)) =
      .ok (insert _ (entriesForm (entriesOf record')) (returningOf record' idColumn))
    rw [entriesForm_entriesOf h, returningOf_eq h]
  | @update table c c' record record' hc h =>
    refine map_bind_congr (Predicate.form_ofClause hc) ?_
    intro p p' hp
    rw [hc.column_eq]
    refine hchecked ?_
    rw [← checkEntryNames_form, ← checkEntryNames_form _ p', entriesForm_entriesOf h, hp]
    refine hchecked ?_
    show Except.ok (update _ (entriesForm (entriesOf record)) p.form) =
      .ok (update _ (entriesForm (entriesOf record')) p'.form)
    rw [entriesForm_entriesOf h, hp]
  | delete table hc =>
    refine map_bind_congr (Predicate.form_ofClause hc) ?_
    intro p p' hp
    rw [hc.column_eq]
    exact hchecked (congrArg (fun p => Except.ok (Statement.delete _ (some p))) hp)

/-- Operations of one shape are refused for one reason, or have statements whose drafts have one
form. -/
theorem Statement.form_built (schema : Option String) {o o' : Operation} (h : o.SameShape o') :
    (built schema o).map (fun s => s.draft.form) =
      (built schema o').map fun s => s.draft.form := by
  refine map_bind_congr (form_ofOperation h) ?_
  intro s s' hs
  have hdraft : s.draft.form = s'.draft.form := by
    calc s.draft.form = s.form.draft.form := s.form_draft
      _ = s'.form.draft.form := by rw [hs]
      _ = s'.draft.form := s'.form_draft.symm
  have hambiguous : s.draft.isAmbiguous = s'.draft.isAmbiguous := by
    rw [← Draft.isAmbiguous_form, hdraft, Draft.isAmbiguous_form]
  simp only [hambiguous]
  split
  · rfl
  · exact congrArg Except.ok hdraft

end RowAccess.Sql

namespace RowAccess

/-! ## One shape on both sides -/

@[symm] theorem Value.Alike.symm {v w : Value} (h : v.Alike w) : w.Alike v := by
  cases h with
  | same => exact .same v
  | scalars hv hw => exact .scalars hw hv

@[symm] theorem Clause.SameShape.symm {c c' : Clause} (h : c.SameShape c') : c'.SameShape c := by
  cases h with
  | same => exact .same c
  | comparison column comparator h => exact .comparison column comparator h.symm
  | like column h => exact .like column h.symm
  | membership column hfirst hrest hflat =>
    refine .membership column hfirst.symm (hrest.flip.imp fun _ _ h => h.symm) ?_
    exact (Sql.Predicate.isRows_alike hfirst _ _).symm.trans hflat
  | range column hlow hhigh => exact .range column hlow.symm hhigh.symm

@[symm] theorem Step.SameShape.symm {s s' : Step} (h : s.SameShape s') : s'.SameShape s := by
  cases h with
  | same => exact .same s
  | starter kind h => exact .starter kind h.symm
  | andWhere h => exact .andWhere h.symm
  | orWhere h => exact .orWhere h.symm
  | orWhereIn h => exact .orWhereIn h.symm
  | limit hv hw => exact .limit hw hv

@[symm] theorem Operation.SameShape.symm {o o' : Operation} (h : o.SameShape o') :
    o'.SameShape o := by
  have hcolumns {record record' : Fields} (h : SameColumns record record') :
      SameColumns record' record := h.flip.imp fun _ _ h => ⟨h.1.symm, h.2.symm⟩
  cases h with
  | filteredScan table h => exact .filteredScan table (h.flip.imp fun _ _ h => h.symm)
  | insert table idColumn h => exact .insert table idColumn (hcolumns h)
  | update table hc h => exact .update table hc.symm (hcolumns h)
  | delete table hc => exact .delete table hc.symm

end RowAccess
