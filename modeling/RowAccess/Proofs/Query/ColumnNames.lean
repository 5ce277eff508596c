import RowAccess.Proofs.Operation.Compiled
import RowAccess.Proofs.Query.Settled

/-
  RowAccess/Proofs/Query/ColumnNames.lean
  =======================================
  **Which columns leave the check as names.**  Every clause, every order term and the aggregate of a
  checked query name their columns by texts that are not blank; the entries of a selection are only
  known not to be missing, and are handed on as they stand in the raw query.  A plan names the columns
  of its query and no others, so a column that is no text reaches a backend through the selection or
  not at all (`validate_columns`).
-/

namespace RowAccess

open Outcome

/-! ## Columns of queries and plans -/

namespace Query

/-- The columns that the clauses, the aggregate and the order of a query name. -/
def usedColumns (q : Query) : List Value :=
  q.starter.toList.map (fun s => s.clause.column) ++ q.andWhere.map Comparison.column ++
    q.orWhere.map Comparison.column ++ q.orWhereIn.map Membership.column ++
    q.aggregate.toList.map (fun a => .text a.column) ++ q.order.map OrderTerm.column

/-- All columns that a query names. -/
def columns (q : Query) : List Value :=
  q.select ++ q.usedColumns

end Query

/-- The columns that a step names. -/
def Step.columns : Step → List Value
  | .select columns => columns
  | .starter s => [s.clause.column]
  | .andWhere c | .orWhere c | .orWhereIn c => [c.column]
  | .limit _ => []
  | .order terms => terms.map OrderTerm.column

/-- The columns that a plan names. -/
def Plan.columns : Plan → List Value
  | .scan _ steps => steps.flatMap Step.columns
  | .aggregate query => [query.column]

/-! ## Plans name the columns of their queries -/

section Plans

variable {schema : Option TableSchema} {c : Config}

/-- A clause in the terms of storage is about the same column. -/
theorem Clause.Rewritten.column_eq {a b : Clause} (h : Clause.Rewritten schema c a b) :
    b.column = a.column := by
  cases h <;> rfl

theorem map_column_of_rewritten {as bs : List Clause}
    (h : List.Forall₂ (Clause.Rewritten schema c) as bs) :
    bs.map Clause.column = as.map Clause.column := by
  induction h with
  | nil => rfl
  | cons h _ ih => rw [List.map_cons, List.map_cons, h.column_eq, ih]

theorem flatMap_singleton_column {f : Clause → Step} (hf : ∀ a, (f a).columns = [a.column])
    (clauses : List Clause) :
    (clauses.map f).flatMap Step.columns = clauses.map Clause.column := by
  rw [List.flatMap_map, List.map_eq_flatMap]
  simp only [hf]

/-- The steps of a query name its columns, in its order. -/
theorem Query.CompilesTo.columns_eq {q : Query} {steps : List Step}
    (h : q.CompilesTo schema c steps) (hq : q.aggregate = none) :
    steps.flatMap Step.columns = q.columns := by
  cases h with
  | @mk starter ands ors ins hstarter hand hor hin =>
    have hselect : (if q.select.isEmpty then [] else [Step.select q.select]).flatMap Step.columns =
        q.select := by
      cases q.select <;> simp [Step.columns]
    have horder : (if q.order.isEmpty then [] else [Step.order q.order]).flatMap Step.columns =
        q.order.map OrderTerm.column := by
      cases q.order <;> simp [Step.columns]
    have hstarters : (starter.toList.map Step.starter).flatMap Step.columns =
        q.starter.toList.map (fun s => s.clause.column) := by
      generalize q.starter = s at hstarter
      cases hstarter with
      | none => rfl
      | some h => simp [Step.columns, h.2.column_eq]
    have hlimit : (q.limit.toList.map fun n : Nat => Step.limit (.int n)).flatMap Step.columns =
        [] := by
      cases q.limit <;> rfl
    have hands := map_column_of_rewritten hand
    have hors := map_column_of_rewritten hor
    have hins := map_column_of_rewritten hin
    rw [List.map_map] at hands hors hins
    simp only [List.flatMap_append, hselect, horder, hstarters, hlimit,
      flatMap_singleton_column (f := .andWhere) fun _ => rfl,
      flatMap_singleton_column (f := .orWhere) fun _ => rfl,
      flatMap_singleton_column (f := .orWhereIn) fun _ => rfl, hands, hors, hins, Query.columns,
      Query.usedColumns, hq, Option.toList_none, List.map_nil, List.append_nil, List.append_assoc]
    rfl

end Plans

/-! ## Results of checks -/

namespace Validation

open Keyed Acceptance
open Stateful (execute)

variable {α β : Type}

/-- Has every result of the check the property? -/
def Ensures (p : α → Prop) (act : Check α) : Prop :=
  ∀ q a left, execute act q = (.ok a, left) → p a

theorem Reads.ensures {key : Key} {absent : α} {f : Value → Except Fault α × Value} {act : Check α}
    (h : Reads key absent f act) {p : α → Prop} (habsent : p absent)
    (hpresent : ∀ v a, (f v).1 = .ok a → p a) : Ensures p act := by
  intro q a left hact
  cases hq : find? q key.name with
  | none =>
    rw [h.absent q hq] at hact
    cases hact
    exact habsent
  | some v =>
    rw [h.present q v hq] at hact
    exact hpresent v a (congrArg Prod.fst hact)

/-- The columns listed under the key of the selection, or the one that stands there by itself. -/
def selectedIn (query : Fields) : List Value :=
  match find? query Key.select.name with
  | some (.list columns) => columns
  | some (.text s) => [.text s]
  | _ => []

/-- The selection is taken as it is, where none of its entries is missing. -/
theorem selectionOf_eq_ok {v : Value} {columns : List Value}
    (h : (selectionOf v).1 = .ok columns) :
    listed v = .list columns ∧ ∀ column ∈ columns, IsPresent column := by
  unfold selectionOf at h
  dsimp only at h
  split at h
  next vs hlisted =>
    split at h
    · cases h
    next hany =>
      cases h
      exact ⟨hlisted, any_isMissing_eq_false_iff.1 (Bool.eq_false_iff.2 hany)⟩
  · cases h

theorem checkSelect_eq_ok {query left : Fields} {columns : List Value}
    (h : execute checkSelect query = (.ok columns, left)) :
    columns = selectedIn query ∧ ∀ column ∈ columns, IsPresent column := by
  unfold selectedIn
  cases hq : find? query Key.select.name with
  | none =>
    rw [reads_checkSelect.absent query hq] at h
    cases h
    exact ⟨rfl, by simp⟩
  | some v =>
    rw [reads_checkSelect.present query v hq] at h
    obtain ⟨hlisted, hpresent⟩ := selectionOf_eq_ok (congrArg Prod.fst h)
    refine ⟨?_, hpresent⟩
    cases v <;> cases hlisted <;> rfl

theorem Gives.isName_column {kind : StarterKind} {record left : Fields} {clause : Clause}
    (h : Gives kind record clause left) : IsName clause.column := by
  cases h with
  | comparison _ h => exact (comparisonOf_eq_ok_iff.1 h).1.isName
  | like _ h => exact (likeOf_eq_ok_iff.1 h).1.isName
  | membership _ h => exact (membershipOf_eq_ok_iff.1 h).1.isName
  | range _ h => exact (rangeOf_eq_ok_iff.1 h).1.isName

theorem ensures_checkStarter :
    Ensures (fun starter : Option Starter => ∀ s ∈ starter, IsName s.clause.column) checkStarter := by
  intro q starter left h
  rcases hlist : presentStarters q with _ | ⟨⟨kind, v⟩, _ | ⟨t, rest⟩⟩
  · rw [execute_checkStarter_none hlist] at h
    cases h
    simp
  · rw [execute_checkStarter_one hlist] at h
    have hstarter : (starterOf kind v).1 = .ok starter := congrArg Prod.fst h
    unfold starterOf at hstarter
    split at hstarter
    · cases hstarter
    · split at hstarter
      · cases hstarter
      next hclause =>
        cases hstarter
        intro s hs
        cases hs
        exact (gives_of_starterClause hclause).isName_column
  · rw [execute_checkStarter_several hlist] at h
    cases h

theorem isName_of_comparisonsFrom {key : Key} {i : Nat} {records : List Fields}
    {cs : List Comparison} (h : (comparisonsFrom key i records).1 = .ok cs) :
    ∀ c ∈ cs, IsName c.column := by
  induction records generalizing i cs with
  | nil =>
    cases h
    simp
  | cons r rs ih =>
    rw [comparisonsFrom] at h
    split at h
    · cases h
    next c hc =>
      obtain ⟨cs, hrest, rfl⟩ := map_eq_ok_iff.1 h
      exact List.forall_mem_cons.2 ⟨(comparisonOf_eq_ok_iff.1 hc).1.isName, ih hrest⟩

theorem ensures_checkComparisons (key : Key) :
    Ensures (fun cs : List Comparison => ∀ c ∈ cs, IsName c.column) (checkComparisons key) := by
  refine (reads_checkComparisons key).ensures (by simp) ?_
  intro v cs h
  unfold comparisonsOf at h
  split at h
  · cases h
  · exact isName_of_comparisonsFrom h

theorem isName_of_membershipsFrom {key : Key} {i : Nat} {records : List Fields}
    {ms : List Membership} (h : membershipsFrom key i records = .ok ms) :
    ∀ m ∈ ms, IsName m.column := by
  induction records generalizing i ms with
  | nil =>
    cases h
    simp
  | cons r rs ih =>
    obtain ⟨m, hm, h⟩ := bind_eq_ok_iff.1 h
    obtain ⟨ms, hrest, h⟩ := bind_eq_ok_iff.1 h
    cases h
    exact List.forall_mem_cons.2 ⟨(membershipOf_eq_ok_iff.1 hm).1.isName, ih hrest⟩

theorem ensures_checkMemberships (key : Key) :
    Ensures (fun ms : List Membership => ∀ m ∈ ms, IsName m.column) (checkMemberships key) := by
  refine (reads_checkMemberships key).ensures (by simp) ?_
  intro v ms h
  obtain ⟨records, -, hms⟩ := bind_eq_ok_iff.1 h
  exact isName_of_membershipsFrom hms

theorem isName_of_orderTermsFrom {i : Nat} {vs : List Value} {ts : List OrderTerm}
    (h : (orderTermsFrom i vs).1 = .ok ts) : ∀ t ∈ ts, IsName t.column := by
  induction vs generalizing i ts with
  | nil =>
    cases h
    simp
  | cons v vs ih =>
    rw [orderTermsFrom] at h
    split at h
    · cases h
    next t ht =>
      obtain ⟨ts, hrest, rfl⟩ := map_eq_ok_iff.1 h
      obtain ⟨entry, -, hsorts⟩ := orderTermOf_eq_ok ht
      exact List.forall_mem_cons.2 ⟨hsorts.isName, ih hrest⟩

theorem ensures_checkOrder :
    Ensures (fun ts : List OrderTerm => ∀ t ∈ ts, IsName t.column) checkOrder := by
  refine reads_checkOrder.ensures (by simp) ?_
  intro v ts h
  unfold orderOf at h
  split at h
  · exact isName_of_orderTermsFrom h
  · cases h

theorem isName_of_aggregateOf {present : List (Aggregate × Value)} {request : AggregateRequest}
    (h : aggregateOf present = .ok (some request)) : IsName (.text request.column) := by
  unfold aggregateOf at h
  split at h
  · cases h
  · split at h
    next hgiven =>
      cases h
      exact ⟨_, rfl, (givenText?_eq_some_iff.1 hgiven).2⟩
    · cases h
  · cases h

/-! ## Checked queries -/

open Stateful in
/-- A query for rows selects what stands in the raw query, and names all other columns. -/
theorem checkRows_eq_ok {query left : Fields} {q : Query}
    (h : execute checkRows query = (.ok q, left)) :
    q.aggregate = none ∧ q.select = selectedIn query ∧
      (∀ column ∈ q.select, IsPresent column) ∧ ∀ column ∈ q.usedColumns, IsName column := by
  obtain ⟨select, q₁, hselect, h⟩ := execute_bind_eq_ok_iff.1 h
  obtain ⟨starter, q₂, hstarter, h⟩ := execute_bind_eq_ok_iff.1 h
  obtain ⟨andWhere, q₃, hand, h⟩ := execute_bind_eq_ok_iff.1 h
  obtain ⟨orWhere, q₄, hor, h⟩ := execute_bind_eq_ok_iff.1 h
  obtain ⟨orWhereIn, q₅, horIn, h⟩ := execute_bind_eq_ok_iff.1 h
  obtain ⟨limit, q₆, -, h⟩ := execute_bind_eq_ok_iff.1 h
  obtain ⟨order, q₇, horder, h⟩ := execute_bind_eq_ok_iff.1 h
  cases h
  obtain ⟨hselected, hpresent⟩ := checkSelect_eq_ok hselect
  refine ⟨rfl, hselected, hpresent, ?_⟩
  intro column hcolumn
  simp only [Query.usedColumns, List.mem_append, List.mem_map, Option.mem_toList] at hcolumn
  rcases hcolumn with ((((⟨s, hs, rfl⟩ | ⟨a, ha, rfl⟩) | ⟨a, ha, rfl⟩) | ⟨m, hm, rfl⟩) |
    ⟨a, ha, -⟩) | ⟨t, ht, rfl⟩
  · exact ensures_checkStarter _ _ _ hstarter s hs
  · exact ensures_checkComparisons .andWhere _ _ _ hand a ha
  · exact ensures_checkComparisons .orWhere _ _ _ hor a ha
  · exact ensures_checkMemberships .orWhereIn _ _ _ horIn m hm
  · cases ha
  · exact ensures_checkOrder _ _ _ horder t ht

theorem check_eq_ok {query left : Fields} {q : Query} (h : execute check query = (.ok q, left)) :
    (∀ column ∈ q.usedColumns, IsName column) ∧ (∀ column ∈ q.select, IsPresent column) ∧
      (q.select = if q.isAggregate then [] else selectedIn query) ∧
      (q.isAggregate = true → ∃ request, q = { aggregate := some request }) := by
  cases hnames : unknownName? query with
  | some name =>
    rw [execute_check_unknown hnames] at h
    cases h
  | none =>
    rw [execute_check hnames] at h
    rcases haggregate : aggregateOf (presentAggregates query) with f | _ | request
    · rw [haggregate] at h
      cases h
    · rw [haggregate] at h
      obtain ⟨hnone, hselect, hpresent, hused⟩ := checkRows_eq_ok h
      rw [Query.isAggregate, hnone]
      exact ⟨hused, hpresent, hselect, nofun⟩
    · rw [haggregate] at h
      cases h
      refine ⟨?_, by simp, rfl, fun _ => ⟨request, rfl⟩⟩
      intro column hcolumn
      obtain rfl := List.mem_singleton.1 hcolumn
      exact isName_of_aggregateOf haggregate

/-- A value that is not missing is a name where it is a text. -/
theorem isName_iff_of_isPresent {v : Value} (h : IsPresent v) : IsName v ↔ v.isText = true := by
  constructor
  · rintro ⟨s, rfl, -⟩
    rfl
  · intro htext
    cases v <;> cases htext
    next s => exact ⟨s, rfl, h.2 s rfl⟩

end Validation

/-- The plan of a query names its columns, in its order. -/
theorem Query.columns_plan {q : Query} {table : Value} {schema : Option TableSchema} {c : Config}
    {plan : Plan} (h : q.plan table schema c = .ok (.ok plan))
    (hq : q.isAggregate = true → ∃ request, q = { aggregate := some request }) :
    plan.columns = q.columns := by
  cases haggregate : q.aggregate with
  | some a =>
    obtain ⟨request, rfl⟩ := hq (by rw [Query.isAggregate, haggregate]; rfl)
    cases h
    rfl
  | none =>
    cases hsteps : q.steps schema c with
    | error f =>
      rw [Query.plan_of_fault haggregate hsteps] at h
      cases capture_eq_ok_iff.1 h
    | ok steps =>
      rw [Query.plan_of_steps haggregate hsteps] at h
      cases h
      exact (Query.compilesTo_of_steps hsteps).columns_eq haggregate

open Acceptance Validation in
/-- **Which columns leave the check as names.**  In a query that the check accepts, each clause, the
aggregate and each order term name a column by a text that is not blank.  An entry of the selection
is what the raw query lists there, and not missing; so all columns are names exactly where all these
entries are texts.  And whatever a query is compiled for, its plan hands on these columns. -/
theorem validate_columns {raw left : Value} {q : Query}
    (h : validate raw = (.ok (.ok q), left)) :
    (∀ column ∈ q.usedColumns, IsName column) ∧ (∀ column ∈ q.select, IsPresent column) ∧
      (∃ query, raw = .object query ∧
        q.select = if q.isAggregate then [] else selectedIn query) ∧
      ((∀ column ∈ q.columns, IsName column) ↔ ∀ column ∈ q.select, column.isText = true) ∧
      ∀ table schema c plan, q.plan table schema c = .ok (.ok plan) → plan.columns = q.columns := by
  obtain ⟨query, rfl, hcheck⟩ := exists_of_validate (congrArg Prod.fst h)
  obtain ⟨hused, hpresent, hselect, haggregate⟩ := check_eq_ok hcheck
  refine ⟨hused, hpresent, ⟨query, rfl, hselect⟩, ?_, fun _ _ _ _ hplan =>
    Query.columns_plan hplan haggregate⟩
  rw [Query.columns, List.forall_mem_append, and_iff_left hused]
  exact forall₂_congr fun column hcolumn => isName_iff_of_isPresent (hpresent column hcolumn)

/-- A raw query that selects a number. -/
def numberedSelection : Value :=
  .object [("SELECT", .list [.int 5]),
    ("WHERE", .object [("COLUMN", .text "NAME"), ("VALUE", .text "Ana")])]

/-- The number is handed on beside the name. -/
theorem validate_columns_numberedSelection : ∃ q left plan,
    validate numberedSelection = (.ok (.ok q), left) ∧
      q.plan (.text "ITEMS") none formattingConfig = .ok (.ok plan) ∧
        plan.columns = [.int 5, .text "NAME"] := by
  obtain ⟨q, left, hq⟩ : ∃ q left, validate numberedSelection = (.ok (.ok q), left) :=
    ⟨_, _, rfl⟩
  have hcolumns : q.columns = [.int 5, .text "NAME"] := by
    cases hq
    rfl
  obtain ⟨plan, hplan⟩ : ∃ plan, q.plan (.text "ITEMS") none formattingConfig = .ok (.ok plan) := by
    cases hq
    exact ⟨_, rfl⟩
  refine ⟨q, left, plan, hq, hplan, ?_⟩
  obtain ⟨-, -, -, -, hplans⟩ := validate_columns hq
  rw [hplans _ _ _ _ hplan, hcolumns]

open Acceptance in
/-- A selection is not tested for texts. -/
theorem not_isName_of_validate : ¬ ∀ (raw left : Value) (q : Query),
    validate raw = (.ok (.ok q), left) → ∀ column ∈ q.columns, IsName column := by
  intro h
  have hselection : validate (.object [("SELECT", .list [.int 5])]) =
    (.ok (.ok { select := [.int 5] }), .object [("SELECT", .list [.int 5])]) := rfl
  obtain ⟨s, hs, -⟩ := h _ _ _ hselection (.int 5) List.mem_cons_self
  cases hs

end RowAccess
