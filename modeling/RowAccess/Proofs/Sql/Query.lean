import RowAccess.Proofs.Sql.Database
import RowAccess.Proofs.Sql.Page

/-
  RowAccess/Proofs/Sql/Query.lean
  ===============================
  **What a selection shows.**  A selection holds no nested selection and no aggregate, so that the
  rows that pass its condition are all that the engine meets (`settled_query`, `isGrouped_query`).  They
  are sorted, the limit cuts them, and the columns that are asked for are shown of the rest
  (`isPage_rows`, `shown_eq`).
-/

namespace RowAccess.Sql

open Outcome

/-! ## The rows of a selection -/

section Selection

variable (t : Items)

theorem Condition.settled_expr (c : Condition) : c.expr.settled t = c.expr := by
  have hwithin (n : Nat) : c.expr.settledWithin t n = c.expr := by
    cases n with
    | zero => rfl
    | succ n =>
      induction c with
      | atom p => exact p.settledWithin_expr t (n + 1)
      | both c d ihc ihd => exact congrArg₂ Expr.both ihc ihd
      | either c d ihc ihd => exact congrArg₂ Expr.either ihc ihd
  exact hwithin _

theorem settled_query (s : Selection) : (Statement.query s).settled t = Statement.query s := by
  obtain ⟨columns, table, condition, order, limit⟩ := s
  have hshown : (Statement.query ⟨columns, table, condition, order, limit⟩).shown.map
      (fun shown => shown.map fun s => { s with expr := s.expr.settled t }) =
        (Statement.query ⟨columns, table, condition, order, limit⟩).shown := by
    cases columns with
    | all => rfl
    | named names => exact congrArg some List.map_map
  have htest : (condition.map Condition.expr).map (Expr.settled t) =
      condition.map Condition.expr := by
    cases condition with
    | none => rfl
    | some c => exact congrArg some (c.settled_expr t)
  have horder : (order.map fun s => (Predicate.columnExpr s.column, s.direction)).map
      (fun e => (Expr.settled t e.1, e.2)) =
        order.map fun s => (Predicate.columnExpr s.column, s.direction) := List.map_map
  have hbounds : (limit.map fun n => Expr.bound (Operand.sentCell .plain (.int n))).map
        (Expr.settled t) = (limit.map fun n => Expr.bound (Operand.sentCell .plain (.int n))) ∧
      (limit.map fun _ => Expr.bound (.int 0)).map (Expr.settled t) =
        limit.map fun _ => Expr.bound (.int 0) := by
    cases limit <;> exact ⟨rfl, rfl⟩
  simp only [Query.settled]
  rw [hshown]
  simp only [Statement.query, htest, horder, hbounds.1, hbounds.2, List.map_nil, Option.map_none]

variable {t} {a : Answer} {s : Selection}

/-- A limit that can be sent asks for as many rows as it says. -/
theorem countOf_limit {n m : Int}
    (h : countOf (.bound (Operand.sentCell .plain (.int n))) = .ok m) : m = n := by
  have hsent : Operand.sentCell .plain (.int n) = (Cell.ofValue (.int n)).toOption.getD .null := rfl
  rw [hsent, Cell.ofValue] at h
  split at h
  · cases h
    rfl
  · cases h

theorem isGrouped_query (s : Selection) : (Statement.query s).isGrouped = false := by
  have hnames (names : List String) :
      Expr.anyGathering ((names.map fun n : String => (⟨Predicate.columnExpr n, n⟩ : Shown)).map
        Shown.expr) = false := by
    induction names with
    | nil => rfl
    | cons n names ih => exact ih
  obtain ⟨columns, table, condition, order, limit⟩ := s
  cases columns with
  | all => rfl
  | named names => exact hnames names

/-- A selection answers with the cells of its rows, as many as its limit allows. -/
theorem answer_query (h : (Statement.query s).answer t = .ok a) :
    a = .rows (Statement.query s).titles
      (((Statement.query s).rows s.limit 0 t).map (Statement.query s).cells) := by
  obtain ⟨limit, hlimit, h⟩ := bind_eq_ok_iff.1 h
  obtain ⟨offset, hoffset, h⟩ := bind_eq_ok_iff.1 h
  cases h
  have hcounts : limit = s.limit ∧ offset.getD 0 = 0 := by
    obtain ⟨columns, table, condition, order, count⟩ := s
    cases count with
    | none =>
      cases hlimit
      cases hoffset
      exact ⟨rfl, rfl⟩
    | some n =>
      obtain ⟨m, hm, hlimit⟩ := bind_eq_ok_iff.1 hlimit
      have hzero : Except.ok (some 0) = Except.ok offset := hoffset
      cases hlimit
      cases hzero
      exact ⟨congrArg some (countOf_limit hm), rfl⟩
  rw [hcounts.1, hcounts.2, Query.cellRows, isGrouped_query, if_neg Bool.false_ne_true]

/-- A selection shows its rows and leaves the table as it is. -/
theorem run_query {values : List Value} {u : Items}
    (h : (Command.select (Statement.query s)).run values t = .ok (u, a)) :
    u = t ∧ a = .rows (Statement.query s).titles
      (((Statement.query s).rows s.limit 0 t).map (Statement.query s).cells) := by
  obtain ⟨-, h⟩ := Command.run_eq_ok h
  simp only [Command.settled, settled_query, Command.perform] at h
  obtain ⟨answer, hanswer, h⟩ := bind_eq_ok_iff.1 h
  cases h
  exact ⟨rfl, answer_query hanswer⟩

/-- The rows of a selection are the page of those that pass. -/
theorem isPage_rows {terms : List OrderTerm}
    (horder : s.order = terms.map fun t => ⟨Predicate.nameOf t.column, t.direction⟩)
    (hrows : ∀ i ∈ t.rows, i.IsStored) :
    IsPage (rowOrder Cell.order terms) s.limit
      (t.rows.filter (passes (s.condition.map Condition.expr)))
      ((Statement.query s).rows s.limit 0 t) := by
  have hread : (Statement.query s).order = terms.map termExpr := by
    show s.order.map (fun t => (Predicate.columnExpr t.column, t.direction)) = _
    rw [horder, List.map_map]
    rfl
  have hterms : (Statement.query s).terms = terms.map termExpr := by
    rw [Query.terms, hread, List.map_map]
    rfl
  have hmet : ((Statement.query s).met t).Perm
      (t.rows.filter (passes (s.condition.map Condition.expr))) := scan_perm _ _ _
  have hpass (i : Item) (hi : i ∈ t.rows.filter (passes (s.condition.map Condition.expr))) :
      i.IsStored := hrows i (List.mem_of_mem_filter hi)
  have hnodup : t.rows.Nodup := t.ascending.imp fun hid h => by
    rw [h] at hid
    exact Int.lt_irrefl _ hid
  rw [Query.rows, hterms]
  refine isPage_limitRows s.limit ((List.mergeSort_perm _ _).trans hmet) (hnodup.filter _)
    (pairwise_sortRows (fun i hi => hpass i (hmet.subset hi)) terms) ?_
  intro i hi j hj
  exact rowOrder_swap (hpass i hi) (hpass j hj) terms

end Selection

/-! ## What is shown -/

/-- What a chain shows of a row: the cells of the selected columns under their names, or of all
columns. -/
def Item.shown (columns : Option (List Value)) (i : Item) : Fields :=
  match columns with
  | none => i.fields
  | some names => names.map fun n => (Predicate.nameOf n, (i.under n).toValue)

theorem rowsValue_eq_ok {o : Operation} {titles : List String} {rows : List (List Cell)} {v : Value}
    (h : rowsValue o titles rows = .ok v) :
    v = .list (rows.map fun row => .object (titles.zip (row.map Cell.toValue))) := by
  obtain ⟨values, hvalues, h⟩ := bind_eq_ok_iff.1 h
  cases h
  refine congrArg Value.list ?_
  rw [← map_eq_of_mapM (g := id) hvalues ?_, List.map_id]
  intro row value hvalue
  split at hvalue
  · cases hvalue
  · cases hvalue
    rfl

/-- The titles and cells of a selection are what is shown of its rows. -/
theorem shown_eq {s : Selection} {columns : Option (List Value)}
    (hs : s.columns = (columns.map columnNames).getD .all) (i : Item) :
    (((Statement.select s).titles?.getD (Statement.query s).titles).zip
      (((Statement.query s).cells i).map Cell.toValue)) = i.shown columns := by
  obtain ⟨shown, table, condition, order, limit⟩ := s
  obtain rfl : shown = _ := hs
  cases columns with
  | none => rfl
  | some names =>
    show (names.map Predicate.nameOf).zip (((((names.map Predicate.nameOf).map fun n : String =>
      (⟨Predicate.columnExpr n, n⟩ : Shown)).map fun s => s.expr.cell i)).map Cell.toValue) =
        names.map fun n => (Predicate.nameOf n, (i.under n).toValue)
    rw [List.map_map, List.map_map, List.map_map]
    exact List.zip_map'

end RowAccess.Sql
