import RowAccess.Proofs.Sql.Database

/-
  RowAccess/Proofs/Sql/Selection.lean
  ===================================
  **A read whose value can be sent succeeds.**  A comparison of a known column with a value that can be
  prepared and stored makes a statement without a null character or a marker, which passes all checks
  of the engine.  So the read shows the rows that pass (`run_scan_ok`).
-/

namespace RowAccess.Sql

open Outcome

/-! ## A comparison whose value can be sent -/

section Selection

variable {c : String} {o : Operand} {p : Predicate} {table : TableName}

/-- Can the operand be sent with its statement? -/
def Operand.IsSendable : Operand → Prop
  | .bound q v => ∃ w cell, q.apply v = .ok w ∧ Cell.ofValue w = .ok cell
  | .verbatim _ => False
  | .truth _ => True

theorem Operand.IsSendable.isIdTest (ho : o.IsSendable) (hc : IsKnown c) :
    IsIdTest (.compare c .eq o) := by
  cases o with
  | verbatim s => cases ho
  | bound q v => exact .equal hc trivial
  | truth b => exact .equal hc trivial

theorem Operand.IsSendable.isDirect (ho : o.IsSendable) : (Predicate.compare c .eq o).isDirect = true := by
  cases o with
  | verbatim s => cases ho
  | bound q v => rfl
  | truth b => rfl

theorem values_select (ho : o.IsSendable) :
    ∃ values, (Statement.select (.whole table (.compare c .eq o))).draft.values = .ok values ∧
      ∀ position, sendFrom position values = .ok () := by
  rw [Statement.draft_whole]
  cases o with
  | verbatim s => cases ho
  | truth b => exact ⟨[], rfl, fun position => rfl⟩
  | bound q v =>
    obtain ⟨w, cell, hw, hcell⟩ := ho
    refine ⟨[w], ?_, ?_⟩
    · show ([(q, v)].mapM fun e => e.1.apply e.2) = .ok [w]
      simp only [List.mapM_cons, List.mapM_nil, hw]
      rfl
    · intro position
      rw [sendFrom, hcell]
      rfl

theorem isWhole_select (htable : table.target.isItems = true) (hc : IsKnown c)
    (ho : o.IsSendable) :
    IsWhole (Statement.select (.whole table (.compare c .eq o))).draft.text := by
  rw [Statement.draft_whole]
  refine Draft.isWhole_text fun q hq => ?_
  rcases List.mem_cons.1 hq with rfl | hq
  · exact .append (by decide) (isWhole_table htable)
  rcases List.mem_cons.1 hq with rfl | hq
  · show IsWhole " \nWHERE "
    decide
  rcases List.mem_cons.1 hq with rfl | hq
  · show IsWhole (Identifier.text c ++ " " ++ Relation.eq.symbol ++ " ")
    exact ((hc.isWhole.append (by decide)).append (by decide)).append (by decide)
  obtain rfl := List.mem_singleton.1 hq
  cases o with
  | verbatim s => cases ho
  | bound q v =>
    show IsWhole "?"
    decide
  | truth b =>
    show IsWhole (if b then "1" else "0")
    cases b <;> decide

theorem IsIdTest.isAmbiguous (h : IsIdTest p) (front behind : String) :
    Draft.isAmbiguous (.words front :: .words behind :: p.pieces) = false := by
  have hslots : Draft.slots (.words front :: .words behind :: p.pieces) =
      Draft.namedSlots p.pieces [] := rfl
  have hchanged : ((Draft.changedNames (Draft.namedSlots p.pieces [])).map (·.1)).Nodup := by
    refine List.Nodup.sublist ((List.filter_sublist).map _) ?_
    rw [List.map_map]
    exact h.nodup_slots []
  rw [Draft.isAmbiguous, hslots, Draft.sharedName?_eq_none_iff.2 hchanged]
  rfl

/-! ## A selection that runs -/

variable {values : List Value} {t : Items}

theorem walk_columnExpr {column : ItemColumn}
    (hc : ItemColumn.find? (Identifier.found c) = some column) (gathering : Bool)
    (remembered : Option Refusal) :
    (Predicate.columnExpr c).walk gathering remembered = .ok remembered := by
  rw [Predicate.columnExpr, Expr.walk, Name.meaning?]
  simp only [hc]
  rfl

theorem check_expr {column : ItemColumn}
    (hc : ItemColumn.find? (Identifier.found c) = some column) :
    (Predicate.compare c .eq o).expr.check = .ok () := by
  have hwalk : (Predicate.compare c .eq o).expr.walk false none = .ok none := by
    show (do
      let remembered ← Expr.atRest none
      Expr.checkRows (Predicate.columnExpr c) o.expr
      o.expr.walk false (← (Predicate.columnExpr c).walk false remembered)) = .ok none
    rw [Expr.atRest, ok_bind, walk_columnExpr hc]
    cases o <;> rfl
  rw [Expr.check, Expr.checkIn, hwalk]

/-- A selection of the rows with one value passes all checks. -/
theorem check_select {column : ItemColumn} (htable : table.target.isItems = true)
    (hc : ItemColumn.find? (Identifier.found c) = some column) :
    (Command.select (Statement.query (.whole table (.compare c .eq o)))).check = .ok () := by
  have hheight : (Predicate.compare c .eq o).expr.height = 2 := by cases o <;> rfl
  have hflaw : (Predicate.compare c .eq o).expr.flaw? = none := by cases o <;> rfl
  have hexprs : (Command.select (Statement.query (.whole table (.compare c .eq o)))).exprs =
      [(Predicate.compare c .eq o).expr] := rfl
  have hheights : checkHeights (Command.select
      (Statement.query (.whole table (.compare c .eq o)))) = .ok () := by
    rw [checkHeights, hexprs, List.any_cons, hheight]
    rfl
  have htarget : checkTable table.target = .ok () := by
    rw [checkTable, if_pos htable]
  have hnames : (Command.select (Statement.query (.whole table (.compare c .eq o)))).checkNames =
      .ok () := by
    have htables : (Statement.query (.whole table (.compare c .eq o))).tables.forM checkTable =
        .ok () := by
      show (checkTable table.target >>= fun _ => pure ()) = .ok ()
      rw [htarget]
      rfl
    have hshown : (Statement.query (.whole table (.compare c .eq o))).shownExprs.forM
        (Expr.checkIn true) = .ok () := rfl
    have htest : (Statement.query (.whole table (.compare c .eq o))).test.toList.forM Expr.check =
        .ok () := by
      show ((Predicate.compare c .eq o).expr.check >>= fun _ => pure ()) = .ok ()
      rw [check_expr hc]
      rfl
    have hexprs : (Statement.query (.whole table (.compare c .eq o))).checkExprs = .ok () := by
      rw [Query.checkExprs, hshown, htest]
      rfl
    rw [Command.checkNames]
    simp only [Query.check, htables, hexprs]
    rfl
  rw [Command.check, hheights, hnames, hexprs]
  simp only [List.findSome?_cons, hflaw]
  rfl

theorem run_select_ok {column : ItemColumn} (htable : table.target.isItems = true)
    (hc : ItemColumn.find? (Identifier.found c) = some column)
    (hvalues : ∀ position, sendFrom position values = .ok ()) :
    (Command.select (Statement.query (.whole table (.compare c .eq o)))).run values t =
      .ok (t, .rows columnTitles
        ((t.rows.filter (passes (some (Predicate.compare c .eq o).expr))).map Item.cells)) := by
  have hfault : (Command.select (Statement.query (.whole table (.compare c .eq o)))).fault? t =
      none := by
    have hparts : (Statement.query (.whole table (.compare c .eq o))).parts =
        [(Predicate.compare c .eq o).expr] := rfl
    have hexpr (i : Item) : (Predicate.compare c .eq o).expr.fault? i = none := by
      cases o <;> rfl
    unfold Command.fault?
    dsimp only
    split
    · rfl
    · rw [hparts, List.findSome?_eq_none_iff]
      intro i _
      rw [List.findSome?_cons, hexpr]
      rfl
  have hshown : (Statement.query (.whole table (.compare c .eq o))).answer t =
      .ok (.rows columnTitles
        (((Statement.query (.whole table (.compare c .eq o))).rows none 0 t).map Item.cells)) := rfl
  rw [Command.run, check_select htable hc, ok_bind, Command.runChecked, send, hvalues, ok_bind]
  simp only [Command.settled, settled_whole, hfault, Command.perform, hshown, rows_whole]
  rfl

end Selection

/-! ## Reads that succeed -/

section Scan

variable {backendSchema : Option String} {table c : String} {w : Value} {o : Operand}
  {column : ItemColumn} {values : List Value}

/-- The read of the rows with one value has a statement. -/
theorem built_scan (hp : Predicate.ofComparison (equality c w) = .ok (.compare c .eq o))
    (htest : IsIdTest (.compare c .eq o)) :
    Statement.built backendSchema
      (.filteredScan (.text table) [.starter ⟨.where_, .comparison (equality c w)⟩]) =
        .ok (.select (.whole (tableName backendSchema (.text table)) (.compare c .eq o))) := by
  have hcondition : Condition.ofSteps [.starter ⟨.where_, .comparison (equality c w)⟩] =
      .ok (some (.atom (.compare c .eq o))) := by
    simp only [Condition.ofSteps, List.foldlM_cons, List.foldlM_nil, Condition.afterStep,
      Predicate.ofClause, hp]
    rfl
  have hoperation : Statement.ofOperation backendSchema
      (.filteredScan (.text table) [.starter ⟨.where_, .comparison (equality c w)⟩]) =
        .ok (.select (.whole (tableName backendSchema (.text table)) (.compare c .eq o))) := by
    rw [Statement.ofOperation, selectionOf, hcondition]
    rfl
  rw [Statement.built, hoperation, ok_bind, Statement.draft_whole, htest.isAmbiguous]
  rfl

/-- A selection whose values can be sent shows the rows that pass. -/
theorem runStatement_select {table : TableName} {t : Items} (htable : table.target.isItems = true)
    (hc : ItemColumn.find? (Identifier.found c) = some column) (ho : o.IsSendable)
    (hvalues : ∀ position, sendFrom position values = .ok ()) :
    runStatement (.select (.whole table (.compare c .eq o)))
      ⟨(Statement.select (.whole table (.compare c .eq o))).draft.text, values⟩ t =
        .ok (t, .rows columnTitles
          ((t.rows.filter (passes (some (Predicate.compare c .eq o).expr))).map Item.cells)) := by
  have hknown : IsKnown c := isKnown_column (by rw [hc]; rfl)
  have hdirect : (Statement.select (.whole table (.compare c .eq o))).isDirect = true :=
    Statement.isDirect_select htable (ho.isIdTest hknown) ho.isDirect
  have hcommand : (Statement.select (.whole table (.compare c .eq o))).command? =
      some (.select (Statement.query (.whole table (.compare c .eq o)))) := rfl
  rw [runStatement, (isWhole_select htable hknown ho).any_eq_false, if_neg Bool.false_ne_true,
    hcommand]
  dsimp only
  rw [if_pos hdirect, run_select_ok htable hc hvalues]

/-- **A read by a predicate whose value can be sent succeeds**, and shows the rows that pass. -/
theorem run_scan_ok {d : Database}
    (htable : (tableName backendSchema (.text table)).target.isItems = true)
    (hc : ItemColumn.find? (Identifier.found c) = some column)
    (hp : Predicate.ofComparison (equality c w) = .ok (.compare c .eq o)) (ho : o.IsSendable) :
    ∃ d', d.run backendSchema
      (.filteredScan (.text table) [.starter ⟨.where_, .comparison (equality c w)⟩]) =
        (.ok (.list ((d.items.rows.filter (passes (some (Predicate.compare c .eq o).expr))).map
          fun i => .object i.fields)), d') := by
  have htest := ho.isIdTest (isKnown_column (by rw [hc]; rfl))
  obtain ⟨values, hvalues, hsend⟩ := values_select ho
  have hprepared : (Statement.select
      (.whole (tableName backendSchema (.text table)) (.compare c .eq o))).prepared =
        .ok ⟨(Statement.select
          (.whole (tableName backendSchema (.text table)) (.compare c .eq o))).draft.text, values⟩ := by
    exact (Draft.prepared_eq_ok_iff (Statement.isPlain_select htable htest)).2 ⟨rfl, hvalues⟩
  have hanswer := rowsValue_columns
    (.filteredScan (.text table) [.starter ⟨.where_, .comparison (equality c w)⟩])
    (d.items.rows.filter (passes (some (Predicate.compare c .eq o).expr)))
  unfold Database.run
  simp only [built_scan hp htest, hprepared, runStatement_select htable hc ho hsend]
  exact ⟨_, Prod.ext hanswer rfl⟩

end Scan

end RowAccess.Sql
