import RowAccess.Proofs.Sql.Sentence

/-
  RowAccess/Proofs/Sql/Database.lean
  ==================================
  **What operations with one predicate do to a database.**  A read, a deletion and an update that test
  one column for one value build one predicate.  Where the read succeeds the predicate compares with
  nothing that stands in the statement as a text, so that all three run as the commands that they are
  (`run_scan`, `run_deletion`, `run_edition`).
-/

namespace RowAccess.Sql

open Outcome

variable {backendSchema : Option String} {o : Operation} {d d' : Database} {v : Value}

/-! ## Runs that succeed -/

theorem Statement.ofOperation_of_built {s : Statement} (h : built backendSchema o = .ok s) :
    ofOperation backendSchema o = .ok s := by
  obtain ⟨s', hs, h⟩ := bind_eq_ok_iff.1 h
  dsimp only at h
  split at h
  · cases h
  · cases h
    exact hs

/-- An operation that succeeded ran as a statement, and its answer is the one of the statement. -/
theorem Database.run_eq_ok (h : d.run backendSchema o = (.ok v, d')) :
    ∃ s p answer, Statement.built backendSchema o = .ok s ∧ s.prepared = .ok p ∧
      runStatement s p d.items = .ok (d'.items, answer) ∧ answerValue o s answer = .ok v := by
  unfold Database.run at h
  split at h
  · cases h
  · next s hbuilt =>
    split at h
    · cases h
    · next p hprepared =>
      dsimp only at h
      split at h
      · cases h
      · next items answer hrun =>
        obtain ⟨hanswer, rfl⟩ := Prod.mk.inj h
        exact ⟨s, p, answer, hbuilt, hprepared, hrun, hanswer⟩

/-- A statement that ran holds no null character. -/
theorem toNat_ne_zero_of_runStatement {s : Statement} {p : Prepared} {t u : Items} {a : Answer}
    (h : runStatement s p t = .ok (u, a)) : ∀ c ∈ p.text.toList, c.toNat ≠ 0 := by
  intro c hc hzero
  have hnull : (p.text.toList.any fun c => c.toNat = 0) = true :=
    List.any_eq_true.2 ⟨c, hc, decide_eq_true hzero⟩
  rw [runStatement, if_pos hnull] at h
  cases h

/-- A statement that ran was run as the command that it is, or else as its text. -/
theorem runStatement_eq_ok {s : Statement} {p : Prepared} {t u : Items} {a : Answer} {c : Command}
    (hc : s.command? = some c) (h : runStatement s p t = .ok (u, a)) :
    if s.isDirect then c.run p.values t = .ok (u, a) else runText p t = .ok (u, a) := by
  unfold runStatement at h
  split at h
  · cases h
  · rw [hc] at h
    dsimp only at h
    split at h
    · next hdirect => rwa [if_pos hdirect]
    · next hdirect => rwa [if_neg hdirect]

/-- A plain draft is sent with its own text and values, and answers as they do. -/
theorem Database.run_of_isPlain {s : Statement} {values : List Value}
    (hs : Statement.built backendSchema o = .ok s) (hdraft : s.prepared = s.draft.prepared)
    (hplain : s.draft.isPlain = true) (hvalues : s.draft.values = .ok values) :
    (d.run backendSchema o).1 =
      match runStatement s ⟨s.draft.text, values⟩ d.items with
      | .error r => .error (r.fault o)
      | .ok (_, answer) => answerValue o s answer := by
  have hsent : s.prepared = .ok ⟨s.draft.text, values⟩ :=
    hdraft.trans ((Draft.prepared_eq_ok_iff hplain).2 ⟨rfl, hvalues⟩)
  unfold Database.run
  simp only [hs, hsent]
  cases runStatement s ⟨s.draft.text, values⟩ d.items <;> rfl

/-- A statement that is read as it is meant runs as the command that it is. -/
theorem runStatement_of_isDirect {s : Statement} {p : Prepared} {c : Command} {t : Items}
    (hc : s.command? = some c) (hdirect : s.isDirect = true)
    (hnull : (p.text.toList.any fun c => c.toNat = 0) = false) :
    runStatement s p t = c.run p.values t := by
  rw [runStatement, hnull, if_neg Bool.false_ne_true, hc]
  dsimp only
  rw [if_pos hdirect]

/-! ## The predicate -/

section Predicate

variable {c : String} {w : Value} {p : Predicate}

/-- The comparison of a column with a value. -/
def equality (c : String) (w : Value) : Comparison :=
  ⟨.text c, .eq, w⟩

/-- A column is compared with a value, with nothing or with a date that stands in the statement. -/
theorem ofComparison_equality (hc : IsKnown c) (hw : (Operand.ofValue w).IsPlainDate)
    (h : Predicate.ofComparison (equality c w) = .ok p) :
    IsIdTest p ∧ (p.isDirect = false → ∃ literal format, '\'' ∉ literal.toList ∧
      '\'' ∉ format.toList ∧ p = .compare c .eq (.verbatim (dateCall literal format))) := by
  have hequal (o : Operand) (ho : o.IsPlainDate) : IsIdTest (.compare c .eq o) ∧
      ((Predicate.compare c .eq o).isDirect = false → ∃ literal format, '\'' ∉ literal.toList ∧
        '\'' ∉ format.toList ∧
          Predicate.compare c .eq o = .compare c .eq (.verbatim (dateCall literal format))) := by
    refine ⟨.equal hc ho.isClean, ?_⟩
    intro hdirect
    cases ho with
    | bound q v => cases hdirect
    | @date literal format hliteral hformat _ => exact ⟨literal, format, hliteral, hformat, rfl⟩
  cases w with
  | null =>
    cases h
    exact ⟨.absent hc, by rintro ⟨⟩⟩
  | bool b =>
    cases h
    exact ⟨.equal hc trivial, by rintro ⟨⟩⟩
  | _ =>
    obtain ⟨⟨⟩, -, h⟩ := bind_eq_ok_iff.1 h
    cases h
    exact hequal _ hw

/-- The selection of the rows that the clause of a starter accepts. -/
theorem ofOperation_starter {table : Value} {starter : Starter} {s : Statement}
    (h : Statement.ofOperation backendSchema (.filteredScan table [.starter starter]) = .ok s) :
    ∃ p, Predicate.ofClause starter.clause = .ok p ∧
      s = .select (.whole (tableName backendSchema table)
        (if starter.kind.isNegated then p.negate else p)) := by
  obtain ⟨selection, hselection, h⟩ := bind_eq_ok_iff.1 h
  cases h
  obtain ⟨condition, hcondition, h⟩ := bind_eq_ok_iff.1 hselection
  obtain ⟨limit, hlimit, h⟩ := bind_eq_ok_iff.1 h
  obtain ⟨⟨⟩, -, h⟩ := bind_eq_ok_iff.1 h
  cases hlimit
  cases h
  obtain ⟨after, hafter, hcondition⟩ := bind_eq_ok_iff.1 hcondition
  cases hcondition
  obtain ⟨p, hp, hafter⟩ := bind_eq_ok_iff.1 hafter
  cases hafter
  exact ⟨p, hp, rfl⟩

theorem ofOperation_scan {table : Value} {s : Statement}
    (h : Statement.ofOperation backendSchema
      (.filteredScan table [.starter ⟨.where_, .comparison (equality c w)⟩]) = .ok s) :
    ∃ p, Predicate.ofComparison (equality c w) = .ok p ∧
      s = .select (.whole (tableName backendSchema table) p) :=
  ofOperation_starter h

theorem ofOperation_deletion {table : Value} {s : Statement}
    (hp : Predicate.ofComparison (equality c w) = .ok p)
    (h : Statement.ofOperation backendSchema (.delete table (.comparison (equality c w))) = .ok s) :
    s = .delete (tableName backendSchema table) (some p) := by
  obtain ⟨q, hq, h⟩ := bind_eq_ok_iff.1 h
  obtain ⟨⟨⟩, -, h⟩ := bind_eq_ok_iff.1 h
  cases hp.symm.trans hq
  cases h
  rfl

theorem ofOperation_edition {table : Value} {record : Fields} {s : Statement}
    (hp : Predicate.ofComparison (equality c w) = .ok p)
    (h : Statement.ofOperation backendSchema
      (.update table (.comparison (equality c w)) record) = .ok s) :
    s = .update (tableName backendSchema table) (entriesOf record) p := by
  obtain ⟨q, hq, h⟩ := bind_eq_ok_iff.1 h
  obtain ⟨⟨⟩, -, h⟩ := bind_eq_ok_iff.1 h
  obtain ⟨⟨⟩, -, h⟩ := bind_eq_ok_iff.1 h
  cases hp.symm.trans hq
  cases h
  rfl

end Predicate

/-! ## Entries of an update -/

section Entries

variable {record : Fields}

/-- Are the cells those that the entries of a record ask for, each under its column? -/
def AsksFor (record : Fields) (cells : List (ItemColumn × Cell)) : Prop :=
  List.Forall₂
    (fun e x => ItemColumn.find? (Identifier.found e.1) = some x.1 ∧
      Cell.ofValue (Predicate.bindable e.2) = .ok x.2)
    record cells

theorem stored_of_isBound (h : (Operand.stored v).isBound = true) :
    Operand.stored v = .bound .plain (Predicate.bindable v) := by
  cases v with
  | dateLiteral l =>
    by_cases hraw : l.raw = true
    · simp [Operand.stored, hraw, Operand.isBound] at h
    · simp [Operand.stored, hraw, Predicate.bindable]
  | _ => rfl

theorem mem_values {b : Draft} {c : String} {values : List Value} (hc : c ≠ "")
    (hb : .single (.entry c) .plain v ∈ b) (h : b.values = .ok values) : v ∈ values := by
  obtain ⟨pieces, hpieces, h⟩ := bind_eq_ok_iff.1 h
  obtain ⟨pairs, hpairs, hpiece⟩ := exists_mem_of_mapM hpieces hb
  have hsingle : (Piece.single (.entry c) .plain v).values = .ok [(.plain, v)] := by
    unfold Piece.values
    split
    · next h => cases h
    · next h =>
      cases h
      exact absurd rfl hc
    · next h =>
      cases h
      rfl
    · next h => cases h
  cases hsingle.symm.trans hpiece
  have hmem : (Preparation.plain, v) ∈ pieces.flatten :=
    List.mem_flatten.2 ⟨_, hpairs, List.mem_cons_self⟩
  obtain ⟨w, hw, happly⟩ := exists_mem_of_mapM h hmem
  cases happly
  exact hw

theorem piece_mem_entryPieces {before : String → String} {entries : List (String × Operand)}
    {e : String × Operand} (he : e ∈ entries) :
    e.2.piece (.entry e.1) ∈ entryPieces before entries := by
  induction entries with
  | nil => cases he
  | cons e' entries ih =>
    cases entries with
    | nil =>
      obtain rfl := List.mem_singleton.1 he
      exact List.mem_cons_of_mem _ List.mem_cons_self
    | cons e'' entries =>
      rw [AreKnown.entryPieces_cons]
      rcases List.mem_cons.1 he with rfl | he
      · exact List.mem_cons_of_mem _ List.mem_cons_self
      · exact List.mem_cons_of_mem _ (List.mem_cons_of_mem _ (List.mem_cons_of_mem _ (ih he)))

/-- The cells that bound entries put into a row, whatever the row. -/
theorem exists_entryCells
    (h : ∀ e ∈ record, ∃ column cell, ItemColumn.find? (Identifier.found e.1) = some column ∧
      (Operand.stored e.2).isBound = true ∧ Cell.ofValue (Predicate.bindable e.2) = .ok cell) :
    ∃ cells, AsksFor record cells ∧
      ∀ i, entryCells (Statement.entryExprs (entriesOf record)) i = cells := by
  induction record with
  | nil => exact ⟨[], .nil, fun _ => rfl⟩
  | cons e record ih =>
    obtain ⟨cells, hcells, hentries⟩ := ih fun e he => h e (List.mem_cons_of_mem _ he)
    obtain ⟨column, cell, hcolumn, hbound, hcell⟩ := h e List.mem_cons_self
    refine ⟨(column, cell) :: cells, .cons ⟨hcolumn, hcell⟩ hcells, fun i => ?_⟩
    have hexpr : (Operand.stored e.2).expr.cell i = cell := by
      have hsent : Operand.sentCell .plain (Predicate.bindable e.2) = cell := by
        simp [Operand.sentCell, Preparation.apply, hcell, Except.toOption]
      rw [stored_of_isBound hbound, Operand.expr, hsent]
      rfl
    have hfirst : entryCells (Statement.entryExprs (entriesOf (e :: record))) i =
        (column, cell) :: entryCells (Statement.entryExprs (entriesOf record)) i := by
      have hcells : (ItemColumn.find? (Identifier.found e.1)).map
          (fun c => (c, (Operand.stored e.2).expr.cell i)) = some (column, cell) := by
        rw [hcolumn, hexpr]
        rfl
      exact List.filterMap_cons_some hcells
    rw [hfirst, hentries i]

/-- The cells that a statement asks for, where it sends the values of its entries. -/
theorem exists_asked {before : String → String} {b : Draft} {values : List Value}
    (hpieces : ∀ p ∈ entryPieces before (entriesOf record), p ∈ b) (hvalues : b.values = .ok values)
    (hsent : ∀ w ∈ values, ∃ cell, Cell.ofValue w = .ok cell)
    (hdirect : Statement.areDirect (entriesOf record) = true)
    (hcolumns : ∀ e ∈ record, (ItemColumn.find? (Identifier.found e.1)).isSome = true) :
    ∃ cells, AsksFor record cells ∧
      ∀ i, entryCells (Statement.entryExprs (entriesOf record)) i = cells := by
  refine exists_entryCells fun e he => ?_
  have hmem : (e.1, Operand.stored e.2) ∈ entriesOf record := List.mem_map_of_mem he
  have hbound : (Operand.stored e.2).isBound = true := List.all_eq_true.1 hdirect _ hmem
  have hpiece := hpieces _ (piece_mem_entryPieces hmem)
  rw [stored_of_isBound hbound] at hpiece
  obtain ⟨cell, hcell⟩ :=
    hsent _ (mem_values (isKnown_column (hcolumns e he)).ne_empty hpiece hvalues)
  obtain ⟨column, hcolumn⟩ := Option.isSome_iff_exists.1 (hcolumns e he)
  exact ⟨column, cell, hcolumn, hbound, hcell⟩

end Entries

/-! ## Operations -/

section Operations

variable {c : String} {w : Value} {p : Predicate} {table : Value} {record : Fields}

/-- A row as values under the titles of the columns. -/
def Item.fields (i : Item) : Fields :=
  columnTitles.zip (i.cells.map Cell.toValue)

/-- Rows under distinct titles are shown as values. -/
theorem rowsValue_of_distinct (o : Operation) {titles : List String}
    (h : repeatedName? titles = none) (rows : List (List Cell)) :
    rowsValue o titles rows =
      .ok (.list (rows.map fun row => .object (titles.zip (row.map Cell.toValue)))) := by
  have hrows : rows.mapM (fun row =>
      (Except.ok (.object (titles.zip (row.map Cell.toValue))) : Except Fault Value)) =
      .ok (rows.map fun row => .object (titles.zip (row.map Cell.toValue))) :=
    mapM_eq_ok fun _ _ => rfl
  rw [rowsValue]
  simp only [h]
  rw [hrows]
  rfl

theorem rowsValue_columns (o : Operation) (rows : List Item) :
    rowsValue o columnTitles (rows.map Item.cells) =
      .ok (.list (rows.map fun i => .object i.fields)) := by
  rw [rowsValue_of_distinct o (by decide), List.map_map]
  rfl

/-- **A read of the rows with one value.**  Where it succeeds its predicate is read as it is meant, the
table stays as it is, and the answer holds the rows that pass. -/
theorem run_scan (htable : (tableName backendSchema table).target.isItems = true) (hc : IsKnown c)
    (hw : (Operand.ofValue w).IsPlainDate)
    (h : d.run backendSchema (.filteredScan table [.starter ⟨.where_, .comparison (equality c w)⟩]) =
      (.ok v, d')) :
    ∃ p, Predicate.ofComparison (equality c w) = .ok p ∧ p.isDirect = true ∧ d'.items = d.items ∧
      v = .list ((d.items.rows.filter (passes (some p.expr))).map fun i => .object i.fields) := by
  obtain ⟨s, sent, answer, hs, hprepared, hrun, hanswer⟩ := Database.run_eq_ok h
  obtain ⟨p, hp, rfl⟩ := ofOperation_scan (Statement.ofOperation_of_built hs)
  obtain ⟨htest, hdate⟩ := ofComparison_equality hc hw hp
  obtain ⟨htext, -⟩ := (Draft.prepared_eq_ok_iff (Statement.isPlain_select htable htest)).1 hprepared
  have hrun := runStatement_eq_ok rfl hrun
  by_cases hdirect : p.isDirect = true
  · rw [if_pos (Statement.isDirect_select htable htest hdirect)] at hrun
    obtain ⟨hitems, rfl⟩ := run_select hrun
    refine ⟨p, hp, hdirect, hitems, ?_⟩
    have hrows := rowsValue_columns
      (.filteredScan table [.starter ⟨.where_, .comparison (equality c w)⟩])
      (d.items.rows.filter (passes (some p.expr)))
    exact Except.ok.inj (hanswer.symm.trans hrows)
  · rw [Bool.not_eq_true] at hdirect
    obtain ⟨literal, format, hliteral, hformat, rfl⟩ := hdate hdirect
    have hindirect : (Statement.select (.whole (tableName backendSchema table)
        (.compare c .eq (.verbatim (dateCall literal format))))).isDirect = false := rfl
    rw [hindirect, if_neg Bool.false_ne_true] at hrun
    obtain ⟨text, values⟩ := sent
    obtain rfl : text = _ := htext
    exact absurd hrun (runText_select_date (isKnown_table htable) hc hliteral hformat)

/-- **A deletion by a predicate** counts the rows that pass and keeps the others. -/
theorem run_deletion (htable : (tableName backendSchema table).target.isItems = true)
    (hp : Predicate.ofComparison (equality c w) = .ok p) (htest : IsIdTest p)
    (hdirect : p.isDirect = true)
    (h : d.run backendSchema (.delete table (.comparison (equality c w))) = (.ok v, d')) :
    v = .int (d.items.rows.filter (passes (some p.expr))).length ∧
      d'.items = d.items.keep fun i => !passes (some p.expr) i := by
  obtain ⟨s, sent, answer, hs, hprepared, hrun, hanswer⟩ := Database.run_eq_ok h
  obtain rfl := ofOperation_deletion hp (Statement.ofOperation_of_built hs)
  have hrun := runStatement_eq_ok rfl hrun
  rw [if_pos (Statement.isDirect_delete htable htest hdirect)] at hrun
  obtain ⟨hitems, rfl⟩ := run_delete hrun
  cases hanswer
  exact ⟨rfl, hitems⟩

/-- Are the rows those before, except that each that was hit has the cells that are asked for, as their
columns store them?  Of several cells for one column the last counts. -/
def IsEdited (cells : List (ItemColumn × Cell)) (hit : Item → Bool) (before after : List Item) :
    Prop :=
  ∃ change : Item → Item,
    (∀ i ∈ before.filter hit, ∀ column, (change i).cell column =
      ((Keyed.find? cells.reverse column).map column.affinity.apply).getD (i.cell column)) ∧
    after.Perm (before.map fun i => if hit i then change i else i)

theorem areKnown_entriesOf
    (hcolumns : ∀ e ∈ record, (ItemColumn.find? (Identifier.found e.1)).isSome = true)
    (hdates : ∀ e ∈ record, (Operand.stored e.2).IsPlainDate)
    (hnodup : (Keyed.keys record).Nodup) : AreKnown (entriesOf record) where
  known := by
    intro e he
    obtain ⟨e', he', rfl⟩ := List.mem_map.1 he
    exact isKnown_column (hcolumns e' he')
  clean := by
    intro e he
    obtain ⟨e', he', rfl⟩ := List.mem_map.1 he
    exact (hdates e' he').isClean
  nodup := by
    rw [entriesOf, List.map_map]
    exact hnodup

/-- **An update by a predicate** counts the rows that pass and changes them as the record asks. -/
theorem run_edition (htable : (tableName backendSchema table).target.isItems = true)
    (hp : Predicate.ofComparison (equality c w) = .ok p) (htest : IsIdTest p)
    (hdirect : p.isDirect = true)
    (hcolumns : ∀ e ∈ record, (ItemColumn.find? (Identifier.found e.1)).isSome = true)
    (hdates : ∀ e ∈ record, (Operand.stored e.2).IsPlainDate)
    (hnodup : (Keyed.keys record).Nodup)
    (h : d.run backendSchema (.update table (.comparison (equality c w)) record) = (.ok v, d')) :
    v = .int (d.items.rows.filter (passes (some p.expr))).length ∧
      ∃ cells, AsksFor record cells ∧
        IsEdited cells (passes (some p.expr)) d.items.rows d'.items.rows := by
  have hentries := areKnown_entriesOf hcolumns hdates hnodup
  obtain ⟨s, sent, answer, hs, hprepared, hrun, hanswer⟩ := Database.run_eq_ok h
  obtain rfl := ofOperation_edition hp (Statement.ofOperation_of_built hs)
  obtain ⟨htext, hvalues⟩ :=
    (Draft.prepared_eq_ok_iff (Statement.isPlain_update htable hentries htest)).1 hprepared
  have hrun := runStatement_eq_ok rfl hrun
  by_cases hnone : entriesOf record = [] ∨ Statement.areDirect (entriesOf record) = false
  · have hindirect : (Statement.update (tableName backendSchema table) (entriesOf record) p).isDirect =
        false := by
      rw [Statement.isDirect, Statement.hasForm]
      rcases hnone with hnone | hnone
      · rw [hnone]
        rfl
      · simp [hnone]
    rw [hindirect, if_neg Bool.false_ne_true] at hrun
    obtain ⟨text, values⟩ := sent
    obtain rfl : text = _ := htext
    refine absurd hrun (runText_update (isKnown_table htable) hentries.known ?_ hnone)
    intro e he
    obtain ⟨e', he', rfl⟩ := List.mem_map.1 he
    exact hdates e' he'
  · rw [not_or, Bool.not_eq_false] at hnone
    obtain ⟨hne, hbound⟩ := hnone
    rw [if_pos (Statement.isDirect_update htable hentries htest hne hbound hdirect)] at hrun
    obtain ⟨hrows, rfl⟩ := run_update hrun
    cases hanswer
    refine ⟨rfl, ?_⟩
    have hpieces : ∀ q ∈ entryPieces (fun c => Identifier.text c ++ "=") (entriesOf record),
        q ∈ (Statement.update (tableName backendSchema table) (entriesOf record) p).draft :=
      fun q hq => List.mem_cons_of_mem _ (List.mem_append_left _ hq)
    obtain ⟨cells, hcells, hentryCells⟩ :=
      exists_asked hpieces hvalues (Command.exists_cell hrun) hbound hcolumns
    obtain ⟨hupdated, hperm⟩ := updateRows_perm hrows
    refine ⟨cells, hcells, rowAfter _, ?_, hperm⟩
    intro i hi column
    rw [cell_updatedRow (hupdated i hi), hentryCells]

end Operations

end RowAccess.Sql
