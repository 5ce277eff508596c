import RowAccess.Proofs.Sql.Database
import RowAccess.Proofs.Sql.Insertion
import RowAccess.Proofs.Sql.Values

/-
  RowAccess/Proofs/Sql/NewRow.lean
  ================================
  **What the insertion of a record does to a database.**  Where it succeeds no date stands among its
  values, so that it runs as the command that it is.  It adds one row with the cells of the record, and
  it answers the value that the record gives the id column, or else the id of the row
  (`run_insertion`).
-/

namespace RowAccess.Sql

open Outcome

/-! ## Insertions that are read as they are meant -/

theorem isClean_intercalate {texts : List String} (h : ∀ s ∈ texts, IsClean s) :
    IsClean (", ".intercalate texts) := by
  induction texts with
  | nil => decide
  | cons s texts ih =>
    obtain ⟨hs, htexts⟩ := List.forall_mem_cons.1 h
    cases texts with
    | nil => exact hs
    | cons s' texts =>
      rw [String.intercalate_cons_cons]
      exact (hs.append (by decide)).append (ih htexts)

namespace Statement

variable {table : TableName} {entries : List (String × Operand)} {returning : Option String}

theorem isCalm_endPieces (hreturning : ∀ c ∈ returning, IsKnown c) :
    ∀ p ∈ endPieces returning, Draft.IsCalm p := by
  intro p hp
  cases returning with
  | none => cases hp
  | some c =>
    obtain rfl := List.mem_singleton.1 hp
    have hwords : IsClean " RETURNING " := by decide
    exact hwords.append (hreturning c rfl).isClean

theorem namedSlots_endPieces (returning : Option String) (labels : List Label) :
    Draft.namedSlots (endPieces returning) labels = [] := by
  cases returning with
  | none => rfl
  | some c => rfl

theorem isPlain_insert (htable : table.target.isItems = true) (hentries : AreKnown entries)
    (hreturning : ∀ c ∈ returning, IsKnown c) :
    (insert table entries returning).draft.isPlain = true := by
  have hfront : IsClean ("INSERT INTO " ++ table.text) := .append (by decide) (isClean_table htable)
  rw [draft_insert]
  by_cases hempty : entries.isEmpty = true
  · rw [if_pos hempty]
    have hwords : IsClean ("INSERT INTO " ++ table.text ++ " DEFAULT VALUES") :=
      hfront.append (by decide)
    refine Draft.isPlain_of_nodup ?_ ?_
    · exact List.forall_mem_cons.2 ⟨hwords, isCalm_endPieces hreturning⟩
    · show ((Draft.namedSlots (endPieces returning) []).map _).Nodup
      rw [namedSlots_endPieces]
      exact List.nodup_nil
  · rw [if_neg hempty]
    have hnames : IsClean (", ".intercalate (entries.map fun e => Identifier.text e.1)) := by
      refine isClean_intercalate fun s hs => ?_
      obtain ⟨e, he, rfl⟩ := List.mem_map.1 hs
      exact (hentries.known e he).isClean
    have hwords : IsClean ("INSERT INTO " ++ table.text ++ " (" ++
        ", ".intercalate (entries.map fun e => Identifier.text e.1) ++ ") VALUES (") :=
      ((hfront.append (by decide)).append hnames).append (by decide)
    refine Draft.isPlain_of_nodup ?_ ?_
    · intro p hp
      rcases List.mem_append.1 hp with hp | hp
      · rcases List.mem_append.1 hp with hp | hp
        · rcases List.mem_cons.1 hp with rfl | hp
          · exact hwords
          · rcases AreKnown.mem_entryPieces hp with rfl | ⟨e, he, rfl | rfl⟩
            · show IsClean ", "
              decide
            · show IsClean ""
              decide
            · exact Operand.isCalm_piece (hentries.clean e he) _
        · obtain rfl := List.mem_singleton.1 hp
          show IsClean ")"
          decide
      · exact isCalm_endPieces hreturning p hp
    · obtain ⟨labels, hslots⟩ := AreKnown.namedSlots_pieces hentries.known (fun _ => "")
        (.words ")" :: endPieces returning) []
      have hsame : Draft.slots (.words ("INSERT INTO " ++ table.text ++ " (" ++
          ", ".intercalate (entries.map fun e => Identifier.text e.1) ++ ") VALUES (") ::
            entryPieces (fun _ => "") entries ++ [.words ")"] ++ endPieces returning) =
          AreKnown.slots entries ++ Draft.namedSlots (endPieces returning) labels := by
        rw [List.append_assoc]
        exact hslots
      rw [hsame, namedSlots_endPieces, List.append_nil, hentries.map_escaped_slots]
      exact hentries.nodup_bound

theorem isDirect_insert (htable : table.target.isItems = true) (hentries : AreKnown entries)
    (hreturning : ∀ c ∈ returning, IsKnown c) (hbound : areDirect entries = true) :
    (insert table entries returning).isDirect = true := by
  have hnames : (insert table entries returning).names =
      table.names ++ entries.map (·.1) ++ returning.toList := rfl
  have hform : (insert table entries returning).hasForm = true := by
    simp only [hasForm, hbound, hentries.any_isEmpty, Bool.not_false, Bool.and_true]
  have hend : returning.toList.all isReadable = true := by
    refine List.all_eq_true.2 fun c hc => ?_
    exact (hreturning c (Option.mem_toList.1 hc)).isReadable
  rw [isDirect, hform, hnames, List.all_append, List.all_append, areReadable_table htable,
    hentries.all_isReadable, hend, isPlain_insert htable hentries hreturning]
  rfl

theorem mem_draft_insert {q : Piece} (hq : q ∈ entryPieces (fun _ => "") entries) :
    q ∈ (insert table entries returning).draft := by
  have hsome : entries.isEmpty = false := by
    cases entries with
    | nil => cases hq
    | cons e others => rfl
  rw [draft_insert, hsome, if_neg Bool.false_ne_true]
  exact List.mem_append_left _ (List.mem_append_left _ (List.mem_cons_of_mem _ hq))

end Statement

/-! ## Running an insertion -/

theorem Expr.IsValue.detached {e : Expr} (h : e.IsValue) : e.detached = e := by
  cases h with
  | bound c => rfl
  | literal c => rfl

section Command

variable {entries : List (String × Operand)} {returning : Option String} {values : List Value}
  {target : Target} {t u : Items} {a : Answer}

/-- The cells of a new row are those of its entries. -/
theorem newCells_entries (entries : List (String × Operand)) :
    newCells (entries.map fun (c, _) => Identifier.found c) (entries.map fun (_, o) => o.expr) =
      entryCells (Statement.entryExprs entries) (.blank 0) := by
  have hdetached : (entries.map fun (_, o) => o.expr).map Expr.detached =
      entries.map fun (_, o) => o.expr := by
    rw [List.map_map]
    exact List.map_congr_left fun e _ => e.2.isValue_expr.detached
  rw [newCells, hdetached, List.zip_map', Statement.entryExprs]

/-- An insertion adds the row of its entries and tells its id. -/
theorem run_insert
    (h : (Command.insert target (entries.map fun (c, _) => Identifier.found c)
      (if entries.isEmpty then [] else [entries.map fun (_, o) => o.expr])
      (returning.map Predicate.columnExpr)).run values t = .ok (u, a)) :
    ∃ item, insertRow (entryCells (Statement.entryExprs entries) (.blank 0)) t = .ok (u, item) ∧
      a = .inserted item.id (returning.map fun c => (Predicate.columnExpr c).cell item) := by
  obtain ⟨-, h⟩ := Command.run_eq_ok h
  have hrows : (if entries.isEmpty then [] else [entries.map fun (_, o) => o.expr]).map
      (fun values => values.map (Expr.settled t)) =
      if entries.isEmpty then [] else [entries.map fun (_, o) => o.expr] := by
    split
    · rfl
    · rw [List.map_singleton, List.map_map]
      exact congrArg (· :: []) (List.map_congr_left fun e _ => e.2.isValue_expr.settled t)
  have hreturning : (returning.map Predicate.columnExpr).map (Expr.settled t) =
      returning.map Predicate.columnExpr := by
    cases returning with
    | none => rfl
    | some c => rfl
  simp only [Command.settled, hrows, hreturning, Command.perform] at h
  obtain ⟨⟨u', item⟩, hinsert, h⟩ := bind_eq_ok_iff.1 h
  cases h
  refine ⟨item, ?_, by rw [Option.map_map]; rfl⟩
  cases entries with
  | nil => exact hinsert
  | cons e entries =>
    obtain ⟨⟨u', item'⟩, hfirst, hlast⟩ := bind_eq_ok_iff.1 hinsert
    cases hlast
    rw [← newCells_entries]
    exact hfirst

end Command

section Record

variable {record : Fields} {c : String}
  (hc : ItemColumn.find? (Identifier.found c) = some .id)

include hc

theorem isKnown_of_mem_returningOf : ∀ c' ∈ returningOf record (.text c), IsKnown c' := by
  intro c' hc'
  unfold returningOf at hc'
  dsimp only at hc'
  split at hc'
  · cases hc'
  · cases hc'
    exact isKnown_column (by rw [hc]; rfl)

/-- The id column is asked for where the record has no value for it, and is the id of the row. -/
theorem insertedId_returningOf (item : Item) :
    insertedId record (.text c) item.id
      ((returningOf record (.text c)).map fun c' => (Predicate.columnExpr c').cell item) =
        (Keyed.find? record c).getD (.int item.id) := by
  rw [insertedId]
  cases hfind : Keyed.find? record c with
  | some v => rfl
  | none =>
    have hhas : Keyed.has record c = false := by rw [Keyed.has, hfind]; rfl
    rw [returningOf, hhas, if_neg Bool.false_ne_true, Option.map_some, cell_columnExpr hc]
    rfl

end Record

/-- **An insertion of a record** adds a row with the cells that the record asks for.  It answers the
value that the record gives the id column, or else the id of the row. -/
theorem run_insertion {backendSchema : Option String} {d d' : Database} {table v : Value}
    {record : Fields} {c : String}
    (htable : (tableName backendSchema table).target.isItems = true)
    (hc : ItemColumn.find? (Identifier.found c) = some .id)
    (hcolumns : ∀ e ∈ record, (ItemColumn.find? (Identifier.found e.1)).isSome = true)
    (hdates : ∀ e ∈ record, (Operand.stored e.2).IsPlainDate)
    (hnodup : (Keyed.keys record).Nodup)
    (h : d.run backendSchema (.insert table record (.text c)) = (.ok v, d')) :
    ∃ cells item, AsksFor record cells ∧ insertRow cells d.items = .ok (d'.items, item) ∧
      v = (Keyed.find? record c).getD (.int item.id) := by
  have hentries := areKnown_entriesOf hcolumns hdates hnodup
  have hreturning : ∀ c' ∈ returningOf record (.text c), IsKnown c' := isKnown_of_mem_returningOf hc
  obtain ⟨s, sent, answer, hs, hprepared, hrun, hanswer⟩ := Database.run_eq_ok h
  obtain ⟨⟨⟩, -, hs⟩ := bind_eq_ok_iff.1 (Statement.ofOperation_of_built hs)
  obtain ⟨⟨⟩, -, hs⟩ := bind_eq_ok_iff.1 hs
  cases hs
  obtain ⟨htext, hvalues⟩ :=
    (Draft.prepared_eq_ok_iff (Statement.isPlain_insert htable hentries hreturning)).1 hprepared
  have hrun := runStatement_eq_ok rfl hrun
  by_cases hbound : Statement.areDirect (entriesOf record) = true
  · rw [if_pos (Statement.isDirect_insert htable hentries hreturning hbound)] at hrun
    obtain ⟨item, hinsert, rfl⟩ := run_insert hrun
    obtain ⟨cells, hcells, hentryCells⟩ := exists_asked (fun _ => Statement.mem_draft_insert)
      hvalues (Command.exists_cell hrun) hbound hcolumns
    rw [hentryCells] at hinsert
    refine ⟨cells, item, hcells, hinsert, ?_⟩
    cases hanswer
    exact insertedId_returningOf hc item
  · rw [Bool.not_eq_true] at hbound
    have hindirect : (Statement.insert (tableName backendSchema table) (entriesOf record)
        (returningOf record (.text c))).isDirect = false := by
      rw [Statement.isDirect, Statement.hasForm, hbound]
      rfl
    rw [hindirect, if_neg Bool.false_ne_true] at hrun
    obtain ⟨text, values⟩ := sent
    obtain rfl : text = _ := htext
    refine absurd hrun (runText_insert (isKnown_table htable) hentries.known ?_ hbound)
    intro e he
    obtain ⟨e', he', rfl⟩ := List.mem_map.1 he
    exact hdates e' he'

/-! ## The id of the new row -/

section Asked

variable {record : Fields} {cells : List (ItemColumn × Cell)} {t u : Items} {item : Item}

theorem AsksFor.exists_entry (h : AsksFor record cells) {x : ItemColumn × Cell} (hx : x ∈ cells) :
    ∃ e ∈ record, ItemColumn.find? (Identifier.found e.1) = some x.1 ∧
      Cell.ofValue (Predicate.bindable e.2) = .ok x.2 := by
  induction h with
  | nil => cases hx
  | cons hfirst _ ih =>
    rcases List.mem_cons.1 hx with rfl | hx
    · exact ⟨_, List.mem_cons_self, hfirst⟩
    · obtain ⟨e, he, hcell⟩ := ih hx
      exact ⟨e, List.mem_cons_of_mem _ he, hcell⟩

theorem AsksFor.exists_cell (h : AsksFor record cells) {e : String × Value} (he : e ∈ record) :
    ∃ x ∈ cells, ItemColumn.find? (Identifier.found e.1) = some x.1 ∧
      Cell.ofValue (Predicate.bindable e.2) = .ok x.2 := by
  induction h with
  | nil => cases he
  | cons hfirst _ ih =>
    rcases List.mem_cons.1 he with rfl | he
    · exact ⟨_, List.mem_cons_self, hfirst⟩
    · obtain ⟨x, hx, hcell⟩ := ih he
      exact ⟨x, List.mem_cons_of_mem _ hx, hcell⟩

/-- The only entry of a column gives all the cells that are asked for it. -/
theorem AsksFor.eq_of_column {e : String × Value} (h : AsksFor record cells) (he : e ∈ record)
    {column : ItemColumn} (hcolumn : ItemColumn.find? (Identifier.found e.1) = some column)
    (honly : ∀ e' ∈ record, ItemColumn.find? (Identifier.found e'.1) = some column → e' = e)
    {c : Cell} (hc : Cell.ofValue (Predicate.bindable e.2) = .ok c) :
    (column, c) ∈ cells ∧ ∀ x ∈ cells, x.1 = column → x.2 = c := by
  constructor
  · obtain ⟨⟨column', cell⟩, hx, hfound, hvalue⟩ := h.exists_cell he
    cases hcolumn.symm.trans hfound
    cases hc.symm.trans hvalue
    exact hx
  · intro x hx hsame
    obtain ⟨e', he', hfound, hvalue⟩ := h.exists_entry hx
    obtain rfl := honly e' he' (hfound.trans (congrArg some hsame))
    exact Except.ok.inj (hvalue.symm.trans hc)

theorem isStorable_of_ofValue {v : Value} {n : Int} (h : Cell.ofValue v = .ok (.int n)) :
    isStorable n = true := by
  cases v with
  | int m =>
    rw [Cell.ofValue] at h
    split at h
    · next hm =>
      cases h
      exact hm
    · cases h
  | bool b =>
    cases h
    cases b <;> decide
  | float x => cases x <;> cases h
  | _ => cases h

/-- As long as there is room the new id is an integer of 64 bits, whether it was asked for or not. -/
theorem isStorable_id (hheld : t.IsHeld) (hcells : AsksFor record cells)
    (h : insertRow cells t = .ok (u, item)) : isStorable item.id = true := by
  obtain ⟨asked, hasked, hid, -⟩ := insertRow_eq_ok h
  rw [hid]
  cases asked with
  | none => exact Items.isStorable_nextId hheld
  | some n =>
    refine isStorable_of_askedId (fun x hx m hm => ?_) hasked
    obtain ⟨e, -, -, hcell⟩ := hcells.exists_entry hx
    exact isStorable_of_ofValue (hcell.trans (congrArg Except.ok hm))

/-- The new id is the value that the only entry of the id column stores. -/
theorem apply_eq_id {e : String × Value} (hcells : AsksFor record cells)
    (h : insertRow cells t = .ok (u, item)) (he : e ∈ record)
    (hid : ItemColumn.find? (Identifier.found e.1) = some .id)
    (honly : ∀ e' ∈ record, ItemColumn.find? (Identifier.found e'.1) = some .id → e' = e) {c : Cell}
    (hc : Cell.ofValue (Predicate.bindable e.2) = .ok c) (hnull : c ≠ .null) :
    Affinity.number.apply c = .int item.id := by
  obtain ⟨asked, hasked, hnew, -⟩ := insertRow_eq_ok h
  obtain ⟨hmem, hcell⟩ := hcells.eq_of_column he hid honly hc
  obtain ⟨n, rfl, hn⟩ := exists_of_askedId hmem hcell hnull hasked
  rw [hn, hnew]
  rfl

end Asked

end RowAccess.Sql
