import Mathlib.Data.List.Nodup
import RowAccess.Proofs.Operation.Action
import RowAccess.Proofs.Outcome
import RowAccess.Proofs.Schema.Catalog
import RowAccess.Proofs.Schema.Rebuild

/-
  RowAccess/Proofs/Schema/Partition.lean
  ======================================
  **A discovery lists every reported column once.**  Reports of columns are put under their names, a
  later report in place of an earlier one, and the names are dealt out to the categories.  So each
  name stands in one category, that of its last report, and the constructor's check finds nothing.
  A column is found by its exact name even where others differ from it in case only
  (`Cache.discover_partitions`).
-/

namespace RowAccess

open Keyed Outcome

/-! ## Reports -/

/-- Does the row report a column of this name and category, going by a sampled row? -/
def Reports (config : Config) (sample row : Value) (report : String × Category) : Prop :=
  ∃ column : Column, Column.ofRow row = .ok column ∧ column.name = .text report.1 ∧
    column.classify config sample = .ok report.2

/-- The category that the last report of a name gives it. -/
def lastCategory? (reports : List (String × Category)) (name : String) : Option Category :=
  (valuesUnder reports name).getLast?

/-- Categories under names, as a schema keeps them. -/
def namedEntries (entries : Keyed String Category) : Keyed Value Category :=
  entries.map fun e => (.text e.1, e.2)

theorem beq_text (s t : String) : (Value.text s == Value.text t) = (s == t) := by
  show Value.same _ _ = _
  rw [Value.same]

theorem put_namedEntries (entries : Keyed String Category) (name : String) (k : Category) :
    put (namedEntries entries) (.text name) k = namedEntries (put entries name k) := by
  induction entries with
  | nil => rfl
  | cons e entries ih =>
    simp only [namedEntries, List.map_cons, put, beq_text] at ih ⊢
    split
    · rfl
    · rw [ih]
      rfl

theorem find?_namedEntries (entries : Keyed String Category) (name : String) :
    find? (namedEntries entries) (.text name) = find? entries name := by
  induction entries with
  | nil => rfl
  | cons e entries ih =>
    simp only [namedEntries, List.map_cons, find?, beq_text] at ih ⊢
    rw [ih]

theorem Column.name_of_row {row : Value} {column : Column} (h : Column.ofRow row = .ok column) :
    caselessGet row (.text "COLUMN_NAME") = .ok column.name := by
  obtain ⟨length, -, h⟩ := bind_eq_ok_iff.1 h
  obtain ⟨name, hname, h⟩ := bind_eq_ok_iff.1 h
  obtain ⟨nativeType, -, h⟩ := bind_eq_ok_iff.1 h
  obtain ⟨typeName, -, h⟩ := bind_eq_ok_iff.1 h
  cases h
  exact hname

/-- Takes the report of a row in. -/
def takeReport (config : Config) (sample : Value) (entries : Keyed Value Category) (row : Value) :
    Except Fault (Keyed Value Category) := do
  let column ← Column.ofRow row
  let category ← column.classify config sample
  if column.name.isKey then return put entries column.name category
  else throw .wrongShape

theorem Cache.categories_eq (config : Config) (sample : Value) (rows : List Value) :
    categories config sample rows = rows.foldlM (takeReport config sample) [] := rfl

/-- The report of a row with a name is put under the name. -/
theorem exists_report {config : Config} {sample row : Value} {name : String}
    (hname : caselessGet row (.text "COLUMN_NAME") = .ok (.text name))
    {entries : Keyed String Category} {later : Keyed Value Category}
    (h : takeReport config sample (namedEntries entries) row = .ok later) :
    ∃ k, Reports config sample row (name, k) ∧ later = namedEntries (put entries name k) := by
  obtain ⟨column, hcolumn, h⟩ := bind_eq_ok_iff.1 h
  obtain ⟨k, hk, h⟩ := bind_eq_ok_iff.1 h
  have hcolumnName : column.name = .text name :=
    Except.ok.inj ((Column.name_of_row hcolumn).symm.trans hname)
  rw [hcolumnName] at h
  exact ⟨k, ⟨column, hcolumn, hcolumnName, hk⟩,
    (Except.ok.inj h).symm.trans (put_namedEntries _ _ _)⟩

/-- Rows with names report their columns one after another. -/
theorem exists_reports {config : Config} {sample : Value} {rows : List Value}
    (hnames : ∀ row ∈ rows, ∃ name, caselessGet row (.text "COLUMN_NAME") = .ok (.text name))
    (before : List (String × Category)) {entries : Keyed Value Category}
    (h : rows.foldlM (takeReport config sample) (namedEntries (ofEntries before)) = .ok entries) :
    ∃ reports, List.Forall₂ (Reports config sample) rows reports ∧
      entries = namedEntries (ofEntries (before ++ reports)) := by
  induction rows generalizing before with
  | nil =>
    cases h
    exact ⟨[], .nil, by rw [List.append_nil]⟩
  | cons row rows ih =>
    obtain ⟨⟨name, hname⟩, hnames⟩ := List.forall_mem_cons.1 hnames
    rw [List.foldlM_cons] at h
    obtain ⟨later, hrow, h⟩ := bind_eq_ok_iff.1 h
    obtain ⟨k, hreport, rfl⟩ := exists_report hname hrow
    have hput : ofEntries (before ++ [(name, k)]) = put (ofEntries before) name k :=
      List.foldl_append
    rw [← hput] at h
    obtain ⟨reports, hreports, hentries⟩ := ih hnames _ h
    refine ⟨(name, k) :: reports, .cons hreport hreports, ?_⟩
    rw [hentries, List.append_assoc]
    rfl

/-! ## Breaches -/

/-- No part of a discovery breaks a promise by itself. -/
def Fault.KeepsPromise (f : Fault) : Prop :=
  ∀ cause, f ≠ .breach cause

def Fault.isBreach : Fault → Bool
  | .breach _ => true
  | _ => false

theorem Fault.KeepsPromise.of_eq_false {f : Fault} (h : f.isBreach = false) : f.KeepsPromise := by
  rintro cause rfl
  cases h

theorem keepsPromise_fieldUnder (fields : Fields) (key : Value) :
    Only Fault.KeepsPromise (fieldUnder fields key) := by
  unfold fieldUnder
  split
  · split
    · exact .ok _
    · split
      · exact .ok _
      · exact .error (.of_eq_false rfl)
  · exact .error (.of_eq_false rfl)
  · refine .error ?_
    split
    · exact .of_eq_false rfl
    · exact .of_eq_false rfl

theorem keepsPromise_entryAt (flaw : BadIndex) (vs : List Value) (key : Value) :
    Only Fault.KeepsPromise (entryAt flaw vs key) := by
  unfold entryAt
  split
  · exact .error (.of_eq_false rfl)
  next n _ =>
    split
    · exact .error (.of_eq_false rfl)
    · dsimp only
      generalize (if n < 0 then n + (vs.length : Int) else n) = i
      split
      · split
        · exact .ok _
        · exact .error (.of_eq_false rfl)
      · exact .error (.of_eq_false rfl)

theorem keepsPromise_caselessGet (row key : Value) :
    Only Fault.KeepsPromise (caselessGet row key) := by
  have hbytes : ∀ bs, Only Fault.KeepsPromise (bytesHold bs key) := by
    intro bs
    unfold bytesHold
    split
    · exact .ok _
    · split
      · exact .error (.of_eq_false rfl)
      · split
        · exact .ok _
        · exact .error (.of_eq_false rfl)
  unfold caselessGet
  split
  · exact keepsPromise_fieldUnder _ _
  · split
    · exact keepsPromise_entryAt _ _ _
    · exact .error (.of_eq_false rfl)
  · refine (hbytes _).bind fun holds => ?_
    split
    · exact keepsPromise_entryAt _ _ _
    · exact .error (.of_eq_false rfl)
  · split
    · refine .error ?_
      split
      · exact .of_eq_false rfl
      · exact .of_eq_false rfl
    · exact .error (.of_eq_false rfl)
  · exact .error (.of_eq_false rfl)

theorem keepsPromise_takeReport (config : Config) (sample : Value) (entries : Keyed Value Category)
    (row : Value) : Only Fault.KeepsPromise (takeReport config sample entries row) := by
  have hget := keepsPromise_caselessGet
  have htold : ∀ v : Value, Only Fault.KeepsPromise v.told := by
    intro v
    unfold Value.told
    split
    · exact .ok _
    · exact .error (.of_eq_false rfl)
  have hrow : Only Fault.KeepsPromise (Column.ofRow row) :=
    (hget row _).bind fun _ => (hget row _).bind fun _ => (hget row _).bind fun nativeType =>
      (htold nativeType).bind fun _ => .ok _
  have htruth : ∀ column : Column, Only Fault.KeepsPromise (column.holdsTruth config sample) := by
    intro column
    unfold Column.holdsTruth
    split
    · exact .ok _
    · split
      · exact .ok _
      · split
        next v _ =>
          unfold Column.isSentinel
          split
          · exact .ok _
          · split
            · exact .ok _
            · exact .error (.of_eq_false rfl)
        next => exact .ok _
        next f _ hf => exact .error (hget _ _ f hf)
  refine hrow.bind fun column => ?_
  refine Only.bind ?_ fun k => ?_
  · unfold Column.classify
    split
    · exact .ok _
    · split
      · exact .ok _
      · split
        · exact .ok _
        · refine (htruth column).bind fun holds => ?_
          split
          · exact .ok _
          · exact .ok _
  · split
    · exact .ok _
    · exact .error (.of_eq_false rfl)

/-! ## Names and their categories -/

/-- The reported names whose last report gives the category, in the order in which they first
came. -/
def namesIn (reports : List (String × Category)) (k : Category) : List String :=
  (keys reports).eraseDups.filter fun name => lastCategory? reports name == some k

/-- The names of every category, one category after another. -/
def dealtOut (reports : List (String × Category)) : Keyed String Category :=
  Category.all.flatMap fun k => (namesIn reports k).map (·, k)

section Names

variable (reports : List (String × Category))

theorem exists_lastCategory {name : String} (h : name ∈ keys reports) :
    ∃ k, lastCategory? reports name = some k := by
  have hmem : name ∈ keys (ofEntries reports) := by
    rw [keys_ofEntries]
    exact List.mem_eraseDups.2 h
  obtain ⟨k, hk⟩ := (exact_of_lawful name).exists_find? hmem
  exact ⟨k, (find?_ofEntries_eq reports name).symm.trans hk⟩

theorem mem_namesIn {name : String} {k : Category} :
    name ∈ namesIn reports k ↔ name ∈ keys reports ∧ lastCategory? reports name = some k := by
  simp [namesIn]

theorem nodup_namesIn (k : Category) : (namesIn reports k).Nodup := by
  have hkeys := nodup_keys_ofEntries reports
  rw [keys_ofEntries] at hkeys
  exact hkeys.filter _

theorem mem_dealtOut {name : String} {k : Category} :
    (name, k) ∈ dealtOut reports ↔ name ∈ keys reports ∧ lastCategory? reports name = some k := by
  rw [← mem_namesIn, dealtOut, List.mem_flatMap]
  constructor
  · rintro ⟨k', -, hmem⟩
    obtain ⟨name', hname, heq⟩ := List.mem_map.1 hmem
    cases heq
    exact hname
  · intro hname
    exact ⟨k, by cases k <;> decide, List.mem_map.2 ⟨name, hname, rfl⟩⟩

theorem keys_dealtOut : keys (dealtOut reports) = Category.all.flatMap (namesIn reports) := by
  rw [keys, dealtOut, List.map_flatMap]
  refine List.flatMap_congr fun k _ => ?_
  rw [List.map_map]
  exact List.map_id _

theorem mem_keys_dealtOut {name : String} :
    name ∈ keys (dealtOut reports) ↔ name ∈ keys reports := by
  constructor
  · intro h
    obtain ⟨⟨name', k⟩, hmem, rfl⟩ := List.mem_map.1 h
    exact ((mem_dealtOut reports).1 hmem).1
  · intro h
    obtain ⟨k, hk⟩ := exists_lastCategory reports h
    exact List.mem_map.2 ⟨(name, k), (mem_dealtOut reports).2 ⟨h, hk⟩, rfl⟩

/-- No name stands in two categories, or twice in one. -/
theorem nodup_keys_dealtOut : (keys (dealtOut reports)).Nodup := by
  rw [keys_dealtOut, List.nodup_flatMap]
  refine ⟨fun k _ => nodup_namesIn reports k, ?_⟩
  have hall : Category.all.Nodup := by decide
  refine hall.imp fun hne name hfirst hsecond => ?_
  have hfirst := ((mem_namesIn reports).1 hfirst).2
  have hsecond := ((mem_namesIn reports).1 hsecond).2
  exact hne (Option.some.inj (hfirst.symm.trans hsecond))

theorem columnsIn_ofEntries (k : Category) :
    TableSchema.columnsIn (namedEntries (ofEntries reports)) k =
      (namesIn reports k).map .text := by
  have hfilter := keys_filter_values (nodup_keys_ofEntries reports) k
  rw [keys_ofEntries] at hfilter
  simp only [find?_ofEntries_eq] at hfilter
  rw [namesIn]
  show _ = List.map Value.text (List.filter (fun name =>
    (valuesUnder reports name).getLast? == some k) _)
  rw [← hfilter, TableSchema.columnsIn, namedEntries, List.filter_map, List.map_map, keys,
    List.map_map]
  rfl

end Names

/-! ## The check of the partition -/

namespace Columns

/-- Distinct texts that were not seen before are no clash. -/
theorem clashAmong?_namedEntries (seen : Keyed String Category) {es : Keyed String Category}
    (h : (keys (seen ++ es)).Nodup) :
    clashAmong? (namedEntries seen) (namedEntries es) = none := by
  induction es generalizing seen with
  | nil => rfl
  | cons e es ih =>
    obtain ⟨name, k⟩ := e
    have hnew : name ∉ keys seen := by
      intro hmem
      rw [keys, List.map_append, List.nodup_append] at h
      exact h.2.2 name hmem name List.mem_cons_self rfl
    have hfind : find? (namedEntries seen) (.text name) = none := by
      rw [find?_namedEntries, (exact_of_lawful name).find?_eq_none_iff]
      exact hnew
    have hrest : clashAmong? (namedEntries (seen ++ [(name, k)])) (namedEntries es) = none :=
      ih _ (by simpa using h)
    rw [namedEntries, List.map_append] at hrest
    show clashAmong? _ ((.text name, k) :: namedEntries es) = none
    rw [clashAmong?, hfind]
    exact hrest

theorem entries_of_names {columns : Columns} {names : Category → List String}
    (h : ∀ k, columns.of k = (names k).map .text) :
    columns.entries = namedEntries (Category.all.flatMap fun k => (names k).map (·, k)) := by
  rw [entries, namedEntries, List.map_flatMap]
  refine List.flatMap_congr fun k _ => ?_
  rw [h, List.map_map, List.map_map]
  rfl

end Columns

namespace TableSchema

/-- The check of the partition finds nothing in what is reported. -/
theorem ofColumns_ofEntries (table : Value) (reports : List (String × Category)) {idColumn : Value}
    (hid : idColumn.isKey = true) :
    ∃ t, ofColumns table (namedEntries (ofEntries reports)) idColumn = .ok t ∧
      t.idColumn = idColumn ∧ ∀ k, t.columns.of k = (namesIn reports k).map .text := by
  let pick := columnsIn (namedEntries (ofEntries reports))
  let columns : Columns :=
    ⟨pick .boolean, pick .buffer, pick .timestamp, pick .number, pick .string⟩
  have hof : ∀ k, columns.of k = (namesIn reports k).map .text := by
    intro k
    rw [← columnsIn_ofEntries]
    cases k <;> rfl
  have hclash : columns.clash? = none := by
    rw [Columns.clash?, Columns.entries_of_names hof]
    exact Columns.clashAmong?_namedEntries [] (nodup_keys_dealtOut reports)
  have hmake : ∀ idType, make table idColumn idType columns =
      .ok ⟨table, idColumn, idType, columns, hclash⟩ := fun idType =>
    make_self ⟨table, idColumn, idType, columns, hclash⟩
  have hbuilt : ∃ idType, ofColumns table (namedEntries (ofEntries reports)) idColumn =
      .ok ⟨table, idColumn, idType, columns, hclash⟩ := by
    rw [ofColumns, hid]
    exact ⟨_, hmake _⟩
  obtain ⟨idType, hbuilt⟩ := hbuilt
  exact ⟨_, hbuilt, rfl, hof⟩

theorem ofColumns_of_not_isKey {table idColumn : Value} (entries : Keyed Value Category)
    (hid : idColumn.isKey = false) : ofColumns table entries idColumn = .error .wrongShape := by
  rw [ofColumns, hid]
  rfl

/-! ## Looking names up -/

theorem caselessCategory?_namedEntries (lowered : String) (es : Keyed String Category) :
    caselessCategory? (.text lowered) (namedEntries es) =
      .ok ((List.find? (fun e => Text.lower e.1 == lowered) es).map (·.2)) := by
  induction es with
  | nil => rfl
  | cons e es ih =>
    show caselessCategory? _ ((.text e.1, e.2) :: namedEntries es) = _
    simp only [caselessCategory?, lowered?, beq_text, List.find?_cons]
    by_cases h : (Text.lower e.1 == lowered) = true
    · simp [h]
    · simp [h, ih]

theorem category?_eq {t : TableSchema} {es : Keyed String Category}
    (h : t.columns.entries = namedEntries es) (name : String) :
    t.category? name = .ok ((find? es name).or
      ((List.find? (fun e => Text.lower e.1 == Text.lower name) es).map (·.2))) := by
  have hexact : ∀ es : Keyed String Category,
      (List.find? (fun e => e.1 == Value.text name) (namedEntries es)).map (·.2) =
        find? es name := by
    intro es
    induction es with
    | nil => rfl
    | cons e es ih =>
      show (List.find? _ ((.text e.1, e.2) :: namedEntries es)).map _ = _
      simp only [List.find?_cons, beq_text, find?]
      by_cases hname : (e.1 == name) = true
      · simp [hname]
      · simpa [hname] using ih
  rw [category?, lookup, h, ← hexact es]
  cases hfind : List.find? (fun e => e.1 == Value.text name) (namedEntries es) with
  | some e => rfl
  | none =>
    show caselessCategory? (.text (Text.lower name)) _ = _
    rw [caselessCategory?_namedEntries]
    rfl

end TableSchema

/-! ## Discoveries -/

/-- The first column of the rows of a primary key, null where there is no row. -/
def keyColumn (keyRows : List Value) : Except Fault Value :=
  match keyRows.head?.getD .null with
  | .null => .ok .null
  | row => caselessGet row (.text "COLUMN_NAME")

theorem keepsPromise_keyColumn (keyRows : List Value) :
    Only Fault.KeepsPromise (keyColumn keyRows) := by
  unfold keyColumn
  split
  · exact .ok _
  · exact keepsPromise_caselessGet _ _

namespace Cache

variable {σ : Type} {c : Cache σ} {table : Value} {s : Site σ} {rows keyRows samples : List Value}

/-- Does the engine answer the questions of a discovery, one after another, with these rows? -/
inductive Answered (c : Cache σ) (table : Value) (s : Site σ) (rows keyRows samples : List Value) :
    Prop
  | intro {s₁ s₂ s₃ : Site σ}
    (columns : (c.introspect table
      (.raw c.config.dialect.columnsQuery (c.tableParameters table))).execute s =
        (.ok (.list rows), s₁))
    (key : (c.introspect table
      (.raw c.config.dialect.primaryKeyQuery (c.tableParameters table))).execute s₁ =
        (.ok (.list keyRows), s₂))
    (sample : (c.introspect table (.tableScan table [] (.int 1))).execute s₂ =
      (.ok (.list samples), s₃))

/-- What a discovery makes of the answers. -/
def discovered (config : Config) (table : Value) (rows keyRows samples : List Value) :
    Except Fault TableSchema := do
  let idColumn ← keyColumn keyRows
  let entries ← categories config (samples.head?.getD .null) rows
  TableSchema.ofColumns table entries idColumn

theorem execute_discover (h : c.Answered table s rows keyRows samples) :
    ((c.discover table).execute s).1 =
      if rows = [] then .error (.discovery (.noColumns table c.config.schemaName))
      else discovered c.config table rows keyRows samples := by
  obtain ⟨columns, key, sample⟩ := h
  next s₁ s₂ s₃ =>
  have hkey : (c.primaryKey table).execute s₁ = (keyColumn keyRows, s₂) := by
    rw [primaryKey, Action.execute_bind, key]
    dsimp only
    have hfirst : firstOf (.list keyRows) = .ok (keyRows.head?.getD .null) := rfl
    rw [Action.execute_bind, Action.execute_lift, hfirst]
    dsimp only
    unfold keyColumn
    cases keyRows.head?.getD .null <;> rfl
  rw [discover, Action.execute_bind, columns]
  dsimp only
  by_cases hrows : rows = []
  · subst hrows
    rfl
  · have hgiven : (Value.list rows).isGiven = true := by
      simpa [Value.isGiven] using hrows
    rw [if_neg hrows, hgiven]
    show ((c.primaryKey table >>= _).execute s₁).1 = _
    rw [Action.execute_bind, hkey, discovered]
    cases keyColumn keyRows with
    | error f => rfl
    | ok idColumn =>
      have hfirst : firstOf (.list samples) = .ok (samples.head?.getD .null) := rfl
      have hmembers : membersOf (.list rows) = .ok rows := rfl
      dsimp only
      rw [Action.execute_bind, sample]
      dsimp only
      rw [Action.execute_bind, Action.execute_lift, hfirst]
      dsimp only
      rw [Action.execute_bind, Action.execute_lift, hmembers]
      dsimp only
      rw [Action.execute_bind, Action.execute_lift]
      cases categories c.config (samples.head?.getD .null) rows with
      | error f => rfl
      | ok entries => rfl

end Cache

/-- Does the schema list every reported name once and nothing else, under the category of its last
report and there in the order in which the names first came? -/
structure Partitions (t : TableSchema) (reports : List (String × Category)) : Prop where
  lists : ∀ k, t.columns.of k = (namesIn reports k).map .text
  nodup : t.allColumns.Nodup
  mem : ∀ v, v ∈ t.allColumns ↔ ∃ name ∈ keys reports, v = .text name

/-- Is a reported name found with the category of its last report, and any other spelling with that
of a name that differs in case only, where there is one? -/
structure LooksUp (t : TableSchema) (reports : List (String × Category)) : Prop where
  exact_name : ∀ name ∈ keys reports, ∃ k, lastCategory? reports name = some k ∧
    .text name ∈ t.columns.of k ∧ t.category? name = .ok (some k)
  other_name : ∀ name ∉ keys reports, ∃ found, t.category? name = .ok found ∧
    (∀ k, found = some k → ∃ other ∈ keys reports, Text.lower other = Text.lower name ∧
      lastCategory? reports other = some k) ∧
    (found = none ↔ ∀ other ∈ keys reports, Text.lower other ≠ Text.lower name)

section Schema

variable {t : TableSchema} {reports : List (String × Category)}
  (h : ∀ k, t.columns.of k = (namesIn reports k).map .text)

include h

theorem partitions_of_lists : Partitions t reports := by
  have hentries : t.columns.entries = namedEntries (dealtOut reports) :=
    Columns.entries_of_names h
  have hall : t.allColumns = (keys (dealtOut reports)).map .text := by
    rw [TableSchema.allColumns, hentries, namedEntries, List.map_map, keys, List.map_map]
    rfl
  refine ⟨h, ?_, ?_⟩
  · rw [hall]
    exact (nodup_keys_dealtOut reports).map fun _ _ heq => Value.text.inj heq
  · intro v
    rw [hall, List.mem_map]
    simp only [mem_keys_dealtOut, eq_comm]

theorem looksUp_of_lists : LooksUp t reports := by
  have hlookup := TableSchema.category?_eq (Columns.entries_of_names h)
  have hfind : ∀ name k, find? (dealtOut reports) name = some k ↔
      name ∈ keys reports ∧ lastCategory? reports name = some k := by
    intro name k
    rw [find?_eq_some_iff (fun k _ => exact_of_lawful k) (nodup_keys_dealtOut reports),
      mem_dealtOut]
  constructor
  · intro name hname
    obtain ⟨k, hk⟩ := exists_lastCategory reports hname
    refine ⟨k, hk, ?_, ?_⟩
    · rw [h]
      exact List.mem_map.2 ⟨name, (mem_namesIn reports).2 ⟨hname, hk⟩, rfl⟩
    · rw [hlookup]
      show Except.ok ((find? (dealtOut reports) name).or _) = _
      rw [(hfind name k).2 ⟨hname, hk⟩, Option.some_or]
  · intro name hname
    have hnone : find? (dealtOut reports) name = none := by
      rw [(exact_of_lawful name).find?_eq_none_iff, mem_keys_dealtOut]
      exact hname
    refine ⟨_, hlookup name, ?_, ?_⟩
    · intro k hk
      rw [show Category.all.flatMap _ = dealtOut reports from rfl, hnone, Option.none_or] at hk
      obtain ⟨⟨other, k'⟩, hother, rfl⟩ := Option.map_eq_some_iff.1 hk
      obtain ⟨hmem, hlast⟩ := (mem_dealtOut reports).1 (List.mem_of_find?_eq_some hother)
      exact ⟨other, hmem, by simpa using List.find?_some hother, hlast⟩
    · rw [show Category.all.flatMap _ = dealtOut reports from rfl, hnone, Option.none_or,
        Option.map_eq_none_iff, List.find?_eq_none]
      constructor
      · intro hall other hother hlower
        obtain ⟨k, hk⟩ := exists_lastCategory reports hother
        exact hall (other, k) ((mem_dealtOut reports).2 ⟨hother, hk⟩) (by simpa using hlower)
      · rintro hall ⟨other, k⟩ hmem hlower
        exact hall other ((mem_dealtOut reports).1 hmem).1 (by simpa using hlower)

end Schema

namespace Cache

variable {σ : Type} {c : Cache σ} {table : Value} {s : Site σ} {rows keyRows samples : List Value}

/-- **A discovery lists every reported column once.**  Where every row names its column by a text,
no promise is broken, the check of the partition least of all; and the schema that is found lists
the reported columns under the categories of their last reports, finds each of them by its exact
name and any other spelling by its case, and has the first column of the primary key for its id. -/
theorem discover_partitions (h : c.Answered table s rows keyRows samples)
    (hnames : ∀ row ∈ rows, ∃ name, caselessGet row (.text "COLUMN_NAME") = .ok (.text name)) :
    (∀ f, ((c.discover table).execute s).1 = .error f → f.KeepsPromise) ∧
    ∀ t, ((c.discover table).execute s).1 = .ok t →
      ∃ reports, List.Forall₂ (Reports c.config (samples.head?.getD .null)) rows reports ∧
        Partitions t reports ∧ LooksUp t reports ∧ keyColumn keyRows = .ok t.idColumn := by
  rw [execute_discover h]
  by_cases hrows : rows = []
  · rw [if_pos hrows]
    refine ⟨?_, nofun⟩
    rintro f ⟨⟩
    exact .of_eq_false rfl
  rw [if_neg hrows]
  constructor
  · intro f hf
    rcases bind_eq_error_iff.1 hf with hf | ⟨idColumn, -, hf⟩
    · exact keepsPromise_keyColumn keyRows f hf
    · rcases bind_eq_error_iff.1 hf with hf | ⟨entries, hentries, hf⟩
      · rw [categories_eq] at hf
        exact Only.foldlM (fun entries row => keepsPromise_takeReport _ _ entries row) rows [] f hf
      · obtain ⟨reports, -, rfl⟩ := exists_reports hnames [] hentries
        cases hid : idColumn.isKey with
        | true =>
          obtain ⟨t, ht, -⟩ := TableSchema.ofColumns_ofEntries table ([] ++ reports) hid
          rw [ht] at hf
          cases hf
        | false =>
          rw [TableSchema.ofColumns_of_not_isKey _ hid] at hf
          cases hf
          exact .of_eq_false rfl
  · intro t ht
    obtain ⟨idColumn, hkey, ht⟩ := bind_eq_ok_iff.1 ht
    obtain ⟨entries, hentries, ht⟩ := bind_eq_ok_iff.1 ht
    obtain ⟨reports, hreports, rfl⟩ := exists_reports hnames [] hentries
    rw [List.nil_append] at ht
    have hid : idColumn.isKey = true := by
      by_contra hid
      rw [TableSchema.ofColumns_of_not_isKey _ (by simpa using hid)] at ht
      cases ht
    obtain ⟨t', ht', hidColumn, hlists⟩ := TableSchema.ofColumns_ofEntries table reports hid
    rw [ht'] at ht
    cases ht
    rw [hidColumn]
    exact ⟨reports, hreports, partitions_of_lists hlists, looksUp_of_lists hlists, hkey⟩

/-- The report of a column. -/
def columnRow (name nativeType : String) : Value :=
  .object [("COLUMN_NAME", .text name), ("DATA_TYPE", .text nativeType), ("DATA_LENGTH", .null)]

/-- Two names that differ in case only, and one that is reported again with another type. -/
def spelledRows : List Value :=
  [columnRow "ID" "VARCHAR", columnRow "id" "DATETIME", columnRow "NAME" "VARCHAR",
    columnRow "ID" "INT"]

/-- A cache over an engine that reports such names, to the question for the key as well. -/
def spelled : Cache Unit :=
  { quiet with
    backend := fun operation =>
      match operation with
      | .raw _ _ => return .list spelledRows
      | _ => return .list [] }

theorem answered_spelled :
    spelled.Answered (.text "T") unused spelledRows spelledRows [] :=
  .intro rfl rfl rfl

theorem discover_partitions_spelled : ∃ t reports,
    ((spelled.discover (.text "T")).execute unused).1 = .ok t ∧
      List.Forall₂ (Reports smallConfig .null) spelledRows reports ∧ Partitions t reports ∧
        LooksUp t reports ∧ t.idColumn = .text "ID" := by
  have hnames : ∀ row ∈ spelledRows,
      ∃ name, caselessGet row (.text "COLUMN_NAME") = .ok (.text name) := by
    simp only [spelledRows, List.mem_cons, List.not_mem_nil, or_false, forall_eq_or_imp, forall_eq]
    exact ⟨⟨_, rfl⟩, ⟨_, rfl⟩, ⟨_, rfl⟩, ⟨_, rfl⟩⟩
  obtain ⟨-, hfound⟩ := discover_partitions answered_spelled hnames
  have hok : ((spelled.discover (.text "T")).execute unused).1.isOk = true := by decide +kernel
  cases hdiscover : ((spelled.discover (.text "T")).execute unused).1 with
  | error f =>
    rw [hdiscover] at hok
    cases hok
  | ok t =>
    obtain ⟨reports, hreports, hpartitions, hlookup, hid⟩ := hfound t hdiscover
    exact ⟨t, reports, rfl, hreports, hpartitions, hlookup, (Except.ok.inj hid).symm⟩

end Cache

end RowAccess
