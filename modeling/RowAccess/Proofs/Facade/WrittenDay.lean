import RowAccess.Proofs.Facade.NewItem
import RowAccess.Proofs.Facade.Shortcut
import RowAccess.Proofs.Sql.FilteredScan
import RowAccess.Proofs.Sql.StoredDay

/-
  RowAccess/Proofs/Facade/WrittenDay.lean
  =======================================
  **Timestamps that are written and then asked for by day.**  A write keeps the time of day of a
  timestamp (`addItem_holds`, `editItem_holds`), a clause on its column asks for days alone
  (`Clause.AsksDays.exists_compiled`), and the two are compared as texts.  So a row is found as its day
  says, but for the day at which the clause's test ends (`written_found_by_day`): the query for the rows
  of a day finds none that was written on it (`getList_sameDay`).
-/

namespace RowAccess

open Conversion Outcome Sql

/-! ## Clauses that ask for days -/

/-- Is this the test of days that a clause on a column asks for, by the timestamps that its values
are? -/
inductive Clause.AsksDays (name : String) : Clause → DayTest → Prop
  | comparison (comparator : Comparator) {v : Value} {t : Timestamp} (h : timestampOf v = .ok t) :
    AsksDays name (.comparison ⟨.text name, comparator, v⟩) (.compare comparator t.date)
  | membership {v : Value} {t : Timestamp} {vs : List Value} {ts : List Timestamp}
    (h : timestampOf v = .ok t) (hs : List.Forall₂ (fun v t => timestampOf v = .ok t) vs ts) :
    AsksDays name (.membership ⟨.text name, v, vs⟩) (.oneOf t.date (ts.map Timestamp.date))
  | range {low high : Value} {t u : Timestamp} (hlow : timestampOf low = .ok t)
    (hhigh : timestampOf high = .ok u) :
    AsksDays name (.range ⟨.text name, low, high⟩) (.between t.date u.date)

section Compiled

variable {c : Config} (hmysql : c.dialect = .mysql)

include hmysql

/-- A value is compared by the text of its day. -/
theorem value_timestamp {v : Value} {t : Timestamp} (h : timestampOf v = .ok t) :
    Storage.value c .timestamp v = .ok (.dateLiteral ⟨dayText c t.date, false⟩) := by
  have hmidnight : comparedDate c t = comparedDate c (Timestamp.midnight t.date) :=
    (comparedDate_eq_iff (.inr hmysql)).2 rfl
  have hday : comparedDate c t = ⟨dayText c t.date, false⟩ := by
    rw [hmidnight, dayText, comparedDate_of_mysql hmysql]
  rw [Storage.value, comparisonDate, h, ← hday]
  rfl

theorem mapM_value_timestamp {vs : List Value} {ts : List Timestamp}
    (h : List.Forall₂ (fun v t => timestampOf v = .ok t) vs ts) :
    vs.mapM (Storage.value c .timestamp) =
      .ok (ts.map fun t => .dateLiteral ⟨dayText c t.date, false⟩) := by
  induction h with
  | nil => rfl
  | cons hv _ ih =>
    rw [List.mapM_cons, value_timestamp hmysql hv, ih]
    rfl

/-- A clause that asks for days is compiled to the predicate of its test. -/
theorem Clause.AsksDays.exists_compiled {schema : TableSchema} {name : String}
    (hcategory : schema.category? name = .ok (some .timestamp)) {clause : Clause} {test : DayTest}
    (h : clause.AsksDays name test) :
    ∃ clause', clause.forStorage (some schema) c = .ok clause' ∧
      Predicate.ofClause clause' = .ok (test.predicate c name) := by
  have hcolumn {α : Type} (convert : Category → α → Except Fault α) (a : α) :
      Storage.onColumn (some schema) (.text name) convert a = convert .timestamp a := by
    have hlookup : Storage.categoryIn? (some schema) (.text name) = .ok (some .timestamp) := hcategory
    rw [Storage.onColumn, hlookup]
    rfl
  cases h with
  | @comparison comparator v t hv =>
    refine ⟨.comparison ⟨.text name, comparator, .dateLiteral ⟨dayText c t.date, false⟩⟩, ?_, ?_⟩
    · rw [Clause.forStorage, Comparison.forStorage, hcolumn, Storage.comparison,
        value_timestamp hmysql hv]
      rfl
    · cases comparator <;> rfl
  | @membership v t vs ts hv hvs =>
    refine ⟨.membership ⟨.text name, .dateLiteral ⟨dayText c t.date, false⟩,
      ts.map fun t => .dateLiteral ⟨dayText c t.date, false⟩⟩, ?_, ?_⟩
    · rw [Clause.forStorage, Membership.forStorage, hcolumn, Storage.membership,
        value_timestamp hmysql hv, mapM_value_timestamp hmysql hvs]
      rfl
    · have hvalues : (Value.dateLiteral ⟨dayText c t.date, false⟩ ::
          ts.map fun t => .dateLiteral ⟨dayText c t.date, false⟩).map Predicate.bindable =
            ((t.date :: ts.map Timestamp.date).map (dayText c)).map Value.text := by
        rw [List.map_cons, List.map_cons, List.map_cons, List.map_map, List.map_map, List.map_map]
        rfl
      have hverbatim : (((t.date :: ts.map Timestamp.date).map (dayText c)).map Value.text).any
          Predicate.isVerbatim = false := by
        simp [Predicate.isVerbatim]
      show Predicate.ofMembership _ = _
      unfold Predicate.ofMembership
      simp only [Membership.values, hvalues, hverbatim, Bool.false_eq_true, if_false]
      rfl
  | @range low high t u hlow hhigh =>
    refine ⟨.range ⟨.text name, .dateLiteral ⟨dayText c t.date, false⟩,
      .dateLiteral ⟨dayText c u.date, false⟩⟩, ?_, rfl⟩
    rw [Clause.forStorage, Range.forStorage, hcolumn, Storage.range, value_timestamp hmysql hlow,
      value_timestamp hmysql hhigh]
    rfl

end Compiled

namespace Facade

/-! ## Records with a timestamp -/

/-- Does the record give a column of timestamps one value, which is the timestamp?  All its values are
for different known columns, none is a raw literal, and no formatter takes the place of the dialect's
literal. -/
structure GivesTimestamp (c : Config) (schema : TableSchema) (column : ItemColumn) (t : Timestamp)
    (record : Fields) : Prop where
  nodup : (Keyed.keys record).Nodup
  columns : ∀ e ∈ record, (ItemColumn.find? (Identifier.found e.1)).isSome = true
  values : ∀ e ∈ record, Predicate.isVerbatim e.2 = false
  entry : ∃ e ∈ record, ItemColumn.find? (Identifier.found e.1) = some column ∧
    schema.category? e.1 = .ok (some .timestamp) ∧ timestampOf e.2 = .ok t ∧
    (c.timestampFormatter = none ∨ e.2.isText = false) ∧
    ∀ e' ∈ record, ItemColumn.find? (Identifier.found e'.1) = some column → e'.1 = e.1

/-- Does the row hold what is stored for the timestamp? -/
def HoldsTimestamp (c : Config) (column : ItemColumn) (t : Timestamp) (i : Item) : Prop :=
  i.cell column = .text (storedTimestamp c t).text

section Records

variable {c : Config} {schema : TableSchema} {column : ItemColumn} {t : Timestamp}
  {record stored : Fields}

theorem valueIn_of_timestampOf {v : Value} (h : timestampOf v = .ok t)
    (hformat : c.timestampFormatter = none ∨ v.isText = false) :
    valueIn c (some .timestamp) v = .ok (.dateLiteral (storedTimestamp c t)) := by
  have hnull : v.isNull = false := by
    cases v <;> first | rfl | cases h
  have hliteral : timestampIn c v = (timestampOf v).map (storedTimestamp c) := by
    rcases hformat with hnone | htext
    · exact timestampIn_of_none hnone v
    · unfold timestampIn
      split
      · cases htext
      · rfl
  rw [valueIn_timestamp hnull, hliteral, h]
  rfl

/-- The timestamp is the only thing that is stored in its column. -/
theorem GivesTimestamp.exists_stored (h : GivesTimestamp c schema column t record)
    (hstored : recordIn c schema record = .ok stored) :
    ∃ e ∈ stored, e.2 = .dateLiteral (storedTimestamp c t) ∧
      ItemColumn.find? (Identifier.found e.1) = some column ∧
      ∀ e' ∈ stored, ItemColumn.find? (Identifier.found e'.1) = some column → e' = e := by
  obtain ⟨⟨name, v⟩, hmem, hcolumn, hcategory, hv, hformat, honly⟩ := h.entry
  obtain ⟨⟨name', w⟩, hmem', hentry⟩ := exists_mem_of_mapM hstored hmem
  obtain ⟨k, hk, hentry⟩ := bind_eq_ok_iff.1 hentry
  cases hcategory.symm.trans hk
  obtain ⟨w', hw, hentry⟩ := bind_eq_ok_iff.1 hentry
  cases (valueIn_of_timestampOf hv hformat).symm.trans hw
  cases hentry
  refine ⟨_, hmem', rfl, hcolumn, fun e' he' hfound => ?_⟩
  obtain ⟨e, he, hname, -⟩ := exists_mem_of_recordIn hstored he'
  rw [hname] at hfound
  have hsame : e'.1 = name := hname.trans (honly e he hfound)
  have hnodup : (Keyed.keys stored).Nodup := keys_recordIn hstored ▸ h.nodup
  have hfind := (Keyed.find?_eq_some_iff (fun _ _ => Keyed.exact_of_lawful _) hnodup e'.1 e'.2).2 he'
  have hfind' := (Keyed.find?_eq_some_iff (fun _ _ => Keyed.exact_of_lawful _) hnodup name _).2 hmem'
  rw [hsame, hfind'] at hfind
  exact Prod.ext hsame (Option.some.inj hfind).symm

variable (hmysql : c.dialect = .mysql)

include hmysql

/-- The cells that are asked for the column are the text of the timestamp. -/
theorem GivesTimestamp.cells (h : GivesTimestamp c schema column t record)
    (hstored : recordIn c schema record = .ok stored) {cells : List (ItemColumn × Cell)}
    (hcells : AsksFor stored cells) :
    (column, .text (storedTimestamp c t).text) ∈ cells ∧
      ∀ x ∈ cells, x.1 = column → x.2 = .text (storedTimestamp c t).text := by
  obtain ⟨e, he, hvalue, hcolumn, honly⟩ := h.exists_stored hstored
  have hcell : Cell.ofValue (Predicate.bindable e.2) = .ok (.text (storedTimestamp c t).text) := by
    rw [hvalue, storedTimestamp_of_mysql hmysql]
    rfl
  exact hcells.eq_of_column he hcolumn honly hcell

/-- A column stores the text of a timestamp as it is. -/
theorem apply_storedTimestamp (column : ItemColumn) (t : Timestamp) :
    column.affinity.apply (.text (storedTimestamp c t).text) = .text (storedTimestamp c t).text :=
  apply_wordy (isWordy_storedTimestamp hmysql t) _

end Records

/-! ## Calls that write -/

section Calls

variable {cache : Cache Database} {backendSchema : Option String}
  (hbackend : cache.backend = backend backendSchema) (hmysql : cache.config.dialect = .mysql)
  {table : String} (htable : (tableName backendSchema (.text table)).target.isItems = true)
  {s s' : Site Database} {record : Fields}

include hbackend hmysql htable

/-- In the second dialect an edit that succeeds addresses its rows by a predicate that is sent as it
stands. -/
theorem exists_addresses_of_editItem {idColumn : String} {v count : Value}
    (hknown : (ItemColumn.find? (Identifier.found idColumn)).isSome = true)
    (hv : Predicate.isVerbatim v = false)
    (h : (editItem cache (.text table) (.text idColumn) v (.object record)).execute s =
      (.ok count, s')) :
    ∃ schema p, Addresses cache (.text table) idColumn v s schema p ∧ IsIdTest p ∧
      p.isDirect = true := by
  obtain ⟨schema, d, operation, answer, hfound, hmake, -, hrun, -⟩ :=
    exists_run_of_perform hbackend (.inr hmysql) htable (unwraps_described v (.text table) _)
      (fun _ answer => .ok answer) h
  obtain ⟨clause, hclause, hmake⟩ := bind_eq_ok_iff.1 hmake
  obtain ⟨w, rfl, hw⟩ := exists_value_of_idPredicate hv hclause
  obtain ⟨fields, -, hmake⟩ := bind_eq_ok_iff.1 hmake
  obtain ⟨stored, -, hmake⟩ := bind_eq_ok_iff.1 hmake
  cases hmake
  have hbound : Predicate.isVerbatim w = false := by
    rcases hw with hw | ⟨u, rfl⟩
    · exact hw
    · rw [comparedDate_of_mysql hmysql]
      rfl
  obtain ⟨statement, -, -, hbuilt, -⟩ := Database.run_eq_ok hrun
  obtain ⟨p, hp, -⟩ := bind_eq_ok_iff.1 (Statement.ofOperation_of_built hbuilt)
  have hcarried : (Clause.comparison (equality idColumn w)).IsCarried := hbound
  obtain ⟨htest, -⟩ :=
    ofComparison_equality (isKnown_column hknown) (isPlainDate_of_isVerbatim hbound).1 hp
  exact ⟨schema, p, ⟨hfound, _, hclause, hp⟩, htest, hcarried.isDirect hp⟩

variable {schema : TableSchema} (hcached : IsCached cache table schema s) {column : ItemColumn}
  {t : Timestamp} (hrecord : GivesTimestamp cache.config schema column t record)

include hcached hrecord

/-- A record that is added becomes a row that holds its timestamp. -/
theorem addItem_holds (hid : schema.idColumn = .text ItemColumn.id.title) {id : Value}
    (h : (addItem cache (.text table) (.object record)).execute s = (.ok id, s')) :
    ∃ item, IsAdded item s.outside.items.rows s'.outside.items.rows ∧
      HoldsTimestamp cache.config column t item := by
  obtain ⟨schema', d, operation, answer, hfound, hmake, hitems, hrun, -⟩ :=
    exists_run_of_perform hbackend (.inr hmysql) htable
      (Unwraps.told (fun _ => unwraps_unwrapped _) (.text table)) (fun _ answer => .ok answer) h
  rw [execute_schema_cached hcached] at hfound
  obtain rfl := Except.ok.inj hfound
  obtain ⟨fields, hfields, hmake⟩ := bind_eq_ok_iff.1 hmake
  cases hfields
  obtain ⟨stored, hstored, hmake⟩ := bind_eq_ok_iff.1 hmake
  cases hmake
  rw [hid] at hrun
  obtain ⟨hcolumns, hdates, hnodup⟩ := areStorable_of_recordIn (.inr hmysql) hrecord.nodup
    hrecord.columns hrecord.values hstored
  obtain ⟨cells, item, hcells, hinsert, -⟩ :=
    run_insertion htable (by decide) hcolumns hdates hnodup hrun
  obtain ⟨hmem, honly⟩ := hrecord.cells hmysql hstored hcells
  obtain ⟨asked, hasked, -, hadded⟩ := insertRow_eq_ok hinsert
  rw [hitems] at hadded
  refine ⟨item, hadded, ?_⟩
  have hcolumn : column ≠ .id := by
    rintro rfl
    obtain ⟨n, -, hn⟩ := exists_of_askedId hmem honly (by rintro ⟨⟩) hasked
    cases (apply_storedTimestamp hmysql .id t).symm.trans hn
  exact (cell_insertRow hinsert hcolumn hmem honly).trans (apply_storedTimestamp hmysql column t)

/-- An edit changes rows so that they hold the timestamp of its record. -/
theorem editItem_holds {idColumn : String} {v count : Value}
    (hknown : (ItemColumn.find? (Identifier.found idColumn)).isSome = true)
    (hv : Predicate.isVerbatim v = false)
    (h : (editItem cache (.text table) (.text idColumn) v (.object record)).execute s =
      (.ok count, s')) :
    ∃ (hit : Item → Bool) (change : Item → Item),
      count = .int (s.outside.items.rows.filter hit).length ∧
      s'.outside.items.rows.Perm (s.outside.items.rows.map fun i => if hit i then change i else i) ∧
      ∀ i ∈ s.outside.items.rows.filter hit, HoldsTimestamp cache.config column t (change i) := by
  obtain ⟨schema', p, haddresses, htest, hdirect⟩ :=
    exists_addresses_of_editItem hbackend hmysql htable hknown hv h
  have hfound := haddresses.found
  rw [execute_schema_cached hcached] at hfound
  obtain rfl := Except.ok.inj hfound
  obtain ⟨hcount, stored, cells, hstored, hcells, change, hchange, hrows⟩ :=
    editItem_changes hbackend (.inr hmysql) htable hv haddresses htest hdirect hrecord.nodup
      hrecord.columns hrecord.values h
  refine ⟨_, change, hcount, hrows, fun i hi => ?_⟩
  obtain ⟨hmem, honly⟩ := hrecord.cells hmysql hstored hcells
  have hfind : Keyed.find? cells.reverse column = some (.text (storedTimestamp cache.config t).text) :=
    (Keyed.exact_of_lawful column).find?_of_forall (List.mem_reverse.2 hmem)
      fun x hx => honly x (List.mem_reverse.1 hx)
  rw [HoldsTimestamp, hchange i hi column, hfind]
  exact apply_storedTimestamp hmysql column t

end Calls

/-! ## Reading by day -/

section Reading

variable {c : Config} (hmysql : c.dialect = .mysql) {schema : TableSchema} {column : ItemColumn}
  {name : String} {clause clause' : Clause} {test : DayTest}

/-- A query with a single clause is planned as the read that the compiled clause starts. -/
theorem plan_of_clause (table : Value) (kind : StarterKind)
    (h : clause.forStorage (some schema) c = .ok clause') :
    Query.plan table (some schema) c { starter := some ⟨kind, clause⟩ } =
      .ok (.ok (.scan table [.starter ⟨kind, clause'⟩])) := by
  refine Query.plan_of_steps rfl ?_
  simp only [Query.steps, Option.mapM_some, h]
  rfl

include hmysql

/-- A row that holds a timestamp is shown by a read of its day as its test says. -/
theorem mem_shown_iff {backendSchema : Option String} {table : String}
    (htable : (tableName backendSchema (.text table)).target.isItems = true)
    (hname : ItemColumn.find? name = some column)
    (hp : Predicate.ofClause clause' = .ok (test.predicate c name)) {t : Timestamp}
    {d d' : Database} {item : Item} (hitem : item ∈ d.items.rows)
    (hholds : HoldsTimestamp c column t item) {kind : StarterKind} {answer : Value}
    (h : d.run backendSchema (.filteredScan (.text table) [.starter ⟨kind, clause'⟩]) =
      (.ok answer, d')) :
    ∃ shown : List Item, answer = .list (shown.map fun i => .object i.fields) ∧
      (item ∈ shown ↔ (test.holds t.date != test.isEnd t.date) = !kind.isNegated) := by
  obtain ⟨-, hanswer⟩ := run_textTest htable hname hp (test.isTextTest_predicate c name) h
  refine ⟨_, hanswer, ?_⟩
  have htruth := test.truth_predicate hmysql (find?_found hname) hholds
  have hnegate := Predicate.truth_negate item (test.predicate c name)
  rw [htruth] at hnegate
  rw [List.mem_filter, and_iff_right hitem]
  show (Predicate.truth item _).isYes = true ↔ _
  cases kind.isNegated with
  | false =>
    rw [if_neg Bool.false_ne_true, htruth]
    cases test.holds t.date != test.isEnd t.date <;> decide
  | true =>
    rw [if_pos rfl, hnegate]
    cases test.holds t.date != test.isEnd t.date <;> decide

end Reading

/-- **Timestamps that are written are found by their day, but for the day at which a test ends.**  What
a call writes for a timestamp, in a new row or in changed ones, is the text of the timestamp with its
time of day.  Every clause on the column whose values are timestamps can be compiled, and then compares
with days alone.  So a row passes it where the day of its timestamp does, unless the test ends at this
day: a row is found by no equality and by no membership, by every day that it comes after and by its
own, and not by a range that ends with its day. -/
theorem written_found_by_day {cache : Cache Database} {backendSchema : Option String}
    (hbackend : cache.backend = backend backendSchema) (hmysql : cache.config.dialect = .mysql)
    {table : String} (htable : (tableName backendSchema (.text table)).target.isItems = true)
    {s : Site Database} {schema : TableSchema} (hcached : IsCached cache table schema s)
    (hid : schema.idColumn = .text ItemColumn.id.title) {column : ItemColumn} {t : Timestamp}
    {record : Fields} (hrecord : GivesTimestamp cache.config schema column t record) :
    (∀ id s', (addItem cache (.text table) (.object record)).execute s = (.ok id, s') →
      ∃ item, IsAdded item s.outside.items.rows s'.outside.items.rows ∧
        HoldsTimestamp cache.config column t item) ∧
    (∀ idColumn v count s', (ItemColumn.find? (Identifier.found idColumn)).isSome = true →
      Predicate.isVerbatim v = false →
      (editItem cache (.text table) (.text idColumn) v (.object record)).execute s = (.ok count, s') →
        ∃ (hit : Item → Bool) (change : Item → Item),
          count = .int (s.outside.items.rows.filter hit).length ∧
          s'.outside.items.rows.Perm
            (s.outside.items.rows.map fun i => if hit i then change i else i) ∧
          ∀ i ∈ s.outside.items.rows.filter hit,
            HoldsTimestamp cache.config column t (change i)) ∧
    ∀ name clause test, ItemColumn.find? name = some column →
      schema.category? name = .ok (some .timestamp) → Clause.AsksDays name clause test →
        ∃ clause', clause.forStorage (some schema) cache.config = .ok clause' ∧
          ∀ (d : Database) (item : Item), item ∈ d.items.rows →
            HoldsTimestamp cache.config column t item →
            (Assignment.ofItem item).clause clause' =
              .ofBool (test.holds t.date != test.isEnd t.date) ∧
            ∀ kind, Query.plan (.text table) (some schema) cache.config
                { starter := some ⟨kind, clause⟩ } =
                  .ok (.ok (.scan (.text table) [.starter ⟨kind, clause'⟩])) ∧
              ∀ answer d', d.run backendSchema
                  (.filteredScan (.text table) [.starter ⟨kind, clause'⟩]) = (.ok answer, d') →
                ∃ shown : List Item, answer = .list (shown.map fun i => .object i.fields) ∧
                  (item ∈ shown ↔
                    (test.holds t.date != test.isEnd t.date) = !kind.isNegated) := by
  refine ⟨fun id s' => addItem_holds hbackend hmysql htable hcached hrecord hid,
    fun idColumn v count s' => editItem_holds hbackend hmysql htable hcached hrecord, ?_⟩
  intro name clause test hname hcategory hasks
  obtain ⟨clause', hcompiled, hp⟩ := hasks.exists_compiled hmysql hcategory
  refine ⟨clause', hcompiled, fun d item hitem hholds => ⟨?_, fun kind =>
    ⟨plan_of_clause (.text table) kind hcompiled, fun answer d' =>
      mem_shown_iff hmysql htable hname hp hitem hholds⟩⟩⟩
  rw [Assignment.clause, hp]
  exact test.truth_predicate hmysql (find?_found hname) hholds

/-! ## On the evening of a leap day -/

def dayCache : Cache Database := ⟨storeConfig.over .mysql, itemPlace, backend none, 0⟩

/-- A record of the evening of a leap day. -/
def eveningRecord : Fields :=
  [("NAME", .text "Eva"), ("created", .timestamp leapEvening)]

theorem givesTimestamp_eveningRecord :
    GivesTimestamp dayCache.config itemSchema .created leapEvening eveningRecord where
  nodup := by decide
  columns := by decide
  values := by decide
  entry := ⟨_, List.mem_cons_of_mem _ List.mem_cons_self, by decide, rfl, rfl, .inl rfl, by decide⟩

/-- The operation that adds the record. -/
def eveningInsert : Operation :=
  .insert (.text "ITEMS") [("NAME", .text "Eva"),
    ("created", .dateLiteral (storedTimestamp dayCache.config leapEvening))] (.text "ID")

/-- The record can be added to the small store of items. -/
theorem exists_addItem_eveningRecord : ∃ (s s' : Site Database) (id : Value),
    IsCached dayCache "ITEMS" itemSchema s ∧
      (addItem dayCache (.text "ITEMS") (.object eveningRecord)).execute s = (.ok id, s') ∧
      IsCached dayCache "ITEMS" itemSchema s' ∧
      s'.outside = (itemSite.outside.run none eveningInsert).2 := by
  obtain ⟨s, hcached, houtside⟩ := exists_isCached_items dayCache rfl itemSite.outside
  have hmake : insertion dayCache.config (.text "ITEMS") (.object eveningRecord) itemSchema =
    .ok eveningInsert := rfl
  have hinsert : (itemSite.outside.run none eveningInsert).1.isOk = true := by decide +kernel
  obtain ⟨id, d, hrun⟩ := exists_of_isOk hinsert
  have hran : s.outside.run none eveningInsert = (.ok id, d) := houtside ▸ hrun
  have hadded : (addItem dayCache (.text "ITEMS") (.object eveningRecord)).execute s = (.ok id, _) :=
    execute_addItem_ok (execute_perform_ok hcached hmake (execute_backend_later rfl hran) rfl)
  exact ⟨s, _, id, hcached, hadded, hcached.later d, congrArg Prod.snd hrun.symm⟩

theorem written_found_by_day_eveningRecord :
    ∃ (s s' : Site Database) (id : Value) (item : Item) (same later : Clause),
      IsCached dayCache "ITEMS" itemSchema s ∧
      (addItem dayCache (.text "ITEMS") (.object eveningRecord)).execute s = (.ok id, s') ∧
      item ∈ s'.outside.items.rows ∧
      Clause.forStorage (some itemSchema) dayCache.config
        (.comparison ⟨.text "CREATED", .eq, .text "2020-02-29"⟩) = .ok same ∧
      (Assignment.ofItem item).clause same = .no ∧
      Clause.forStorage (some itemSchema) dayCache.config
        (.comparison ⟨.text "CREATED", .gt, .text "2020-02-29"⟩) = .ok later ∧
      (Assignment.ofItem item).clause later = .yes := by
  obtain ⟨s, s', id, hcached, hadded, -⟩ := exists_addItem_eveningRecord
  have hbackend : dayCache.backend = backend none := rfl
  have htable : (tableName none (.text "ITEMS")).target.isItems = true := by decide
  obtain ⟨hadd, -, hread⟩ := written_found_by_day hbackend rfl htable hcached rfl
    givesTimestamp_eveningRecord
  obtain ⟨item, hnew, hholds⟩ := hadd id s' hadded
  have hday : timestampOf (.text "2020-02-29") = .ok (Timestamp.midnight leapEvening.date) := rfl
  obtain ⟨same, hsame, hsameRead⟩ := hread "CREATED" _ _ (by decide) rfl (.comparison .eq hday)
  obtain ⟨later, hlater, hlaterRead⟩ := hread "CREATED" _ _ (by decide) rfl (.comparison .gt hday)
  have hmem := hnew.rows.symm.subset List.mem_cons_self
  exact ⟨s, s', id, item, same, later, hcached, hadded, hmem, hsame,
    (hsameRead _ item hmem hholds).1.trans (by decide), hlater,
    (hlaterRead _ item hmem hholds).1.trans (by decide +kernel)⟩

/-- Is the answer the empty list? -/
def showsNothing : Except Fault Value → Bool
  | .ok (.list []) => true
  | _ => false

theorem eq_of_showsNothing {outcome : Except Fault Value} (h : showsNothing outcome = true) :
    outcome = .ok (.list []) := by
  unfold showsNothing at h
  split at h
  · rfl
  · cases h

/-- The query for the rows of a day finds none that was written on it. -/
theorem getList_sameDay :
    ¬ ∀ (cache : Cache Database) (schema : TableSchema) (s s₁ s₂ : Site Database) (record : Fields)
        (v id : Value) (t u : Timestamp) (rows : List Value),
      cache.backend = backend none → cache.config.dialect = .mysql →
      IsCached cache "ITEMS" schema s → GivesTimestamp cache.config schema .created t record →
      schema.category? "CREATED" = .ok (some .timestamp) →
      (addItem cache (.text "ITEMS") (.object record)).execute s = (.ok id, s₁) →
      timestampOf v = .ok u → t.date = u.date →
      (getList cache (.text "ITEMS") (.object (itemQuery "CREATED" v []))).execute s₁ =
        (.ok (.list rows), s₂) →
          rows ≠ [] := by
  intro h
  obtain ⟨s, s₁, id, hcached, hadded, hcached₁, houtside⟩ := exists_addItem_eveningRecord
  let scan : Operation := .filteredScan (.text "ITEMS")
    (itemSteps ⟨.text "CREATED", .eq, .dateLiteral ⟨"2020-02-29", false⟩⟩ [])
  have hempty : showsNothing ((itemSite.outside.run none eveningInsert).2.run none scan).1 = true := by
    decide +kernel
  generalize hanswer : (itemSite.outside.run none eveningInsert).2.run none scan = ran at hempty
  obtain ⟨outcome, d⟩ := ran
  obtain rfl := eq_of_showsNothing hempty
  have hitem : IsItem "CREATED" (.text "2020-02-29") [] := by
    refine ⟨by decide, ⟨by rintro ⟨⟩, ?_⟩, ⟨by rintro _ ⟨⟩, by rintro _ ⟨⟩⟩, by simp⟩
    rintro t ⟨⟩
    decide
  have hlist : (getList dayCache (.text "ITEMS")
      (.object (itemQuery "CREATED" (.text "2020-02-29") []))).execute s₁ =
        (.ok (.list []), { dayCache.left "ITEMS" (dayCache.entered "ITEMS" s₁) with outside := d }) := by
    have hpredicate : idPredicate dayCache.config itemSchema (.text "CREATED") (.text "2020-02-29") =
      .ok ⟨.text "CREATED", .eq, .dateLiteral ⟨"2020-02-29", false⟩⟩ := rfl
    have hscan : (dayCache.backend scan).execute (dayCache.left "ITEMS" (dayCache.entered "ITEMS" s₁)) =
        (.ok (.list []), { dayCache.left "ITEMS" (dayCache.entered "ITEMS" s₁) with outside := d }) :=
      execute_backend_later rfl (houtside ▸ hanswer)
    rw [execute_getList dayCache (.text "ITEMS") s₁ rfl rfl hitem, itemReply,
      execute_schema_cached hcached₁]
    simp only [hpredicate]
    rw [hscan]
    rfl
  exact h dayCache itemSchema s s₁ _ eveningRecord (.text "2020-02-29") id leapEvening
    (Timestamp.midnight leapEvening.date) [] rfl rfl hcached givesTimestamp_eveningRecord rfl hadded
    rfl rfl hlist rfl

end Facade

end RowAccess
