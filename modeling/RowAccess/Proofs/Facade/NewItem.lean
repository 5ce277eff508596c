import RowAccess.Proofs.Facade.Checked
import RowAccess.Proofs.Facade.Item
import RowAccess.Proofs.Sql.Lookup
import RowAccess.Proofs.Sql.NewRow

/-
  RowAccess/Proofs/Facade/NewItem.lean
  ====================================
  **A new row and the id that is answered for it.**  A record that is added becomes one row, with an id
  that no row had, and all other rows stay.  The answer is the value that the record gives the id column,
  whatever it is, or else the id of the row.  A lookup of the answer finds exactly the new row where that
  value is the id as the column compares it, and fails to find it otherwise (`Facade.addItem_adds`).
-/

namespace RowAccess.Facade

open Outcome Sql

/-! ## Calls on a table whose schema is cached -/

section Cached

variable {σ : Type} {cache : Cache σ} {table : String} {schema : TableSchema}
  {s s' : Site σ}

/-- The schema stays cached while the rows change. -/
theorem IsCached.later (h : IsCached cache table schema s) (outside : σ) :
    IsCached cache table schema
      { cache.left table (cache.entered table s) with outside := outside } where
  isFree := by
    have hmemory : cache.memoryAt (cache.left table (cache.entered table s)) = cache.memoryAt s := by
      simp only [Cache.left, Cache.entered, Cache.memoryAt_changed, Cache.filter_held h.isFree]
    show Value.text table ∉ (cache.memoryAt (cache.left table (cache.entered table s))).held
    rw [hmemory]
    exact h.isFree
  held := h.held

/-- A call has its answer where its operation can be made and run and the answer can be converted. -/
theorem execute_perform_ok (hcached : IsCached cache table schema s)
    {make : TableSchema → Except Fault Operation} {convert : TableSchema → Value → Except Fault Value}
    {operation : Operation} {answer w : Value} (hmake : make schema = .ok operation)
    (hrun : (cache.backend operation).execute (cache.left table (cache.entered table s)) =
      (.ok answer, s'))
    (hconvert : convert schema answer = .ok w) :
    (perform cache (.text table) make convert).execute s = (.ok (.ok w), s') := by
  unfold perform
  simp only [Action.execute_bind, execute_captured, execute_schema_cached hcached, capture,
    Action.execute_lift, hmake, hrun, hconvert]
  rfl

/-- The insertion of a record has its answer. -/
theorem execute_addItem_ok {record w : Value}
    (h : (write cache (.text table) (insertion cache.config (.text table) record)).execute s =
      (.ok (.ok w), s')) :
    (addItem cache (.text table) record).execute s = (.ok w, s') := by
  unfold addItem
  rw [Action.execute_bind, h]
  rfl

/-- The lookup of an id that can be written has its answer. -/
theorem execute_getItem_ok {column : String} {v w : Value} (hv : v.isWritable = true)
    (h : (read cache (.text table) (itemScan cache.config (.text table) (.text column) v [])).execute
      s = (.ok (.ok w), s')) :
    (getItem cache (.text table) (.text column) v .null).execute s = (.ok w, s') := by
  show Action.execute (read cache (.text table) _ >>= _) s = _
  rw [Action.execute_bind, h, Value.told_of_isWritable hv]
  rfl

/-- An operation runs on the rows that were there before the schema was looked up. -/
theorem execute_backend_later {cache : Cache Database} {backendSchema : Option String}
    (hbackend : cache.backend = backend backendSchema) {s : Site Database} {operation : Operation}
    {outcome : Except Fault Value} {d : Database}
    (hrun : s.outside.run backendSchema operation = (outcome, d)) :
    (cache.backend operation).execute (cache.left table (cache.entered table s)) =
      (outcome, { cache.left table (cache.entered table s) with outside := d }) := by
  have houtside : (cache.left table (cache.entered table s)).outside = s.outside := rfl
  rw [hbackend, execute_backend, houtside, hrun]

end Cached

/-! ## Records and rows of a table with ids -/

/-- Does the schema name the column of ids, and know it as a column of numbers? -/
structure KnowsIds (schema : TableSchema) : Prop where
  idColumn : schema.idColumn = .text ItemColumn.id.title
  number : schema.category? ItemColumn.id.title = .ok (some .number)
  isText : ∀ k, ∀ v ∈ schema.columns.of k, v.isText = true

/-- A conversion that keeps all names, and the values under one of them, keeps what is found there. -/
theorem find?_of_mapM {convert : String × Value → Except Fault (String × Value)} {name : String}
    (hconvert : ∀ e e', convert e = .ok e' → e'.1 = e.1 ∧ (e.1 = name → e'.2 = e.2))
    {fields out : Fields} (h : fields.mapM convert = .ok out) :
    Keyed.find? out name = Keyed.find? fields name := by
  induction fields generalizing out with
  | nil =>
    cases h
    rfl
  | cons e fields ih =>
    rw [List.mapM_cons] at h
    obtain ⟨e', he', h⟩ := bind_eq_ok_iff.1 h
    obtain ⟨rest, hrest, h⟩ := bind_eq_ok_iff.1 h
    cases h
    obtain ⟨k, v⟩ := e
    obtain ⟨k', v'⟩ := e'
    obtain ⟨rfl, hvalue⟩ := hconvert _ _ he'
    rw [Keyed.find?, Keyed.find?, ih hrest]
    split
    · next hname => exact congrArg some (hvalue (beq_iff_eq.1 hname))
    · rfl

section Ids

variable {c : Config} {schema : TableSchema} (hknows : KnowsIds schema)

include hknows

theorem find?_recordIn {record stored : Fields} (h : recordIn c schema record = .ok stored) :
    Keyed.find? stored ItemColumn.id.title = Keyed.find? record ItemColumn.id.title := by
  refine find?_of_mapM (fun e e' he => ?_) h
  obtain ⟨hname, k, -⟩ := entry_of_recordIn he
  refine ⟨hname, fun hid => ?_⟩
  obtain ⟨k, hk, he⟩ := bind_eq_ok_iff.1 he
  obtain ⟨w, hw, he⟩ := bind_eq_ok_iff.1 he
  cases he
  rw [hid] at hk
  cases hknows.number.symm.trans hk
  have hsame (v : Value) : valueIn c (some .number) v = .ok v := by cases v <;> rfl
  exact Except.ok.inj (hw.symm.trans (hsame e.2))

theorem find?_rowOut {row shown : Fields} (h : rowOut c schema row = .ok shown) :
    Keyed.find? shown ItemColumn.id.title = Keyed.find? row ItemColumn.id.title := by
  refine find?_of_mapM (fun e e' he => ?_) h
  obtain ⟨k, hk, he⟩ := bind_eq_ok_iff.1 he
  cases he
  refine ⟨rfl, fun hid => ?_⟩
  rw [hid] at hk
  cases hknows.number.symm.trans hk
  rfl

/-- Every row can be shown. -/
theorem exists_shown (row : Fields) : ∃ shown, rowOut c schema row = .ok shown := by
  induction row with
  | nil => exact ⟨[], rfl⟩
  | cons e row ih =>
    obtain ⟨shown, hshown⟩ := ih
    obtain ⟨k, hk⟩ := TableSchema.exists_category hknows.isText e.1
    rw [rowOut] at hshown
    refine ⟨(e.1, valueOut c k e.2) :: shown, ?_⟩
    simp only [rowOut, List.mapM_cons, hk, ok_bind, pure_bind, hshown]
    rfl

/-- A lookup of a value in the id column compares with the number of the value. -/
theorem idPredicate_id (v : Value) :
    idPredicate c schema (.text ItemColumn.id.title) v =
      .ok (equality ItemColumn.id.title (Storage.numberValue v)) := by
  have hlookup : Storage.categoryIn? (some schema) (.text ItemColumn.id.title) =
      .ok (some .number) := hknows.number
  unfold idPredicate Comparison.forStorage Storage.onColumn
  rw [hlookup]
  rfl

/-- Rows that are shown alike have one id. -/
theorem id_eq_of_rowOut {i j : Item} {shown : Fields} (hi : rowOut c schema i.fields = .ok shown)
    (hj : rowOut c schema j.fields = .ok shown) : i.id = j.id := by
  have hfields (i : Item) : Keyed.find? i.fields ItemColumn.id.title = some (.int i.id) := rfl
  have hfind := (find?_rowOut hknows hi).symm.trans (find?_rowOut hknows hj)
  rw [hfields, hfields] at hfind
  exact Value.int.inj (Option.some.inj hfind)

/-- The only value that a record gives the id column is the id of the new row, where it is a number. -/
theorem isSought_of_recordIn {record stored : Fields} (hstored : recordIn c schema record = .ok stored)
    (hdistinct : (Keyed.keys stored).Nodup)
    (honly : ∀ e ∈ record, ItemColumn.find? (Identifier.found e.1) = some .id →
      e.1 = ItemColumn.id.title)
    {cells : List (ItemColumn × Cell)} (hcells : AsksFor stored cells) {t u : Items} {item : Item}
    (hinsert : insertRow cells t = .ok (u, item)) {v : Value}
    (hfind : Keyed.find? record ItemColumn.id.title = some v) (hnumeric : IsNumeric v) :
    IsSought v item.id := by
  rw [← find?_recordIn hknows hstored] at hfind
  have hmem := (Keyed.exact_of_lawful _).mem_of_find? hfind
  have hentry : ∀ e ∈ stored, ItemColumn.find? (Identifier.found e.1) = some .id →
      e = (ItemColumn.id.title, v) := by
    intro e he hcolumn
    obtain ⟨e', he', hname, -⟩ := exists_mem_of_recordIn hstored he
    rw [hname] at hcolumn
    have htitle : e.1 = ItemColumn.id.title := hname.trans (honly e' he' hcolumn)
    have hsame := (Keyed.find?_eq_some_iff (fun _ _ => Keyed.exact_of_lawful _) hdistinct e.1 e.2).2 he
    rw [htitle] at hsame
    exact Prod.ext htitle (Option.some.inj (hsame.symm.trans hfind))
  have hbindable : Predicate.bindable v = v := by
    cases v <;> first | rfl | cases hnumeric
  obtain ⟨x, -, -, hcell⟩ := hcells.exists_cell hmem
  have hcell' := hcell
  rw [hbindable] at hcell'
  obtain ⟨hsent, hnull⟩ := soughtCell_of_isNumeric hnumeric hcell'
  have hid : ItemColumn.find? (Identifier.found ItemColumn.id.title) = some .id := by decide
  refine isSought_of_apply ?_
  rw [hsent]
  exact apply_eq_id hcells hinsert hmem hid hentry hcell hnull

end Ids

/-! ## Adding and looking up -/

/-- The id is sought by a given value or by itself: exactly where the value, if there is one, seeks
it. -/
theorem isSought_getD_iff {given : Option Value} {n : Int} (hn : isStorable n = true) :
    IsSought (given.getD (.int n)) n ↔ ∀ v, given = some v → IsSought v n := by
  cases given with
  | none =>
    refine ⟨?_, fun _ => isSought_int hn⟩
    rintro - v ⟨⟩
  | some v =>
    refine ⟨?_, fun h => h v rfl⟩
    rintro h w ⟨⟩
    exact h

/-- A test that only the id of the new row passes keeps the new row alone. -/
theorem filter_of_isAdded {item : Item} {before after : List Item} {test : Item → Bool}
    (h : IsAdded item before after) (htest : ∀ r, test r = true ↔ r.id = item.id) :
    after.filter test = [item] := by
  have hbefore : before.filter test = [] := by
    rw [List.filter_eq_nil_iff]
    exact fun r hr hpasses => h.fresh r hr ((htest r).1 hpasses)
  have hperm := h.rows.filter test
  rw [List.filter_cons_of_pos ((htest item).2 rfl), hbefore] at hperm
  exact List.perm_singleton.1 hperm

section Calls

variable {cache : Cache Database} {backendSchema : Option String}
  (hbackend : cache.backend = backend backendSchema)
  (hdialect : cache.config.dialect = .oracle ∨ cache.config.dialect = .mysql) {table : String}
  (htable : (tableName backendSchema (.text table)).target.isItems = true)
  {s s' : Site Database} {schema : TableSchema} (hcached : IsCached cache table schema s)
  (hknows : KnowsIds schema)

include hbackend hdialect htable hcached hknows

/-- What a lookup shows are rows whose id is sought. -/
theorem exists_of_getItem {v : Value} {rows : List Value} (hv : Predicate.isVerbatim v = false)
    (h : (getItem cache (.text table) (.text ItemColumn.id.title) v .null).execute s =
      (.ok (.list rows), s')) :
    ∀ row ∈ rows, ∃ (i : Item) (shown : Fields), IsSought v i.id ∧
      rowOut cache.config schema i.fields = .ok shown ∧ row = .object shown := by
  have hid : ItemColumn.find? (Identifier.found ItemColumn.id.title) = some .id := by decide
  obtain ⟨schema', p, out, haddresses, -, -, hrows, hout, -⟩ :=
    getItem_shows hbackend hdialect htable hv (isKnown_column (by rw [hid]; rfl)) h
  have hfound := haddresses.found
  rw [execute_schema_cached hcached] at hfound
  obtain rfl := Except.ok.inj hfound
  obtain ⟨clause, hclause, hp⟩ := haddresses.predicate
  cases (idPredicate_id hknows v).symm.trans hclause
  intro row hrow
  rw [Value.list.inj hrows] at hrow
  obtain ⟨shown, hshown, rfl⟩ := List.mem_map.1 hrow
  obtain ⟨i, hi, hirow⟩ := exists_of_mem_mapM hout hshown
  obtain ⟨-, hpasses⟩ := List.mem_filter.1 hi
  exact ⟨i, shown, (passes_equality hid (isVerbatim_numberValue hv) hp).1 hpasses, hirow, rfl⟩

/-- A lookup shows the new row and no other exactly where the id of the row is sought. -/
theorem getItem_iff {before : List Item} {item : Item} {shown : Fields} {v : Value}
    (hadded : IsAdded item before s.outside.items.rows)
    (hshown : rowOut cache.config schema item.fields = .ok shown)
    (hv : Predicate.isVerbatim v = false) :
    (∃ s', (getItem cache (.text table) (.text ItemColumn.id.title) v .null).execute s =
      (.ok (.list [.object shown]), s')) ↔ IsSought v item.id := by
  have hid : ItemColumn.find? (Identifier.found ItemColumn.id.title) = some .id := by decide
  have hbound := isVerbatim_numberValue hv
  constructor
  · rintro ⟨s', h⟩
    obtain ⟨i, fields, hi, hrow, hsame⟩ :=
      exists_of_getItem hbackend hdialect htable hcached hknows hv h _ List.mem_cons_self
    cases hsame
    rw [← id_eq_of_rowOut hknows hrow hshown]
    exact hi
  · intro h
    obtain ⟨o, hp, ho⟩ := exists_sendable hbound h
    obtain ⟨d, hrun⟩ := run_scan_ok (d := s.outside) htable hid hp ho
    have hfilter : s.outside.items.rows.filter
        (passes (some (Predicate.compare ItemColumn.id.title .eq o).expr)) = [item] := by
      refine filter_of_isAdded hadded fun r => ?_
      rw [passes_equality hid hbound hp]
      exact ⟨fun hr => eq_of_isSought hr h, fun hr => hr ▸ h⟩
    rw [hfilter] at hrun
    have hmake : itemScan cache.config (.text table) (.text ItemColumn.id.title) v [] schema =
        .ok (.filteredScan (.text table)
          [.starter ⟨.where_, .comparison (equality ItemColumn.id.title (Storage.numberValue v))⟩]) := by
      simp only [itemScan, idPredicate_id hknows v]
      rfl
    have hconverted : [Value.object item.fields].mapM (fun row => do
        return Value.object (← rowOut cache.config schema (← fieldsOf row))) =
          .ok [.object shown] := by
      simp only [List.mapM_cons, List.mapM_nil, fieldsOf, ok_bind, hshown]
      rfl
    have hout : rowsOut cache.config schema (.list [.object item.fields]) =
        .ok (.list [.object shown]) :=
      bind_eq_ok_iff.2 ⟨_, rfl, bind_eq_ok_iff.2 ⟨_, hconverted, rfl⟩⟩
    exact ⟨_, execute_getItem_ok (isWritable_of_isSought h)
      (execute_perform_ok hcached hmake (execute_backend_later hbackend hrun) hout)⟩

/-- **A new row and the id that is answered for it.**  Where a record is added, one row with an id that
no row had is new, and every other row stays.  The answer is the value that the record gives the id
column, or else the id of the row.  A lookup of the answer shows this row and no other exactly where
the value, if there is one, is the id as the column compares it.  A number is, where the record names
the id column once. -/
theorem addItem_adds (hheld : s.outside.items.IsHeld) {record : Fields}
    (hnodup : (Keyed.keys record).Nodup)
    (hcolumns : ∀ e ∈ record, (ItemColumn.find? (Identifier.found e.1)).isSome = true)
    (hvalues : ∀ e ∈ record, Predicate.isVerbatim e.2 = false) {id : Value}
    (h : (addItem cache (.text table) (.object record)).execute s = (.ok id, s')) :
    ∃ item shown, IsAdded item s.outside.items.rows s'.outside.items.rows ∧
      id = (Keyed.find? record ItemColumn.id.title).getD (.int item.id) ∧
      rowOut cache.config schema item.fields = .ok shown ∧
      ((∃ s'', (getItem cache (.text table) (.text ItemColumn.id.title) id .null).execute s' =
          (.ok (.list [.object shown]), s'')) ↔
        ∀ v, Keyed.find? record ItemColumn.id.title = some v → IsSought v item.id) ∧
      ∀ v, Keyed.find? record ItemColumn.id.title = some v → IsNumeric v →
        (∀ e ∈ record, ItemColumn.find? (Identifier.found e.1) = some .id →
          e.1 = ItemColumn.id.title) → IsSought v item.id := by
  have hid : ItemColumn.find? (Identifier.found ItemColumn.id.title) = some .id := by decide
  obtain ⟨schema', s₁, operation, answer, hschema, hmake, hrun, hconvert⟩ :=
    exists_of_perform (Unwraps.told (fun _ => unwraps_unwrapped _) (.text table)) h
  rw [execute_schema_cached hcached] at hschema
  obtain ⟨hsame, rfl⟩ := Prod.mk.inj hschema
  obtain rfl := Except.ok.inj hsame
  obtain ⟨fields, hfields, hmake⟩ := bind_eq_ok_iff.1 hmake
  cases hfields
  obtain ⟨stored, hstored, hmake⟩ := bind_eq_ok_iff.1 hmake
  cases hmake
  cases hconvert
  rw [hbackend, execute_backend, hknows.idColumn] at hrun
  obtain ⟨hanswer, rfl⟩ := Prod.mk.inj hrun
  obtain ⟨hstoredColumns, hdates, hdistinct⟩ :=
    areStorable_of_recordIn hdialect hnodup hcolumns hvalues hstored
  obtain ⟨cells, item, hcells, hinsert, hvalue⟩ :=
    run_insertion htable hid hstoredColumns hdates hdistinct (Prod.ext hanswer rfl)
  obtain ⟨-, -, -, hadded⟩ := insertRow_eq_ok hinsert
  rw [find?_recordIn hknows hstored] at hvalue
  obtain ⟨shown, hshown⟩ := exists_shown (c := cache.config) hknows item.fields
  have hbound : Predicate.isVerbatim id = false := by
    rw [hvalue]
    cases hfind : Keyed.find? record ItemColumn.id.title with
    | none => rfl
    | some v => exact hvalues _ ((Keyed.exact_of_lawful _).mem_of_find? hfind)
  refine ⟨item, shown, hadded, hvalue, hshown, ?_, ?_⟩
  · rw [getItem_iff hbackend hdialect htable (hcached.later _) hknows hadded hshown hbound, hvalue]
    exact isSought_getD_iff (isStorable_id hheld hcells hinsert)
  · intro v hfind hnumeric honly
    exact isSought_of_recordIn hknows hstored hdistinct honly hcells hinsert hfind hnumeric

end Calls

/-! ## A small table of items -/

/-- The schema of the table of items. -/
def itemSchema : TableSchema :=
  ⟨.text "ITEMS", .text "ID", some .number,
    ⟨[.text "ACTIVE"], [.text "PAYLOAD"], [.text "CREATED"], [.text "ID", .text "NUMBER"],
      [.text "NAME"]⟩, rfl⟩

theorem knowsIds_itemSchema : KnowsIds itemSchema where
  idColumn := rfl
  number := rfl
  isText := by
    intro k
    cases k <;> decide

/-- The schema of the table of items can be cached. -/
theorem exists_isCached_items (cache : Cache Database) (hplace : cache.place = emptyCache.place)
    (d : Database) : ∃ s, IsCached cache "ITEMS" itemSchema s ∧ s.outside = d := by
  have hnamed : itemSchema.Named := ⟨rfl, .inr rfl, knowsIds_itemSchema.isText⟩
  have hstored : Catalog.ofStored (storedAlone itemSchema.toStored) =
    .ok ⟨[.text "ITEMS"], [(.text "ITEMS", itemSchema)]⟩ := rfl
  have hschema : Catalog.get? ⟨[.text "ITEMS"], [(.text "ITEMS", itemSchema)]⟩ (.text "ITEMS") =
    some itemSchema := rfl
  exact exists_isCached cache hplace (plain_storedAlone hnamed.plain) hstored hschema d

theorem exists_isCached_itemSchema (d : Database) :
    ∃ s, IsCached itemCache "ITEMS" itemSchema s ∧ s.outside = d :=
  exists_isCached_items itemCache rfl d

theorem isHeld_itemSite : itemSite.outside.items.IsHeld where
  ids := by decide
  room := by decide

theorem addItem_adds_numberedRecord :
    ∃ (s s' s'' : Site Database) (item : Item) (shown : Fields),
      (addItem itemCache (.text "ITEMS") (.object [("ID", .int 12), ("NAME", .text "Maja")])).execute s =
        (.ok (.int 12), s') ∧
      IsAdded item s.outside.items.rows s'.outside.items.rows ∧
      (getItem itemCache (.text "ITEMS") (.text "ID") (.int 12) .null).execute s' =
        (.ok (.list [.object shown]), s'') := by
  obtain ⟨s, hcached, houtside⟩ := exists_isCached_itemSchema itemSite.outside
  have hrun : (itemSite.outside.run none (.insert (.text "ITEMS")
      [("ID", .int 12), ("NAME", .text "Maja")] (.text "ID"))).1.isOk = true := by decide +kernel
  obtain ⟨id, d, hrun⟩ := exists_of_isOk hrun
  have hmake : insertion storeConfig (.text "ITEMS")
      (.object [("ID", .int 12), ("NAME", .text "Maja")]) itemSchema =
        .ok (.insert (.text "ITEMS") [("ID", .int 12), ("NAME", .text "Maja")] (.text "ID")) := rfl
  have hbackend : itemCache.backend = backend none := rfl
  rw [← houtside] at hrun
  have hadd : (addItem itemCache (.text "ITEMS")
      (.object [("ID", .int 12), ("NAME", .text "Maja")])).execute s = (.ok id, _) :=
    execute_addItem_ok (execute_perform_ok hcached hmake (execute_backend_later hbackend hrun) rfl)
  have hheld : s.outside.items.IsHeld := houtside ▸ isHeld_itemSite
  obtain ⟨item, shown, hadded, hid, -, hlookup, hnumeric⟩ :=
    addItem_adds hbackend (.inl rfl) (by decide) hcached knowsIds_itemSchema hheld
      (by decide) (by decide) (by decide) hadd
  obtain rfl : id = .int 12 := hid
  have hsought : IsSought (.int 12) item.id := hnumeric _ rfl trivial (by decide)
  obtain ⟨s'', hget⟩ := hlookup.2 fun v hv => Option.some.inj hv ▸ hsought
  exact ⟨s, _, s'', item, shown, hadd, hadded, hget⟩

/-- A record that leaves its id empty gets the next id.  The answer is the empty value of the record,
which no lookup finds. -/
theorem addItem_emptyId :
    ¬ ∀ (cache : Cache Database) (schema : TableSchema) (record : Fields) (id : Value)
        (s s' : Site Database), cache.backend = backend none → cache.config.dialect = .oracle →
      IsCached cache "ITEMS" schema s → KnowsIds schema → s.outside.items.IsHeld →
      (Keyed.keys record).Nodup →
      (∀ e ∈ record, (ItemColumn.find? (Identifier.found e.1)).isSome = true) →
      (∀ e ∈ record, Predicate.isVerbatim e.2 = false) →
      (addItem cache (.text "ITEMS") (.object record)).execute s = (.ok id, s') →
        ∃ row s'', (getItem cache (.text "ITEMS") (.text "ID") id .null).execute s' =
          (.ok (.list [row]), s'') := by
  intro h
  obtain ⟨s, hcached, houtside⟩ := exists_isCached_itemSchema itemSite.outside
  have hbackend : itemCache.backend = backend none := rfl
  have hnull : (itemSite.outside.run none (.insert (.text "ITEMS")
      [("ID", .null), ("NAME", .text "x")] (.text "ID"))).1.toOption.any Value.isNull = true := by
    decide +kernel
  have hmake : insertion storeConfig (.text "ITEMS")
      (.object [("ID", .null), ("NAME", .text "x")]) itemSchema =
        .ok (.insert (.text "ITEMS") [("ID", .null), ("NAME", .text "x")] (.text "ID")) := rfl
  generalize hrun : itemSite.outside.run none (.insert (.text "ITEMS")
    [("ID", .null), ("NAME", .text "x")] (.text "ID")) = ran at hnull
  obtain ⟨outcome, d⟩ := ran
  obtain rfl : outcome = .ok .null := by
    cases outcome with
    | error f => cases hnull
    | ok v => cases v <;> first | rfl | cases hnull
  rw [← houtside] at hrun
  have hadd : (addItem itemCache (.text "ITEMS")
      (.object [("ID", .null), ("NAME", .text "x")])).execute s = (.ok .null, _) :=
    execute_addItem_ok (execute_perform_ok hcached hmake (execute_backend_later hbackend hrun) rfl)
  obtain ⟨row, s'', hget⟩ := h itemCache itemSchema _ .null s _ hbackend rfl hcached
    knowsIds_itemSchema (houtside ▸ isHeld_itemSite) (by decide) (by decide) (by decide) hadd
  obtain ⟨i, -, hsought, -⟩ := exists_of_getItem hbackend (.inl rfl) (by decide) (hcached.later d)
    knowsIds_itemSchema rfl hget row List.mem_cons_self
  cases hsought

end RowAccess.Facade
