import RowAccess.Proofs.Json.RoundTrip
import RowAccess.Proofs.Outcome
import RowAccess.Schema.Catalog

/-
  RowAccess/Proofs/Schema/Catalog.lean
  ====================================
  **Catalogs whose names are texts.**  In a coherent catalog no table is listed twice and every
  schema stands under its own name, which is listed.  Putting a schema keeps a catalog coherent and
  changes the entry of one table only; a catalog that was read is coherent; and the stored form of a
  coherent catalog gives the catalog back (`Catalog.ofStored_toStored`).
-/

namespace RowAccess

open Keyed

namespace TableSchema

/-! ## Schemas -/

/-- Texts name the table, its columns and its id column, where it has one. -/
structure Named (t : TableSchema) : Prop where
  table : t.name.isText = true
  idColumn : t.idColumn.isNull = true ∨ t.idColumn.isText = true
  columns : ∀ k, ∀ v ∈ t.columns.of k, v.isText = true

theorem storedMembers_list {fields : Fields} {name : String} {vs : List Value}
    (h : find? fields name = some (.list vs)) : storedMembers fields name = .ok vs := by
  cases vs with
  | nil => simp [storedMembers, h, Value.isGiven]
  | cons v vs => simp [storedMembers, h, Value.isGiven, Value.members?]

theorem make_self (t : TableSchema) : make t.name t.idColumn t.idType t.columns = .ok t := by
  unfold make
  split
  next => rfl
  next h => rw [t.partitioned] at h; cases h
  next h => rw [t.partitioned] at h; cases h

def storedIdType : Option IdType → Value
  | none => .null
  | some i => .text i.name

theorem idTypeOf_storedIdType (i : Option IdType) : idTypeOf (storedIdType i) = .ok i := by
  cases i with
  | none => rfl
  | some i => cases i <;> rfl

def storedFields (t : TableSchema) : Fields :=
  [("name", t.name), ("idColumn", t.idColumn), ("idType", storedIdType t.idType)] ++
    storedOrder.map fun k => (storedName k, .list (t.columns.of k))

theorem toStored_eq (t : TableSchema) : t.toStored = .object t.storedFields := rfl

/-- The stored form of a schema gives the schema back. -/
theorem ofStored_toStored (t : TableSchema) : ofStored t.toStored = .ok t := by
  have hmembers : ∀ k, storedMembers t.storedFields (storedName k) = .ok (t.columns.of k) := by
    intro k
    refine storedMembers_list ?_
    cases k <;> simp [find?, storedFields, storedOrder, storedName]
  have hname : find? t.storedFields "name" = some t.name := rfl
  have hidColumn : find? t.storedFields "idColumn" = some t.idColumn := rfl
  have hidType : find? t.storedFields "idType" = some (storedIdType t.idType) := rfl
  have hfields : ofFields t.storedFields = .ok t := by
    unfold ofFields
    simp only [hmembers, bind, Except.bind, hname, hidColumn, hidType, Option.getD_some,
      idTypeOf_storedIdType]
    exact make_self t
  rw [toStored_eq, ofStored, hfields]

/-- The stored form of a schema with texts for names is plain. -/
theorem Named.plain {t : TableSchema} (h : t.Named) : Json.Plain t.toStored := by
  have htext : ∀ v : Value, v.isText = true → Json.Plain v := by
    intro v hv
    obtain ⟨s, rfl⟩ := Value.isText_iff.1 hv
    exact .text s
  have hcolumns : ∀ k, Json.Plain (.list (t.columns.of k)) :=
    fun k => .list fun v hv => htext v (h.columns k v hv)
  have hkeys : keys t.storedFields = ["name", "idColumn", "idType", "booleanColumns",
      "bufferColumns", "timestampColumns", "numberColumns", "stringColumns"] := rfl
  rw [toStored_eq]
  refine .object (by rw [hkeys]; decide) ?_
  intro f hf
  rcases List.mem_append.1 hf with hf | hf
  · simp only [List.mem_cons, List.not_mem_nil, or_false] at hf
    rcases hf with rfl | rfl | rfl
    · exact htext t.name h.table
    · rcases h.idColumn with hnull | htxt
      · show Json.Plain t.idColumn
        revert hnull
        cases t.idColumn <;> simp [Value.isNull, Json.MadeOf.null]
      · exact htext t.idColumn htxt
    · show Json.Plain (storedIdType t.idType)
      cases t.idType with
      | none => exact .null
      | some i => exact .text i.name
  · obtain ⟨k, -, rfl⟩ := List.mem_map.1 hf
    exact hcolumns k

end TableSchema

namespace Catalog

/-! ## Coherence -/

/-- No table is listed twice, and every schema stands once, under its own name, which is listed. -/
structure Coherent (c : Catalog) : Prop where
  distinct : c.tables.Nodup
  once : (keys c.schemas).Nodup
  named : ∀ e ∈ c.schemas, e.1 = e.2.name
  listed : ∀ k ∈ keys c.schemas, k ∈ c.tables

/-- Texts name the tables and whatever the schemas name. -/
structure Named (c : Catalog) : Prop where
  tables : ∀ v ∈ c.tables, v.isText = true
  schemas : ∀ e ∈ c.schemas, e.2.Named

theorem coherent_empty (tables : List Value) (h : tables.Nodup) : Coherent ⟨tables, []⟩ :=
  ⟨h, List.nodup_nil, by simp, by simp [keys]⟩

theorem mem_list {tables : List Value} {name v : Value} (h : Exact name) :
    v ∈ list tables name ↔ v ∈ tables ∨ v = name := by
  unfold list
  split
  next hmem =>
    rw [h.contains_iff] at hmem
    constructor
    · exact .inl
    · rintro (hv | rfl)
      · exact hv
      · exact hmem
  next => simp

theorem nodup_list {tables : List Value} {name : Value} (h : Exact name) (ht : tables.Nodup) :
    (list tables name).Nodup := by
  unfold list
  split
  next => exact ht
  next hmem =>
    rw [h.contains_iff] at hmem
    refine List.nodup_append.2 ⟨ht, by simp, ?_⟩
    intro a ha b hb
    rw [List.mem_singleton.1 hb]
    rintro rfl
    exact hmem ha

theorem list_of_mem {tables : List Value} {name : Value} (h : Exact name) (hmem : name ∈ tables) :
    list tables name = tables := by
  rw [list, if_pos ((h.contains_iff tables).2 hmem)]

theorem subset_list (tables : List Value) (name : Value) : ∀ v ∈ tables, v ∈ list tables name := by
  intro v hv
  unfold list
  split
  · exact hv
  · exact List.mem_append_left _ hv

theorem isText_of_list {tables : List Value} {name : Value}
    (h : ∀ v ∈ list tables name, v.isText = true) : name.isText = true := by
  unfold list at h
  split at h
  next hmem =>
    rw [List.contains_eq_any_beq, List.any_eq_true] at hmem
    obtain ⟨v, hv, hsame⟩ := hmem
    obtain ⟨s, rfl⟩ := Value.isText_iff.1 (h v hv)
    rw [((Value.exact_text s).right name).1 hsame]
    rfl
  next => exact h name (List.mem_append_right _ (List.mem_singleton.2 rfl))

theorem exact_of_isText {v : Value} (h : v.isText = true) : Exact v := by
  obtain ⟨s, rfl⟩ := Value.isText_iff.1 h
  exact Value.exact_text s

/-! ## Putting a schema -/

section Put

variable {c : Catalog} {t : TableSchema}

theorem get?_put (ht : t.name.isText = true) : (c.put t).get? t.name = some t :=
  (exact_of_isText ht).find?_put c.schemas t

theorem get?_put_of_ne (ht : t.name.isText = true) {name : Value} (hne : t.name ≠ name) :
    (c.put t).get? name = c.get? name :=
  (exact_of_isText ht).find?_put_of_ne c.schemas t hne

theorem mem_tables_put (ht : t.name.isText = true) {v : Value} :
    v ∈ (c.put t).tables ↔ v ∈ c.tables ∨ v = t.name :=
  mem_list (exact_of_isText ht)

theorem Coherent.put (h : c.Coherent) (ht : t.name.isText = true) : (c.put t).Coherent := by
  have hexact := exact_of_isText ht
  constructor
  · exact nodup_list hexact h.distinct
  · show (keys (Keyed.put c.schemas t.name t)).Nodup
    by_cases hmem : t.name ∈ keys c.schemas
    · rw [hexact.keys_put_of_mem hmem]
      exact h.once
    · rw [hexact.put_of_not_mem hmem]
      simp only [keys, List.map_append, List.map_cons, List.map_nil]
      refine List.nodup_append.2 ⟨h.once, by simp, ?_⟩
      intro a ha b hb
      rw [List.mem_singleton.1 hb]
      rintro rfl
      exact hmem ha
  · intro e he
    rcases hexact.mem_put he with rfl | he
    · rfl
    · exact h.named e he
  · intro k hk
    refine (mem_tables_put ht).2 ?_
    rcases (hexact.mem_keys_put c.schemas t).1 hk with hk | rfl
    · exact .inl (h.listed k hk)
    · exact .inr rfl

theorem Named.put (h : c.Named) (ht : t.Named) : (c.put t).Named := by
  have hexact := exact_of_isText ht.table
  constructor
  · intro v hv
    rcases (mem_tables_put ht.table).1 hv with hv | rfl
    · exact h.tables v hv
    · exact ht.table
  · intro e he
    rcases hexact.mem_put he with rfl | he
    · exact ht
    · exact h.schemas e he

end Put

def putAll (c : Catalog) (ts : List TableSchema) : Catalog :=
  ts.foldl put c

section PutAll

variable {c : Catalog} {ts : List TableSchema}

theorem mem_tables_putAll (hts : ∀ t ∈ ts, t.name.isText = true) {v : Value} :
    v ∈ (c.putAll ts).tables ↔ v ∈ c.tables ∨ ∃ t ∈ ts, v = t.name := by
  induction ts generalizing c with
  | nil => simp [putAll]
  | cons t ts ih =>
    have h := ih (c := c.put t) fun u hu => hts u (List.mem_cons_of_mem _ hu)
    rw [mem_tables_put (hts t List.mem_cons_self)] at h
    rw [putAll, List.foldl_cons, ← putAll, h]
    simp [or_assoc]

theorem Named.putAll (h : c.Named) (hts : ∀ t ∈ ts, t.Named) : (c.putAll ts).Named := by
  induction ts generalizing c with
  | nil => exact h
  | cons t ts ih =>
    exact ih (h.put (hts t List.mem_cons_self)) fun u hu => hts u (List.mem_cons_of_mem _ hu)

theorem Coherent.putAll (h : c.Coherent) (hts : ∀ t ∈ ts, t.name.isText = true) :
    (c.putAll ts).Coherent := by
  induction ts generalizing c with
  | nil => exact h
  | cons t ts ih =>
    exact ih (h.put (hts t List.mem_cons_self)) fun u hu => hts u (List.mem_cons_of_mem _ hu)

theorem get?_putAll_of_ne (hts : ∀ t ∈ ts, t.name.isText = true) {name : Value}
    (hne : ∀ t ∈ ts, t.name ≠ name) : (c.putAll ts).get? name = c.get? name := by
  induction ts generalizing c with
  | nil => rfl
  | cons t ts ih =>
    have h := ih (c := c.put t) (fun u hu => hts u (List.mem_cons_of_mem _ hu))
      fun u hu => hne u (List.mem_cons_of_mem _ hu)
    rw [get?_put_of_ne (hts t List.mem_cons_self) (hne t List.mem_cons_self)] at h
    exact h

/-- Among schemas of distinct tables each is found under its name. -/
theorem get?_putAll_of_mem (hts : ∀ t ∈ ts, t.name.isText = true)
    (hdistinct : (ts.map (·.name)).Nodup) {t : TableSchema} (ht : t ∈ ts) :
    (c.putAll ts).get? t.name = some t := by
  induction ts generalizing c with
  | nil => cases ht
  | cons u ts ih =>
    rw [List.map_cons, List.nodup_cons] at hdistinct
    have hrest : ∀ w ∈ ts, w.name.isText = true := fun w hw => hts w (List.mem_cons_of_mem _ hw)
    rcases List.mem_cons.1 ht with rfl | ht
    · have hne : ∀ w ∈ ts, w.name ≠ t.name :=
        fun w hw heq => hdistinct.1 (List.mem_map.2 ⟨w, hw, heq⟩)
      have h := get?_putAll_of_ne (c := c.put t) hrest hne
      rw [get?_put (hts t List.mem_cons_self)] at h
      exact h
    · exact ih hrest hdistinct.2 ht

end PutAll

/-- A schema stands under its own name. -/
theorem Coherent.get?_name {c : Catalog} (h : c.Coherent) {table : String} {t : TableSchema}
    (ht : c.get? (.text table) = some t) : t.name = .text table :=
  (h.named _ ((Value.exact_text table).mem_of_find? ht)).symm

/-! ## The stored form -/

theorem foldl_list {names : List Value} (htext : ∀ v ∈ names, v.isText = true)
    (before : List Value) (h : (before ++ names).Nodup) :
    names.foldl list before = before ++ names := by
  induction names generalizing before with
  | nil => simp
  | cons v names ih =>
    have hexact := exact_of_isText (htext v List.mem_cons_self)
    have hv : v ∉ before := fun hmem =>
      (List.nodup_append.1 h).2.2 v hmem v List.mem_cons_self rfl
    have hlist : list before v = before ++ [v] := by
      rw [list, if_neg (fun hmem => hv ((hexact.contains_iff before).1 hmem))]
    rw [List.foldl_cons, hlist,
      ih (fun w hw => htext w (List.mem_cons_of_mem _ hw)) _ (by simpa using h)]
    simp

theorem addStored_toStored (tables : List Value) (rest done : Keyed Value TableSchema)
    (htext : ∀ e ∈ rest, e.1.isText = true) (hkey : ∀ e ∈ rest, e.1 = e.2.name)
    (hlisted : ∀ e ∈ rest, e.1 ∈ tables) (honce : (keys (done ++ rest)).Nodup) :
    addStored ⟨tables, done⟩ ((values rest).map TableSchema.toStored) =
      .ok ⟨tables, done ++ rest⟩ := by
  induction rest generalizing done with
  | nil => simp [values, addStored]
  | cons e rest ih =>
    obtain ⟨k, t⟩ := e
    obtain rfl : k = t.name := hkey _ List.mem_cons_self
    have ht : t.name.isText = true := htext _ List.mem_cons_self
    have hexact := exact_of_isText ht
    have hisKey : t.name.isKey = true := by
      obtain ⟨s, hs⟩ := Value.isText_iff.1 ht
      rw [hs]
      rfl
    have hnew : t.name ∉ keys done := by
      intro hmem
      simp only [keys, List.map_append, List.map_cons] at honce
      exact (List.nodup_append.1 honce).2.2 _ hmem _ List.mem_cons_self rfl
    have hput : (⟨tables, done⟩ : Catalog).put t = ⟨tables, done ++ [(t.name, t)]⟩ := by
      rw [put, list_of_mem hexact (hlisted _ List.mem_cons_self), hexact.put_of_not_mem hnew]
    have hrest := ih (done ++ [(t.name, t)]) (fun e he => htext e (List.mem_cons_of_mem _ he))
      (fun e he => hkey e (List.mem_cons_of_mem _ he))
      (fun e he => hlisted e (List.mem_cons_of_mem _ he)) (by simpa using honce)
    simp only [values, List.map_cons] at hrest ⊢
    rw [addStored, TableSchema.ofStored_toStored]
    simp only [bind, Except.bind, add, hisKey, if_true, hput, hrest]
    simp

/-- The stored form of a coherent catalog with texts for names gives the catalog back. -/
theorem ofStored_toStored {c : Catalog} (hn : c.Named) (h : c.Coherent) :
    ofStored c.toStored = .ok c := by
  have htables : TableSchema.storedMembers [("tables", .list c.tables),
      ("schemas", .list ((values c.schemas).map TableSchema.toStored))] "tables" =
      .ok c.tables := TableSchema.storedMembers_list rfl
  have hschemas : TableSchema.storedMembers [("tables", .list c.tables),
      ("schemas", .list ((values c.schemas).map TableSchema.toStored))] "schemas" =
      .ok ((values c.schemas).map TableSchema.toStored) := TableSchema.storedMembers_list rfl
  have hkey : ∀ e ∈ c.schemas, e.1.isText = true := by
    intro e he
    rw [h.named e he]
    exact (hn.schemas e he).table
  have hlisted : ∀ e ∈ c.schemas, e.1 ∈ c.tables :=
    fun e he => h.listed _ (List.mem_map.2 ⟨e, he, rfl⟩)
  rw [toStored, ofStored, htables, hschemas]
  simp only [bind, Except.bind]
  rw [foldl_list hn.tables [] (by simpa using h.distinct), List.nil_append,
    addStored_toStored c.tables c.schemas [] hkey h.named hlisted (by simpa using h.once)]
  rfl

/-- The stored form of a catalog with texts for names is plain. -/
theorem Named.plain {c : Catalog} (h : c.Named) : Json.Plain c.toStored := by
  refine .object (by simp [keys]) ?_
  intro f hf
  simp only [List.mem_cons, List.not_mem_nil, or_false] at hf
  rcases hf with rfl | rfl
  · refine .list fun v hv => ?_
    obtain ⟨s, rfl⟩ := Value.isText_iff.1 (h.tables v hv)
    exact .text s
  · refine .list fun v hv => ?_
    obtain ⟨t, ht, rfl⟩ := List.mem_map.1 hv
    obtain ⟨e, he, rfl⟩ := List.mem_map.1 ht
    exact (h.schemas e he).plain

/-! ## What was read -/

theorem subset_foldl_list (names before : List Value) :
    ∀ v ∈ before, v ∈ names.foldl list before := by
  induction names generalizing before with
  | nil => exact fun v hv => hv
  | cons name names ih => exact fun v hv => ih _ v (subset_list before name v hv)

/-- All that is listed stays listed, so with texts in the end each name was a text. -/
theorem nodup_foldl_list (names before : List Value) (hbefore : before.Nodup)
    (htext : ∀ v ∈ names.foldl list before, v.isText = true) :
    (names.foldl list before).Nodup := by
  induction names generalizing before with
  | nil => exact hbefore
  | cons name names ih =>
    have hname : name.isText = true :=
      isText_of_list fun v hv => htext v (subset_foldl_list names _ v hv)
    exact ih (list before name) (nodup_list (exact_of_isText hname) hbefore) htext

theorem addStored_cons {c c' : Catalog} {v : Value} {vs : List Value}
    (h : addStored c (v :: vs) = .ok c') : ∃ t, addStored (c.put t) vs = .ok c' := by
  rw [addStored, Outcome.bind_eq_ok_iff] at h
  obtain ⟨t, -, h⟩ := h
  by_cases ht : t.name.isKey = true
  · rw [add, if_pos ht] at h
    exact ⟨t, h⟩
  · rw [add, if_neg ht] at h
    cases h

/-- Adding stored schemas keeps the listed tables and keeps a catalog coherent. -/
theorem coherent_addStored {vs : List Value} {c c' : Catalog} (h : addStored c vs = .ok c')
    (htext : ∀ v ∈ c'.tables, v.isText = true) :
    (∀ v ∈ c.tables, v ∈ c'.tables) ∧ (c.Coherent → c'.Coherent) := by
  induction vs generalizing c with
  | nil =>
    cases h
    exact ⟨fun v hv => hv, fun hc => hc⟩
  | cons v vs ih =>
    obtain ⟨t, ht⟩ := addStored_cons h
    obtain ⟨hsubset, hcoherent⟩ := ih ht
    have hname : t.name.isText = true := isText_of_list fun w hw => htext w (hsubset w hw)
    exact ⟨fun w hw => hsubset w (subset_list _ _ w hw), fun hc => hcoherent (hc.put hname)⟩

theorem coherent_ofStored {v : Value} {c : Catalog} (h : ofStored v = .ok c)
    (htext : ∀ v ∈ c.tables, v.isText = true) : c.Coherent := by
  cases v with
  | object fields =>
    rw [ofStored, Outcome.bind_eq_ok_iff] at h
    obtain ⟨names, -, h⟩ := h
    rw [Outcome.bind_eq_ok_iff] at h
    obtain ⟨schemas, -, h⟩ := h
    obtain ⟨hsubset, hcoherent⟩ := coherent_addStored h htext
    have hnames := nodup_foldl_list names [] List.nodup_nil fun w hw => htext w (hsubset w hw)
    exact hcoherent (coherent_empty _ hnames)
  | _ => cases h

end Catalog

end RowAccess
