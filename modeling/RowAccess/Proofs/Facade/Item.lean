import RowAccess.Proofs.Capture
import RowAccess.Proofs.Facade.Conversion
import RowAccess.Proofs.Sql.Discovery

/-
  RowAccess/Proofs/Facade/Item.lean
  =================================
  **Reading, editing and deleting by id meet the same rows.**  The three calls turn the id column and
  the value into one predicate.  Dates stand in the statement as a call of a function that the engine
  lacks, so where the read succeeds there is none in the predicate, and where an update succeeds there
  is none in the record.  Then a deletion removes the rows that the read shows, an update changes them
  and no others, and both answer their number (`Facade.itemCalls_agree`).
-/

namespace RowAccess.Facade

open Outcome Sql

/-! ## Dates in statements -/

/-- Does the text hold nothing that ends a text in quotes or begins a marker? -/
def IsQuotable (s : String) : Prop :=
  '\'' ∉ s.toList ∧ IsClean s

instance (s : String) : Decidable (IsQuotable s) :=
  inferInstanceAs (Decidable (_ ∧ _))

theorem IsQuotable.append {s t : String} (hs : IsQuotable s) (ht : IsQuotable t) :
    IsQuotable (s ++ t) := by
  refine ⟨?_, hs.2.append ht.2⟩
  rw [String.toList_append, List.mem_append]
  exact fun h => h.elim hs.1 ht.1

theorem isQuotable_padded (width n : Nat) : IsQuotable (Text.padded width n) := by
  have hdigits : ∀ d < 10, d.digitChar ∉ ['\'', '%', '['] := by decide
  have hmem (c : Char) (hc : c ∈ ['\'', '%', '[']) : c ∉ (Text.padded width n).toList := by
    intro hpadded
    obtain ⟨d, hd, rfl⟩ := Text.exists_digitChar_of_mem_padded hpadded
    exact hdigits d hd hc
  exact ⟨hmem _ (by decide), hmem _ (by decide), hmem _ (by decide)⟩

theorem isQuotable_monthName (month : Nat) : IsQuotable (Conversion.monthName month) := by
  unfold Conversion.monthName
  have hnames : ∀ name ∈ ["JAN", "FEB", "MAR", "APR", "MAY", "JUN", "JUL", "AUG", "SEP", "OCT",
      "NOV", "DEC"], IsQuotable name := by decide
  cases hname : ["JAN", "FEB", "MAR", "APR", "MAY", "JUN", "JUL", "AUG", "SEP", "OCT", "NOV",
      "DEC"][month - 1]? with
  | none =>
    rw [Option.getD_none]
    decide
  | some name => exact hnames name (List.mem_of_getElem? hname)

/-- Are the fixed texts of a literal fit to stand in quotes? -/
def AreQuotable (parts : List LiteralPart) : Prop :=
  ∀ s, LiteralPart.text s ∈ parts → IsQuotable s

theorem isQuotable_fill {parts : List LiteralPart} (h : AreQuotable parts) (t : Timestamp) :
    IsQuotable (Conversion.fill parts t) := by
  unfold Conversion.fill
  induction parts with
  | nil => exact ⟨by simp, by simp, by simp⟩
  | cons part parts ih =>
    have hpart : IsQuotable (Conversion.fillPart t part) := by
      cases part with
      | monthName => exact isQuotable_monthName _
      | text s => exact h s List.mem_cons_self
      | _ => exact isQuotable_padded _ _
    have hrest := ih fun s hs => h s (List.mem_cons_of_mem _ hs)
    have hjoin : String.join ((part :: parts).map (Conversion.fillPart t)) =
        Conversion.fillPart t part ++ String.join (parts.map (Conversion.fillPart t)) := by
      rw [← String.toList_inj, String.toList_append, String.toList_join, String.toList_join]
      rfl
    rw [hjoin]
    exact hpart.append hrest

/-- Does the wrapping, if there is one, put a literal into the call of a function? -/
def IsDateCall (wrapping : Option Wrapping) : Prop :=
  wrapping = none ∨
    ∃ format, IsQuotable format ∧ wrapping = some ⟨"TO_DATE('", "', '" ++ format ++ "')"⟩

theorem isPlainDate_wrapLiteral {c : Config} {wrapping : Option Wrapping} {literal : String}
    (hwrapping : IsDateCall wrapping) (hliteral : IsQuotable literal) :
    (Operand.stored (.dateLiteral (Conversion.wrapLiteral c wrapping literal))).IsPlainDate := by
  have hbound : (Operand.stored (.dateLiteral ⟨literal, false⟩)).IsPlainDate := .bound _ _
  rcases hwrapping with rfl | ⟨format, hformat, rfl⟩
  · exact hbound
  · unfold Conversion.wrapLiteral
    dsimp only
    split
    · have hcall : "TO_DATE('" ++ literal ++ ("', '" ++ format ++ "')") = dateCall literal format := by
        simp only [dateCall, String.append_assoc]
      have hclean : IsClean (dateCall literal format) :=
        .append (.append (.append (.append (by decide) hliteral.2) (by decide)) hformat.2) (by decide)
      show (Operand.verbatim _).IsPlainDate
      rw [hcall]
      exact .date hliteral.1 hformat.1 hclean
    · exact hbound

/-- The marks between the numbers of a date. -/
def dateMarks : List String := ["-", ":", " "]

theorem areQuotable_of_marks {parts : List LiteralPart}
    (h : ∀ s, LiteralPart.text s ∈ parts → s ∈ dateMarks) : AreQuotable parts := by
  have hmarks : ∀ s ∈ dateMarks, IsQuotable s := by decide
  exact fun s hs => hmarks s (h s hs)

section Dialects

variable {c : Config} (hdialect : c.dialect = .oracle ∨ c.dialect = .mysql)

include hdialect

theorem isPlainDate_storedTimestamp (t : Timestamp) :
    (Operand.stored (.dateLiteral (Conversion.storedTimestamp c t))).IsPlainDate := by
  refine isPlainDate_wrapLiteral ?_ (isQuotable_fill (areQuotable_of_marks ?_) t)
  · rcases hdialect with h | h
    · rw [h]
      exact .inr ⟨"DD-MON-YYYY HH24:MI:SS", by decide, by decide⟩
    · rw [h]
      exact .inl rfl
  · rcases hdialect with h | h
    · rw [h]
      simp [Dialect.oracle, Dialect.clockParts, dateMarks]
    · rw [h]
      simp [Dialect.mysql, Dialect.clockParts, dateMarks]

theorem isPlainDate_comparedDate (t : Timestamp) :
    (Operand.ofValue (.dateLiteral (Conversion.comparedDate c t))).IsPlainDate := by
  refine isPlainDate_wrapLiteral ?_ (isQuotable_fill (areQuotable_of_marks ?_) t)
  · rcases hdialect with h | h
    · rw [h]
      exact .inr ⟨"DD-MON-YYYY", by decide, by decide⟩
    · rw [h]
      exact .inl rfl
  · rcases hdialect with h | h
    · rw [h]
      simp [Dialect.oracle, dateMarks]
    · rw [h]
      simp [Dialect.mysql, dateMarks]

end Dialects

/-! ## The id and the record in storage -/

/-- A value that is no raw literal is bound, whether it is compared with or stored. -/
theorem isPlainDate_of_isVerbatim {v : Value} (h : Predicate.isVerbatim v = false) :
    (Operand.ofValue v).IsPlainDate ∧ (Operand.stored v).IsPlainDate := by
  cases v with
  | dateLiteral l =>
    have hraw : l.raw = false := h
    simp only [Operand.ofValue, Operand.stored, hraw, Bool.false_eq_true, if_false]
    exact ⟨.bound _ _, .bound _ _⟩
  | _ => exact ⟨.bound _ _, .bound _ _⟩

theorem isVerbatim_booleanIn (c : Config) {v : Value} (h : Predicate.isVerbatim v = false) :
    Predicate.isVerbatim (Conversion.booleanIn c v) = false := by
  cases v with
  | bool b => rfl
  | _ => exact h

theorem isVerbatim_truthValue (c : Config) {v : Value} (h : Predicate.isVerbatim v = false) :
    Predicate.isVerbatim (Storage.truthValue c v) = false := by
  cases v with
  | text s =>
    unfold Storage.truthValue
    dsimp only
    split
    · rfl
    · rfl
  | _ => exact isVerbatim_booleanIn c h

theorem isVerbatim_numberValue {v : Value} (h : Predicate.isVerbatim v = false) :
    Predicate.isVerbatim (Storage.numberValue v) = false := by
  unfold Storage.numberValue
  split
  · next n _ => cases n <;> rfl
  · exact h

variable {c : Config} {schema : TableSchema} {v : Value}

/-- A value is compared as one that is no raw literal, or as a date of the dialect. -/
theorem isVerbatim_value_or {k : Category} {w : Value} (hv : Predicate.isVerbatim v = false)
    (h : Storage.value c k v = .ok w) :
    Predicate.isVerbatim w = false ∨ ∃ t, w = .dateLiteral (Conversion.comparedDate c t) := by
  cases k with
  | timestamp =>
    obtain ⟨l, hl, rfl⟩ := map_eq_ok_iff.1 h
    obtain ⟨t, -, rfl⟩ := map_eq_ok_iff.1 hl
    exact .inr ⟨t, rfl⟩
  | boolean =>
    cases h
    exact .inl (isVerbatim_truthValue c hv)
  | number =>
    cases h
    exact .inl (isVerbatim_numberValue hv)
  | buffer =>
    cases h
    exact .inl hv
  | string =>
    cases h
    exact .inl hv

/-- The comparison of an id column is one with a value that is no raw literal or with a date of the
dialect. -/
theorem exists_value_of_idPredicate {column : String} (hv : Predicate.isVerbatim v = false)
    {clause : Comparison} (h : idPredicate c schema (.text column) v = .ok clause) :
    ∃ w, clause = equality column w ∧
      (Predicate.isVerbatim w = false ∨ ∃ t, w = .dateLiteral (Conversion.comparedDate c t)) := by
  obtain ⟨k, -, h⟩ := bind_eq_ok_iff.1 h
  cases k with
  | none =>
    cases h
    exact ⟨v, rfl, .inl hv⟩
  | some k =>
    obtain ⟨w, hw, h⟩ := bind_eq_ok_iff.1 h
    cases h
    exact ⟨w, rfl, isVerbatim_value_or hv hw⟩

theorem exists_of_idPredicate (hdialect : c.dialect = .oracle ∨ c.dialect = .mysql)
    {column : String} (hv : Predicate.isVerbatim v = false) {clause : Comparison}
    (h : idPredicate c schema (.text column) v = .ok clause) :
    ∃ w, clause = equality column w ∧ (Operand.ofValue w).IsPlainDate := by
  obtain ⟨w, hclause, hw | ⟨t, rfl⟩⟩ := exists_value_of_idPredicate hv h
  · exact ⟨w, hclause, (isPlainDate_of_isVerbatim hw).1⟩
  · exact ⟨_, hclause, isPlainDate_comparedDate hdialect t⟩

/-- A stored value is bound, or is a date of the dialect. -/
theorem isPlainDate_valueIn (hdialect : c.dialect = .oracle ∨ c.dialect = .mysql)
    {k : Option Category} {w : Value} (hv : Predicate.isVerbatim v = false)
    (h : valueIn c k v = .ok w) : (Operand.stored w).IsPlainDate := by
  by_cases hnull : v.isNull = true
  · obtain rfl : v = .null := by
      cases v <;> first | rfl | cases hnull
    cases h
    exact .bound _ _
  rw [Bool.not_eq_true] at hnull
  have hsame (h : w = v) : (Operand.stored w).IsPlainDate := h ▸ (isPlainDate_of_isVerbatim hv).2
  rcases k with _ | k
  · refine hsame ?_
    cases v <;> cases h <;> rfl
  · cases k with
    | boolean =>
      rw [valueIn_boolean] at h
      cases h
      exact (isPlainDate_of_isVerbatim (isVerbatim_booleanIn c hv)).2
    | timestamp =>
      rw [valueIn_timestamp hnull] at h
      obtain ⟨l, hl, rfl⟩ := map_eq_ok_iff.1 h
      unfold Conversion.timestampIn at hl
      split at hl
      · cases hl
        exact .bound _ _
      · obtain ⟨t, -, rfl⟩ := map_eq_ok_iff.1 hl
        exact isPlainDate_storedTimestamp hdialect t
    | buffer =>
      rw [valueIn_buffer hnull] at h
      obtain ⟨bs, -, rfl⟩ := map_eq_ok_iff.1 h
      exact .bound _ _
    | number =>
      refine hsame ?_
      cases v <;> cases h <;> rfl
    | string =>
      refine hsame ?_
      cases v <;> cases h <;> rfl

/-- An entry keeps its name in storage. -/
theorem entry_of_recordIn {e e' : String × Value}
    (h : (do return (e.1, ← valueIn c (← schema.category? e.1) e.2) : Except Fault (String × Value)) =
      .ok e') : e'.1 = e.1 ∧ ∃ k, valueIn c k e.2 = .ok e'.2 := by
  obtain ⟨k, -, h⟩ := bind_eq_ok_iff.1 h
  obtain ⟨w, hw, h⟩ := bind_eq_ok_iff.1 h
  cases h
  exact ⟨rfl, k, hw⟩

theorem exists_mem_of_recordIn {record stored : Fields} (h : recordIn c schema record = .ok stored)
    {e' : String × Value} (he' : e' ∈ stored) :
    ∃ e ∈ record, e'.1 = e.1 ∧ ∃ k, valueIn c k e.2 = .ok e'.2 := by
  obtain ⟨e, he, hentry⟩ := exists_of_mem_mapM h he'
  exact ⟨e, he, entry_of_recordIn hentry⟩

theorem keys_recordIn {record stored : Fields} (h : recordIn c schema record = .ok stored) :
    Keyed.keys stored = Keyed.keys record :=
  map_eq_of_mapM h fun _ _ hentry => (entry_of_recordIn hentry).1

/-- What is stored for a record on known columns without raw literals is fit for a statement. -/
theorem areStorable_of_recordIn (hdialect : c.dialect = .oracle ∨ c.dialect = .mysql)
    {record stored : Fields} (hnodup : (Keyed.keys record).Nodup)
    (hcolumns : ∀ e ∈ record, (ItemColumn.find? (Identifier.found e.1)).isSome = true)
    (hvalues : ∀ e ∈ record, Predicate.isVerbatim e.2 = false)
    (h : recordIn c schema record = .ok stored) :
    (∀ e ∈ stored, (ItemColumn.find? (Identifier.found e.1)).isSome = true) ∧
      (∀ e ∈ stored, (Operand.stored e.2).IsPlainDate) ∧ (Keyed.keys stored).Nodup := by
  refine ⟨fun e he => ?_, fun e he => ?_, ?_⟩
  · obtain ⟨e', he', hname, -⟩ := exists_mem_of_recordIn h he
    rw [hname]
    exact hcolumns e' he'
  · obtain ⟨e', he', -, k, hvalue⟩ := exists_mem_of_recordIn h he
    exact isPlainDate_valueIn hdialect (hvalues e' he') hvalue
  · rw [keys_recordIn h]
    exact hnodup

/-! ## Calls that succeed -/

theorem execute_of_captured {σ α : Type} {act : Action σ α} {a : α} {s s' : Site σ}
    (h : act.captured.execute s = (.ok (.ok a), s')) : act.execute s = (.ok a, s') := by
  obtain ⟨outcome, s₁, houtcome, h⟩ := Action.execute_bind_eq_ok_iff.1 h
  obtain ⟨hvalue, rfl⟩ := Prod.mk.inj houtcome
  obtain ⟨hcapture, rfl⟩ := Prod.mk.inj h
  obtain rfl := Except.ok.inj hvalue
  exact Prod.ext (capture_eq_ok_iff.1 hcapture) rfl

/-- Does the end of a call succeed with the value of a reply only, and change nothing? -/
def Unwraps {σ : Type} (ending : Reply Value → Action σ Value) : Prop :=
  ∀ reply w s s', (ending reply).execute s = (.ok w, s') → reply = .ok w ∧ s' = s

theorem unwraps_unwrapped {σ : Type} (attempt : String) :
    Unwraps (σ := σ) (Action.unwrapped attempt) := by
  intro reply w s s' h
  cases reply with
  | error failure => cases h
  | ok b =>
    cases h
    exact ⟨rfl, rfl⟩

/-- The description in which a value is told. -/
theorem Unwraps.told {σ : Type} {ending : String → Reply Value → Action σ Value}
    (h : ∀ name, Unwraps (ending name)) (v : Value) :
    Unwraps (fun reply => do ending (← v.told) reply) := by
  intro reply w s s' hending
  obtain ⟨name, s₁, hname, hending⟩ := Action.execute_bind_eq_ok_iff.1 hending
  obtain ⟨-, rfl⟩ := Prod.mk.inj hname
  exact h name reply w _ s' hending

/-- The description in which an id value and a table are told. -/
theorem unwraps_described {σ : Type} (v table : Value) (attempt : String → String → String) :
    Unwraps (σ := σ) (fun reply => do
      Action.unwrapped (attempt (← v.told) (← table.told)) reply) :=
  Unwraps.told (fun _ => Unwraps.told (fun _ => unwraps_unwrapped _) table) v

/-- A call that succeeds runs the operation that it makes of the schema and converts the answer. -/
theorem exists_of_perform {σ : Type} {cache : Cache σ} {table w : Value}
    {ending : Reply Value → Action σ Value} (hending : Unwraps ending)
    {make : TableSchema → Except Fault Operation} {convert : TableSchema → Value → Except Fault Value}
    {s s' : Site σ}
    (h : Action.execute (do ending (← perform cache table make convert)) s = (.ok w, s')) :
    ∃ schema s₁ operation answer, (cache.schema table false).execute s = (.ok schema, s₁) ∧
      make schema = .ok operation ∧ (cache.backend operation).execute s₁ = (.ok answer, s') ∧
        convert schema answer = .ok w := by
  obtain ⟨reply, s₂, hperform, hreply⟩ := Action.execute_bind_eq_ok_iff.1 h
  obtain ⟨rfl, rfl⟩ := hending _ _ _ _ hreply
  obtain ⟨found, s₁, hschema, hperform⟩ := Action.execute_bind_eq_ok_iff.1 hperform
  cases found with
  | error failure => cases hperform
  | ok schema =>
    obtain ⟨answered, s₂, hanswered, hconverted⟩ := Action.execute_bind_eq_ok_iff.1 hperform
    cases answered with
    | error failure => cases hconverted
    | ok answer =>
      obtain ⟨operation, s₃, hmake, hrun⟩ :=
        Action.execute_bind_eq_ok_iff.1 (execute_of_captured hanswered)
      obtain ⟨hoperation, rfl⟩ := Prod.mk.inj hmake
      obtain ⟨converted, s₄, hconvert, hreturn⟩ := Action.execute_bind_eq_ok_iff.1 hconverted
      obtain ⟨hvalue, rfl⟩ := Prod.mk.inj hconvert
      obtain ⟨hw, rfl⟩ := Prod.mk.inj hreturn
      cases hw
      exact ⟨schema, _, operation, answer, execute_of_captured hschema, hoperation, hrun, hvalue⟩

/-- The rows of an answer go out one by one. -/
theorem exists_of_rowsOut {c : Config} {schema : TableSchema} {items : List Item} {rows : Value}
    (h : rowsOut c schema (.list (items.map fun i => .object i.fields)) = .ok rows) :
    ∃ out : List Fields, rows = .list (out.map .object) ∧
      items.mapM (fun i => rowOut c schema i.fields) = .ok out := by
  have hrows : (items.map fun i => Value.object i.fields).mapM (fun row => do
      return Value.object (← rowOut c schema (← fieldsOf row))) =
        (items.mapM fun i => rowOut c schema i.fields).map (List.map .object) := by
    clear h
    induction items with
    | nil => rfl
    | cons i items ih =>
      rw [List.map_cons, List.mapM_cons, List.mapM_cons, ih, fieldsOf, ok_bind]
      cases rowOut c schema i.fields with
      | error f => rfl
      | ok row => cases items.mapM (fun i => rowOut c schema i.fields) <;> rfl
  obtain ⟨members, hmembers, h⟩ := bind_eq_ok_iff.1 h
  cases hmembers
  obtain ⟨converted, hconverted, h⟩ := bind_eq_ok_iff.1 h
  cases h
  rw [hrows] at hconverted
  obtain ⟨out, hout, rfl⟩ := map_eq_ok_iff.1 hconverted
  exact ⟨out, rfl, hout⟩

/-- Is the predicate the one by which calls with an id address rows, under the schema of the table? -/
structure Addresses (cache : Cache Database) (table : Value) (column : String) (v : Value)
    (s : Site Database) (schema : TableSchema) (p : Predicate) : Prop where
  found : ((cache.schema table false).execute s).1 = .ok schema
  predicate : ∃ clause, idPredicate cache.config schema (.text column) v = .ok clause ∧
    Predicate.ofComparison clause = .ok p

/-- The comparison that an operation with an id makes is the one of the predicate. -/
theorem Addresses.exists_equality {cache : Cache Database} {table v : Value} {column : String}
    {s : Site Database} {schema found : TableSchema} {p : Predicate}
    (h : Addresses cache table column v s schema p)
    (hdialect : cache.config.dialect = .oracle ∨ cache.config.dialect = .mysql)
    (hv : Predicate.isVerbatim v = false)
    (hfound : ((cache.schema table false).execute s).1 = .ok found) {clause : Comparison}
    (hclause : idPredicate cache.config found (.text column) v = .ok clause) :
    found = schema ∧ ∃ w, clause = equality column w ∧
      Predicate.ofComparison (equality column w) = .ok p := by
  obtain rfl := Except.ok.inj (h.found.symm.trans hfound)
  obtain ⟨clause', hsame, hp⟩ := h.predicate
  obtain rfl := Except.ok.inj (hclause.symm.trans hsame)
  obtain ⟨w, rfl, -⟩ := exists_of_idPredicate hdialect hv hclause
  exact ⟨rfl, w, rfl, hp⟩

section Calls

variable {cache : Cache Database} {backendSchema : Option String}
  (hbackend : cache.backend = backend backendSchema)
  (hdialect : cache.config.dialect = .oracle ∨ cache.config.dialect = .mysql) {table : Value}
  (htable : (tableName backendSchema table).target.isItems = true) {column : String} {v : Value}
  (hv : Predicate.isVerbatim v = false) {s s' : Site Database} {schema : TableSchema}
  {p : Predicate}

include hbackend hdialect htable

/-- A call that succeeds runs its operation on the table that was there before. -/
theorem exists_run_of_perform {w : Value} {ending : Reply Value → Action Database Value}
    (hending : Unwraps ending) {make : TableSchema → Except Fault Operation}
    (convert : TableSchema → Value → Except Fault Value)
    (h : Action.execute (do ending (← perform cache table make convert)) s = (.ok w, s')) :
    ∃ (schema : TableSchema) (d : Database) (operation : Operation) (answer : Value),
      ((cache.schema table false).execute s).1 = .ok schema ∧
      make schema = .ok operation ∧ d.items = s.outside.items ∧
        d.run backendSchema operation = (.ok answer, s'.outside) ∧ convert schema answer = .ok w := by
  obtain ⟨schema, s₀, operation, answer, hschema, hmake, hrun, hconvert⟩ :=
    exists_of_perform hending h
  have hkept : s₀.outside.items = s.outside.items :=
    Action.rel_of_spans (spans_schema hbackend hdialect htable false) hschema
  rw [hbackend, execute_backend] at hrun
  obtain ⟨hanswer, rfl⟩ := Prod.mk.inj hrun
  refine ⟨schema, s₀.outside, operation, answer, ?_, hmake, hkept, Prod.ext hanswer rfl, hconvert⟩
  rw [hschema]

include hv

/-- A read that succeeds shows the rows that its predicate accepts, and there is no date in the
predicate. -/
theorem getItem_shows (hc : IsKnown column) {rows : Value}
    (h : (getItem cache table (.text column) v .null).execute s = (.ok rows, s')) :
    ∃ (schema : TableSchema) (p : Predicate) (out : List Fields),
      Addresses cache table column v s schema p ∧ IsIdTest p ∧ p.isDirect = true ∧
        rows = .list (out.map .object) ∧
          (s.outside.items.rows.filter (passes (some p.expr))).mapM
            (fun i => rowOut cache.config schema i.fields) = .ok out ∧
              s'.outside.items = s.outside.items := by
  obtain ⟨schema, d, operation, answer, hfound, hmake, hitems, hrun, hrows⟩ :=
    exists_run_of_perform hbackend hdialect htable (unwraps_described v table _)
      (rowsOut cache.config) h
  obtain ⟨clause, hclause, hmake⟩ := bind_eq_ok_iff.1 hmake
  obtain ⟨w, rfl, hw⟩ := exists_of_idPredicate hdialect hv hclause
  cases hmake
  obtain ⟨p, hp, hdirect, hkept, rfl⟩ := run_scan htable hc hw hrun
  obtain ⟨htest, -⟩ := ofComparison_equality hc hw hp
  obtain ⟨out, hout, hrows⟩ := exists_of_rowsOut hrows
  rw [hitems] at hrows hkept
  exact ⟨schema, p, out, ⟨hfound, _, hclause, hp⟩, htest, hdirect, hout, hrows, hkept⟩

/-- A deletion that succeeds removes the rows that the predicate accepts. -/
theorem deleteItem_removes (haddresses : Addresses cache table column v s schema p)
    (htest : IsIdTest p) (hdirect : p.isDirect = true) {count : Value}
    (h : (deleteItem cache table (.text column) v).execute s = (.ok count, s')) :
    count = .int (s.outside.items.rows.filter (passes (some p.expr))).length ∧
      s'.outside.items.rows = s.outside.items.rows.filter fun i => !passes (some p.expr) i := by
  obtain ⟨_, d, operation, answer, hfound, hmake, hitems, hrun, hcount⟩ :=
    exists_run_of_perform hbackend hdialect htable (unwraps_described v table _)
      (fun _ answer => .ok answer) h
  obtain ⟨clause, hclause, hmake⟩ := bind_eq_ok_iff.1 hmake
  obtain ⟨rfl, w, rfl, hp⟩ := haddresses.exists_equality hdialect hv hfound hclause
  cases hmake
  cases hcount
  obtain ⟨hcount, hdeleted⟩ := run_deletion htable hp htest hdirect hrun
  rw [hitems] at hcount hdeleted
  exact ⟨hcount, congrArg Items.rows hdeleted⟩

/-- An edit that succeeds changes the rows that the predicate accepts as its record asks. -/
theorem editItem_changes (haddresses : Addresses cache table column v s schema p)
    (htest : IsIdTest p) (hdirect : p.isDirect = true) {record : Fields} {count : Value}
    (hnodup : (Keyed.keys record).Nodup)
    (hcolumns : ∀ e ∈ record, (ItemColumn.find? (Identifier.found e.1)).isSome = true)
    (hvalues : ∀ e ∈ record, Predicate.isVerbatim e.2 = false)
    (h : (editItem cache table (.text column) v (.object record)).execute s = (.ok count, s')) :
    count = .int (s.outside.items.rows.filter (passes (some p.expr))).length ∧
      ∃ stored cells, recordIn cache.config schema record = .ok stored ∧ AsksFor stored cells ∧
        IsEdited cells (passes (some p.expr)) s.outside.items.rows s'.outside.items.rows := by
  obtain ⟨_, d, operation, answer, hfound, hmake, hitems, hrun, hcount⟩ :=
    exists_run_of_perform hbackend hdialect htable (unwraps_described v table _)
      (fun _ answer => .ok answer) h
  obtain ⟨clause, hclause, hmake⟩ := bind_eq_ok_iff.1 hmake
  obtain ⟨rfl, w, rfl, hp⟩ := haddresses.exists_equality hdialect hv hfound hclause
  obtain ⟨fields, hfields, hmake⟩ := bind_eq_ok_iff.1 hmake
  cases hfields
  obtain ⟨stored, hstored, hmake⟩ := bind_eq_ok_iff.1 hmake
  cases hmake
  cases hcount
  obtain ⟨hstoredColumns, hdates, hdistinct⟩ :=
    areStorable_of_recordIn hdialect hnodup hcolumns hvalues hstored
  obtain ⟨hcount, cells, hcells, hedited⟩ :=
    run_edition htable hp htest hdirect hstoredColumns hdates hdistinct hrun
  rw [hitems] at hcount hedited
  exact ⟨hcount, stored, cells, hstored, hcells, hedited⟩

/-- **Reading, editing and deleting by id meet the same rows.**  Where the read of an id succeeds, a
deletion that succeeds removes exactly the rows that the read shows, keeps the others in order and
answers their number.  An edit that succeeds answers the same number and changes exactly these rows, by
the cells that its record asks for; of several cells for one column the last counts. -/
theorem itemCalls_agree (hcolumn : (ItemColumn.find? (Identifier.found column)).isSome = true)
    {rows : Value} (hget : (getItem cache table (.text column) v .null).execute s = (.ok rows, s')) :
    ∃ (schema : TableSchema) (p : Predicate) (out : List Fields),
      Addresses cache table column v s schema p ∧ rows = .list (out.map .object) ∧
      (s.outside.items.rows.filter (passes (some p.expr))).mapM
        (fun i => rowOut cache.config schema i.fields) = .ok out ∧
      s'.outside.items = s.outside.items ∧
      (∀ count s₁, (deleteItem cache table (.text column) v).execute s = (.ok count, s₁) →
        count = .int out.length ∧
          s₁.outside.items.rows = s.outside.items.rows.filter fun i => !passes (some p.expr) i) ∧
      ∀ record count s₁, (Keyed.keys record).Nodup →
        (∀ e ∈ record, (ItemColumn.find? (Identifier.found e.1)).isSome = true) →
        (∀ e ∈ record, Predicate.isVerbatim e.2 = false) →
        (editItem cache table (.text column) v (.object record)).execute s = (.ok count, s₁) →
          count = .int out.length ∧
            ∃ stored cells, recordIn cache.config schema record = .ok stored ∧
              AsksFor stored cells ∧ IsEdited cells (passes (some p.expr))
                s.outside.items.rows s₁.outside.items.rows := by
  obtain ⟨schema, p, out, haddresses, htest, hdirect, hrows, hout, hkept⟩ :=
    getItem_shows hbackend hdialect htable hv (isKnown_column hcolumn) hget
  refine ⟨schema, p, out, haddresses, hrows, hout, hkept, ?_, ?_⟩
  · intro count s₁ hdelete
    rw [length_of_mapM hout]
    exact deleteItem_removes hbackend hdialect htable hv haddresses htest hdirect hdelete
  · intro record count s₁ hnodup hcolumns hvalues hedit
    rw [length_of_mapM hout]
    exact editItem_changes hbackend hdialect htable hv haddresses htest hdirect hnodup hcolumns hvalues
      hedit

end Calls

/-! ## A small store of items -/

def itemPlace : Place := ⟨"c", "", "c", "t"⟩

def itemCache : Cache Database := ⟨storeConfig, itemPlace, backend none, 0⟩

/-- A catalog that knows the table and the category of no column. -/
def itemFile : List UInt8 :=
  Text.Utf8.encode "\x7b\"schemas\":[\x7b\"name\":\"ITEMS\",\"idColumn\":\"ID\"\x7d]\x7d".toList

def itemSite : Site Database where
  folder := some [("c", .file itemFile)]
  memories := []
  outside :=
    { items := ⟨[⟨1, .text "Filip", .int 9, .null, .null, .null⟩,
        ⟨2, .text "Ada", .null, .null, .null, .null⟩], by simp [Ascending]⟩
      sent := [] }

/-- A record that moves a row to another id. -/
def movingRecord : Fields :=
  [("ID", .int 3), ("name", .int 7)]

theorem exists_of_isOk {α β ε : Type} {x : Except ε α × β} (h : x.1.isOk = true) :
    ∃ a b, x = (.ok a, b) := by
  obtain ⟨r, b⟩ := x
  cases r with
  | error e => cases h
  | ok a => exact ⟨a, b, rfl⟩

theorem itemCalls_agree_movingRecord :
    ∃ (rows count : Value) (s₁ s₂ s₃ : Site Database) (p : Predicate)
      (cells : List (ItemColumn × Cell)),
      (getItem itemCache (.text "ITEMS") (.text "ID") (.text "1") .null).execute itemSite =
          (.ok rows, s₁) ∧
        (deleteItem itemCache (.text "ITEMS") (.text "ID") (.text "1")).execute itemSite =
          (.ok count, s₂) ∧
        (editItem itemCache (.text "ITEMS") (.text "ID") (.text "1") (.object movingRecord)).execute
          itemSite = (.ok count, s₃) ∧
        s₂.outside.items.rows =
          itemSite.outside.items.rows.filter (fun i => !passes (some p.expr) i) ∧
        IsEdited cells (passes (some p.expr)) itemSite.outside.items.rows
          s₃.outside.items.rows := by
  have hget : ((getItem itemCache (.text "ITEMS") (.text "ID") (.text "1") .null).execute
      itemSite).1.isOk = true := by decide +kernel
  have hdelete : ((deleteItem itemCache (.text "ITEMS") (.text "ID") (.text "1")).execute
      itemSite).1.isOk = true := by decide +kernel
  have hedit : ((editItem itemCache (.text "ITEMS") (.text "ID") (.text "1")
      (.object movingRecord)).execute itemSite).1.isOk = true := by decide +kernel
  obtain ⟨rows, s₁, hget⟩ := exists_of_isOk hget
  obtain ⟨count, s₂, hdelete⟩ := exists_of_isOk hdelete
  obtain ⟨changed, s₃, hedit⟩ := exists_of_isOk hedit
  have hbackend : itemCache.backend = backend none := rfl
  obtain ⟨schema, p, out, -, -, -, -, hdeletion, hedition⟩ :=
    itemCalls_agree hbackend (.inl rfl) (by decide) rfl (by decide) hget
  obtain ⟨hcount, hdeleted⟩ := hdeletion count s₂ hdelete
  obtain ⟨hchanged, stored, cells, -, -, hedited⟩ :=
    hedition movingRecord changed s₃ (by decide) (by decide) (by decide) hedit
  refine ⟨rows, count, s₁, s₂, s₃, p, cells, hget, hdelete, ?_, hdeleted, hedited⟩
  rw [hedit, hchanged, hcount]

/-- A record whose only value is a raw literal that goes on to set another column. -/
def spreadingRecord : Fields :=
  [("NAME", .dateLiteral ⟨"'x', NUMBER = 5", true⟩)]

/-- A raw literal in a record stands in the statement as it is, so an edit may change what its record
does not name. -/
theorem editItem_rawLiteral :
    ¬ ∀ (cache : Cache Database) (column : String) (v : Value) (record : Fields)
        (s : Site Database) (other : ItemColumn), cache.backend = backend none →
      cache.config.dialect = .oracle → (Keyed.keys record).Nodup →
      (∀ e ∈ record, ItemColumn.find? (Identifier.found e.1) ≠ some other) →
      ((getItem cache (.text "ITEMS") (.text column) v .null).execute s).1.isOk = true →
      ((editItem cache (.text "ITEMS") (.text column) v (.object record)).execute s).1.isOk = true →
        (((editItem cache (.text "ITEMS") (.text column) v (.object record)).execute
          s).2.outside.items.rows.map (fun i => i.cell other)).Perm
            (s.outside.items.rows.map (fun i => i.cell other)) := by
  intro h
  have hget : ((getItem itemCache (.text "ITEMS") (.text "ID") (.int 1) .null).execute
      itemSite).1.isOk = true := by decide +kernel
  have hedit : ((editItem itemCache (.text "ITEMS") (.text "ID") (.int 1)
      (.object spreadingRecord)).execute itemSite).1.isOk = true := by decide +kernel
  have hnumbers : ((editItem itemCache (.text "ITEMS") (.text "ID") (.int 1)
      (.object spreadingRecord)).execute itemSite).2.outside.items.rows.map
        (fun i => i.cell .number) = [.int 5, .null] := by decide +kernel
  have hkept := h itemCache "ID" (.int 1) spreadingRecord itemSite .number rfl rfl (by decide)
    (by decide) hget hedit
  rw [hnumbers] at hkept
  have hchanged : ¬ [Cell.int 5, .null].Perm [.int 9, .null] := by decide
  exact hchanged hkept

end RowAccess.Facade
