import RowAccess.Proofs.Calendar.Iso
import RowAccess.Proofs.Chain.Form
import RowAccess.Proofs.Facade.Conversion
import RowAccess.Proofs.Literal.Check

/-
  RowAccess/Proofs/Facade/RawLiteral.lean
  =======================================
  **Raw literals are dates.**  A raw literal becomes part of a statement as it is, so nothing that a
  client wrote may stand in one.  No literal is read, and the two conversions that write them fill
  the digits and the month of a date that exists into a call of fixed words; what a formatter writes
  is bound.  So every raw literal of an operation that is built for a client is such a call
  (`rawLiterals_areDates`).
-/

namespace RowAccess

open Conversion Outcome Value

/-! ## Dates in words of their own -/

/-- Does the text spell a number, with a digit at each of so many places? -/
def IsNumeral (places n : Nat) (s : String) : Prop :=
  ∃ ds : List Nat, (∀ d ∈ ds, d < 10) ∧ ds.length = places ∧ Text.ofDigits ds = n ∧
    s.toList = ds.map Nat.digitChar

def monthTokens : List String :=
  ["JAN", "FEB", "MAR", "APR", "MAY", "JUN", "JUL", "AUG", "SEP", "OCT", "NOV", "DEC"]

/-- Is the text the day, the token of the month and the year of a date, parted by hyphens? -/
def IsDayMonthYear (d : Date) (s : String) : Prop :=
  ∃ day month year, IsNumeral 2 d.day day ∧ monthTokens[d.month - 1]? = some month ∧
    IsNumeral 4 d.year year ∧ s = day ++ "-" ++ month ++ "-" ++ year

/-- Is the text the hour, the minute and the second of a timestamp, parted by colons? -/
def IsClock (t : Timestamp) (s : String) : Prop :=
  ∃ hour minute second, IsNumeral 2 t.hour hour ∧ IsNumeral 2 t.minute minute ∧
    IsNumeral 2 t.second second ∧ s = hour ++ ":" ++ minute ++ ":" ++ second

/-- The calls that make a date of its text: of a day, and of a day and a time. -/
inductive IsDateExpression : String → Prop
  | date {d : Date} {s : String} (h : IsDayMonthYear d s) :
    IsDateExpression ("TO_DATE('" ++ s ++ "', 'DD-MON-YYYY')")
  | timestamp {t : Timestamp} {day clock : String} (hday : IsDayMonthYear t.date day)
    (hclock : IsClock t clock) :
    IsDateExpression ("TO_DATE('" ++ (day ++ " " ++ clock) ++ "', 'DD-MON-YYYY HH24:MI:SS')")

theorem isNumeral_padded (width : Nat) {n : Nat} (hn : n < 10 ^ (width + 1)) :
    IsNumeral (width + 1) n (Text.padded (width + 1) n) := by
  obtain ⟨ds, hds, hlt, hlength, hvalue⟩ := Text.exists_digits_of_paddedDigits width hn
  exact ⟨ds, hlt, hlength, hvalue, (Text.toList_padded _ _).trans hds⟩

/-- The parts that the dialects put between hyphens spell the date. -/
theorem isDayMonthYear_fill (t : Timestamp) :
    IsDayMonthYear t.date (fill Dialect.oracle.dateLiteral t) := by
  have hyear := t.date.exists_year
  have hmonth := t.date.exists_month
  have hindex : t.date.month - 1 < monthTokens.length := by
    show t.date.month - 1 < 12
    omega
  have htoken : monthTokens[t.date.month - 1]? = some (monthName t.date.month) := by
    rw [List.getElem?_eq_getElem hindex, monthName]
    show some _ = some ((monthTokens[t.date.month - 1]?).getD "")
    rw [List.getElem?_eq_getElem hindex]
    rfl
  refine ⟨_, _, _, isNumeral_padded 1 t.date.day_lt, htoken, isNumeral_padded 3 (by omega), ?_⟩
  simp [fill, Dialect.oracle, fillPart, String.join_cons, String.append_assoc]

theorem isClock_fill (t : Timestamp) :
    ∃ clock, IsClock t clock ∧ fill Dialect.clockParts t = " " ++ clock := by
  have htime := t.exists_time
  refine ⟨_, ⟨_, _, _, isNumeral_padded 1 (by omega), isNumeral_padded 1 (by omega),
    isNumeral_padded 1 (by omega), rfl⟩, ?_⟩
  simp [fill, Dialect.clockParts, fillPart, String.join_cons, String.append_assoc]

/-! ## Literals that conversions write -/

/-- May a literal be raw?  Only as a date in the dialect and the configuration that ask for it. -/
structure IsRawDate (c : Config) (l : DateLiteral) : Prop where
  dialect : c.dialect = .oracle
  wraps : c.wrapDateLiterals = true
  text : IsDateExpression l.text

/-- Are all raw literals among these dates? -/
def RawAreDates (c : Config) (ls : List DateLiteral) : Prop :=
  ∀ l ∈ ls, l.raw = true → IsRawDate c l

namespace RawAreDates

variable {c : Config} {ls ms : List DateLiteral}

theorem nil : RawAreDates c [] := by
  intro l hl
  cases hl

theorem of_eq_nil (h : ls = []) : RawAreDates c ls :=
  h ▸ nil

theorem append (hls : RawAreDates c ls) (hms : RawAreDates c ms) : RawAreDates c (ls ++ ms) := by
  intro l hl
  rcases List.mem_append.1 hl with hl | hl
  · exact hls l hl
  · exact hms l hl

theorem flatMap {α : Type} {f : α → List DateLiteral} {xs : List α}
    (h : ∀ x ∈ xs, RawAreDates c (f x)) : RawAreDates c (xs.flatMap f) := by
  intro l hl
  obtain ⟨x, hx, hl⟩ := List.mem_flatMap.1 hl
  exact h x hx l hl

end RawAreDates

section Conversions

variable {c : Config} (hdialect : c.dialect = .oracle ∨ c.dialect = .mysql)

/-- A wrapping that makes dates of a literal, in one dialect, makes no other raw literal. -/
theorem rawAreDates_wrapLiteral {wrapping : Option Wrapping} {literal : String}
    (h : ∀ w ∈ wrapping, c.dialect = .oracle ∧ IsDateExpression (w.before ++ literal ++ w.after)) :
    RawAreDates c [wrapLiteral c wrapping literal] := by
  intro l hl hraw
  rw [List.mem_singleton.1 hl] at hraw ⊢
  unfold wrapLiteral at hraw ⊢
  split at hraw
  next w =>
    obtain ⟨horacle, htext⟩ := h w rfl
    split at hraw
    next hwraps =>
      rw [if_pos hwraps]
      exact ⟨horacle, hwraps, htext⟩
    next => cases hraw
  next => cases hraw

include hdialect

theorem rawAreDates_comparedDate (t : Timestamp) : RawAreDates c [comparedDate c t] := by
  refine rawAreDates_wrapLiteral ?_
  intro w hw
  rcases hdialect with horacle | hmysql
  · refine ⟨horacle, ?_⟩
    rw [horacle] at hw ⊢
    cases hw
    exact .date (isDayMonthYear_fill t)
  · rw [hmysql] at hw
    cases hw

theorem rawAreDates_storedTimestamp (t : Timestamp) : RawAreDates c [storedTimestamp c t] := by
  refine rawAreDates_wrapLiteral ?_
  intro w hw
  rcases hdialect with horacle | hmysql
  · refine ⟨horacle, ?_⟩
    rw [horacle] at hw ⊢
    cases hw
    obtain ⟨clock, hclock, hfill⟩ := isClock_fill t
    have hliteral : fill Dialect.oracle.timestampLiteral t =
        fill Dialect.oracle.dateLiteral t ++ " " ++ clock := by
      rw [String.append_assoc, ← hfill]
      simp [fill, Dialect.oracle, String.join_cons, String.append_assoc]
    rw [hliteral]
    exact .timestamp (isDayMonthYear_fill t) hclock
  · rw [hmysql] at hw
    cases hw

/-! ## Values on their way to storage -/

theorem rawAreDates_valueIn {category : Option Category} {v w : Value} (hv : v.LiteralFree)
    (h : Facade.valueIn c category v = .ok w) : RawAreDates c w.literals := by
  unfold Facade.valueIn at h
  split at h
  · cases h
    exact .nil
  · cases h
    unfold booleanIn
    split
    · exact .nil
    · exact .of_eq_nil hv
  · obtain ⟨l, hl, rfl⟩ := map_eq_ok_iff.1 h
    unfold timestampIn at hl
    split at hl
    · cases hl
      intro m hm hraw
      rw [List.mem_singleton.1 hm] at hraw
      cases hraw
    · obtain ⟨t, -, rfl⟩ := map_eq_ok_iff.1 hl
      exact rawAreDates_storedTimestamp hdialect t
  · obtain ⟨bs, -, rfl⟩ := map_eq_ok_iff.1 h
    exact .nil
  · cases h
    exact .of_eq_nil hv

theorem rawAreDates_value {category : Category} {v w : Value} (hv : v.LiteralFree)
    (h : Storage.value c category v = .ok w) : RawAreDates c w.literals := by
  unfold Storage.value at h
  split at h
  · obtain ⟨l, hl, rfl⟩ := map_eq_ok_iff.1 h
    obtain ⟨t, -, rfl⟩ := map_eq_ok_iff.1 hl
    exact rawAreDates_comparedDate hdialect t
  · cases h
    unfold Storage.truthValue booleanIn
    split
    · split <;> exact .nil
    · split
      · exact .nil
      · exact .of_eq_nil hv
  · cases h
    unfold Storage.numberValue
    split
    · exact .of_eq_nil (Validation.literalFree_toValue _)
    · exact .of_eq_nil hv
  · cases h
    exact .of_eq_nil hv

/-! ## Clauses in the terms of storage -/

theorem rawAreDates_comparison {schema : Option TableSchema} {clause stored : Comparison}
    (hclause : clause.literals = []) (h : clause.forStorage schema c = .ok stored) :
    RawAreDates c stored.literals := by
  obtain ⟨hcolumn, hvalue⟩ := List.append_eq_nil_iff.1 hclause
  obtain ⟨category, -, h⟩ := bind_eq_ok_iff.1 h
  cases category with
  | none =>
    cases h
    exact .of_eq_nil hclause
  | some k =>
    obtain ⟨w, hw, h⟩ := bind_eq_ok_iff.1 h
    cases h
    exact .append (.of_eq_nil hcolumn) (rawAreDates_value hdialect hvalue hw)

theorem rawAreDates_membership {schema : Option TableSchema} {clause stored : Membership}
    (hclause : clause.literals = []) (h : clause.forStorage schema c = .ok stored) :
    RawAreDates c stored.literals := by
  obtain ⟨hcolumn, hvalues⟩ := List.append_eq_nil_iff.1 hclause
  obtain ⟨hfirst, hrest⟩ := List.forall_mem_cons.1 (List.flatMap_eq_nil_iff.1 hvalues)
  obtain ⟨category, -, h⟩ := bind_eq_ok_iff.1 h
  cases category with
  | none =>
    cases h
    exact .of_eq_nil hclause
  | some k =>
    obtain ⟨first, hw, h⟩ := bind_eq_ok_iff.1 h
    obtain ⟨rest, hws, h⟩ := bind_eq_ok_iff.1 h
    cases h
    refine .append (.of_eq_nil hcolumn) (.flatMap (List.forall_mem_cons.2 ⟨?_, ?_⟩))
    · exact rawAreDates_value hdialect hfirst hw
    · intro w hw
      obtain ⟨v, hv, hvw⟩ := exists_of_mem_mapM hws hw
      exact rawAreDates_value hdialect (hrest v hv) hvw

theorem rawAreDates_range {schema : Option TableSchema} {clause stored : Range}
    (hclause : clause.literals = []) (h : clause.forStorage schema c = .ok stored) :
    RawAreDates c stored.literals := by
  obtain ⟨hcolumn, hbounds⟩ := List.append_eq_nil_iff.1 hclause
  obtain ⟨hlow, hhigh⟩ := List.append_eq_nil_iff.1 hbounds
  obtain ⟨category, -, h⟩ := bind_eq_ok_iff.1 h
  cases category with
  | none =>
    cases h
    exact .of_eq_nil hclause
  | some k =>
    obtain ⟨low, hl, h⟩ := bind_eq_ok_iff.1 h
    obtain ⟨high, hh, h⟩ := bind_eq_ok_iff.1 h
    cases h
    exact .append (.of_eq_nil hcolumn)
      (.append (rawAreDates_value hdialect hlow hl) (rawAreDates_value hdialect hhigh hh))

theorem rawAreDates_clause {schema : Option TableSchema} {clause stored : Clause}
    (hclause : clause.literals = []) (h : clause.forStorage schema c = .ok stored) :
    RawAreDates c stored.literals := by
  cases clause with
  | comparison clause =>
    obtain ⟨stored, hstored, rfl⟩ := map_eq_ok_iff.1 h
    exact rawAreDates_comparison hdialect hclause hstored
  | like clause =>
    cases h
    exact .of_eq_nil hclause
  | membership clause =>
    obtain ⟨stored, hstored, rfl⟩ := map_eq_ok_iff.1 h
    exact rawAreDates_membership hdialect hclause hstored
  | range clause =>
    obtain ⟨stored, hstored, rfl⟩ := map_eq_ok_iff.1 h
    exact rawAreDates_range hdialect hclause hstored

end Conversions

/-! ## Operations -/

/-- The date literals in a step. -/
def Step.literals : Step → List DateLiteral
  | .select columns => columns.flatMap Value.literals
  | .starter s => s.clause.literals
  | .andWhere c | .orWhere c | .orWhereIn c => c.literals
  | .limit count => count.literals
  | .order terms => terms.flatMap fun t => t.column.literals

/-- The date literals in what an operation selects, compares and writes. -/
def Operation.literals : Operation → List DateLiteral
  | .tableScan _ columns limit => columns.flatMap Value.literals ++ limit.literals
  | .filteredScan _ steps => steps.flatMap Step.literals
  | .aggregate q => q.column.literals
  | .insert _ record _ => record.flatMap fun e => e.2.literals
  | .update _ predicate record => predicate.literals ++ record.flatMap fun e => e.2.literals
  | .delete _ predicate => predicate.literals
  | .deleteAll _ => []
  | .raw _ parameters => parameters.flatMap fun e => e.2.literals

/-- Operations that are built for a client, of a query, of an id and of a record that hold no date
literals. -/
inductive BuiltForClient (c : Config) : Operation → Prop
  | list {table query : Value} {schema : Option TableSchema} {steps : List Step}
    (hquery : query.LiteralFree)
    (h : planOfClient table schema c query = .ok (.ok (.scan table steps))) :
    BuiltForClient c (.filteredScan table steps)
  | get {table idColumn idValue : Value} {columns : List Value} {schema : TableSchema}
    {operation : Operation} (hcolumn : idColumn.LiteralFree) (hvalue : idValue.LiteralFree)
    (hcolumns : LiteralFree (.list columns))
    (h : Facade.itemScan c table idColumn idValue columns schema = .ok operation) :
    BuiltForClient c operation
  | add {table record : Value} {schema : TableSchema} {operation : Operation}
    (hrecord : record.LiteralFree)
    (h : Facade.insertion c table record schema = .ok operation) : BuiltForClient c operation
  | edit {table idColumn idValue record : Value} {schema : TableSchema} {operation : Operation}
    (hcolumn : idColumn.LiteralFree) (hvalue : idValue.LiteralFree)
    (hrecord : record.LiteralFree)
    (h : Facade.edition c table idColumn idValue record schema = .ok operation) :
    BuiltForClient c operation
  | delete {table idColumn idValue : Value} {schema : TableSchema} {operation : Operation}
    (hcolumn : idColumn.LiteralFree) (hvalue : idValue.LiteralFree)
    (h : Facade.deletion c table idColumn idValue schema = .ok operation) :
    BuiltForClient c operation

section Operations

variable {c : Config} (hdialect : c.dialect = .oracle ∨ c.dialect = .mysql)

include hdialect

/-- The steps of a form have the literals of its parts. -/
theorem rawAreDates_steps {schema : Option TableSchema} {q : Query} {steps : List Step}
    (hq : q.LiteralFree) (h : q.steps schema c = .ok steps) :
    ∀ step ∈ steps, RawAreDates c step.literals := by
  obtain ⟨starter, hstarter, h⟩ := bind_eq_ok_iff.1 h
  obtain ⟨andWhere, handWhere, h⟩ := bind_eq_ok_iff.1 h
  obtain ⟨orWhere, horWhere, h⟩ := bind_eq_ok_iff.1 h
  obtain ⟨orWhereIn, horWhereIn, h⟩ := bind_eq_ok_iff.1 h
  cases h
  intro step hstep
  simp only [Chain.form, List.mem_append, List.mem_map, Option.mem_toList] at hstep
  rcases hstep with (((((⟨columns, hcolumns, rfl⟩ | ⟨s, hs, rfl⟩) | ⟨clause, hclause, rfl⟩) |
    ⟨clause, hclause, rfl⟩) | ⟨clause, hclause, rfl⟩) | ⟨count, hcount, rfl⟩) | ⟨terms, hterms, rfl⟩
  · split at hcolumns
    · cases hcolumns
    · cases hcolumns
      exact .of_eq_nil (List.flatMap_eq_nil_iff.2 hq.select)
  · cases hq' : q.starter with
    | none =>
      rw [hq'] at hstarter
      cases hstarter
      cases hs
    | some first =>
      rw [hq'] at hstarter
      obtain ⟨s', hs', hfirst⟩ := map_eq_ok_iff.1 hstarter
      rw [← hfirst] at hs
      cases hs
      obtain ⟨stored, hstored, hs'⟩ := bind_eq_ok_iff.1 hs'
      cases hs'
      exact rawAreDates_clause hdialect (hq.starter first hq') hstored
  · obtain ⟨stored, hmem, rfl⟩ := hclause
    obtain ⟨given, hgiven, hstored⟩ := exists_of_mem_mapM handWhere hmem
    exact rawAreDates_comparison hdialect (hq.andWhere given hgiven) hstored
  · obtain ⟨stored, hmem, rfl⟩ := hclause
    obtain ⟨given, hgiven, hstored⟩ := exists_of_mem_mapM horWhere hmem
    exact rawAreDates_comparison hdialect (hq.orWhere given hgiven) hstored
  · obtain ⟨stored, hmem, rfl⟩ := hclause
    obtain ⟨given, hgiven, hstored⟩ := exists_of_mem_mapM horWhereIn hmem
    exact rawAreDates_membership hdialect (hq.orWhereIn given hgiven) hstored
  · obtain ⟨n, -, rfl⟩ := Option.map_eq_some_iff.1 hcount
    exact .nil
  · split at hterms
    · cases hterms
    · cases hterms
      exact .of_eq_nil (List.flatMap_eq_nil_iff.2 hq.order)

theorem rawAreDates_plan {table : Value} {schema : Option TableSchema} {query : Value}
    {steps : List Step} (hquery : query.LiteralFree)
    (h : planOfClient table schema c query = .ok (.ok (.scan table steps))) :
    ∀ step ∈ steps, RawAreDates c step.literals := by
  obtain ⟨reply, hreply, h⟩ := bind_eq_ok_iff.1 h
  cases reply with
  | error failure => cases h
  | ok fields =>
    have hfields := literalFree_clientQuery hquery (capture_eq_ok_iff.1 hreply)
    obtain ⟨reply, hreply, h⟩ := bind_eq_ok_iff.1 h
    cases reply with
    | error failure => cases h
    | ok q =>
      have hq := literalFree_validate hfields hreply
      dsimp only at h
      unfold Query.plan at h
      split at h
      · cases h
      · obtain ⟨given, hgiven, h⟩ := bind_eq_ok_iff.1 (capture_eq_ok_iff.1 h)
        obtain ⟨chain, hchain, h⟩ := bind_eq_ok_iff.1 h
        obtain ⟨built, hbuilt, h⟩ := bind_eq_ok_iff.1 h
        cases h
        unfold Chain.build at hbuilt
        split at hbuilt
        · cases hbuilt
        · cases hbuilt
          intro step hstep
          rw [Chain.steps_run hchain] at hstep
          exact rawAreDates_steps hdialect hq hgiven step hstep

theorem rawAreDates_predicate {schema : TableSchema} {column value : Value}
    {predicate : Comparison} (hcolumn : column.LiteralFree) (hvalue : value.LiteralFree)
    (h : Facade.idPredicate c schema column value = .ok predicate) :
    RawAreDates c predicate.literals := by
  have hgiven : (⟨column, .eq, value⟩ : Comparison).literals = [] :=
    List.append_eq_nil_iff.2 ⟨hcolumn, hvalue⟩
  exact rawAreDates_comparison hdialect hgiven h

theorem rawAreDates_record {schema : TableSchema} {record : Value} {fields stored : Fields}
    (hrecord : record.LiteralFree) (hfields : Facade.fieldsOf record = .ok fields)
    (h : Facade.recordIn c schema fields = .ok stored) :
    RawAreDates c (stored.flatMap fun e => e.2.literals) := by
  have hfree : LiteralFree (.object fields) := by
    unfold Facade.fieldsOf at hfields
    split at hfields
    · cases hfields
      exact hrecord
    · cases hfields
  refine .flatMap fun e he => ?_
  obtain ⟨⟨name, v⟩, hmem, h⟩ := exists_of_mem_mapM h he
  obtain ⟨category, -, h⟩ := bind_eq_ok_iff.1 h
  obtain ⟨w, hw, h⟩ := bind_eq_ok_iff.1 h
  cases h
  exact rawAreDates_valueIn hdialect (literalFree_object.1 hfree _ hmem) hw

theorem rawAreDates_built {operation : Operation} (h : BuiltForClient c operation) :
    RawAreDates c operation.literals := by
  cases h with
  | list hquery h => exact .flatMap (rawAreDates_plan hdialect hquery h)
  | get hcolumn hvalue hcolumns h =>
    obtain ⟨predicate, hpredicate, h⟩ := bind_eq_ok_iff.1 h
    have hraw := rawAreDates_predicate hdialect hcolumn hvalue hpredicate
    cases h
    split
    · exact .flatMap (by simpa [Step.literals, Clause.literals] using hraw)
    · refine .flatMap (List.forall_mem_cons.2 ⟨?_, ?_⟩)
      · exact .of_eq_nil (List.flatMap_eq_nil_iff.2 (literalFree_list.1 hcolumns))
      · simpa [Step.literals, Clause.literals] using hraw
  | add hrecord h =>
    obtain ⟨fields, hfields, h⟩ := bind_eq_ok_iff.1 h
    obtain ⟨stored, hstored, h⟩ := bind_eq_ok_iff.1 h
    cases h
    exact rawAreDates_record hdialect hrecord hfields hstored
  | edit hcolumn hvalue hrecord h =>
    obtain ⟨predicate, hpredicate, h⟩ := bind_eq_ok_iff.1 h
    obtain ⟨fields, hfields, h⟩ := bind_eq_ok_iff.1 h
    obtain ⟨stored, hstored, h⟩ := bind_eq_ok_iff.1 h
    cases h
    exact .append (rawAreDates_predicate hdialect hcolumn hvalue hpredicate)
      (rawAreDates_record hdialect hrecord hfields hstored)
  | delete hcolumn hvalue h =>
    obtain ⟨predicate, hpredicate, h⟩ := bind_eq_ok_iff.1 h
    cases h
    exact rawAreDates_predicate hdialect hcolumn hvalue hpredicate

end Operations

/-! ## Formatters -/

/-- Is the stored entry bound to what the formatter makes of a text in a timestamp column? -/
def BindsFormatted (format : String → String) (schema : TableSchema) (e stored : String × Value) :
    Prop :=
  ∀ s, e.2 = .text s → schema.category? e.1 = .ok (some .timestamp) →
    stored = (e.1, .dateLiteral ⟨format s, false⟩)

theorem bindsFormatted_recordIn {c : Config} {format : String → String}
    (hformat : c.timestampFormatter = some format) {schema : TableSchema} {record stored : Fields}
    (h : Facade.recordIn c schema record = .ok stored) :
    List.Forall₂ (BindsFormatted format schema) record stored := by
  induction record generalizing stored with
  | nil =>
    cases h
    exact .nil
  | cons e record ih =>
    unfold Facade.recordIn at h
    rw [List.mapM_cons] at h
    obtain ⟨e', he', h⟩ := bind_eq_ok_iff.1 h
    obtain ⟨rest, hrest, h⟩ := bind_eq_ok_iff.1 h
    cases h
    refine .cons ?_ (ih hrest)
    obtain ⟨name, v⟩ := e
    intro s hs hcategory
    cases hs
    obtain ⟨category, hk, he'⟩ := bind_eq_ok_iff.1 he'
    cases hcategory.symm.trans hk
    have hvalue : Facade.valueIn c (some .timestamp) (.text s) =
        .ok (.dateLiteral ⟨format s, false⟩) := by
      simp only [Facade.valueIn, timestampIn, hformat]
      rfl
    rw [hvalue] at he'
    cases he'
    rfl

/-- **Raw literals are dates.**  Every raw literal of an operation that is built for a client is the
call that makes a date of the digits and the month of a date that exists, in the dialect and the
configuration that ask for it; and what a formatter makes of a text is bound. -/
theorem rawLiterals_areDates (c : Config) (hdialect : c.dialect = .oracle ∨ c.dialect = .mysql) :
    (∀ operation, BuiltForClient c operation →
      ∀ l ∈ operation.literals, l.raw = true → IsRawDate c l) ∧
      ∀ format, c.timestampFormatter = some format →
        ∀ schema record stored, Facade.recordIn c schema record = .ok stored →
          List.Forall₂ (BindsFormatted format schema) record stored := by
  constructor
  · intro operation h
    exact rawAreDates_built hdialect h
  · intro format hformat schema record stored h
    exact bindsFormatted_recordIn hformat h

/-- The conventions of the small store, with a formatter that marks what it was given. -/
def formattingConfig : Config :=
  { Facade.storeConfig with timestampFormatter := some fun s => s ++ "Z" }

/-- The read of the rows of one day. -/
def dayScan : Operation :=
  .filteredScan (.text "T") [.starter ⟨.where_, .comparison ⟨.text "CREATED", .eq,
    .dateLiteral ⟨"TO_DATE('29-FEB-2020', 'DD-MON-YYYY')", true⟩⟩⟩]

theorem builtForClient_dayScan : BuiltForClient formattingConfig dayScan := by
  have hplan : planOfClient (.text "T") (some Facade.mixedSchema) formattingConfig
      (.object [("WHERE", .object [("COLUMN", .text "CREATED"), ("VALUE", .text "2020-02-29")])]) =
        .ok (.ok (.scan (.text "T") [.starter ⟨.where_, .comparison ⟨.text "CREATED", .eq,
          .dateLiteral ⟨"TO_DATE('29-FEB-2020', 'DD-MON-YYYY')", true⟩⟩⟩])) := rfl
  refine .list ?_ hplan
  simp

theorem rawLiterals_areDates_dayScan :
    (formattingConfig.dialect = .oracle ∨ formattingConfig.dialect = .mysql) ∧
      (BuiltForClient formattingConfig dayScan ∧
        ∃ l ∈ dayScan.literals, l.raw = true ∧ IsRawDate formattingConfig l) ∧
      ∃ format, formattingConfig.timestampFormatter = some format ∧
        ∃ stored, Facade.recordIn formattingConfig Facade.mixedSchema
            [("CREATED", .text "2020-02-29")] = .ok stored ∧
          List.Forall₂ (BindsFormatted format Facade.mixedSchema)
            [("CREATED", .text "2020-02-29")] stored := by
  obtain ⟨hraw, hbinds⟩ := rawLiterals_areDates formattingConfig (.inl rfl)
  refine ⟨.inl rfl, ⟨builtForClient_dayScan, _, List.mem_singleton_self _, rfl, ?_⟩,
    _, rfl, _, rfl, ?_⟩
  · exact hraw dayScan builtForClient_dayScan _ (List.mem_singleton_self _) rfl
  · exact hbinds _ rfl _ _ _ rfl

end RowAccess
