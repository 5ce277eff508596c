import RowAccess.Operation.Compile
import RowAccess.Proofs.Facade.RawLiteral
import RowAccess.Proofs.Operation.Recording
import RowAccess.Proofs.Sql.Discovery

/-
  RowAccess/Proofs/Operation/Extremum.lean
  ========================================
  **An aggregate returns the extreme rows.**  A backend that tells the least or the greatest value
  of a column, and reads the rows that hold a value, is asked for the one and then for the other.  A
  row holds the value found exactly when no row holds one before its own, because all values that
  the order does not tell apart stand at the same place (`extremes_eq_filter`).  A column without a
  value is known by the null of the aggregate and by nothing else, whatever the value is
  (`run_extremes`).
-/

namespace RowAccess

variable {σ : Type}

/-! ## First values -/

/-- Does the first value stand before the second or at its place, seen from the end that the
aggregate asks for? -/
def Aggregate.before (f : Aggregate) (le : Value → Value → Bool) (v w : Value) : Bool :=
  match f with
  | .min => le v w
  | .max => le w v

/-- The value of a row in a column, null where it has none. -/
def heldIn (column : String) (row : Fields) : Value :=
  (Keyed.find? row column).getD .null

/-- The values that rows hold in a column, null apart. -/
def given (column : String) (rows : List Fields) : List Value :=
  (rows.map (heldIn column)).filter fun v => !v.isNull

/-- Is the value one of the list that none of the list stands before? -/
structure IsFirst (before : Value → Value → Bool) (vs : List Value) (v : Value) : Prop where
  mem : v ∈ vs
  least : ∀ w ∈ vs, before v w = true

/-- The rows whose value in a column is given and stands before all that are given. -/
def extremes (before : Value → Value → Bool) (column : String) (rows : List Fields) :
    List Fields :=
  rows.filter fun row => !(heldIn column row).isNull &&
    (given column rows).all (before (heldIn column row))

/-- The rows whose value in a column is given and at the place of a value. -/
def holding (le : Value → Value → Bool) (column : String) (rows : List Fields) (v : Value) :
    List Fields :=
  rows.filter fun row => !(heldIn column row).isNull &&
    (le v (heldIn column row) && le (heldIn column row) v)

theorem mem_given {column : String} {rows : List Fields} {row : Fields} (hrow : row ∈ rows)
    (h : (heldIn column row).isNull = false) : heldIn column row ∈ given column rows := by
  refine List.mem_filter.2 ⟨List.mem_map_of_mem hrow, ?_⟩
  rw [h]
  rfl

theorem exists_of_mem_given {column : String} {rows : List Fields} {v : Value}
    (h : v ∈ given column rows) : v.isNull = false ∧ ∃ row ∈ rows, heldIn column row = v := by
  obtain ⟨hmem, hnull⟩ := List.mem_filter.1 h
  exact ⟨by simpa using hnull, List.mem_map.1 hmem⟩

/-- Being at the place of a value is the same from either end. -/
theorem alike_iff (f : Aggregate) (le : Value → Value → Bool) (v w : Value) :
    (le v w && le w v) = (f.before le v w && f.before le w v) := by
  cases f with
  | min => rfl
  | max => exact Bool.and_comm _ _

section Orders

variable {before : Value → Value → Bool} {column : String} {rows : List Fields}

/-- The rows at the place of the first value are the ones that stand before all. -/
theorem extremes_eq_filter {v : Value}
    (htrans : ∀ u ∈ given column rows, ∀ v ∈ given column rows, ∀ w ∈ given column rows,
      before u v = true → before v w = true → before u w = true)
    (hv : IsFirst before (given column rows) v) :
    extremes before column rows = rows.filter fun row => !(heldIn column row).isNull &&
      (before v (heldIn column row) && before (heldIn column row) v) := by
  refine List.filter_congr fun row hrow => ?_
  cases hnull : (heldIn column row).isNull with
  | true => rfl
  | false =>
    have hmem := mem_given hrow hnull
    rw [Bool.eq_iff_iff]
    simp only [Bool.not_false, Bool.true_and, List.all_eq_true, Bool.and_eq_true]
    constructor
    · intro hall
      exact ⟨hv.least _ hmem, hall v hv.mem⟩
    · rintro ⟨-, hback⟩ w hw
      exact htrans _ hmem v hv.mem w hw hback (hv.least w hw)

/-- There is an extreme row where there is a first value, and none where no value is given. -/
theorem extremes_eq_nil_of_given (h : given column rows = []) :
    extremes before column rows = [] := by
  refine List.filter_eq_nil_iff.2 fun row hrow => ?_
  cases hnull : (heldIn column row).isNull with
  | true => simp
  | false =>
    have hmem := mem_given hrow hnull
    rw [h] at hmem
    cases hmem

theorem extremes_ne_nil {v : Value} (hv : IsFirst before (given column rows) v) :
    extremes before column rows ≠ [] := by
  obtain ⟨hnull, row, hrow, rfl⟩ := exists_of_mem_given hv.mem
  refine List.ne_nil_of_mem (a := row) (List.mem_filter.2 ⟨hrow, ?_⟩)
  rw [hnull]
  exact List.all_eq_true.2 hv.least

end Orders

/-! ## Backends that find them -/

/-- A backend that answers an aggregate over a column, and the read of the rows that hold a value of
it, by one order of the values.  The sites are those at which the table holds the rows. -/
structure FindsFirst (backend : Backend σ) (sites : Site σ → Prop) (table : Value)
    (f : Aggregate) (column : String) (le : Value → Value → Bool) (rows : List Fields) : Prop where
  trans : ∀ u ∈ given column rows, ∀ v ∈ given column rows, ∀ w ∈ given column rows,
    le u v = true → le v w = true → le u w = true
  aggregate : ∀ s, sites s → ∃ s' title v,
    (backend (.aggregate ⟨table, f, .text column⟩)).execute s =
        (.ok (.list [.object [(title, v)]]), s') ∧ sites s' ∧
      (given column rows = [] → v = .null) ∧
      (given column rows ≠ [] → IsFirst (f.before le) (given column rows) v)
  scan : ∀ s v, sites s → v ∈ given column rows → ∃ s',
    (backend (.filteredScan table
        [.starter ⟨.where_, .comparison ⟨.text column, .eq, v⟩⟩])).execute s =
      (.ok (.list ((holding le column rows v).map .object)), s') ∧ sites s'

/-- What a recording backend does where the backend behind it is known. -/
theorem exists_execute_recording {backend : Backend σ} {o : Operation} {s : Site (σ × List Ran)}
    {outcome : Except Fault Value} {s₁ : Site σ}
    (h : (backend o).execute s.unrecorded = (outcome, s₁)) :
    ∃ s', (recording backend o).execute s = (outcome, s') ∧ s'.unrecorded = s₁ ∧
      s'.ran = s.ran ++ [⟨o, outcome⟩] := by
  rcases hrecording : (recording backend o).execute s with ⟨outcome', s'⟩
  have hsame := execute_recording backend o s
  rw [hrecording, h] at hsame
  cases hsame
  exact ⟨s', rfl, rfl, exists_ran hrecording⟩

namespace FindsFirst

variable {backend : Backend σ} {sites : Site σ → Prop} {table : Value} {f : Aggregate}
  {column : String} {le : Value → Value → Bool} {rows : List Fields}

theorem extremes_eq_holding (h : FindsFirst backend sites table f column le rows) {v : Value}
    (hv : IsFirst (f.before le) (given column rows) v) :
    extremes (f.before le) column rows = holding le column rows v := by
  have htrans : ∀ u ∈ given column rows, ∀ v ∈ given column rows, ∀ w ∈ given column rows,
      f.before le u v = true → f.before le v w = true → f.before le u w = true := by
    intro x hx y hy z hz hxy hyz
    cases f with
    | min => exact h.trans x hx y hy z hz hxy hyz
    | max => exact h.trans z hz y hy x hx hyz hxy
  rw [extremes_eq_filter htrans hv, holding]
  simp only [alike_iff f le]

/-- Without a value the aggregate is all that is run. -/
theorem runAggregate_of_none (h : FindsFirst backend sites table f column le rows)
    (hgiven : given column rows = []) {s : Site (σ × List Ran)} (hs : sites s.unrecorded) :
    ∃ s' runs, (runAggregate (recording backend) ⟨table, f, .text column⟩).execute s =
        (.ok (.list []), s') ∧ sites s'.unrecorded ∧ s'.ran = s.ran ++ runs ∧
      runs.map Ran.operation = [.aggregate ⟨table, f, .text column⟩] := by
  obtain ⟨s₁, title, v, haggregate, hs₁, hnull, -⟩ := h.aggregate _ hs
  obtain rfl := hnull hgiven
  obtain ⟨s', hexecute, rfl, hran⟩ := exists_execute_recording haggregate
  refine ⟨s', _, ?_, hs₁, hran, rfl⟩
  rw [runAggregate, Action.execute_bind, hexecute]
  rfl

/-- With a value the rows that hold it are read after the aggregate. -/
theorem runAggregate_of_some (h : FindsFirst backend sites table f column le rows)
    (hgiven : given column rows ≠ []) {s : Site (σ × List Ran)} (hs : sites s.unrecorded) :
    ∃ s' runs v, (runAggregate (recording backend) ⟨table, f, .text column⟩).execute s =
        (.ok (.list ((extremes (f.before le) column rows).map .object)), s') ∧
      sites s'.unrecorded ∧ s'.ran = s.ran ++ runs ∧
      IsFirst (f.before le) (given column rows) v ∧
      runs.map Ran.operation = [.aggregate ⟨table, f, .text column⟩,
        lookupOf ⟨table, f, .text column⟩ v] := by
  obtain ⟨s₁, title, v, haggregate, hs₁, -, hfirst⟩ := h.aggregate _ hs
  have hv := hfirst hgiven
  obtain ⟨s₂, hexecute, hs₂, hran⟩ := exists_execute_recording haggregate
  obtain ⟨s₃, hscan, hs₃⟩ := h.scan s₂.unrecorded v (hs₂ ▸ hs₁) hv.mem
  obtain ⟨s', hlookup, hs', hran'⟩ := exists_execute_recording hscan
  rw [hran, List.append_assoc] at hran'
  refine ⟨s', _, v, ?_, hs' ▸ hs₃, hran', hv, rfl⟩
  obtain ⟨hnull, -⟩ := exists_of_mem_given hv.mem
  rw [h.extremes_eq_holding hv, runAggregate, Action.execute_bind, hexecute]
  cases v with
  | null => cases hnull
  | _ => exact hlookup

end FindsFirst

/-- **An aggregate returns the extreme rows.**  Over a backend that answers by one order, the plan
of an aggregate gives all rows whose value in the column stands before every other, in the order of
the table.  There are none, and nothing else is run, exactly when no row holds a value in the
column; else two operations are run. -/
theorem run_extremes {backend : Backend σ} {sites : Site σ → Prop} {table : Value}
    (schema : Option TableSchema) (c : Config) {q : Query} {a : AggregateRequest}
    {le : Value → Value → Bool} {rows : List Fields} (hq : q.aggregate = some a)
    (h : FindsFirst backend sites table a.function a.column le rows) {s : Site (σ × List Ran)}
    (hs : sites s.unrecorded) :
    ∃ plan s' runs, q.plan table schema c = .ok (.ok plan) ∧
      (run (recording backend) plan).execute s =
        (.ok (.ok (.list ((extremes (a.function.before le) a.column rows).map .object))), s') ∧
      sites s'.unrecorded ∧ s'.ran = s.ran ++ runs ∧
      (extremes (a.function.before le) a.column rows = [] ↔ given a.column rows = []) ∧
      (given a.column rows = [] →
        runs.map Ran.operation = [.aggregate ⟨table, a.function, .text a.column⟩]) ∧
      (given a.column rows ≠ [] → ∃ v, IsFirst (a.function.before le) (given a.column rows) v ∧
        runs.map Ran.operation = [.aggregate ⟨table, a.function, .text a.column⟩,
          lookupOf ⟨table, a.function, .text a.column⟩ v]) := by
  have hplan : q.plan table schema c =
      .ok (.ok (.aggregate ⟨table, a.function, .text a.column⟩)) := by
    unfold Query.plan
    rw [hq]
  have hrun : ∀ {rows : Value} {s' : Site (σ × List Ran)},
      (runAggregate (recording backend) ⟨table, a.function, .text a.column⟩).execute s =
          (.ok rows, s') →
        (run (recording backend) (.aggregate ⟨table, a.function, .text a.column⟩)).execute s =
          (.ok (.ok rows), s') := by
    intro rows s' hexecute
    rw [run, runCapturing, Action.execute_bind, Action.execute_outcome, runPlan, hexecute]
    rfl
  by_cases hgiven : given a.column rows = []
  · obtain ⟨s', runs, hexecute, hs', hran, hruns⟩ := h.runAggregate_of_none hgiven hs
    have hnone : extremes (a.function.before le) a.column rows = [] :=
      extremes_eq_nil_of_given hgiven
    refine ⟨_, s', runs, hplan, ?_, hs', hran, ⟨fun _ => hgiven, fun _ => hnone⟩, fun _ => hruns,
      fun hsome => absurd hgiven hsome⟩
    rw [hrun hexecute, hnone]
    rfl
  · obtain ⟨s', runs, v, hexecute, hs', hran, hv, hruns⟩ := h.runAggregate_of_some hgiven hs
    refine ⟨_, s', runs, hplan, hrun hexecute, hs', hran, ?_, fun hnone => absurd hnone hgiven,
      fun _ => ⟨v, hv, hruns⟩⟩
    exact ⟨fun hnone => absurd hnone (extremes_ne_nil hv), fun hnone => absurd hnone hgiven⟩

/-! ## A table with a tie at zero -/

open Sql

def tiedItems : Items :=
  ⟨[⟨1, .text "Ana", .int 0, .null, .null, .null⟩, ⟨2, .text "Ivo", .null, .null, .null, .null⟩,
    ⟨3, .null, .int 5, .null, .null, .null⟩, ⟨4, .null, .int 0, .null, .null, .null⟩],
    by simp [Ascending]⟩

def tiedRows : List Fields :=
  tiedItems.rows.map Item.fields

/-- The order of the engine, for values that it can store. -/
def storedLe (v w : Value) : Bool :=
  match Cell.ofValue v, Cell.ofValue w with
  | .ok c, .ok d => Cell.order c d != .gt
  | _, _ => false

/-- What an operation answers depends on the table alone, and not on what was sent before. -/
theorem exists_execute_of_run (o : Operation) {v : Value} {s : Site Database}
    (hs : s.outside.items = tiedItems) (hanswer : (Database.run none o ⟨tiedItems, []⟩).1 = .ok v)
    (hitems : (Database.run none o ⟨tiedItems, []⟩).2.items = tiedItems) :
    ∃ s', (backend none o).execute s = (.ok v, s') ∧ s'.outside.items = tiedItems := by
  have hsame : (s.outside.run none o).1 = (Database.run none o ⟨s.outside.items, []⟩).1 ∧
      (s.outside.run none o).2.items = (Database.run none o ⟨s.outside.items, []⟩).2.items := by
    unfold Database.run
    cases Statement.built none o with
    | error u => exact ⟨rfl, rfl⟩
    | ok st =>
      dsimp only
      cases st.prepared with
      | error u => exact ⟨rfl, rfl⟩
      | ok p =>
        dsimp only
        cases runStatement st p s.outside.items <;> exact ⟨rfl, rfl⟩
  rw [hs, hanswer, hitems] at hsame
  refine ⟨{ s with outside := (s.outside.run none o).2 }, ?_, hsame.2⟩
  rw [execute_backend, hsame.1]

/-- The read of the rows with a number. -/
def numberScan (n : Int) : Operation :=
  .filteredScan (.text "ITEMS") [.starter ⟨.where_, .comparison (equality "NUMBER" (.int n))⟩]

def numberPredicate (n : Int) : Predicate :=
  .compare "NUMBER" .eq (.bound .plain (.int n))

theorem exists_execute_numberScan {n : Int} {s : Site Database} (hs : s.outside.items = tiedItems)
    (hanswer : (Database.run none (numberScan n) ⟨tiedItems, []⟩).1 =
      rowsValue (numberScan n) columnTitles (((Statement.query (.whole (tableName none
        (.text "ITEMS")) (numberPredicate n))).rows none 0 tiedItems).map Item.cells))
    (hitems : (Database.run none (numberScan n) ⟨tiedItems, []⟩).2.items = tiedItems)
    (hpasses : holding storedLe "NUMBER" tiedRows (.int n) =
      (tiedItems.rows.filter (passes (some (numberPredicate n).expr))).map Item.fields) :
    ∃ s', (backend none (numberScan n)).execute s =
      (.ok (.list ((holding storedLe "NUMBER" tiedRows (.int n)).map .object)), s') ∧
        s'.outside.items = tiedItems := by
  rw [rows_whole, rowsValue_columns] at hanswer
  rw [hpasses, List.map_map, Function.comp_def]
  exact exists_execute_of_run (numberScan n) hs hanswer hitems

/-- The engine finds the least number, which two rows hold. -/
theorem findsFirst_tiedItems :
    FindsFirst (backend none) (fun s => s.outside.items = tiedItems) (.text "ITEMS") .min "NUMBER"
      storedLe tiedRows where
  trans := by decide
  aggregate := by
    intro s hs
    obtain ⟨s', hexecute, hs'⟩ := exists_execute_of_run
      (.aggregate ⟨.text "ITEMS", .min, .text "NUMBER"⟩) (v := .list [.object [("MIN", .int 0)]])
      hs rfl rfl
    exact ⟨s', "MIN", .int 0, hexecute, hs', nofun, fun _ => ⟨List.mem_cons_self, by decide⟩⟩
  scan := by
    intro s v hs hv
    have hgiven : given "NUMBER" tiedRows = [.int 0, .int 5, .int 0] := rfl
    rw [hgiven] at hv
    simp only [List.mem_cons, List.not_mem_nil, or_false] at hv
    rcases hv with rfl | rfl | rfl <;> exact exists_execute_numberScan hs rfl rfl rfl

/-- The value zero is a value: both rows that hold it are found, and the row without a number is
not. -/
theorem run_extremes_tiedItems : ∃ (q : Query) (plan : Plan) (s s' : Site (Database × List Ran)),
    s.unrecorded.outside.items = tiedItems ∧
      q.plan (.text "ITEMS") none formattingConfig = .ok (.ok plan) ∧
      (run (recording (backend none)) plan).execute s =
        (.ok (.ok (.list (((tiedItems.rows.filter fun i => i.number = .int 0).map
          Item.fields).map .object))), s') ∧
      s'.ran.length = 2 := by
  let q : Query := { aggregate := some ⟨.min, "NUMBER"⟩ }
  let s : Site (Database × List Ran) := ⟨none, [], ⟨tiedItems, []⟩, []⟩
  obtain ⟨plan, s', runs, hplan, hrun, -, hran, -, -, hsome⟩ :=
    run_extremes none formattingConfig (q := q) rfl findsFirst_tiedItems (s := s) rfl
  obtain ⟨v, -, hruns⟩ := hsome (by decide)
  refine ⟨q, plan, s, s', rfl, hplan, hrun, ?_⟩
  have hcount := congrArg List.length hruns
  rw [hran]
  simpa [s, Site.ran] using hcount

end RowAccess
