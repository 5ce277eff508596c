import RowAccess.Run
import RowAccess.Schema.Cache

/-
  RowAccess/Facade.lean
  =====================
  **Reading and writing rows by name.**  Every call looks up the schema of its table, converts what
  goes to storage and what comes from it, and reports a failure after a description of what was
  attempted.  Nothing is run unless every value of the call could be converted.
-/

namespace RowAccess

namespace Facade

variable {σ : Type}

/-! ## Conversion of rows and records -/

/-- A value of a column on its way out. -/
def valueOut (c : Config) (category : Option Category) (v : Value) : Value :=
  match category with
  | some .boolean => Conversion.booleanOut c v
  | some .timestamp => Conversion.timestampOut v
  | some .buffer => Conversion.bufferOut v
  | _ => v

/-- A value of a column on its way in; null stays null. -/
def valueIn (c : Config) (category : Option Category) (v : Value) : Except Fault Value :=
  match v, category with
  | .null, _ => .ok .null
  | v, some .boolean => .ok (Conversion.booleanIn c v)
  | v, some .timestamp => (Conversion.timestampIn c v).map .dateLiteral
  | v, some .buffer => (Conversion.bufferIn v).map .bytes
  | v, _ => .ok v

def rowOut (c : Config) (schema : TableSchema) (row : Fields) : Except Fault Fields :=
  row.mapM fun (name, v) => do
    return (name, valueOut c (← schema.category? name) v)

def recordIn (c : Config) (schema : TableSchema) (record : Fields) : Except Fault Fields :=
  record.mapM fun (name, v) => do
    return (name, ← valueIn c (← schema.category? name) v)

def fieldsOf : Value → Except Fault Fields
  | .object fields => .ok fields
  | _ => .error .noSuchOperation

/-- The rows of an answer on their way out. -/
def rowsOut (c : Config) (schema : TableSchema) (rows : Value) : Except Fault Value := do
  let converted ← (← membersOf rows).mapM fun row => do
    return Value.object (← rowOut c schema (← fieldsOf row))
  return .list converted

/-- The clause that an id column holds a value. -/
def idPredicate (c : Config) (schema : TableSchema) (column value : Value) :
    Except Fault Comparison :=
  Comparison.forStorage (some schema) c ⟨column, .eq, value⟩

/-- The columns that a call selects: the members of a list, or the parts of a text between
commas. -/
def selectedColumns (select : Value) : Except Fault (List Value) :=
  if !select.isGiven then .ok []
  else match select with
    | .text s =>
      .ok (((Text.cut ',' s.toList).map Text.trim).filterMap fun cs =>
        if cs.isEmpty then none else some (.text (String.ofList cs)))
    | v => membersOf v

/-! ## Steps of a call -/

/-- Runs the operation that a call makes of the schema of its table. -/
def perform (cache : Cache σ) (table : Value) (make : TableSchema → Except Fault Operation)
    (convert : TableSchema → Value → Except Fault Value) : Action σ (Reply Value) := do
  match ← (cache.schema table false).captured with
  | .error failure => return .error failure
  | .ok schema =>
    let act : Action σ Value := do cache.backend (← make schema)
    match ← act.captured with
    | .error failure => return .error failure
    | .ok answer => return .ok (← convert schema answer)

/-- Runs a read and converts its rows. -/
def read (cache : Cache σ) (table : Value) (make : TableSchema → Except Fault Operation) :
    Action σ (Reply Value) :=
  perform cache table make (rowsOut cache.config)

/-- Runs a write, whose answer stays as it is. -/
def write (cache : Cache σ) (table : Value) (make : TableSchema → Except Fault Operation) :
    Action σ (Reply Value) :=
  perform cache table make fun _ answer => .ok answer

/-! ## Reads -/

/-- The rows of a table that match a client's query. -/
def getList (cache : Cache σ) (table query : Value) : Action σ Value := do
  let attempt := "Failed to get list of items from table " ++ (← table.told)
  let schema ← Action.unwrapped attempt (← (cache.schema table false).captured)
  let rows ← Action.unwrapped attempt
    (← runClient cache.backend table (some schema) cache.config query)
  rowsOut cache.config schema rows

/-- The read of the rows whose id column holds a value. -/
def itemScan (c : Config) (table idColumn idValue : Value) (columns : List Value)
    (schema : TableSchema) : Except Fault Operation := do
  let predicate ← idPredicate c schema idColumn idValue
  let starter := Step.starter ⟨.where_, .comparison predicate⟩
  return .filteredScan table (if columns.isEmpty then [starter] else [.select columns, starter])

/-- The rows of a table whose id column holds a value. -/
def getItem (cache : Cache σ) (table idColumn idValue select : Value) : Action σ Value := do
  let columns ← selectedColumns select
  let reply ← read cache table (itemScan cache.config table idColumn idValue columns)
  let attempt := "Failed to get item " ++ (← idValue.told) ++ " from table " ++ (← table.told)
  Action.unwrapped attempt reply

/-- The first row of a table, in a list. -/
def getFirstItem (cache : Cache σ) (table : Value) : Action σ Value := do
  let reply ← read cache table fun _ => .ok (.tableScan table [] (.int 1))
  Action.unwrapped ("Failed to get first item from table " ++ (← table.told)) reply

/-! ## Writes -/

def insertion (c : Config) (table record : Value) (schema : TableSchema) :
    Except Fault Operation := do
  return .insert table (← recordIn c schema (← fieldsOf record)) schema.idColumn

/-- Inserts a record and answers the id of the new row. -/
def addItem (cache : Cache σ) (table record : Value) : Action σ Value := do
  let reply ← write cache table (insertion cache.config table record)
  Action.unwrapped ("Failed to add item to table " ++ (← table.told)) reply

/-- The update of the rows whose id column holds a value. -/
def edition (c : Config) (table idColumn idValue record : Value) (schema : TableSchema) :
    Except Fault Operation := do
  let predicate ← idPredicate c schema idColumn idValue
  return .update table (.comparison predicate) (← recordIn c schema (← fieldsOf record))

/-- Updates the rows whose id column holds a value and answers their number. -/
def editItem (cache : Cache σ) (table idColumn idValue record : Value) : Action σ Value := do
  let reply ← write cache table (edition cache.config table idColumn idValue record)
  let attempt := "Failed to edit item " ++ (← idValue.told) ++ " in table " ++ (← table.told)
  Action.unwrapped attempt reply

/-- The deletion of the rows whose id column holds a value. -/
def deletion (c : Config) (table idColumn idValue : Value) (schema : TableSchema) :
    Except Fault Operation := do
  return .delete table (.comparison (← idPredicate c schema idColumn idValue))

/-- Deletes the rows whose id column holds a value and answers their number. -/
def deleteItem (cache : Cache σ) (table idColumn idValue : Value) : Action σ Value := do
  let reply ← write cache table (deletion cache.config table idColumn idValue)
  let attempt := "Failed to delete item " ++ (← idValue.told) ++ " from table " ++ (← table.told)
  Action.unwrapped attempt reply

/-- Deletes every row of a table and answers their number. -/
def deleteAll (cache : Cache σ) (table : Value) : Action σ Value := do
  let reply ← write cache table fun _ => .ok (.deleteAll table)
  Action.unwrapped ("Failed to delete all items from table " ++ (← table.told)) reply

/-! ## Schemas -/

def getTableSchema (cache : Cache σ) (table : Value) (overwrite : Bool) :
    Action σ TableSchema := do
  let reply ← (cache.schema table overwrite).captured
  Action.unwrapped ("Failed to get schema of table " ++ (← table.told)) reply

def getTablesConfig (cache : Cache σ) (overwrite : Bool) : Action σ Catalog := do
  Action.unwrapped ("Failed to get tables config of schema " ++ cache.config.schemaName)
    (← (cache.catalog overwrite).captured)

end Facade

end RowAccess
