import RowAccess.Operation.Backend
import RowAccess.Schema.Column

/-
  RowAccess/Schema/Cache.lean
  ===========================
  **Schemas discovered once and kept in the catalog.**  A cache answers from the catalog on disk and
  asks the engine for what the catalog lacks.  Discoveries are numbered as they start; a rebuild of
  the whole catalog does not replace a schema that a later discovery has persisted meanwhile, and
  keeps tables that were first persisted while it ran.  One discovery of a table runs at a time.
-/

namespace RowAccess

/-- A cache: its conventions, the place of its catalog, its backend, and the key of its memory. -/
structure Cache (σ : Type) where
  config : Config
  place : Place
  backend : Backend σ
  id : Nat

namespace Cache

variable {σ α : Type}

/-! ## Memory and disk -/

def memory (c : Cache σ) : Action σ Memory := do
  return (Keyed.find? (← get).memories c.id).getD {}

def remember (c : Cache σ) (change : Memory → Memory) : Action σ Unit :=
  modify fun s =>
    let m := (Keyed.find? s.memories c.id).getD {}
    { s with memories := Keyed.put s.memories c.id (change m) }

/-- A generation later than every one before. -/
def nextGeneration (c : Cache σ) : Action σ Nat := do
  let m ← c.memory
  c.remember fun m => { m with next := m.next + 1 }
  return m.next

/-- Runs an action while no other discovery of the table may run. -/
def locked (c : Cache σ) (table : Value) (act : Action σ α) : Action σ α := do
  if !table.isKey then throw .wrongShape
  if (← c.memory).held.contains table then throw (.breach (.lockHeld table))
  c.remember fun m => { m with held := table :: m.held }
  let outcome ← act.outcome
  c.remember fun m => { m with held := m.held.filter fun t => !(t == table) }
  outcome

def load (c : Cache σ) : Action σ Catalog := do
  (← get).folder.load c.place

def save (c : Cache σ) (catalog : Catalog) : Action σ Unit := do
  let (outcome, folder) := (← get).folder.save c.place catalog
  modify fun s => { s with folder := folder }
  outcome

/-! ## Discovery -/

/-- Runs an operation of a discovery. -/
def introspect (c : Cache σ) (table : Value) (operation : Operation) : Action σ Value :=
  (c.backend operation).onBackendFault fun detail => .discovery (.introspection table detail)

def schemaParameter (c : Cache σ) : Fields :=
  [("schema_name", .text c.config.schemaName)]

def tableParameters (c : Cache σ) (table : Value) : Fields :=
  c.schemaParameter ++ [("table_name", table)]

/-- The first column of the primary key, null where there is none. -/
def primaryKey (c : Cache σ) (table : Value) : Action σ Value := do
  let rows ← c.introspect table
    (.raw c.config.dialect.primaryKeyQuery (c.tableParameters table))
  match ← firstOf rows with
  | .null => return .null
  | row => caselessGet row (.text "COLUMN_NAME")

/-- The category of every reported column; a later report of a column replaces the category. -/
def categories (config : Config) (sample : Value) (rows : List Value) :
    Except Fault (Keyed Value Category) :=
  rows.foldlM
    (fun entries row => do
      let column ← Column.ofRow row
      let category ← column.classify config sample
      if column.name.isKey then return Keyed.put entries column.name category
      else throw .wrongShape)
    []

def discover (c : Cache σ) (table : Value) : Action σ TableSchema := do
  let rows ← c.introspect table (.raw c.config.dialect.columnsQuery (c.tableParameters table))
  if !rows.isGiven then throw (.discovery (.noColumns table c.config.schemaName))
  let idColumn ← c.primaryKey table
  let samples ← c.introspect table (.tableScan table [] (.int 1))
  let sample ← firstOf samples
  TableSchema.ofColumns table (← categories c.config sample (← membersOf rows)) idColumn

/-- The tables in the rows of a listing, after those listed before. -/
def listRows (tables : List Value) (rows : List Value) : Except Fault (List Value) :=
  rows.foldlM
    (fun tables row => do
      return Catalog.list tables (← caselessGet row (.text "TABLE_NAME")))
    tables

def listBy (c : Cache σ) (tables : List Value) (text : String) : Action σ (List Value) := do
  let rows ← (c.backend (.raw text c.schemaParameter)).onBackendFault fun detail =>
    .discovery (.enumeration c.config.schemaName detail)
  listRows tables (← membersOf rows)

/-- The tables of the schema, and its views where the dialect has them. -/
def tableNames (c : Cache σ) : Action σ (List Value) := do
  let tables ← c.listBy [] c.config.dialect.tablesQuery
  match c.config.dialect.viewsQuery with
  | some text => c.listBy tables text
  | none => return tables

/-! ## Schemas -/

def refresh (c : Cache σ) (table : Value) : Action σ TableSchema := do
  let generation ← c.nextGeneration
  let schema ← c.discover table
  let catalog ← c.load
  c.save (catalog.put schema)
  c.remember fun m => { m with persisted := Keyed.put m.persisted table generation }
  return schema

/-- The schema of a table, discovered where the catalog lacks it or `overwrite` asks for it. -/
def schema (c : Cache σ) (table : Value) (overwrite : Bool) : Action σ TableSchema :=
  c.locked table do
    if overwrite then c.refresh table
    else
      match (← c.load).get? table with
      | some t => return t
      | none => c.refresh table

/-! ## The whole catalog -/

/-- A schema with the generation of its discovery. -/
structure Discovery where
  generation : Nat
  schema : TableSchema

def rediscover (c : Cache σ) (table : Value) : Action σ Discovery :=
  c.locked table do
    let generation ← c.nextGeneration
    return ⟨generation, ← c.discover table⟩

def rediscoverAll (c : Cache σ) : List Value → Keyed Value Discovery →
    Action σ (Keyed Value Discovery)
  | [], found => return found
  | table :: rest, found => do
    let d ← c.rediscover table
    c.rediscoverAll rest (Keyed.put found table d)

/-- Was a schema of the table persisted by a discovery after the generation? -/
def isNewer (persisted : Keyed Value Nat) (table : Value) (generation : Nat) : Bool :=
  match Keyed.find? persisted table with
  | some g => generation < g
  | none => false

/-- Puts the discoveries of a rebuild into its catalog, except where the catalog on disk has a later
one, and collects the generations of those it put. -/
def mergeFound (onDisk : Catalog) (persisted : Keyed Value Nat) :
    Keyed Value Discovery → Catalog × Keyed Value Nat → Catalog × Keyed Value Nat
  | [], done => done
  | (table, d) :: rest, (catalog, replaced) =>
    match onDisk.get? table with
    | some newer =>
      if isNewer persisted table d.generation then
        mergeFound onDisk persisted rest (catalog.put newer, replaced)
      else
        mergeFound onDisk persisted rest
          (catalog.put d.schema, Keyed.put replaced table d.generation)
    | none =>
      mergeFound onDisk persisted rest
        (catalog.put d.schema, Keyed.put replaced table d.generation)

/-- Adds the schemas on disk that were persisted while the rebuild ran and that it did not find. -/
def keepNew (onDisk : Catalog) (persisted : Keyed Value Nat) (found : Keyed Value Discovery)
    (start : Nat) (catalog : Catalog) : Catalog :=
  onDisk.schemas.foldl
    (fun catalog (table, t) =>
      if !Keyed.has found table && isNewer persisted table start then catalog.put t else catalog)
    catalog

def rebuild (c : Cache σ) : Action σ Catalog := do
  let start ← c.nextGeneration
  let tables ← c.tableNames
  let found ← c.rediscoverAll tables []
  let onDisk ← c.load
  let persisted := (← c.memory).persisted
  let (merged, replaced) := mergeFound onDisk persisted found (⟨tables, []⟩, [])
  let catalog := keepNew onDisk persisted found start merged
  c.save catalog
  c.remember fun m => { m with persisted := Keyed.putAll m.persisted replaced }
  return catalog

/-- Completes a catalog with the schemas of the listed tables. -/
def completeAll (c : Cache σ) : List Value → Action σ Unit
  | [] => return ()
  | table :: rest => do
    let _ ← c.schema table false
    c.completeAll rest

/-- The listed tables without a schema. -/
def missing (catalog : Catalog) : Except Fault (List Value) :=
  catalog.tables.filterMapM fun table => do
    match ← catalog.lookup table with
    | some _ => return none
    | none => return some table

/-- The catalog of all tables: the one on disk, completed, or a rebuilt one where there is none or
`overwrite` asks for it. -/
def catalog (c : Cache σ) (overwrite : Bool) : Action σ Catalog := do
  if overwrite then c.rebuild
  else
    let onDisk ← c.load
    if onDisk.tables.isEmpty then c.rebuild
    else
      match ← missing onDisk with
      | [] => return onDisk
      | tables =>
        c.completeAll tables
        c.load

end Cache

end RowAccess
