import RowAccess.Schema.Table

/-
  RowAccess/Schema/Catalog.lean
  =============================
  **The catalog of known tables**: their names in order, and the schemas of those that have been
  discovered.  Putting a schema lists its table, in place if it is listed already.
-/

namespace RowAccess

/-- The tables in order and the schemas under their names. -/
structure Catalog where
  tables : List Value := []
  schemas : Keyed Value TableSchema := []

namespace Catalog

def list (tables : List Value) (name : Value) : List Value :=
  if tables.contains name then tables else tables ++ [name]

def get? (c : Catalog) (name : Value) : Option TableSchema :=
  Keyed.find? c.schemas name

def put (c : Catalog) (t : TableSchema) : Catalog :=
  ⟨list c.tables t.name, Keyed.put c.schemas t.name t⟩

def lookup (c : Catalog) (name : Value) : Except Fault (Option TableSchema) :=
  if name.isKey then .ok (c.get? name) else .error .wrongShape

/-- Adds or replaces a schema; a name that cannot be a key is listed and its schema refused. -/
def add (c : Catalog) (t : TableSchema) : Except Fault Unit × Catalog :=
  if t.name.isKey then (.ok (), c.put t)
  else (.error .wrongShape, { c with tables := list c.tables t.name })

def toStored (c : Catalog) : Value :=
  .object [("tables", .list c.tables),
    ("schemas", .list ((Keyed.values c.schemas).map TableSchema.toStored))]

/-- Adds the schemas of stored forms in order. -/
def addStored (c : Catalog) : List Value → Except Fault Catalog
  | [] => .ok c
  | v :: vs => do
    let t ← TableSchema.ofStored v
    match c.add t with
    | (.ok (), c) => addStored c vs
    | (.error f, _) => throw f

def ofStored : Value → Except Fault Catalog
  | .object fields => do
    let names ← TableSchema.storedMembers fields "tables"
    let schemas ← TableSchema.storedMembers fields "schemas"
    addStored ⟨names.foldl list [], []⟩ schemas
  | v => .error (.catalog (.catalogKind v))

end Catalog

end RowAccess
