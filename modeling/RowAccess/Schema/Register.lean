import RowAccess.Schema.Cache

/-
  RowAccess/Schema/Register.lean
  ==============================
  **The catalog as one map in memory.**  A register holds the known schemas under the names of their
  tables, in order, and nothing else: no file, no locks, no generations.  A call is answered from
  the register, or it asks the engine first and then changes the register in one step; a call that
  fails on the way leaves it alone.  This is what callers may take caches for that are used one
  after another.
-/

namespace RowAccess

/-! ## Calls -/

/-- What a caller asks a cache for. -/
inductive Call where
  | schema (table : String) (overwrite : Bool)
  | catalog (overwrite : Bool)
  deriving DecidableEq, Repr

/-- What a caller is given. -/
inductive Answer where
  | schema (t : TableSchema)
  | catalog (c : Catalog)

/-- What is seen of a call: its outcome, the catalog that can be loaded then, and all that backends
keep. -/
structure Sight (σ : Type) where
  outcome : Except Fault Answer
  stored : Except Fault Catalog
  outside : σ

namespace Cache

variable {σ : Type}

def answer (c : Cache σ) : Call → Action σ Answer
  | .schema table overwrite => do return .schema (← c.schema (.text table) overwrite)
  | .catalog overwrite => do return .catalog (← c.catalog overwrite)

/-- What is seen of calls, one after another, each of a cache of its own. -/
def sights (p : Place) : List (Cache σ × Call) → Site σ → List (Sight σ)
  | [], _ => []
  | (c, call) :: rest, s =>
    let (outcome, s') := (c.answer call).run.run s
    ⟨outcome, s'.folder.load p, s'.outside⟩ :: sights p rest s'

/-! ## What the engine reports -/

/-- The names in the rows of a listing, as often as they stand there. -/
def namesIn (rows : List Value) : Except Fault (List Value) :=
  rows.mapM fun row => caselessGet row (.text "TABLE_NAME")

def reported (c : Cache σ) (text : String) : Action σ (List Value) := do
  let rows ← (c.backend (.raw text c.schemaParameter)).onBackendFault fun detail =>
    .discovery (.enumeration c.config.schemaName detail)
  namesIn (← membersOf rows)

/-- The names of the tables, and of the views where the dialect has them. -/
def enumerated (c : Cache σ) : Action σ (List Value) := do
  let tables ← c.reported c.config.dialect.tablesQuery
  match c.config.dialect.viewsQuery with
  | some text => return tables ++ (← c.reported text)
  | none => return tables

def discoverAll (c : Cache σ) : List Value → Action σ (Keyed Value TableSchema)
  | [] => return []
  | table :: rest => do
    let t ← c.discover table
    return (table, t) :: (← c.discoverAll rest)

/-- The tables that the engine reports, each once, with their schemas. -/
def survey (c : Cache σ) : Action σ (Keyed Value TableSchema) := do
  c.discoverAll (← c.enumerated).eraseDups

end Cache

/-! ## The register -/

/-- The known schemas under the names of their tables, and all that backends keep. -/
structure Register (σ : Type) where
  known : Keyed Value TableSchema
  outside : σ

def Folder.writing (f : Folder) (p : Place) (c : Catalog) : Except Fault Unit :=
  (f.save p c).1

def Catalog.ofKnown (known : Keyed Value TableSchema) : Catalog :=
  ⟨Keyed.keys known, known⟩

namespace Register

variable {σ α : Type}

/-- A step over a register that may fail. -/
abbrev Transaction (σ α : Type) := ExceptT Fault (StateM (Register σ)) α

/-- Runs an action that is given nothing but what backends keep. -/
def ask (act : Action σ α) : Transaction σ α := do
  let r ← get
  let (outcome, s) := act.run.run ⟨none, [], r.outside⟩
  set { r with outside := s.outside }
  outcome

def commit (writing : Catalog → Except Fault Unit) (known : Keyed Value TableSchema) :
    Transaction σ Unit := do
  writing (.ofKnown known)
  modify fun r => { r with known := known }

section Answers

variable (writing : Place → Catalog → Except Fault Unit) (c : Cache σ)

def refresh (table : String) : Transaction σ TableSchema := do
  let t ← ask (c.discover (.text table))
  commit (writing c.place) (Keyed.put (← get).known (.text table) t)
  return t

/-- The known schema of a table, or a discovered one. -/
def schema (table : String) (overwrite : Bool) : Transaction σ TableSchema := do
  if overwrite then refresh writing c table
  else
    match Keyed.find? (← get).known (.text table) with
    | some t => return t
    | none => refresh writing c table

/-- Discovers all tables and puts nothing but their schemas. -/
def rebuild : Transaction σ Catalog := do
  let found ← ask c.survey
  commit (writing c.place) found
  return .ofKnown found

/-- All that is known, or all that is discovered. -/
def catalog (overwrite : Bool) : Transaction σ Catalog := do
  let known := (← get).known
  if overwrite || known.isEmpty then rebuild writing c else return .ofKnown known

def answer : Call → Transaction σ Answer
  | .schema table overwrite => do return .schema (← schema writing c table overwrite)
  | .catalog overwrite => do return .catalog (← catalog writing c overwrite)

end Answers

/-- What is seen of calls over a register, one after another. -/
def sights (writing : Place → Catalog → Except Fault Unit) :
    List (Cache σ × Call) → Register σ → List (Sight σ)
  | [], _ => []
  | (c, call) :: rest, r =>
    let (outcome, r') := (answer writing c call).run.run r
    ⟨outcome, .ok (.ofKnown r'.known), r'.outside⟩ :: sights writing rest r'

end Register

end RowAccess
