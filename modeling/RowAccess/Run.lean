import RowAccess.Operation.Backend
import RowAccess.Query.Client

/-
  RowAccess/Run.lean
  ==================
  **Running plans.**  A filtered read is one operation.  An aggregate is run first, and then the
  rows are read whose column holds its value; without a value there is nothing to read.  Only a
  fault of the backend becomes a failure here.
-/

namespace RowAccess

variable {σ : Type}

/-- The read of the rows whose column holds a value. -/
def lookupOf (q : AggregateQuery) (value : Value) : Operation :=
  .filteredScan q.table [.starter ⟨.where_, .comparison ⟨q.column, .eq, value⟩⟩]

/-- The value in the row of an aggregate, null where there is none. -/
def aggregateValue : Value → Except Fault Value
  | .null => .ok .null
  | .object fields => .ok ((Keyed.values fields).head?.getD .null)
  | _ => .error .noSuchOperation

/-- Runs an aggregate and reads the rows that hold its value. -/
def runAggregate (backend : Backend σ) (q : AggregateQuery) : Action σ Value := do
  let rows ← backend (.aggregate q)
  match ← aggregateValue (← firstOf rows) with
  | .null => return .list []
  | value => backend (lookupOf q value)

/-- Runs a plan, faults and all. -/
def runPlan (backend : Backend σ) : Plan → Action σ Value
  | .scan table steps => backend (.filteredScan table steps)
  | .aggregate q => runAggregate backend q

/-- Runs an action; a fault of the backend is a failure, and any other is raised. -/
def runCapturing (act : Action σ Value) : Action σ (Reply Value) := do
  match ← act.outcome with
  | .ok rows => return .ok rows
  | .error f =>
    match f.failure? with
    | some ⟨.backend, detail⟩ => return .error ⟨.backend, detail⟩
    | _ => throw f.raised

/-- Runs a plan; a fault of the backend is a failure. -/
def run (backend : Backend σ) (plan : Plan) : Action σ (Reply Value) :=
  runCapturing (runPlan backend plan)

/-- A fault of reading a query as a failure; any other fault stays one. -/
def captureReading {α : Type} : Except Fault α → Except Fault (Reply α)
  | .ok a => .ok (.ok a)
  | .error (.reading c) => .ok (.error ⟨.reading, c.message⟩)
  | .error f => .error f

/-- Runs a client's query on a table.  The first stage that fails gives the failure. -/
def runClient (backend : Backend σ) (table : Value) (schema : Option TableSchema) (c : Config)
    (query : Value) : Action σ (Reply Value) := do
  match ← captureReading (clientQuery query) with
  | .error failure => return .error failure
  | .ok fields =>
    match ← planOfRecord table schema c fields with
    | .error failure => return .error failure
    | .ok plan => run backend plan

end RowAccess
