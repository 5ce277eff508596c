import RowAccess.Operation.Chain
import RowAccess.Operation.Storage

/-
  RowAccess/Operation/Compile.lean
  ================================
  **From a checked query to the operations that run it.**  An aggregate becomes a plan of its own;
  all else becomes a chain of steps in the fixed order of kinds, each clause in the terms of
  storage.
-/

namespace RowAccess

namespace Query

/-- The steps of a query, clauses in the terms of storage, in the order of a chain. -/
def steps (schema : Option TableSchema) (c : Config) (q : Query) : Except Fault (List Step) := do
  let starter ← q.starter.mapM fun s => do
    return Starter.mk s.kind (← s.clause.forStorage schema c)
  let andWhere ← q.andWhere.mapM (Comparison.forStorage schema c)
  let orWhere ← q.orWhere.mapM (Comparison.forStorage schema c)
  let orWhereIn ← q.orWhereIn.mapM (Membership.forStorage schema c)
  return Chain.form (if q.select.isEmpty then none else some q.select) starter
    (andWhere.map .comparison) (orWhere.map .comparison) (orWhereIn.map .membership)
    (q.limit.map fun n => .int n) (if q.order.isEmpty then none else some q.order)

/-- The plan of a query on a table.  A value that does not fit its column is a failure. -/
def plan (table : Value) (schema : Option TableSchema) (c : Config) (q : Query) :
    Except Fault (Reply Plan) :=
  match q.aggregate with
  | some a => .ok (.ok (.aggregate ⟨table, a.function, .text a.column⟩))
  | none => capture do
    let chain ← (← q.steps schema c).foldlM Chain.add Chain.empty
    let built ← chain.build
    return .scan table built.steps

end Query

end RowAccess
