import RowAccess.Query.Clause

/-
  RowAccess/Query/Typed.lean
  ==========================
  **The typed form of a query**, and its record form under the names of the keys.  A query that asks
  for an aggregate uses nothing else of the query.
-/

namespace RowAccess

structure AggregateRequest where
  function : Aggregate
  column : String
  deriving DecidableEq, Repr

structure Query where
  select : List Value := []
  starter : Option Starter := none
  andWhere : List Comparison := []
  orWhere : List Comparison := []
  orWhereIn : List Membership := []
  aggregate : Option AggregateRequest := none
  limit : Option Nat := none
  order : List OrderTerm := []
  deriving Repr

namespace Query

def isAggregate (q : Query) : Bool :=
  q.aggregate.isSome

/-- Does any clause restrict the rows? -/
def hasFilters (q : Query) : Bool :=
  q.starter.isSome || !q.andWhere.isEmpty || !q.orWhere.isEmpty || !q.orWhereIn.isEmpty

/-- A list of records under a key, left out when it is empty. -/
def recordsUnder (key : Key) (records : List Fields) : Fields :=
  if records.isEmpty then [] else [(key.name, .list (records.map .object))]

def toRecord (q : Query) : Fields :=
  (if q.select.isEmpty then [] else [(Key.select.name, .list q.select)]) ++
    (match q.starter with
      | none => []
      | some s => [(s.kind.name, .object s.clause.toRecord)]) ++
    recordsUnder .andWhere (q.andWhere.map Comparison.toRecord) ++
    recordsUnder .orWhere (q.orWhere.map Comparison.toRecord) ++
    recordsUnder .orWhereIn (q.orWhereIn.map Membership.toRecord) ++
    (match q.aggregate with
      | none => []
      | some a => [(a.function.name, .text a.column)]) ++
    (match q.limit with
      | none => []
      | some n => [(Key.limit.name, .int n)]) ++
    recordsUnder .order (q.order.map OrderTerm.toRecord)

end Query

end RowAccess
