import RowAccess.Query.Typed

/-
  RowAccess/Operation/Basic.lean
  ==============================
  **Operations on tables.**  An operation says what to do and leaves it to a backend how.  A
  filtered read is a chain of steps; an aggregate is planned as the aggregate itself and a read of
  the rows that hold its value.  Tables and columns are named by values because the names come from
  an engine.  A limit of null is none.
-/

namespace RowAccess

/-- A step of a filtered read. -/
inductive Step where
  | select (columns : List Value)
  | starter (s : Starter)
  | andWhere (c : Clause)
  | orWhere (c : Clause)
  | orWhereIn (c : Clause)
  | limit (count : Value)
  | order (terms : List OrderTerm)
  deriving Repr

/-- An aggregate over a column of a table. -/
structure AggregateQuery where
  table : Value
  function : Aggregate
  column : Value
  deriving Repr

/-- An operation that a backend runs. -/
inductive Operation where
  | tableScan (table : Value) (columns : List Value) (limit : Value)
  | filteredScan (table : Value) (steps : List Step)
  | aggregate (query : AggregateQuery)
  | insert (table : Value) (record : Fields) (idColumn : Value)
  | update (table : Value) (predicate : Clause) (record : Fields)
  | delete (table : Value) (predicate : Clause)
  | deleteAll (table : Value)
  | raw (text : String) (parameters : Fields)
  deriving Repr

/-- What a query compiles to. -/
inductive Plan where
  | scan (table : Value) (steps : List Step)
  | aggregate (query : AggregateQuery)
  deriving Repr

def Operation.kindName : Operation → String
  | .tableScan .. => "TableScan"
  | .filteredScan .. => "FilteredScan"
  | .aggregate _ => "AggregateQuery"
  | .insert .. => "InsertRow"
  | .update .. => "UpdateRows"
  | .delete .. => "DeleteRows"
  | .deleteAll _ => "DeleteAllRows"
  | .raw .. => "RawQuery"

namespace Step

def kindName : Step → String
  | .select _ => "SelectStep"
  | .starter _ => "StarterStep"
  | .andWhere _ => "AndWhereStep"
  | .orWhere _ => "OrWhereStep"
  | .orWhereIn _ => "OrWhereInStep"
  | .limit _ => "LimitStep"
  | .order _ => "OrderStep"

def shown (s : Step) : String :=
  described s.kindName
    [match s with
      | .select columns => part "columns" (sequenceShown (columns.map Value.shown))
      | .starter st => part "starter" st.shown
      | .andWhere c | .orWhere c | .orWhereIn c => part "clause" c.shown
      | .limit v => part "limit" v.shown
      | .order terms => part "terms" (sequenceShown (terms.map OrderTerm.shown))]

/-- The values in the description of a step. -/
def mentioned : Step → List Value
  | .select columns => columns
  | .starter st => st.clause.mentioned
  | .andWhere c | .orWhere c | .orWhereIn c => c.mentioned
  | .limit v => [v]
  | .order terms => terms.map OrderTerm.column

end Step

end RowAccess
