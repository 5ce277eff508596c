import RowAccess.Shown

/-
  RowAccess/Query/Key.lean
  ========================
  **The keys of a query and the names inside its records.**  Seven keys can open the chain of
  conditions, three extend it, two ask for an aggregate in place of rows, and three say which
  columns, how many rows and in which order.
-/

namespace RowAccess

/-- The keys that can open a chain of conditions. -/
inductive StarterKind where
  | where_
  | whereIn
  | whereNot
  | whereNotIn
  | whereBetween
  | whereNotBetween
  | whereLike
  deriving DecidableEq, Repr

/-- The aggregates that can take the place of rows. -/
inductive Aggregate where
  | min
  | max
  deriving DecidableEq, Repr

inductive Key where
  | select
  | starter (kind : StarterKind)
  | orWhere
  | andWhere
  | orWhereIn
  | aggregate (function : Aggregate)
  | limit
  | order
  deriving DecidableEq, Repr

namespace StarterKind

/-- Every starter, in the order in which they are listed. -/
def all : List StarterKind :=
  [.where_, .whereIn, .whereNot, .whereNotIn, .whereBetween, .whereNotBetween, .whereLike]

def name : StarterKind → String
  | .where_ => "WHERE"
  | .whereIn => "WHERE_IN"
  | .whereNot => "WHERE_NOT"
  | .whereNotIn => "WHERE_NOT_IN"
  | .whereBetween => "WHERE_BETWEEN"
  | .whereNotBetween => "WHERE_NOT_BETWEEN"
  | .whereLike => "WHERE_LIKE"

/-- Does the starter ask for the rows that do not satisfy its clause? -/
def isNegated : StarterKind → Bool
  | .whereNot | .whereNotIn | .whereNotBetween => true
  | _ => false

end StarterKind

def Aggregate.name : Aggregate → String
  | .min => "MIN"
  | .max => "MAX"

namespace Key

def name : Key → String
  | .select => "SELECT"
  | .starter k => k.name
  | .orWhere => "OR_WHERE"
  | .andWhere => "AND_WHERE"
  | .orWhereIn => "OR_WHERE_IN"
  | .aggregate f => f.name
  | .limit => "LIMIT"
  | .order => "ORDER"

def all : List Key :=
  [.select] ++ StarterKind.all.map .starter ++
    [.orWhere, .andWhere, .orWhereIn, .aggregate .min, .aggregate .max, .limit, .order]

def ofName? (name : String) : Option Key :=
  all.find? fun k => k.name == name

def isName (name : String) : Bool :=
  (ofName? name).isSome

def sortedNames : List String :=
  ["AND_WHERE", "LIMIT", "MAX", "MIN", "ORDER", "OR_WHERE", "OR_WHERE_IN", "SELECT", "WHERE",
    "WHERE_BETWEEN", "WHERE_IN", "WHERE_LIKE", "WHERE_NOT", "WHERE_NOT_BETWEEN", "WHERE_NOT_IN"]

/-- A key in a message about the key itself. -/
def shown (k : Key) : String :=
  "QueryKey." ++ k.name

/-- A key inside the description of a larger value. -/
def shownInside (k : Key) : String :=
  "<QueryKey." ++ k.name ++ ": " ++ Text.quoted k.name ++ ">"

theorem ofName?_name (k : Key) : ofName? k.name = some k := by
  cases k with
  | starter kind => cases kind <;> decide
  | aggregate f => cases f <;> decide
  | _ => decide

theorem name_injective {j k : Key} (h : j.name = k.name) : j = k := by
  have hname := ofName?_name j
  rw [h, ofName?_name] at hname
  exact (Option.some.inj hname).symm

theorem mem_all (k : Key) : k ∈ all := by
  cases k with
  | starter kind => cases kind <;> decide
  | aggregate f => cases f <;> decide
  | _ => decide

end Key

inductive ClauseField where
  | column
  | comparator
  | value
  | values
  deriving DecidableEq, Repr

namespace ClauseField

def name : ClauseField → String
  | .column => "COLUMN"
  | .comparator => "COMPARATOR"
  | .value => "VALUE"
  | .values => "VALUES"

/-- Is the text the name of a clause field? -/
def isName (name : String) : Bool :=
  name == "COLUMN" || name == "COMPARATOR" || name == "VALUE" || name == "VALUES"

end ClauseField

def orderColumnName : String := "column"

def orderDirectionName : String := "order"

end RowAccess
