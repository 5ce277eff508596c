import RowAccess.Query.Key

/-
  RowAccess/Query/Clause.lean
  ===========================
  **Conditions on one column**: a comparison with a value, a pattern, membership in a list that is
  never empty, and an inclusive range.  Each has a record form with named fields and a description
  for messages.  A column is named by a value, since names may come from an engine; a checked query
  names columns by texts.
-/

namespace RowAccess

inductive Comparator where
  | eq
  | gt
  | lt
  deriving DecidableEq, Repr

namespace Comparator

def all : List Comparator := [.eq, .gt, .lt]

def name : Comparator → String
  | .eq => "EQ"
  | .gt => "GT"
  | .lt => "LT"

/-- The SQL operator of a comparator. -/
def symbol : Comparator → String
  | .eq => "="
  | .gt => ">"
  | .lt => "<"

def ofName? (name : String) : Option Comparator :=
  all.find? fun c => c.name == name

end Comparator

/-- The direction of an order term. -/
inductive Direction where
  | ascending
  | descending
  deriving DecidableEq, Repr

namespace Direction

def name : Direction → String
  | .ascending => "asc"
  | .descending => "desc"

def ofName? (name : String) : Option Direction :=
  if name == "asc" then some .ascending
  else if name == "desc" then some .descending
  else none

end Direction

/-- A column compared with a value. -/
structure Comparison where
  column : Value
  comparator : Comparator
  value : Value
  deriving Repr

/-- A column matched against a pattern. -/
structure Like where
  column : Value
  pattern : Value
  deriving Repr

/-- A column looked up in a list of at least one value. -/
structure Membership where
  column : Value
  first : Value
  rest : List Value
  deriving Repr

/-- A column held between two bounds, both included. -/
structure Range where
  column : Value
  low : Value
  high : Value
  deriving Repr

/-- A condition on one column. -/
inductive Clause where
  | comparison (c : Comparison)
  | like (l : Like)
  | membership (m : Membership)
  | range (r : Range)
  deriving Repr

/-- The clause that opens a chain, under the key that asked for it. -/
structure Starter where
  kind : StarterKind
  clause : Clause
  deriving Repr

/-- One column to sort by. -/
structure OrderTerm where
  column : Value
  direction : Direction
  deriving Repr

def Membership.values (m : Membership) : List Value :=
  m.first :: m.rest

/-- The membership of a column in a list, unless the list is empty. -/
def Membership.of? (column : Value) : List Value → Option Membership
  | [] => none
  | v :: vs => some ⟨column, v, vs⟩

def Clause.column : Clause → Value
  | .comparison c => c.column
  | .like l => l.column
  | .membership m => m.column
  | .range r => r.column

/-! ## Records -/

def Comparison.toRecord (c : Comparison) : Fields :=
  [(ClauseField.column.name, c.column),
    (ClauseField.comparator.name, .text c.comparator.name), (ClauseField.value.name, c.value)]

def Membership.toRecord (m : Membership) : Fields :=
  [(ClauseField.column.name, m.column), (ClauseField.values.name, .list m.values)]

def Clause.toRecord : Clause → Fields
  | .comparison c => c.toRecord
  | .like l => [(ClauseField.column.name, l.column), (ClauseField.value.name, l.pattern)]
  | .membership m => m.toRecord
  | .range r =>
    [(ClauseField.column.name, r.column), (ClauseField.values.name, .list [r.low, r.high])]

def OrderTerm.toRecord (t : OrderTerm) : Fields :=
  [(orderColumnName, t.column), (orderDirectionName, .text t.direction.name)]

/-! ## Descriptions -/

/-- A named part of a description. -/
def part (name text : String) : String :=
  name ++ "=" ++ text

def described (kind : String) (parts : List String) : String :=
  kind ++ "(" ++ ", ".intercalate parts ++ ")"

/-- A sequence that cannot be changed, in a message. -/
def sequenceShown : List String → String
  | [] => "()"
  | [s] => "(" ++ s ++ ",)"
  | ss => "(" ++ ", ".intercalate ss ++ ")"

def Comparison.shown (c : Comparison) : String :=
  described "ComparisonClause"
    [part "column" c.column.shown,
      part "comparator"
        ("<Comparator." ++ c.comparator.name ++ ": " ++ Text.quoted c.comparator.symbol ++ ">"),
      part "value" c.value.shown]

def Membership.shown (m : Membership) : String :=
  described "InClause"
    [part "column" m.column.shown,
      part "values" (sequenceShown (m.values.map Value.shown))]

def Clause.shown : Clause → String
  | .comparison c => c.shown
  | .like l =>
    described "LikeClause" [part "column" l.column.shown, part "value" l.pattern.shown]
  | .membership m => m.shown
  | .range r =>
    described "BetweenClause"
      [part "column" r.column.shown, part "low" r.low.shown, part "high" r.high.shown]

def Starter.shown (s : Starter) : String :=
  described "ChainStarter"
    [part "kind" (Key.starter s.kind).shownInside, part "clause" s.clause.shown]

/-- The values in the description of a clause. -/
def Clause.mentioned : Clause → List Value
  | .comparison c => [c.column, c.value]
  | .like l => [l.column, l.pattern]
  | .membership m => m.column :: m.values
  | .range r => [r.column, r.low, r.high]

def OrderTerm.shown (t : OrderTerm) : String :=
  let member := match t.direction with
    | .ascending => "ASC"
    | .descending => "DESC"
  described "OrderTerm"
    [part "column" t.column.shown,
      part "direction" ("<SortDirection." ++ member ++ ": " ++ Text.quoted t.direction.name ++ ">")]

end RowAccess
