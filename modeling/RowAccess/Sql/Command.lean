import RowAccess.Sql.Expression

/-
  RowAccess/Sql/Command.lean
  ==========================
  **What the engine is asked to do.**  A command is a statement as the engine understands it: names
  have lost their quotes, and the values that travel beside the statement stand in their places.
-/

namespace RowAccess.Sql

/-- A shown expression under a title. -/
structure Shown where
  expr : Expr
  title : String
  deriving Repr

/-- A selection: which rows of a table, put into which groups, in which order, how many of them
after how many others, and what of each; `none` shows every column.  Without tables there is one
row. -/
structure Query where
  shown : Option (List Shown)
  tables : List Target
  test : Option Expr
  group : List Expr
  groupTest : Option Expr
  order : List (Expr × Direction)
  limit : Option Expr
  offset : Option Expr
  deriving Repr

/-- How the rows of two selections are put together. -/
inductive Combination where
  | union
  | unionAll
  | except
  | intersect
  deriving DecidableEq, Repr

/-- A command.  The order and the limit of the last of several selections are those of the whole. -/
inductive Command where
  | select (q : Query)
  | combine (first : Query) (others : List (Combination × Query))
  | extreme (table : Target) (function : Aggregate) (e : Expr) (title : String)
  | insert (table : Target) (columns : List String) (rows : List (List Expr))
    (returning : Option Expr)
  | update (table : Target) (entries : List (String × Expr)) (test : Option Expr)
  | delete (table : Target) (test : Option Expr)
  deriving Repr

namespace Query

/-- A selection without its expressions. -/
def frame (q : Query) : Frame where
  width := q.shown.map List.length
  tables := q.tables
  isTested := q.test.isSome
  groupCount := q.group.length
  isGroupTested := q.groupTest.isSome
  directions := q.order.map (·.2)
  isLimited := q.limit.isSome
  isMoved := q.offset.isSome

def parts (q : Query) : List Expr :=
  ((q.shown.getD []).map Shown.expr) ++ q.test.toList ++ q.group ++ q.groupTest.toList ++
    q.order.map (·.1) ++ q.limit.toList ++ q.offset.toList

/-- The first of the expressions where there is one to take, and the others. -/
def takeIf (isThere : Bool) (parts : List Expr) : Option Expr × List Expr :=
  if isThere then (parts.head?, parts.drop 1) else (none, parts)

def ofParts (f : Frame) (parts : List Expr) : Query :=
  let (test, afterTest) := takeIf f.isTested (parts.drop (f.width.getD 0))
  let (groupTest, afterGroups) := takeIf f.isGroupTested (afterTest.drop f.groupCount)
  let (limit, afterLimit) := takeIf f.isLimited (afterGroups.drop f.directions.length)
  { shown := f.width.map fun n => (parts.take n).map fun e => ⟨e, ""⟩
    tables := f.tables
    test := test
    group := afterTest.take f.groupCount
    groupTest := groupTest
    order := afterGroups.zip f.directions
    limit := limit
    offset := (takeIf f.isMoved afterLimit).1 }

end Query

namespace Command

def exprs : Command → List Expr
  | .select q => q.parts
  | .combine first others => first.parts ++ others.flatMap fun (_, q) => q.parts
  | .extreme _ _ e _ => [e]
  | .insert _ _ rows returning => rows.flatten ++ returning.toList
  | .update _ entries test => entries.map (·.2) ++ test.toList
  | .delete _ test => test.toList

end Command

end RowAccess.Sql
