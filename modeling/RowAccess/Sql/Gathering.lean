import RowAccess.Sql.Function
import RowAccess.Query.Key

/-
  RowAccess/Sql/Gathering.lean
  ============================
  **What is gathered from many cells**: the least and the greatest, a count, a sum, an average, and
  texts put together.  Empty cells count for nothing.
-/

namespace RowAccess.Sql

/-! ## Extremes -/

/-- Does a cell come before the best one so far? -/
def isBetter (f : Aggregate) (best c : Cell) : Bool :=
  match f with
  | .min => Cell.order c best == .lt
  | .max => Cell.order c best == .gt

/-- The least or greatest of the cells that are not empty, the first of equal ones; empty if there
is none. -/
def extremeOf (f : Aggregate) (cells : List Cell) : Cell :=
  cells.foldl
    (fun best c =>
      if c.isNull then best
      else if best.isNull || isBetter f best c then c
      else best)
    .null

/-! ## Sums -/

/-- The number of a cell: what is no number, and spells none in full, is a double. -/
def summand (c : Cell) : Cell :=
  match Function.exactNumber c with
  | .int n => .int n
  | _ => .real c.toReal

/-- The double that cells sum up to, from the left. -/
def realSum (cells : List Cell) : Binary64 :=
  cells.foldl (fun sum c => sum.plus c.toReal) (.ofInt 0)

/-- The integer that cells sum up to, if all of them are integers. -/
def wholeSum? (cells : List Cell) : Option Int :=
  cells.foldlM
    (fun sum c => match c with
      | .int n => some (sum + n)
      | _ => none)
    0

/-- The sum of cells, a double unless all of them are integers; empty if there is none. -/
def sumOf (cells : List Cell) : Cell :=
  if cells.isEmpty then .null
  else
    match wholeSum? (cells.map summand) with
    | some n => .ofWhole n
    | none => .ofReal (realSum cells)

/-- The average of cells, empty if there is none. -/
def averageOf (cells : List Cell) : Cell :=
  if cells.isEmpty then .null else .ofReal ((realSum cells).divide (.ofInt cells.length))

/-! ## Aggregates -/

/-- The texts of cells with a text between them, empty if there is none. -/
def joined (between : String) (cells : List Cell) : Cell :=
  if cells.isEmpty then .null
  else .text (between.intercalate (cells.map Function.textOf))

/-- What an aggregate, named in small letters, gathers from the cells of its arguments, one list a
row. -/
def gathered (name : String) (rows : List (List Cell)) : Cell :=
  let given := (rows.filterMap List.head?).filter fun c => !c.isNull
  match name with
  | "count" => if rows.all List.isEmpty then .int rows.length else .int given.length
  | "min" => extremeOf .min given
  | "max" => extremeOf .max given
  | "sum" => sumOf given
  | "total" => .ofReal (realSum given)
  | "avg" => averageOf given
  | "group_concat" =>
    joined ((((rows.head?.bind fun r => r[1]?).map Function.textOf).getD ",")) given
  | _ => .null

end RowAccess.Sql
