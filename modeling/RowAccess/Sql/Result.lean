import RowAccess.Sql.Command
import RowAccess.Sql.Gathering
import RowAccess.Sql.Refusal
import RowAccess.Sql.Resolve
import RowAccess.Sql.Scan

/-
  RowAccess/Sql/Result.lean
  =========================
  **What a selection gives.**  The rows that pass are met in the order of a plan, sorted by the order
  terms, and cut by the limit and the offset.  An aggregate makes one row of them all.  A nested
  selection has columns of its own, so that what it finds is settled before any row around it is met.
-/

namespace RowAccess.Sql

/-! ## Order and limits -/

def termOrder (t : Expr × Direction) (a b : Item) : Ordering :=
  let c := (t.1.collation?).getD .binary
  let o := Cell.order (c.keyCell (t.1.cell a)) (c.keyCell (t.1.cell b))
  match t.2 with
  | .ascending => o
  | .descending => o.swap

/-- The order of two rows by several terms, the first of them first. -/
def termsOrder (ts : List (Expr × Direction)) (a b : Item) : Ordering :=
  ts.foldr (fun t rest => (termOrder t a b).then rest) .eq

/-- The rows in the order of the terms; rows that the terms do not tell apart keep their places. -/
def sortRows (ts : List (Expr × Direction)) (rows : List Item) : List Item :=
  rows.mergeSort fun a b => (termsOrder ts a b) != .gt

/-- As many rows as a limit allows; a negative limit allows all. -/
def limitRows {α : Type} (limit : Option Int) (rows : List α) : List α :=
  match limit with
  | none => rows
  | some n => if n < 0 then rows else rows.take n.toNat

/-- The number of rows that an expression asks for. -/
def countOf (e : Expr) : Except Refusal Int :=
  match (e.detached.cell (.blank 0)).count? with
  | some n => .ok n
  | none => .error .noId

namespace Query

def shownExprs (q : Query) : List Expr :=
  match q.shown with
  | none => ItemColumn.all.map fun c => .name ⟨c.title, false⟩
  | some shown => shown.map Shown.expr

/-- The order terms, where a number stands for the shown expression at that place. -/
def terms (q : Query) : List (Expr × Direction) :=
  q.order.map fun (e, d) =>
    match e with
    | .literal (.int n) => ((if 0 < n then q.shownExprs[n.toNat - 1]? else none).getD e, d)
    | e => (e, d)

/-- Are the rows sorted by other columns than the id? -/
def isSorted (q : Query) : Bool :=
  !q.order.isEmpty && q.terms.all fun (e, _) => e.column? != some .id

/-- The rows that a selection meets; without tables there is one. -/
def met (q : Query) (t : Items) : List Item :=
  scan q.isSorted q.test (if q.tables.isEmpty then [.blank 0] else t.rows)

/-- The rows of a selection: those that pass, in order, up to the limit. -/
def rows (q : Query) (limit : Option Int) (offset : Int) (t : Items) : List Item :=
  limitRows limit ((sortRows q.terms (q.met t)).drop offset.toNat)

def titles (q : Query) : List String :=
  match q.shown with
  | none => ItemColumn.all.map ItemColumn.title
  | some shown => shown.map Shown.title

/-- What is shown of a row. -/
def cells (q : Query) (i : Item) : List Cell :=
  match q.shown with
  | none => ItemColumn.all.map fun c => i.cell c
  | some shown => shown.map fun s => s.expr.cell i

end Query

/-! ## Aggregates -/

namespace Expr

mutual

def isGathering : Expr → Bool
  | .bound _ | .literal _ | .name _ | .member _ _ | .nested .. => false
  | .sign _ e | .complement e | .absent _ e | .not e | .cast _ e | .collated _ e => e.isGathering
  | .calculate _ a b | .compare _ a b | .same _ a b | .both a b | .either a b | .like _ a b =>
    a.isGathering || b.isGathering
  | .between _ e low high => e.isGathering || low.isGathering || high.isGathering
  | .oneOf _ e source choices => e.isGathering || (!source.isSelection && anyGathering choices)
  | .call function arguments =>
    Callee.of function arguments.length == .aggregate || anyGathering arguments
  | .choose test result rest => test.isGathering || result.isGathering || rest.isGathering
  | .row parts => anyGathering parts

def anyGathering : List Expr → Bool
  | [] => false
  | e :: es => e.isGathering || anyGathering es

end

/-- The expression with every aggregate replaced by what it gathers from rows. -/
def gatheredOver (rows : List Item) (e : Expr) : Expr :=
  e.substitute fun
    | .call function arguments =>
      if Callee.of function arguments.length == .aggregate then
        some (.literal (gathered (smallName function) (rows.map fun i => cells i arguments)))
      else none
    | _ => none

end Expr

/-! ## Groups -/

abbrev Line := List Item

/-- The cell of an expression for a line: aggregates gather its rows, and what looks at a row looks
at the first. -/
def Expr.lineCell (line : Line) (e : Expr) : Cell :=
  (e.gatheredOver line).cell (line.head?.getD (.blank 0))

namespace Query

/-- Do lines stand for several rows? -/
def isGrouped (q : Query) : Bool :=
  !q.group.isEmpty || Expr.anyGathering q.shownExprs

/-- Rows put into groups whose expressions agree. -/
def grouped (group : List Expr) (rows : List Item) : List Line :=
  let terms := group.map fun e => (e, Direction.ascending)
  (sortRows terms rows).splitBy fun a b => termsOrder terms a b == .eq

/-- The lines of a selection: groups that pass their test, or one line of all rows. -/
def lines (q : Query) (t : Items) : List Line :=
  let rows := q.met t
  let lines := if q.group.isEmpty then [rows] else grouped q.group rows
  match q.groupTest with
  | none => lines
  | some e => lines.filter fun line => (e.lineCell line).truth.isYes

/-- The order of two lines by the order terms. -/
def lineOrder (q : Query) (a b : Line) : Ordering :=
  q.terms.foldr
    (fun (e, d) rest =>
      let o := Cell.order (e.lineCell a) (e.lineCell b)
      (match d with
        | .ascending => o
        | .descending => o.swap).then rest)
    .eq

def lineCells (q : Query) (line : Line) : List Cell :=
  q.shownExprs.map (Expr.lineCell line)

def cellRows (q : Query) (limit : Option Int) (offset : Int) (t : Items) : List (List Cell) :=
  if q.isGrouped then
    let lines := (q.lines t).mergeSort fun a b => q.lineOrder a b != .gt
    limitRows limit ((lines.map q.lineCells).drop offset.toNat)
  else (q.rows limit offset t).map q.cells

end Query

/-! ## Selections put together -/

/-- The order of rows of cells: by the first cells that differ. -/
def cellsOrder : List Cell → List Cell → Ordering
  | c :: cs, d :: ds => (Cell.order c d).then (cellsOrder cs ds)
  | [], [] => .eq
  | [], _ => .lt
  | _, [] => .gt

/-- Rows of cells in their order, each of them once. -/
def distinctRows (rows : List (List Cell)) : List (List Cell) :=
  ((rows.mergeSort fun a b => cellsOrder a b != .gt).splitBy fun a b =>
    cellsOrder a b == .eq).filterMap List.head?

/-- The rows of two selections put together. -/
def Combination.apply (k : Combination) (a b : List (List Cell)) : List (List Cell) :=
  let isIn (row : List Cell) : Bool := b.any fun r => cellsOrder r row == .eq
  match k with
  | .union => distinctRows (a ++ b)
  | .unionAll => a ++ b
  | .except => (distinctRows a).filter fun row => !isIn row
  | .intersect => (distinctRows a).filter isIn

namespace Query

/-- The place of a shown column that an order term names, counted from zero. -/
def placeOf? (q : Query) (e : Expr) : Option Nat :=
  match e with
  | .literal (.int n) => if 0 < n ∧ n ≤ q.titles.length then some (n.toNat - 1) else none
  | .name n => q.titles.findIdx? fun title => Identifier.same title n.text
  | _ => none

end Query

def placesOrder (places : List (Nat × Direction)) (a b : List Cell) : Ordering :=
  places.foldr
    (fun (n, d) rest =>
      let o := Cell.order (a.getD n .null) (b.getD n .null)
      (match d with
        | .ascending => o
        | .descending => o.swap).then rest)
    .eq

/-- The rows of several selections put together, in the order that the last of them asks for. -/
def combinedRows (first : Query) (others : List (Combination × Query)) (limit : Option Int)
    (offset : Int) (t : Items) : List (List Cell) :=
  let plain (q : Query) : List (List Cell) := { q with order := [] }.cellRows none 0 t
  let rows := others.foldl (fun rows (k, q) => k.apply rows (plain q)) (plain first)
  let order := ((others.getLast?.map (·.2)).getD first).order
  let queries := first :: others.map (·.2)
  let places := order.filterMap fun (e, d) =>
    (queries.findSome? fun q => q.placeOf? e).map fun n => (n, d)
  limitRows limit ((rows.mergeSort fun a b => placesOrder places a b != .gt).drop offset.toNat)

/-! ## Nested selections -/

namespace Query

/-- The cells that a nested selection finds, one a row: that of the first shown column. -/
def found (q : Query) (t : Items) : List Cell :=
  match q.limit.mapM countOf, q.offset.mapM countOf with
  | .ok limit, .ok offset =>
    (q.cellRows limit (offset.getD 0) t).map fun cells => cells.head?.getD .null
  | _, _ => []

end Query

namespace Expr

/-- The expression whose nested selections with tables of their own have found their cells. -/
def settledWithin (t : Items) : Nat → Expr → Expr
  | 0, e => e
  | depth + 1, e =>
    let settled := settledWithin t depth
    let found (f : Frame) (parts : List Expr) : List Cell :=
      (Query.ofParts f (parts.map settled)).found t
    e.substitute fun
      | .nested asked f parts _ =>
        if f.isOpen then none else some (.nested asked f parts (found f parts))
      | .oneOf negated e (.selection f _) choices =>
        if f.isOpen then none
        else some (.oneOf negated (settled e) (.selection f (found f choices)) choices)
      | _ => none

/-- The expression whose nested selections have found their cells. -/
def settled (t : Items) (e : Expr) : Expr :=
  e.settledWithin t e.height

end Expr

/-- The selection whose nested selections have found their cells. -/
def Query.settled (t : Items) (q : Query) : Query :=
  let settle := Expr.settled t
  { q with
    shown := q.shown.map fun s => s.map fun s => { s with expr := settle s.expr }
    test := q.test.map settle
    group := q.group.map settle
    groupTest := q.groupTest.map settle
    order := q.order.map fun (e, d) => (settle e, d)
    limit := q.limit.map settle
    offset := q.offset.map settle }

/-- The command whose nested selections have found their cells. -/
def Command.settled (t : Items) (c : Command) : Command :=
  let settle := Expr.settled t
  match c with
  | .select q => .select (q.settled t)
  | .combine first others =>
    .combine (first.settled t) (others.map fun (k, q) => (k, q.settled t))
  | .extreme table f e title => .extreme table f (settle e) title
  | .insert table columns rows returning =>
    .insert table columns (rows.map fun values => values.map settle) (returning.map settle)
  | .update table entries test =>
    .update table (entries.map fun (n, e) => (n, settle e)) (test.map settle)
  | .delete table test => .delete table (test.map settle)

end RowAccess.Sql
