import RowAccess.Sql.Result

/-
  RowAccess/Sql/Engine.lean
  =========================
  **Running commands on the table of items.**  A command is first checked: its expressions may not be
  too deep, its table has to exist and all names and functions in it have to mean something.  Then
  its parameters are sent, one after the other.  Only then does it touch the rows; a command that
  fails leaves them as they were.
-/

namespace RowAccess.Sql

inductive Answer where
  | rows (titles : List String) (rows : List (List Cell))
  | affected (count : Nat)
  | inserted (id : Int) (returned : Option Cell)
  deriving Repr

/-! ## Checks -/

/-- The column of a name that has to be one, quoted or not. -/
def storedColumn (name : String) (otherwise : Refusal) : Except Refusal ItemColumn :=
  match ItemColumn.find? name with
  | some c => .ok c
  | none => .error otherwise

/-- The greatest number of levels of an expression. -/
def heightLimit : Nat := 1000

/-- No expression may be too deep. -/
def checkHeights (c : Command) : Except Refusal Unit :=
  if c.exprs.any fun e => heightLimit < e.height then .error .tooDeep else .ok ()

/-- Names and functions of a selection have to mean something. -/
def Query.checkExprs (q : Query) : Except Refusal Unit := do
  (q.limit.toList ++ q.offset.toList).forM fun e => e.detached.check
  q.shownExprs.forM (Expr.checkIn true)
  if q.groupTest.isSome && !q.isGrouped then throw .lonelyGroupTest
  q.groupTest.toList.forM (Expr.checkIn q.isGrouped)
  q.test.toList.forM Expr.check
  (q.order.map (·.1)).forM (Expr.checkIn q.isGrouped)
  q.group.forM Expr.check

/-- An order term that is a number has to be the place of a column, and its collation has to be
known. -/
def Query.checkTerms (q : Query) : Except Refusal Unit :=
  q.order.zipIdx.forM fun ((e, _), n) =>
    match e, e.collation?.bind Collation.unknownName? with
    | _, some name => .error (.noCollation name)
    | .literal (.int _), none =>
      if (q.placeOf? e).isSome then .ok () else .error (.placeRange (n + 1) q.titles.length)
    | _, none => .ok ()

def Query.check (q : Query) : Except Refusal Unit := do
  q.tables.forM checkTable
  q.checkExprs
  q.checkTerms

/-- An order term of several selections has to be one of their columns. -/
def checkTerms (queries : List Query) (order : List (Expr × Direction)) : Except Refusal Unit :=
  order.zipIdx.forM fun ((e, _), n) =>
    if queries.any fun q => (q.placeOf? e).isSome then .ok () else .error (.unmatchedTerm (n + 1))

/-- Two selections that are put together show equally many columns. -/
def checkWidths (first : Query) : List (Combination × Query) → Except Refusal Unit
  | [] => .ok ()
  | (k, q) :: others => do
    checkWidths q others
    { q with order := [] }.checkExprs
    if first.titles.length ≠ q.titles.length then throw (.unequalWidths k)

/-- Checks of several selections, the last of them first. -/
def checkCombined (first : Query) (others : List (Combination × Query)) : Except Refusal Unit := do
  let queries := first :: others.map (·.2)
  queries.reverse.forM fun q => q.tables.forM checkTable
  checkWidths first others
  first.checkExprs
  checkTerms queries ((queries.getLast?.map Query.order).getD [])

/-- A changed column has to exist, and what it is set to has to mean something. -/
def checkEntry (entry : String × Expr) : Except Refusal Unit := do
  entry.2.check
  let _ ← storedColumn entry.1 (.noColumn entry.1)

/-- The number of values has to be the number of columns. -/
def checkCount (columns : List String) (rows : List (List Expr)) : Except Refusal Unit :=
  match rows with
  | [] => .ok ()
  | values :: _ =>
    if columns.length = values.length then .ok ()
    else .error (.valueCount values.length columns.length)

/-- Tables, names and functions of a command have to mean something. -/
def Command.checkNames (c : Command) : Except Refusal Unit := do
  match c with
  | .select q => q.check
  | .combine first others => checkCombined first others
  | .extreme t _ e _ => do
    checkTable t
    e.check
  | .insert t columns rows returning => do
    checkTable t
    columns.forM fun c => do
      let _ ← storedColumn c (.lacksColumn t.shown c)
    rows.flatten.forM fun e => e.detached.check
    checkCount columns rows
    returning.toList.forM Expr.check
  | .update t entries test => do
    checkTable t
    entries.forM checkEntry
    test.toList.forM Expr.check
  | .delete t test => do
    checkTable t
    test.toList.forM Expr.check

def Command.check (c : Command) : Except Refusal Unit := do
  checkHeights c
  c.checkNames
  match c.exprs.findSome? Expr.flaw? with
  | some r => throw r
  | none => return ()

/-- Sends parameters; `position` is the number of the first one. -/
def sendFrom (position : Nat) : List Value → Except Refusal Unit
  | [] => .ok ()
  | v :: rest =>
    match Cell.ofValue v with
    | .ok _ => sendFrom (position + 1) rest
    | .error .tooLarge => .error .tooLarge
    | .error (.kind name) => .error (.unsupported position name)

/-- Sends the parameters of a command. -/
def send (values : List Value) : Except Refusal Unit :=
  sendFrom 1 values

/-! ## Selections -/

/-- Is no row asked for, so that none is looked at? -/
def Query.isCutOff (q : Query) : Bool :=
  q.limit.any fun e => (countOf e).toOption == some 0

def Query.answer (q : Query) (t : Items) : Except Refusal Answer := do
  let limit ← q.limit.mapM countOf
  let offset ← q.offset.mapM countOf
  return .rows q.titles (q.cellRows limit (offset.getD 0) t)

/-- The answer to several selections put together. -/
def combinedAnswer (first : Query) (others : List (Combination × Query)) (t : Items) :
    Except Refusal Answer := do
  let last := (others.getLast?.map (·.2)).getD first
  let limit ← last.limit.mapM countOf
  let offset ← last.offset.mapM countOf
  return .rows first.titles (combinedRows first others limit (offset.getD 0) t)

/-! ## Changes -/

/-- The cells of entries under their columns, worked out for a row. -/
def entryCells (entries : List (String × Expr)) (i : Item) : List (ItemColumn × Cell) :=
  entries.filterMap fun (name, e) => (ItemColumn.find? name).map fun c => (c, e.cell i)

/-- The row after an update: of two entries of one column the later one counts. -/
def updatedRow (entries : List (String × Expr)) (i : Item) : Option Item :=
  i.putAll? (Keyed.ofEntries (entryCells entries i))

/-- Changes one row; its id may become another one that is free. -/
def updateRow (entries : List (String × Expr)) (t : Items) (i : Item) : Except Refusal Items :=
  match updatedRow entries i with
  | none => .error .noId
  | some changed =>
    match (t.keep fun j => j.id != i.id).insert? changed with
    | none => .error .takenId
    | some u => .ok u

/-- Changes the rows that pass a test, one after the other. -/
def updateRows (entries : List (String × Expr)) (p : Item → Bool) (t : Items) :
    Except Refusal Items :=
  (t.rows.filter p).foldlM (updateRow entries) t

/-- The id that the cells of a new row ask for: of several the last.  An empty cell asks for none. -/
def askedId (cells : List (ItemColumn × Cell)) : Except Refusal (Option Int) :=
  match cells.reverse.find? fun e => e.1 == .id with
  | none => .ok none
  | some (_, .null) => .ok none
  | some (_, c) =>
    match Affinity.number.apply c with
    | .int n => .ok (some n)
    | _ => .error .noId

/-- The new row of an id: of two cells for one column the earlier one counts. -/
def newRow (cells : List (ItemColumn × Cell)) (id : Int) : Option Item :=
  (Item.blank id).putAll? ((cells.filter fun e => e.1 != .id).reverse)

def insertRow (cells : List (ItemColumn × Cell)) (t : Items) : Except Refusal (Items × Item) := do
  let id := (← askedId cells).getD t.nextId
  match newRow cells id with
  | none => .error .noId
  | some item =>
    match t.insert? item with
    | none => .error .takenId
    | some changed => .ok (changed, item)

/-- The table of rows given by their cells in the order of the columns. -/
def itemsOf (rows : List (List Cell)) : Except Refusal Items :=
  rows.foldlM (fun t cells => do return (← insertRow (ItemColumn.all.zip cells) t).1) Items.empty

/-- The cells of a new row, whose expressions see no columns. -/
def newCells (columns : List String) (values : List Expr) : List (ItemColumn × Cell) :=
  entryCells (columns.zip (values.map Expr.detached)) (.blank 0)

/-- Adds rows, one after the other; the last of them is told, or a row without cells. -/
def insertRows (columns : List String) (rows : List (List Expr)) (t : Items) :
    Except Refusal (Items × Item) :=
  match rows with
  | [] => insertRow [] t
  | values :: others => do
    let first ← insertRow (newCells columns values) t
    others.foldlM (fun (t, _) values => insertRow (newCells columns values) t) first

/-! ## Commands -/

/-- Why an expression of a command has no value for one of the rows. -/
def Command.fault? (c : Command) (t : Items) : Option Unevaluated :=
  let firstFault (rows : List Item) (es : List Expr) : Option Unevaluated :=
    rows.findSome? fun i => es.findSome? fun e => e.fault? i
  match c with
  | .select q => if q.isCutOff then none else firstFault t.rows q.parts
  | .combine _ _ => firstFault t.rows c.exprs
  | .extreme _ _ e _ => firstFault t.rows [e]
  | .insert _ _ rows _ => firstFault [.blank 0] (rows.flatten.map Expr.detached)
  | .update _ entries test =>
    firstFault t.rows test.toList <|> firstFault (t.rows.filter (passes test)) (entries.map (·.2))
  | .delete _ test => firstFault t.rows test.toList

/-- What a checked command with sent parameters does. -/
def Command.perform (t : Items) : Command → Except Refusal (Items × Answer)
  | .select q => do return (t, ← q.answer t)
  | .combine first others => do return (t, ← combinedAnswer first others t)
  | .extreme _ f e title =>
    .ok (t, .rows [title] [[extremeOf f (t.rows.map fun i => e.cell i)]])
  | .insert _ columns rows returning => do
    let (changed, item) ← insertRows columns rows t
    return (changed, .inserted item.id (returning.map fun e => e.cell item))
  | .update _ entries test => do
    let changed ← updateRows entries (passes test) t
    return (changed, .affected (t.rows.filter (passes test)).length)
  | .delete _ test =>
    .ok (t.keep fun i => !passes test i, .affected (t.rows.filter (passes test)).length)

/-- Runs a checked command beside which the values travel. -/
def Command.runChecked (c : Command) (values : List Value) (t : Items) :
    Except Refusal (Items × Answer) := do
  send values
  let settled := c.settled t
  match settled.fault? t with
  | some u => throw (.unevaluated u)
  | none => settled.perform t

/-- Runs a command beside which the values travel. -/
def Command.run (c : Command) (values : List Value) (t : Items) :
    Except Refusal (Items × Answer) := do
  c.check
  c.runChecked values t

end RowAccess.Sql
