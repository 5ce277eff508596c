import RowAccess.Sql.Refusal

/-
  RowAccess/Sql/Resolve.lean
  ==========================
  **Names and functions have to mean something.**  An expression is walked from the left.  A name
  without a meaning ends the walk.  A function that is unknown, or has the wrong number of arguments,
  is remembered: the walk goes on to names and functions beside it, whose flaws come in its place,
  and ends at anything else.
-/

namespace RowAccess.Sql

/-- A walk goes on with what is remembered, or ends. -/
abbrev Walk := Except Refusal (Option Refusal)

/-- The flaw of a call; aggregates have a place only where rows are gathered. -/
def callFlaw? (gathering : Bool) (function : String) (count : Nat) : Option Refusal :=
  match Callee.of function count with
  | .function => none
  | .aggregate => if gathering then none else some (.misused function)
  | .miscounted => some (.argumentCount function)
  | .unknown => some (.noFunction function)

def checkTable (t : Target) : Except Refusal Unit :=
  if t.isItems then .ok () else .error (.noTable t.shown)

/-- The tables of a nested selection have to exist, and every column is only there to be shown where
there is a table. -/
def checkFrame (f : Frame) : Except Refusal Unit := do
  if f.width.isNone && f.tables.isEmpty then throw .tableless
  f.tables.forM checkTable

namespace Frame

/-- The number of columns that a nested selection shows. -/
def columnCount (f : Frame) : Nat :=
  f.width.getD (ItemColumn.all.length * f.tables.length)

/-- The number of expressions in which aggregates have a place. -/
def gatheringCount (f : Frame) : Nat :=
  if f.isOpen then 0 else f.width.getD 0

/-- The flaw of a nested selection that does not show one column. -/
def widthFlaw? (f : Frame) : Option Refusal :=
  if f.columnCount = 1 then none else some (.width f.columnCount)

end Frame

namespace Expr

def atRest (remembered : Option Refusal) : Walk :=
  match remembered with
  | none => .ok none
  | some r => .error r

def valueCount : Expr → Nat
  | .row parts => parts.length
  | .nested .first f _ _ => f.columnCount
  | _ => 1

/-- What is compared stands for equally many values. -/
def checkRows (a b : Expr) : Except Refusal Unit :=
  if a.valueCount ≠ b.valueCount then .error .misusedRow else .ok ()

mutual

/-- Walks an expression; `gathering` says that aggregates have a place in it. -/
def walk (gathering : Bool) (remembered : Option Refusal) : Expr → Walk
  | .bound _ | .literal _ => atRest remembered
  | .name n => if n.meaning?.isSome then .ok remembered else .error (.noColumn n.text)
  | .member path n =>
    if (memberOf? path n).isSome then .ok remembered
    else .error (.noColumn (".".intercalate ((path ++ [n.text]).filter fun s => !s.isEmpty)))
  | .sign _ e | .complement e | .absent _ e | .not e | .cast _ e | .collated _ e => do
    e.walk gathering (← atRest remembered)
  | .compare _ a b | .same _ a b => do
    let remembered ← atRest remembered
    checkRows a b
    b.walk gathering (← a.walk gathering remembered)
  | .calculate _ a b | .both a b | .either a b => do
    b.walk gathering (← a.walk gathering (← atRest remembered))
  | .like negated e pattern => do
    let remembered ← if negated then atRest remembered else pure remembered
    e.walk gathering (← pattern.walk gathering remembered)
  | .between _ e low high => do
    let remembered ← atRest remembered
    checkRows e low
    checkRows e high
    high.walk gathering (← low.walk gathering (← e.walk gathering remembered))
  | .oneOf _ e source choices => do
    let remembered ← atRest remembered
    match source with
    | .selection f _ => do
      checkFrame f
      e.walk gathering (← walkShown f.gatheringCount remembered choices)
    | _ => do walkAll gathering (← e.walk gathering remembered) choices
  | .call function arguments =>
    walkAll gathering (callFlaw? gathering function arguments.length <|> remembered) arguments
  | .choose test result rest => do
    rest.walk gathering
      (← result.walk gathering (← test.walk gathering (← atRest remembered)))
  | .row parts => do walkAll gathering (← atRest remembered) parts
  | .nested _ f parts _ => do
    let remembered ← atRest remembered
    checkFrame f
    walkShown f.gatheringCount remembered parts

def walkAll (gathering : Bool) (remembered : Option Refusal) : List Expr → Walk
  | [] => .ok remembered
  | e :: es => do walkAll gathering (← e.walk gathering remembered) es

/-- Walks the expressions of a nested selection; aggregates have a place in the first `count`. -/
def walkShown (count : Nat) (remembered : Option Refusal) : List Expr → Walk
  | [] => .ok remembered
  | e :: es => do
    walkShown (count - 1) (← e.walk (decide (0 < count)) remembered) es

end

/-- Every name and every function of an expression has to mean something; `gathering` says that
aggregates have a place in it. -/
def checkIn (gathering : Bool) (e : Expr) : Except Refusal Unit :=
  match e.walk gathering none with
  | .ok none => .ok ()
  | .ok (some r) => .error r
  | .error r => .error r

/-- Every name and every function of an expression has to mean something. -/
def check (e : Expr) : Except Refusal Unit :=
  e.checkIn false

def collationFlaw? (a b : Expr) : Option Refusal :=
  (Collation.between a b).unknownName?.map .noCollation

/-- The flaw of the choices of a membership. -/
def sourceFlaw? : Source → Option Refusal
  | .list => none
  | .rows widths => if widths.headD 1 = 1 then none else some (.width (widths.headD 1))
  | .selection f _ => f.widthFlaw?

mutual

/-- The flaw of an expression all of whose names have a meaning: a row where a value has to be, a
nested selection of several columns, or a comparison by an unknown collation. -/
def flaw? : Expr → Option Refusal
  | .bound _ | .literal _ | .name _ | .member _ _ => none
  | .sign _ e | .complement e | .absent _ e | .not e | .cast _ e | .collated _ e => e.flaw?
  | .compare _ a b | .same _ a b => a.flaw? <|> b.flaw? <|> collationFlaw? a b
  | .calculate _ a b | .both a b | .either a b | .like _ a b => a.flaw? <|> b.flaw?
  | .between _ e low high =>
    e.flaw? <|> low.flaw? <|> high.flaw? <|> collationFlaw? e low <|> collationFlaw? e high
  | .oneOf _ e source choices =>
    sourceFlaw? source <|> e.flaw? <|> flaws? choices <|>
      (e.collation?.bind Collation.unknownName?).map .noCollation
  | .call _ arguments => flaws? arguments
  | .choose test result rest => test.flaw? <|> result.flaw? <|> rest.flaw?
  | .row _ => some .misusedRow
  | .nested asked f parts _ =>
    (if asked = .first then f.widthFlaw? else none) <|> flaws? parts

def flaws? : List Expr → Option Refusal
  | [] => none
  | e :: es => e.flaw? <|> flaws? es

end

end Expr

end RowAccess.Sql
