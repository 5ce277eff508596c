import RowAccess.Sql.Cell
import RowAccess.Sql.Relation

/-
  RowAccess/Sql/Expression.lean
  =============================
  **Expressions over a row.**  Values that travel beside a statement, written literals and names are
  put together by operators, tests and functions.  A test is an expression too: its value is a truth
  value written as an integer, or empty where the test is undecided.
-/

namespace RowAccess.Sql

/-- How texts are brought into order; the engine need not know the name. -/
inductive Collation where
  | binary
  | nocase
  | rtrim
  | other (name : String)
  deriving DecidableEq, Repr

/-- A name in an expression.  A name in double quotes that no column has may be a text. -/
structure Name where
  text : String
  mayBeText : Bool
  deriving DecidableEq, Repr

/-- Operators on numbers and texts. -/
inductive Calculation where
  | add
  | subtract
  | multiply
  | divide
  | modulo
  | bitAnd
  | bitOr
  | shiftLeft
  | shiftRight
  | concat
  deriving DecidableEq, Repr

/-- Kinds that a value is turned into. -/
inductive Cast where
  | text
  | integer
  | real
  | numeric
  | blob
  deriving DecidableEq, Repr

/-- A table, perhaps in a named schema. -/
structure Target where
  schema : Option String
  name : String
  deriving DecidableEq, Repr

/-- A table in a message. -/
def Target.shown (t : Target) : String :=
  match t.schema with
  | none => t.name
  | some s => s ++ "." ++ t.name

/-- A nested selection without its expressions: how many are shown (`none` shows every column), the
tables, whether there is a test, how many expressions make up its groups and whether groups are
tested, the directions of the order, and whether there are a limit and an offset.  The expressions
stand beside it in this order. -/
structure Frame where
  width : Option Nat
  tables : List Target
  isTested : Bool
  groupCount : Nat
  isGroupTested : Bool
  directions : List Direction
  isLimited : Bool
  isMoved : Bool
  deriving DecidableEq, Repr

/-- What is asked of a nested selection: its first cell, or whether it has rows. -/
inductive Asked where
  | first
  | presence
  deriving DecidableEq, Repr

/-- Where the choices of a membership come from: a list, rows with their numbers of columns, or a
nested selection that found some cells. -/
inductive Source where
  | list
  | rows (widths : List Nat)
  | selection (f : Frame) (found : List Cell)
  deriving DecidableEq, Repr

inductive Expr where
  | bound (c : Cell)
  | literal (c : Cell)
  | name (n : Name)
  | member (path : List String) (n : Name)
  | sign (negative : Bool) (e : Expr)
  | complement (e : Expr)
  | calculate (op : Calculation) (a b : Expr)
  | compare (r : Relation) (a b : Expr)
  | same (negated : Bool) (a b : Expr)
  | absent (negated : Bool) (e : Expr)
  | not (e : Expr)
  | both (a b : Expr)
  | either (a b : Expr)
  | like (negated : Bool) (e pattern : Expr)
  | between (negated : Bool) (e low high : Expr)
  | oneOf (negated : Bool) (e : Expr) (source : Source) (choices : List Expr)
  | call (function : String) (arguments : List Expr)
  | choose (test result rest : Expr)
  | cast (kind : Cast) (e : Expr)
  | collated (c : Collation) (e : Expr)
  | row (parts : List Expr)
  | nested (asked : Asked) (f : Frame) (parts : List Expr) (found : List Cell)
  deriving Repr, Inhabited

namespace Frame

/-- Do the expressions see the columns that stand around the selection? -/
def isOpen (f : Frame) : Bool :=
  f.tables.isEmpty

end Frame

namespace Source

/-- Do the choices come from a nested selection? -/
def isSelection : Source → Bool
  | .selection _ _ => true
  | _ => false

/-- Do the choices see the columns that stand around them? -/
def isOpen : Source → Bool
  | .selection f _ => f.isOpen
  | _ => true

end Source

namespace Expr

/-! ## Parts -/

def conjuncts : Expr → List Expr
  | .both a b => a.conjuncts ++ b.conjuncts
  | e => [e]

def disjuncts : Expr → List Expr
  | .either a b => a.disjuncts ++ b.disjuncts
  | e => [e]

mutual

/-- The number of levels of an expression. -/
def height : Expr → Nat
  | .bound _ | .literal _ | .name _ | .member _ _ => 1
  | .sign _ e | .complement e | .absent _ e | .not e | .cast _ e | .collated _ e => e.height + 1
  | .calculate _ a b | .compare _ a b | .same _ a b | .both a b | .either a b | .like _ a b =>
    max a.height b.height + 1
  | .between _ e low high => max e.height (max low.height high.height) + 1
  | .oneOf _ e _ choices => max e.height (heights choices) + 1
  | .call _ arguments => heights arguments + 1
  | .choose test result rest => max test.height (max result.height rest.height) + 1
  | .row parts | .nested _ _ parts _ => heights parts + 1

/-- The greatest number of levels in a list. -/
def heights : List Expr → Nat
  | [] => 0
  | e :: es => max e.height (heights es)

end

mutual

/-- The number of parts of an expression. -/
def size : Expr → Nat
  | .bound _ | .literal _ | .name _ | .member _ _ => 1
  | .sign _ e | .complement e | .absent _ e | .not e | .cast _ e | .collated _ e => e.size + 1
  | .calculate _ a b | .compare _ a b | .same _ a b | .both a b | .either a b | .like _ a b =>
    a.size + b.size + 1
  | .between _ e low high => e.size + low.size + high.size + 1
  | .oneOf _ e _ choices => e.size + sizes choices + 1
  | .call _ arguments => sizes arguments + 1
  | .choose test result rest => test.size + result.size + rest.size + 1
  | .row parts | .nested _ _ parts _ => sizes parts + 1

def sizes : List Expr → Nat
  | [] => 0
  | e :: es => e.size + sizes es

end

/-! ## Changes -/

mutual

/-- The expression with some parts put in place of others: where `f` gives a part, it stands in place
of the whole.  What has columns of its own is left alone. -/
def substitute (f : Expr → Option Expr) (e : Expr) : Expr :=
  match f e with
  | some changed => changed
  | none =>
    match e with
    | .bound c => .bound c
    | .literal c => .literal c
    | .name n => .name n
    | .member path n => .member path n
    | .sign negative e => .sign negative (e.substitute f)
    | .complement e => .complement (e.substitute f)
    | .calculate op a b => .calculate op (a.substitute f) (b.substitute f)
    | .compare r a b => .compare r (a.substitute f) (b.substitute f)
    | .same negated a b => .same negated (a.substitute f) (b.substitute f)
    | .absent negated e => .absent negated (e.substitute f)
    | .not e => .not (e.substitute f)
    | .both a b => .both (a.substitute f) (b.substitute f)
    | .either a b => .either (a.substitute f) (b.substitute f)
    | .like negated e pattern => .like negated (e.substitute f) (pattern.substitute f)
    | .between negated e low high =>
      .between negated (e.substitute f) (low.substitute f) (high.substitute f)
    | .oneOf negated e source choices =>
      .oneOf negated (e.substitute f) source
        (if source.isOpen then substituteAll f choices else choices)
    | .call function arguments => .call function (substituteAll f arguments)
    | .choose test result rest =>
      .choose (test.substitute f) (result.substitute f) (rest.substitute f)
    | .cast kind e => .cast kind (e.substitute f)
    | .collated c e => .collated c (e.substitute f)
    | .row parts => .row (substituteAll f parts)
    | .nested asked frame parts found =>
      .nested asked frame (if frame.isOpen then substituteAll f parts else parts) found

/-- The expressions of a list with some parts put in place of others. -/
def substituteAll (f : Expr → Option Expr) : List Expr → List Expr
  | [] => []
  | e :: es => e.substitute f :: substituteAll f es

end

/-! ## Collations -/

mutual

def collation? : Expr → Option Collation
  | .bound _ | .literal _ | .name _ | .member _ _ | .row _ | .nested .. => none
  | .collated c _ => some c
  | .sign _ e | .complement e | .absent _ e | .not e | .cast _ e => e.collation?
  | .calculate _ a b | .compare _ a b | .same _ a b | .both a b | .either a b | .like _ a b =>
    a.collation? <|> b.collation?
  | .between _ e low high => e.collation? <|> low.collation? <|> high.collation?
  | .oneOf _ e source choices =>
    e.collation? <|> if source.isSelection then none else collations? choices
  | .call _ arguments => collations? arguments
  | .choose test result rest => test.collation? <|> result.collation? <|> rest.collation?

/-- The first collation that an expression of a list asks for. -/
def collations? : List Expr → Option Collation
  | [] => none
  | e :: es => e.collation? <|> collations? es

end

end Expr

namespace Collation

/-- What is compared in place of a text. -/
def key : Collation → String → String
  | .binary, s => s
  | .other _, s => s
  | .nocase, s => String.ofList (s.toList.map Char.toLower)
  | .rtrim, s => String.ofList ((s.toList.reverse.dropWhile (· == ' ')).reverse)

/-- What is compared in place of a cell. -/
def keyCell (c : Collation) : Cell → Cell
  | .text s => .text (c.key s)
  | v => v

@[simp] theorem keyCell_binary (v : Cell) : binary.keyCell v = v := by
  cases v <;> rfl

def ofName (name : String) : Collation :=
  let small := String.ofList (name.toList.map Char.toLower)
  if small == "binary" then .binary
  else if small == "nocase" then .nocase
  else if small == "rtrim" then .rtrim
  else .other name

def unknownName? : Collation → Option String
  | .other name => some name
  | _ => none

/-- The collation that two sides agree on: what the left asks for, else what the right does. -/
def between (a b : Expr) : Collation :=
  (a.collation? <|> b.collation?).getD .binary

end Collation

end RowAccess.Sql
