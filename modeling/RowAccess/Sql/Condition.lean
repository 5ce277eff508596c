import RowAccess.Fault
import RowAccess.Sql.Draft
import RowAccess.Sql.Identifier
import RowAccess.Sql.Meaning
import RowAccess.Operation.Basic

/-
  RowAccess/Sql/Condition.lean
  ============================
  **Conditions of a statement.**  A predicate tests one column.  The condition of a read grows with
  the steps of its chain: a starter opens it, negated where its kind says so, and every extension
  joins one more predicate to all that stands before.  In the text a conjunction binds more tightly
  than a disjunction, so that parentheses stand only around a disjunction inside a conjunction.
-/

namespace RowAccess.Sql

/-- What a look-up looks in: values bound together and prepared for one kind, or operands of their
own. -/
inductive Choices where
  | together (preparation : Preparation) (values : List Value)
  | apart (operands : List Operand)
  deriving Repr

/-- A test of one column. -/
inductive Predicate where
  | compare (column : String) (relation : Relation) (operand : Operand)
  | absent (negated : Bool) (column : String)
  | like (negated : Bool) (column : String) (pattern : Operand)
  | oneOf (negated : Bool) (column : String) (choices : Choices)
  | between (negated : Bool) (column : String) (low high : Operand)
  deriving Repr

/-- Why an operation has no statement. -/
inductive Unbuildable where
  | onlyEquality
  | nameless
  | unbound (name : String)
  | conflict (name : String)
  | unconsumed (name : String)
  | ambiguous
  | shape (fault : Fault)

/-- The wording for an operator that cannot be used with null and truth values. -/
def onlyEqualityText : String :=
  "Only '=', '!=', 'is_()', 'is_not()', 'is_distinct_from()', 'is_not_distinct_from()' " ++
    "operators can be used with None/True/False"

def Operand.piece (l : Label) : Operand → Piece
  | .bound p v => .single l p v
  | .verbatim s => .words s
  | .truth b => .words (if b then "1" else "0")

def listPieces (l : Label) : List Operand → Draft
  | [] => []
  | [o] => [o.piece l]
  | o :: os => o.piece l :: .words ", " :: listPieces l os

namespace Choices

def exprs : Choices → List Expr
  | .together p vs => vs.map fun v => .bound (Operand.sentCell p v)
  | .apart os => os.map Operand.expr

def pieces (column : String) : Choices → Draft
  | .together p vs => [.spread (.ofColumn column) p vs]
  | .apart os => listPieces (.ofColumn column) os

/-- Do the choices make up a plain list of values? -/
def isDirect : Choices → Bool
  | .together _ vs => !Piece.isRows vs
  | .apart os => os.all fun o => match o with
    | .verbatim _ => false
    | _ => true

end Choices

namespace Predicate

def column : Predicate → String
  | .compare c _ _ | .absent _ c | .like _ c _ | .oneOf _ c _ | .between _ c _ _ => c

def negate : Predicate → Predicate
  | .compare c r o => .compare c r.negate o
  | .absent n c => .absent (!n) c
  | .like n c o => .like (!n) c o
  | .oneOf n c os => .oneOf (!n) c os
  | .between n c low high => .between (!n) c low high

/-! ### From clauses -/

/-- A column has to have a name, or none at all, where a value is bound beside it. -/
def checkNamed (column : Value) (operands : List Operand) : Except Unbuildable Unit :=
  if operands.any Operand.isBound && !column.isText && !column.isNull then
    .error (.shape .wrongShape)
  else .ok ()

/-- The text of a column, empty where it is none. -/
def nameOf (column : Value) : String :=
  column.text?.getD ""

/-- A comparison with a value: nothing is compared with null but absence, and no order with null or
a truth value. -/
def ofComparison (c : Comparison) : Except Unbuildable Predicate :=
  match c.comparator, c.value with
  | .eq, .null => .ok (.absent false (nameOf c.column))
  | .eq, .bool b => .ok (.compare (nameOf c.column) .eq (.truth b))
  | _, .null => .error .onlyEquality
  | _, .bool _ => .error .onlyEquality
  | comparator, v => do
    checkNamed c.column [.ofValue v]
    return .compare (nameOf c.column) (.of comparator) (.ofValue v)

/-- A match against a pattern. -/
def ofLike (l : Like) : Except Unbuildable Predicate :=
  match l.pattern with
  | .null => .error .onlyEquality
  | .bool _ => .error .onlyEquality
  | v => do
    checkNamed l.column [.bound (.of v) v]
    return .like false (nameOf l.column) (.bound (.of v) v)

/-- Is the value an expression that stands in the statement? -/
def isVerbatim : Value → Bool
  | .dateLiteral l => l.raw
  | _ => false

/-- The text of a date literal that is bound, any other value itself. -/
def bindable : Value → Value
  | .dateLiteral l => if l.raw then .dateLiteral l else .text l.text
  | v => v

/-- A look-up in a list.  The values are bound for the kind of the first one; with an expression
among them each is an operand of its own. -/
def ofMembership (m : Membership) : Except Unbuildable Predicate :=
  let values := m.values.map bindable
  if values.any isVerbatim then do
    if !values.all Value.isKey then throw (.shape .wrongShape)
    checkNamed m.column (values.map .ofValue)
    return .oneOf false (nameOf m.column) (.apart (values.map .ofValue))
  else do
    let p := Preparation.of (bindable m.first)
    checkNamed m.column [.bound p m.first]
    return .oneOf false (nameOf m.column) (.together p values)

def ofRange (r : Range) : Except Unbuildable Predicate := do
  checkNamed r.column [.ofValue r.low, .ofValue r.high]
  return .between false (nameOf r.column) (.ofValue r.low) (.ofValue r.high)

def ofClause : Clause → Except Unbuildable Predicate
  | .comparison c => ofComparison c
  | .like l => ofLike l
  | .membership m => ofMembership m
  | .range r => ofRange r

/-! ### In the statement -/

/-- The word that turns an operator into its opposite. -/
def notText (negated : Bool) : String :=
  if negated then "NOT " else ""

def pieces : Predicate → Draft
  | .compare c r o => [.words (Identifier.text c ++ " " ++ r.symbol ++ " "), o.piece (.ofColumn c)]
  | .absent n c => [.words (Identifier.text c ++ " IS " ++ notText n ++ "NULL")]
  | .like n c o =>
    [.words (Identifier.text c ++ " " ++ notText n ++ "LIKE "), o.piece (.ofColumn c)]
  | .oneOf n c choices =>
    .words ((if n then "(" else "") ++ Identifier.text c ++ " " ++ notText n ++ "IN (") ::
      choices.pieces c ++ [.words (if n then "))" else ")")]
  | .between n c low high =>
    [.words (Identifier.text c ++ " " ++ notText n ++ "BETWEEN "), low.piece (.ofColumn c),
      .words " AND ", high.piece (.ofColumn c)]

def text (p : Predicate) : String :=
  Draft.text p.pieces

/-! ### In the engine -/

/-- The name of a column as the engine reads it. -/
def columnExpr (column : String) : Expr :=
  .name ⟨Identifier.found column, !Identifier.isPlain column⟩

def expr : Predicate → Expr
  | .compare c r o => .compare r (columnExpr c) o.expr
  | .absent n c => .absent n (columnExpr c)
  | .like n c o => .like n (columnExpr c) o.expr
  | .oneOf n c choices => .oneOf n (columnExpr c) .list choices.exprs
  | .between n c low high => .between n (columnExpr c) low.expr high.expr

def truth (i : Item) (p : Predicate) : Truth :=
  p.expr.truth i

/-- Has the predicate no part that is read as a text? -/
def isDirect : Predicate → Bool
  | .compare _ _ o | .like _ _ o => Choices.isDirect (.apart [o])
  | .absent _ _ => true
  | .oneOf _ _ choices => choices.isDirect
  | .between _ _ low high => Choices.isDirect (.apart [low, high])

@[simp] theorem negate_negate (p : Predicate) : p.negate.negate = p := by
  cases p <;> simp [negate]

@[simp] theorem column_negate (p : Predicate) : p.negate.column = p.column := by
  cases p <;> rfl

/-- A negated predicate is true where the predicate is false, and unknown where it is unknown. -/
theorem truth_negate (i : Item) (p : Predicate) : p.negate.truth i = (p.truth i).not := by
  cases p with
  | compare c r o =>
    simp only [truth, negate, expr, Expr.truth, Expr.cell, Truth.truth_cell, Expr.comparison]
    exact compareTruth_negate ..
  | absent b c => cases b <;> simp [truth, negate, expr, Expr.truth, Expr.cell, negatedIf]
  | like b c o => cases b <;> simp [truth, negate, expr, Expr.truth, Expr.cell, negatedIf]
  | oneOf b c os => cases b <;> simp [truth, negate, expr, Expr.truth, Expr.cell, negatedIf]
  | between b c low high => cases b <;> simp [truth, negate, expr, Expr.truth, Expr.cell, negatedIf]

end Predicate

inductive Word where
  | test (p : Predicate)
  | and
  | or
  | opening
  | closing
  deriving Repr

namespace Word

def pieces : Word → Draft
  | .test p => p.pieces
  | .and => [.words " AND "]
  | .or => [.words " OR "]
  | .opening => [.words "("]
  | .closing => [.words ")"]

def text (w : Word) : String :=
  Draft.text w.pieces

end Word

inductive Condition where
  | atom (p : Predicate)
  | both (c d : Condition)
  | either (c d : Condition)
  deriving Repr

namespace Condition

def predicates : Condition → List Predicate
  | .atom p => [p]
  | .both c d | .either c d => c.predicates ++ d.predicates

/-- Does a disjunction stand outermost? -/
def isEither : Condition → Bool
  | .either _ _ => true
  | _ => false

/-- The words of a condition.  Inside a conjunction a disjunction stands in parentheses. -/
def words : Condition → List Word
  | .atom p => [.test p]
  | .both c d =>
    (if c.isEither then .opening :: c.words ++ [.closing] else c.words) ++ .and ::
      (if d.isEither then .opening :: d.words ++ [.closing] else d.words)
  | .either c d => c.words ++ .or :: d.words

def pieces (c : Condition) : Draft :=
  c.words.flatMap Word.pieces

def text (c : Condition) : String :=
  Draft.text c.pieces

def expr : Condition → Expr
  | .atom p => p.expr
  | .both c d => .both c.expr d.expr
  | .either c d => .either c.expr d.expr

def truthBy (atom : Predicate → Truth) : Condition → Truth
  | .atom p => atom p
  | .both c d => (c.truthBy atom).and (d.truthBy atom)
  | .either c d => (c.truthBy atom).or (d.truthBy atom)

def truth (i : Item) (c : Condition) : Truth :=
  c.truthBy (Predicate.truth i)

theorem truth_expr (i : Item) (c : Condition) : c.expr.truth i = c.truth i := by
  induction c with
  | atom p => rfl
  | both c d ihc ihd => simp [expr, truth, truthBy, ihc, ihd]
  | either c d ihc ihd => simp [expr, truth, truthBy, ihc, ihd]

/-- Joins a predicate to what stands before it, if anything does. -/
def join (combine : Condition → Condition → Condition) (before : Option Condition)
    (p : Predicate) : Condition :=
  match before with
  | none => .atom p
  | some c => combine c (.atom p)

def afterStep (before : Option Condition) : Step → Except Unbuildable (Option Condition)
  | .starter s => do
    let p ← Predicate.ofClause s.clause
    return some (.atom (if s.kind.isNegated then p.negate else p))
  | .andWhere c => do
    return some (join .both before (← Predicate.ofClause c))
  | .orWhere c | .orWhereIn c => do
    return some (join .either before (← Predicate.ofClause c))
  | _ => return before

/-- The condition of a chain, none where no step gives one. -/
def ofSteps (steps : List Step) : Except Unbuildable (Option Condition) :=
  steps.foldlM afterStep none

end Condition

end RowAccess.Sql
