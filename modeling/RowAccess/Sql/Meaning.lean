import RowAccess.Sql.Function
import RowAccess.Sql.Item

/-
  RowAccess/Sql/Meaning.lean
  ==========================
  **What expressions mean for a row.**  A name in double quotes that is no column is a text.
  Comparisons follow the affinities of their sides and are undecided where a side is empty;
  membership is a disjunction of equalities and a range a conjunction of two bounds.
-/

namespace RowAccess.Sql

/-! ## Names -/

/-- What a name in an expression stands for. -/
inductive Named where
  | column (c : ItemColumn)
  | text (s : String)
  | truth (b : Bool)
  deriving DecidableEq, Repr

namespace Named

/-- The cell of a name in a row. -/
def cell (n : Named) (i : Item) : Cell :=
  match n with
  | .column c => i.cell c
  | .text s => .text s
  | .truth b => .int (Value.ofBool b)

def affinity? : Named → Option Affinity
  | .column c => some c.affinity
  | _ => none

end Named

namespace Name

/-- What a name stands for: a column, else its own text if it may be one, else a truth value. -/
def meaning? (n : Name) : Option Named :=
  match ItemColumn.find? n.text with
  | some c => some (.column c)
  | none =>
    if n.mayBeText then some (.text n.text)
    else if Identifier.same n.text "true" then some (.truth true)
    else if Identifier.same n.text "false" then some (.truth false)
    else none

/-- The cell of a name in a row, empty where the name means nothing. -/
def cell (n : Name) (i : Item) : Cell :=
  (n.meaning?.map fun m => m.cell i).getD .null

end Name

/-- The name of the only table. -/
def itemsTitle : String := "ITEMS"

def mainSchema : String := "main"

def Target.isItems (t : Target) : Bool :=
  Identifier.same t.name itemsTitle &&
    match t.schema with
    | none => true
    | some s => Identifier.same s mainSchema

/-- Do the names before the name of a column lead to the table of items? -/
def isItemsPath : List String → Bool
  | [table] => Identifier.same table itemsTitle
  | [schema, table] => Identifier.same schema mainSchema && Identifier.same table itemsTitle
  | _ => false

/-- What a name behind other names stands for. -/
def memberOf? (path : List String) (n : Name) : Option ItemColumn :=
  if isItemsPath path then ItemColumn.find? n.text else none

namespace Expr

/-- The expression where no columns are in sight: a name can only be a text or a truth value. -/
def detached (e : Expr) : Expr :=
  e.substitute fun
    | .name n =>
      some
        (if n.mayBeText then .literal (.text n.text)
        else if Identifier.same n.text "true" then .literal (.int 1)
        else if Identifier.same n.text "false" then .literal (.int 0)
        else .member [] n)
    | .member path n => some (.member ("" :: path) n)
    | _ => none

end Expr

/-! ## Affinities -/

namespace Expr

mutual

def affinity? : Expr → Option Affinity
  | .name n => n.meaning?.bind Named.affinity?
  | .member path n => (memberOf? path n).map ItemColumn.affinity
  | .cast kind _ => some kind.affinity
  | .collated _ e => e.affinity?
  | .nested .first f parts _ => if f.width.isSome then firstAffinity? parts else none
  | _ => none

def firstAffinity? : List Expr → Option Affinity
  | [] => none
  | e :: _ => e.affinity?

end

end Expr

/-- The affinity that the two sides of a comparison follow. -/
def Affinity.shared : Option Affinity → Option Affinity → Affinity
  | some a, some b => if a = .number ∨ b = .number then .number else .free
  | some a, none => a
  | none, some b => b
  | none, none => .free

/-! ## Truth -/

def compareTruth (a : Affinity) (c : Collation) (r : Relation) (left right : Cell) : Truth :=
  match a.compare? (c.keyCell left) (c.keyCell right) with
  | none => .unknown
  | some o => .ofBool (r.holds o)

def negatedIf (negated : Bool) (t : Truth) : Truth :=
  if negated then t.not else t

/-- Are two cells the same, two empty ones included? -/
def sameTruth (a : Affinity) (c : Collation) (left right : Cell) : Truth :=
  if left.isNull || right.isNull then .ofBool (left.isNull && right.isNull)
  else compareTruth a c .eq left right

/-- How two expressions compare for a row, given what they mean for it. -/
def Expr.comparison (a b : Expr) (r : Relation) (left right : Cell) : Truth :=
  compareTruth (.shared a.affinity? b.affinity?) (.between a b) r left right

/-- The affinity of a membership: that of the tested side, which the side of a nested selection
shares. -/
def Expr.memberAffinity (e : Expr) (source : Source) (choices : List Expr) : Affinity :=
  if source.isSelection then .shared e.affinity? (firstAffinity? choices)
  else e.affinity?.getD .free

def Expr.membership (a : Affinity) (e : Expr) (left : Cell) (choices : List Cell) : Truth :=
  .any (choices.map fun c => compareTruth a (e.collation?.getD .binary) .eq left c)

/-- Do the limit and the offset, the last of the parts, leave a single row? -/
def Frame.leavesOne (f : Frame) (parts : List Cell) : Bool :=
  let last := parts.reverse
  let (offset, others) := if f.isMoved then (last.head?, last.drop 1) else (none, last)
  let limit := if f.isLimited then others.head? else none
  limit.bind Cell.count? != some 0 && (offset.bind Cell.count?).getD 0 ≤ 0

/-- The cells that a nested selection gives: what it found, or what it shows around the row where it
has no tables of its own. -/
def Frame.values (f : Frame) (parts found : List Cell) : List Cell :=
  if !f.isOpen then found
  else if f.isTested && !((parts.drop (f.width.getD 0)).head?.getD .null).truth.isYes then []
  else if f.leavesOne parts then parts.take 1
  else []

/-- The cells that a membership looks in, given what its parts mean for a row. -/
def Source.values (parts : List Cell) : Source → List Cell
  | .selection f found => f.values parts found
  | _ => parts

def Asked.cell (cells : List Cell) : Asked → Cell
  | .first => cells.head?.getD .null
  | .presence => .int (Value.ofBool !cells.isEmpty)

namespace Expr

mutual

def cell (i : Item) : Expr → Cell
  | .bound c => c
  | .literal c => c
  | .name n => n.cell i
  | .member path n => ((memberOf? path n).map fun c => i.cell c).getD .null
  | .sign negative e => if negative then (e.cell i).negate else e.cell i
  | .complement e => (e.cell i).complement
  | .calculate op a b => op.apply (a.cell i) (b.cell i)
  | .compare r a b => (comparison a b r (a.cell i) (b.cell i)).cell
  | .same negated a b =>
    (negatedIf negated (sameTruth (.shared a.affinity? b.affinity?) (.between a b)
      (a.cell i) (b.cell i))).cell
  | .absent negated e => (negatedIf negated (.ofBool (e.cell i).isNull)).cell
  | .not e => (e.cell i).truth.not.cell
  | .both a b => ((a.cell i).truth.and (b.cell i).truth).cell
  | .either a b => ((a.cell i).truth.or (b.cell i).truth).cell
  | .like negated e pattern =>
    (negatedIf negated (Function.likeTruth (e.cell i) (pattern.cell i))).cell
  | .between negated e low high =>
    (negatedIf negated ((comparison e low .ge (e.cell i) (low.cell i)).and
      (comparison e high .le (e.cell i) (high.cell i)))).cell
  | .oneOf negated e source choices =>
    (negatedIf negated (membership (memberAffinity e source choices) e (e.cell i)
      (source.values (cells i choices)))).cell
  | .call function arguments => Function.apply (smallName function) (cells i arguments)
  | .choose test result rest =>
    if (test.cell i).truth.isYes then result.cell i else rest.cell i
  | .cast kind e => kind.apply (e.cell i)
  | .collated _ e => e.cell i
  | .row _ => .null
  | .nested asked f parts found => asked.cell (f.values (cells i parts) found)

def cells (i : Item) : List Expr → List Cell
  | [] => []
  | e :: es => e.cell i :: cells i es

end

def truth (i : Item) (e : Expr) : Truth :=
  (e.cell i).truth

theorem cells_eq_map (i : Item) (es : List Expr) : cells i es = es.map (cell i) := by
  induction es with
  | nil => simp [cells]
  | cons e es ih => simp [cells, ih]

@[simp] theorem truth_both (i : Item) (a b : Expr) :
    (Expr.both a b).truth i = (a.truth i).and (b.truth i) := by
  simp [truth, cell]

@[simp] theorem truth_either (i : Item) (a b : Expr) :
    (Expr.either a b).truth i = (a.truth i).or (b.truth i) := by
  simp [truth, cell]

end Expr

theorem compareTruth_negate (a : Affinity) (c : Collation) (r : Relation) (left right : Cell) :
    compareTruth a c r.negate left right = (compareTruth a c r left right).not := by
  unfold compareTruth
  cases a.compare? (c.keyCell left) (c.keyCell right) with
  | none => rfl
  | some o =>
    simp only [Relation.holds_negate]
    cases r.holds o <;> rfl

/-! ## Faults -/

/-- Why an expression has no value for a row. -/
inductive Unevaluated where
  | patternSize
  | integerSize
  | escapeLength
  | matchContext
  deriving DecidableEq, Repr

/-- The wording of an expression without a value. -/
def Unevaluated.text : Unevaluated → String
  | .patternSize => "LIKE or GLOB pattern too complex"
  | .integerSize => "integer overflow"
  | .escapeLength => "ESCAPE expression must be a single character"
  | .matchContext => "unable to use function MATCH in the requested context"

/-- The greatest number of bytes of a pattern. -/
def patternLimit : Nat := 50000

/-- Is the pattern of a match too long? -/
def likeFault? (c pattern : Cell) : Option Unevaluated :=
  if Function.isUnmatchable c pattern then none
  else if patternLimit < (pattern.text?.getD "").utf8ByteSize then some .patternSize
  else none

/-- Does a function fail for its arguments? -/
def callFault? (function : String) (cells : List Cell) : Option Unevaluated :=
  match function, cells with
  | "abs", [.int n] => if n = -Int.pow 2 63 then some .integerSize else none
  | "like", [pattern, c] | "glob", [pattern, c] => likeFault? c pattern
  | "like", [pattern, c, escape] =>
    let isSingle := (Function.visible (Function.textOf escape).toList).length = 1
    likeFault? c pattern <|>
      if Function.isUnmatchable c pattern || escape.isNull || isSingle then none
      else some .escapeLength
  | "match", _ => some .matchContext
  | _, _ => none

namespace Expr

mutual

/-- Why an expression has no value for a row: its parts are looked at from the left, and the second
side of a conjunction or disjunction only where it matters. -/
def fault? (i : Item) : Expr → Option Unevaluated
  | .bound _ | .literal _ | .name _ | .member _ _ => none
  | .sign _ e | .complement e | .absent _ e | .not e | .cast _ e | .collated _ e => e.fault? i
  | .calculate _ a b | .compare _ a b | .same _ a b => a.fault? i <|> b.fault? i
  | .both a b => a.fault? i <|> if a.truth i = .no then none else b.fault? i
  | .either a b => a.fault? i <|> if a.truth i = .yes then none else b.fault? i
  | .like _ e pattern =>
    e.fault? i <|> pattern.fault? i <|> likeFault? (e.cell i) (pattern.cell i)
  | .between _ e low high => e.fault? i <|> low.fault? i <|> high.fault? i
  | .oneOf _ e source choices =>
    e.fault? i <|> if source.isOpen then faults? i choices else none
  | .call function arguments =>
    faults? i arguments <|> callFault? (smallName function) (cells i arguments)
  | .choose test result rest =>
    test.fault? i <|> if (test.truth i).isYes then result.fault? i else rest.fault? i
  | .row parts => faults? i parts
  | .nested _ f parts _ => if f.isOpen then faults? i parts else none

/-- Why an expression of a list has no value for a row. -/
def faults? (i : Item) : List Expr → Option Unevaluated
  | [] => none
  | e :: es => e.fault? i <|> faults? i es

end

end Expr

end RowAccess.Sql
