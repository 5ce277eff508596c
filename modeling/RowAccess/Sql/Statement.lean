import RowAccess.Sql.Command
import RowAccess.Sql.Condition

/-
  RowAccess/Sql/Statement.lean
  ============================
  **Statements.**  Every operation on a table is one statement: a selection, an extreme value, an
  insertion, an update or a deletion.  A statement is drafted in pieces, which give its text and the
  values that travel beside it.  Where the text cannot be misread the statement is also the command
  that a reader of the text finds (`Statement.isDirect`).
-/

namespace RowAccess.Sql

/-- A table, perhaps in a named schema. -/
structure TableName where
  schema : Option String
  name : String
  deriving DecidableEq, Repr

namespace TableName

def text (t : TableName) : String :=
  match t.schema with
  | none => Identifier.text t.name
  | some s => Identifier.text s ++ "." ++ Identifier.text t.name

def target (t : TableName) : Target :=
  ⟨t.schema.map Identifier.found, Identifier.found t.name⟩

def names (t : TableName) : List String :=
  t.schema.toList ++ [t.name]

end TableName

/-- What a selection shows of its rows. -/
inductive Columns where
  | all
  | named (names : List String)
  deriving DecidableEq, Repr

structure SortColumn where
  column : String
  direction : Direction
  deriving Repr

/-- A selection: which rows of a table, in which order, how many of them and what of each. -/
structure Selection where
  columns : Columns
  table : TableName
  condition : Option Condition
  order : List SortColumn
  limit : Option Int
  deriving Repr

/-- A query written by hand: its text with placeholders, and their values. -/
structure Written where
  text : String
  values : List Value
  deriving Repr

inductive Statement where
  | select (s : Selection)
  | extreme (table : TableName) (function : Aggregate) (column : String)
  | insert (table : TableName) (entries : List (String × Operand)) (returning : Option String)
  | update (table : TableName) (entries : List (String × Operand)) (predicate : Predicate)
  | delete (table : TableName) (predicate : Option Predicate)
  | written (w : Written)
  deriving Repr

/-! ## Drafts -/

namespace Columns

def text : Columns → String
  | .all => "*"
  | .named names => ", ".intercalate (names.map Identifier.text)

def names : Columns → List String
  | .all => []
  | .named names => names

end Columns

/-- An order term in the statement. -/
def SortColumn.text (t : SortColumn) : String :=
  Identifier.text t.column ++
    match t.direction with
    | .ascending => " ASC"
    | .descending => " DESC"

def functionText : Aggregate → String
  | .min => "min"
  | .max => "max"

def entryPieces (before : String → String) : List (String × Operand) → Draft
  | [] => []
  | [(c, o)] => [.words (before c), o.piece (.entry c)]
  | (c, o) :: rest => .words (before c) :: o.piece (.entry c) :: .words ", " :: entryPieces before rest

namespace Selection

def draft (s : Selection) : Draft :=
  .words ("SELECT " ++ s.columns.text ++ " \nFROM " ++ s.table.text) ::
    (match s.condition with
      | none => []
      | some c => .words " \nWHERE " :: c.pieces) ++
    (if s.order.isEmpty then []
      else [.words (" ORDER BY " ++ ", ".intercalate (s.order.map SortColumn.text))]) ++
    (match s.limit with
      | none => []
      | some n =>
        [.words "\n LIMIT ", .single .ofLimit .plain (.int n), .words " OFFSET ",
          .single .ofLimit .plain (.int 0)])

end Selection

namespace Statement

def draft : Statement → Draft
  | .select s => s.draft
  | .extreme t f c =>
    [.words ("SELECT " ++ functionText f ++ "(" ++ Identifier.text c ++ ") AS " ++
      Identifier.text f.name ++ " \nFROM " ++ t.text)]
  | .insert t entries returning =>
    (if entries.isEmpty then [.words ("INSERT INTO " ++ t.text ++ " DEFAULT VALUES")]
      else
        .words ("INSERT INTO " ++ t.text ++ " (" ++
          ", ".intercalate (entries.map fun (c, _) => Identifier.text c) ++ ") VALUES (") ::
          entryPieces (fun _ => "") entries ++ [.words ")"]) ++
      (match returning with
        | none => []
        | some c => [.words (" RETURNING " ++ Identifier.text c)])
  | .update t entries p =>
    .words ("UPDATE " ++ t.text ++ " SET ") ::
      entryPieces (fun c => Identifier.text c ++ "=") entries ++ .words " WHERE " :: p.pieces
  | .delete t p =>
    .words ("DELETE FROM " ++ t.text) ::
      match p with
      | none => []
      | some p => .words " WHERE " :: p.pieces
  | .written w => [.words w.text]

def prepared (s : Statement) : Except Unprepared Prepared :=
  match s with
  | .written w => .ok ⟨w.text, w.values⟩
  | s => s.draft.prepared

/-! ## Commands -/

/-- Words of the engine that the statement does not put into quotes. -/
def engineWords : List String := ["nothing", "returning"]

/-- Is the name found as it is written? -/
def isReadable (name : String) : Bool :=
  !engineWords.contains name && name.toList.all fun c => c.toNat != 0

def names : Statement → List String
  | .select s =>
    s.columns.names ++ s.table.names ++
      ((s.condition.map Condition.predicates).getD []).map Predicate.column ++
      s.order.map SortColumn.column
  | .extreme t _ c => c :: t.names
  | .insert t entries returning => t.names ++ entries.map (·.1) ++ returning.toList
  | .update t entries p => t.names ++ entries.map (·.1) ++ [p.column]
  | .delete t p => t.names ++ (p.map Predicate.column).toList
  | .written _ => []

def areDirect (entries : List (String × Operand)) : Bool :=
  entries.all fun (_, o) => o.isBound

def hasForm : Statement → Bool
  | .select s =>
    s.columns != .named [] &&
      ((s.condition.map Condition.predicates).getD []).all Predicate.isDirect
  | .extreme .. => true
  | .insert _ entries _ => areDirect entries && !entries.any fun (c, _) => c.isEmpty
  | .update _ entries p =>
    !entries.isEmpty && areDirect entries && !(entries.any fun (c, _) => c.isEmpty) && p.isDirect
  | .delete _ p => (p.map Predicate.isDirect).getD true
  | .written _ => false

/-- Is the statement read as it is meant? -/
def isDirect (s : Statement) : Bool :=
  s.hasForm && s.names.all isReadable && s.draft.isPlain

def entryExprs (entries : List (String × Operand)) : List (String × Expr) :=
  entries.map fun (c, o) => (Identifier.found c, o.expr)

def query (s : Selection) : Query where
  shown :=
    match s.columns with
    | .all => none
    | .named names => some (names.map fun n => ⟨Predicate.columnExpr n, n⟩)
  tables := [s.table.target]
  test := s.condition.map Condition.expr
  group := []
  groupTest := none
  order := s.order.map fun t => (Predicate.columnExpr t.column, t.direction)
  limit := s.limit.map fun n => .bound (Operand.sentCell .plain (.int n))
  offset := s.limit.map fun _ => .bound (.int 0)

/-- The command that a reader of the statement finds; a query written by hand has none before its
text is read. -/
def command? : Statement → Option Command
  | .select s => some (.select (query s))
  | .extreme t f c => some (.extreme t.target f (Predicate.columnExpr c) f.name)
  | .insert t entries returning =>
    some (.insert t.target (entries.map fun (c, _) => Identifier.found c)
      (if entries.isEmpty then [] else [entries.map fun (_, o) => o.expr])
      (returning.map Predicate.columnExpr))
  | .update t entries p => some (.update t.target (entryExprs entries) (some p.expr))
  | .delete t p => some (.delete t.target (p.map Predicate.expr))
  | .written _ => none

/-- The titles of the rows that a statement gives, where they are not left to the engine. -/
def titles? : Statement → Option (List String)
  | .select s =>
    match s.columns with
    | .all => none
    | .named names => some names
  | .extreme _ f _ => some [f.name]
  | _ => none

end Statement

/-! ## Names in operations -/

def columnFlaw? : Value → Option Unbuildable
  | .text _ => none
  | .null => some .nameless
  | .bytes _ => some (.shape .wrongShape)
  | .list _ => some (.shape .wrongShape)
  | .object _ => some (.shape .wrongShape)
  | _ => some (.shape .noSuchOperation)

def tableFlaw? : Value → Option Unbuildable
  | .null => some (.shape .noSuchOperation)
  | v => columnFlaw? v

/-- The first flaw among names; a name that cannot be a key counts before all others. -/
def checkNames (keys : List Value) (flaws : List (Option Unbuildable)) : Except Unbuildable Unit :=
  if keys.any fun v => !v.isKey then .error (.shape .wrongShape)
  else
    match flaws.findSome? id with
    | some u => .error u
    | none => .ok ()

def tableName (schema : Option String) (v : Value) : TableName :=
  ⟨schema.filter fun name => !name.isEmpty, v.text?.getD ""⟩

def columnNames (columns : List Value) : Columns :=
  .named (columns.map Predicate.nameOf)

/-- The number of rows that a value asks for. -/
def countOfValue : Value → Except Fault (Option Int)
  | .null => .ok none
  | .bool b => .ok (some (Value.ofBool b))
  | .int n => .ok (some n)
  | .float x =>
    match x with
    | .nan _ => .error (.badArgument .notANumber)
    | .infinite _ => .error .outOfRange
    | x => .ok x.truncate?
  | .text s => readCount (Preparation.plainBlanks s.toList) (Value.text s)
  | .bytes bs => readCount (bs.map fun b => Char.ofNat b.toNat) (Value.bytes bs)
  | _ => .error .wrongShape
where
  /-- The number that characters spell. -/
  readCount (cs : List Char) (v : Value) : Except Fault (Option Int) :=
    match Number.readInt (trimNumber cs) with
    | .ok n => .ok (some n)
    | .error (.tooLong n) => .error (.badArgument (.integerLength n))
    | .error .malformed => .error (.badArgument (.integerShown v.shown))

/-! ## Statements of operations -/

def stepColumns (steps : List Step) : Option (List Value) :=
  steps.foldl
    (fun before step =>
      match step with
      | .select columns => some columns
      | _ => before)
    none

/-- The last of the limits of a chain. -/
def stepLimit (steps : List Step) : Value :=
  steps.foldl
    (fun before step =>
      match step with
      | .limit v => v
      | _ => before)
    .null

/-- The last of the orders of a chain. -/
def stepOrder (steps : List Step) : List OrderTerm :=
  steps.foldl
    (fun before step =>
      match step with
      | .order terms => terms
      | _ => before)
    []

/-- The columns that the condition of a chain tests. -/
def stepTested (steps : List Step) : List Value :=
  steps.foldl
    (fun before step =>
      match step with
      | .starter s => [s.clause.column]
      | .andWhere c | .orWhere c | .orWhereIn c => before ++ [c.column]
      | _ => before)
    []

/-- The number of rows of a limit. -/
def limitOf (v : Value) : Except Unbuildable (Option Int) :=
  match countOfValue v with
  | .ok n => .ok n
  | .error f => .error (.shape f)

def entriesOf (record : Fields) : List (String × Operand) :=
  record.map fun (c, v) => (c, .stored v)

/-- The column whose value an insertion gives back: the id column, unless the record has it. -/
def returningOf (record : Fields) (idColumn : Value) : Option String :=
  match idColumn with
  | .text c => if record.has c then none else some c
  | _ => none

/-- Letters, digits and underscores. -/
def isWordChar (c : Char) : Bool :=
  c.isAlphanum || c == '_'

/-- The text of a written query with a placeholder for every `:name`, and the names in order.  A
colon after a colon or within a word starts no name. -/
def placeholders (before : Char) : List Char → Nat → List Char × List String
  | [], _ => ([], [])
  | c :: r, skip =>
    if 0 < skip then placeholders c r (skip - 1)
    else
      let name := r.takeWhile isWordChar
      if c == ':' && before != ':' && before != '\\' && !isWordChar before && !name.isEmpty &&
          (r.drop name.length).head? != some ':' then
        let (text, names) := placeholders c r name.length
        ('?' :: text, String.ofList name :: names)
      else
        let (text, names) := placeholders c r 0
        (c :: text, names)

def parameterOf (parameters : Fields) (name : String) : Except Unbuildable Value :=
  match parameters.find? name with
  | some v => .ok v
  | none => .error (.unbound name)

def writtenOf (text : String) (parameters : Fields) : Except Unbuildable Written := do
  let (cs, names) := placeholders ' ' text.toList 0
  return ⟨String.ofList cs, ← names.mapM (parameterOf parameters)⟩

/-- An id column has to be named, or to be none.  A number counts as the place of a column of the
record. -/
def checkIdColumn (record : Fields) (idColumn : Value) : Except Unbuildable Unit :=
  match idColumn with
  | .null | .text _ => .ok ()
  | v =>
    match (record.zipIdx.find? fun (_, n) => v == .int n) with
    | some ((name, _), _) => .error (.unconsumed name)
    | none => .error (.shape .wrongShape)

/-- No test of an update may have the name of an entry. -/
def checkEntryNames (entries : List (String × Operand)) (p : Predicate) : Except Unbuildable Unit :=
  let bound := entries.filter fun (_, o) => o.isBound
  match (Draft.slots p.pieces).find? fun (n, _) => bound.any fun (c, _) => c == n with
  | some (n, _) => .error (.conflict n)
  | none => .ok ()

/-- The statement of a filtered read. -/
def selectionOf (schema : Option String) (table : Value) (steps : List Step) :
    Except Unbuildable Selection := do
  let condition ← Condition.ofSteps steps
  let limit ← limitOf (stepLimit steps)
  let columns := stepColumns steps
  let tested := stepTested steps
  let order := stepOrder steps
  let ordered := order.map OrderTerm.column
  checkNames (columns.getD [] ++ [table] ++ tested ++ ordered)
    ((columns.getD []).map columnFlaw? ++ [tableFlaw? table] ++ tested.map columnFlaw? ++
      ordered.map columnFlaw?)
  return {
    columns := (columns.map columnNames).getD .all
    table := tableName schema table
    condition := condition
    order := order.map fun t => ⟨Predicate.nameOf t.column, t.direction⟩
    limit := limit }

def Statement.ofOperation (schema : Option String) : Operation → Except Unbuildable Statement
  | .filteredScan table steps => do return .select (← selectionOf schema table steps)
  | .tableScan table columns limit => do
    let limit ← limitOf limit
    checkNames (columns ++ [table]) (columns.map columnFlaw? ++ [tableFlaw? table])
    return .select ⟨if columns.isEmpty then .all else columnNames columns, tableName schema table,
      none, [], limit⟩
  | .aggregate q => do
    checkNames [q.column, q.table] [columnFlaw? q.column, tableFlaw? q.table]
    return .extreme (tableName schema q.table) q.function (Predicate.nameOf q.column)
  | .insert table record idColumn => do
    checkIdColumn record idColumn
    checkNames [table] [tableFlaw? table]
    return .insert (tableName schema table) (entriesOf record) (returningOf record idColumn)
  | .update table predicate record => do
    let p ← Predicate.ofClause predicate
    checkNames [table, predicate.column] [tableFlaw? table, columnFlaw? predicate.column]
    checkEntryNames (entriesOf record) p
    return .update (tableName schema table) (entriesOf record) p
  | .delete table predicate => do
    let p ← Predicate.ofClause predicate
    checkNames [table, predicate.column] [tableFlaw? table, columnFlaw? predicate.column]
    return .delete (tableName schema table) (some p)
  | .deleteAll table => do
    checkNames [table] [tableFlaw? table]
    return .delete (tableName schema table) none
  | .raw text parameters => return .written (← writtenOf text parameters)

/-- The statement of an operation, no two slots of which have one name in its template. -/
def Statement.built (schema : Option String) (o : Operation) : Except Unbuildable Statement := do
  let s ← ofOperation schema o
  if s.draft.isAmbiguous then throw .ambiguous
  return s

end RowAccess.Sql
