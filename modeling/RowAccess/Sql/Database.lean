import RowAccess.Operation.Backend
import RowAccess.Sql.Engine
import RowAccess.Sql.Grammar
import RowAccess.Sql.Statement

/-
  RowAccess/Sql/Database.lean
  ===========================
  **A backend over a database.**  Every operation becomes one statement, which is sent to the
  database with its parameters; all that is sent is kept in a log.  A refused statement is a fault
  of the backend that names the kind of the operation.
-/

namespace RowAccess.Sql

/-- The state of a database: its table and what was sent to it, oldest first. -/
structure Database where
  items : Items
  sent : List Prepared

/-! ## Faults -/

def failed (o : Operation) (detail : String) : Fault :=
  .backend (o.kindName ++ " on the database failed: " ++ detail)

def Unbuildable.fault (o : Operation) : Unbuildable → Fault
  | .onlyEquality => failed o onlyEqualityText
  | .nameless => failed o "Cannot compile Column object until its 'name' is assigned."
  | .unbound name =>
    failed o ("(sqlalchemy.exc.InvalidRequestError) A value is required for bind parameter " ++
      Text.quoted name)
  | .conflict name =>
    failed o ("Bind parameter '" ++ name ++
      "' conflicts with unique bind parameter of the same name")
  | .unconsumed name => failed o ("Unconsumed column names: " ++ name)
  | .ambiguous => .breach .sharedSlot
  | .shape f => f

def Refusal.fault (o : Operation) : Refusal → Fault
  | .tooLarge => .outOfRange
  | .severalStatements => .foreign "Warning" Refusal.severalStatements.message
  | r => failed o r.message

/-! ## Answers -/

/-- The first name that comes again later. -/
def repeatedName? : List String → Option String
  | [] => none
  | n :: rest => if rest.contains n then some n else repeatedName? rest

/-- The rows of an answer as values.  A row cannot be read under a name that two columns share. -/
def rowsValue (o : Operation) (titles : List String) (rows : List (List Cell)) :
    Except Fault Value := do
  let values ← rows.mapM fun row =>
    match repeatedName? titles with
    | some n =>
      .error (failed o
        ("Ambiguous column name '" ++ n ++ "' in result set column descriptions"))
    | none => .ok (.object (titles.zip (row.map Cell.toValue)))
  return .list values

/-- The id of a new row: what the record says, else what the insertion gives back, else the id of
the row. -/
def insertedId (record : Fields) (idColumn : Value) (id : Int) (returned : Option Cell) : Value :=
  match idColumn with
  | .text c => (record.find? c).getD ((returned.map Cell.toValue).getD (.int id))
  | _ => .int id

def answerValue (o : Operation) (s : Statement) : Answer → Except Fault Value
  | .rows titles rows => rowsValue o (s.titles?.getD titles) rows
  | .affected count => .ok (.int count)
  | .inserted id returned =>
    match o with
    | .insert _ record idColumn => .ok (insertedId record idColumn id returned)
    | _ => .ok (.int id)

/-! ## Running -/

/-- Runs a text beside which the values travel. -/
def runText (p : Prepared) (t : Items) : Except Refusal (Items × Answer) := do
  let cells := p.values.map fun v => (Cell.ofValue v).toOption.getD .null
  let understood ← Grammar.read p.text cells
  understood.command.check
  if understood.isFollowed then throw .severalStatements
  if understood.used ≠ p.values.length then throw (.bindings understood.used p.values.length)
  understood.command.runChecked p.values t

/-- Runs a statement: as the command that it is, if its text cannot be misread, else as its text is
read. -/
def runStatement (s : Statement) (p : Prepared) (t : Items) : Except Refusal (Items × Answer) :=
  if p.text.toList.any fun c => c.toNat = 0 then .error .nullCharacter
  else
    match s.command? with
    | some c => if s.isDirect then c.run p.values t else runText p t
    | none => runText p t

/-- Runs an operation on a database.  The statement is in the log whether it fails or not; an
operation without a statement, or with a value that cannot be prepared, leaves no trace. -/
def Database.run (schema : Option String) (o : Operation) (d : Database) :
    Except Fault Value × Database :=
  match Statement.built schema o with
  | .error u => (.error (u.fault o), d)
  | .ok s =>
    match s.prepared with
    | .error u => (.error (failed o u.message), d)
    | .ok p =>
      let logged : Database := { d with sent := d.sent ++ [p] }
      match runStatement s p d.items with
      | .error r => (.error (r.fault o), logged)
      | .ok (items, answer) => (answerValue o s answer, { logged with items := items })

/-- The backend over a database whose tables stand in a schema. -/
def backend (schema : Option String) : Backend Database := fun o => do
  let site ← get
  let (outcome, after) := site.outside.run schema o
  set { site with outside := after }
  outcome

end RowAccess.Sql
