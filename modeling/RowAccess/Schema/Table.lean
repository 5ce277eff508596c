import RowAccess.Fault
import RowAccess.Text.Case

/-
  RowAccess/Schema/Table.lean
  ===========================
  **The schema of a table**: its name, its id column, and its columns by category.  No column stands
  in two places; the type carries the proof.  A column is looked up by its exact name first and then
  whatever its case, because engines disagree on the case of names.
-/

namespace RowAccess

structure Columns where
  boolean : List Value := []
  buffer : List Value := []
  timestamp : List Value := []
  number : List Value := []
  string : List Value := []
  deriving Repr

namespace Columns

def of (c : Columns) : Category → List Value
  | .boolean => c.boolean
  | .buffer => c.buffer
  | .timestamp => c.timestamp
  | .number => c.number
  | .string => c.string

def entries (c : Columns) : List (Value × Category) :=
  Category.all.flatMap fun k => (c.of k).map (·, k)

/-- Why columns are no partition. -/
inductive Clash where
  | unusable
  | twice (column : Value) (first second : Category)
  deriving Repr

/-- The first entry whose column cannot be a key or was seen before. -/
def clashAmong? (seen : Keyed Value Category) : List (Value × Category) → Option Clash
  | [] => none
  | (v, k) :: r =>
    if !v.isKey then some .unusable
    else match Keyed.find? seen v with
      | some first => some (.twice v first k)
      | none => clashAmong? (seen ++ [(v, k)]) r

def clash? (c : Columns) : Option Clash :=
  clashAmong? [] c.entries

end Columns

/-- The schema of a table.  The id column is null where there is none. -/
structure TableSchema where
  name : Value
  idColumn : Value
  idType : Option IdType
  columns : Columns
  partitioned : columns.clash? = none

namespace TableSchema

/-- The schema of the parts, unless a column stands in two places. -/
def make (name idColumn : Value) (idType : Option IdType) (columns : Columns) :
    Except Fault TableSchema :=
  match h : columns.clash? with
  | none => .ok ⟨name, idColumn, idType, columns, h⟩
  | some .unusable => .error .wrongShape
  | some (.twice column first second) => .error (.breach (.twoCategories column name first second))

/-- Every column, in the order of the categories. -/
def allColumns (t : TableSchema) : List Value :=
  t.columns.entries.map (·.1)

/-- A name in small letters: of bytes the ASCII letters.  Other values have no case. -/
def lowered? : Value → Option Value
  | .text s => some (.text (Text.lower s))
  | .bytes bs => some (.bytes (bs.map fun b => if 65 ≤ b && b ≤ 90 then b + 32 else b))
  | _ => none

/-- The category of the first entry that has the name in some case; every entry before it has to
have a case. -/
def caselessCategory? (lowered : Value) : List (Value × Category) → Except Fault (Option Category)
  | [] => .ok none
  | (v, k) :: r =>
    match lowered? v with
    | none => .error .noSuchOperation
    | some w => if w == lowered then .ok (some k) else caselessCategory? lowered r

/-- The category of a column, by its exact name or else whatever its case, for a name that has
one. -/
def lookup (t : TableSchema) (column : Value) : Except Fault (Option Category) :=
  match t.columns.entries.find? fun (v, _) => v == column with
  | some (_, k) => .ok (some k)
  | none =>
    match lowered? column with
    | some v => caselessCategory? v t.columns.entries
    | none => .error .noSuchOperation

def category? (t : TableSchema) (column : String) : Except Fault (Option Category) :=
  t.lookup (.text column)

def columnsIn (entries : Keyed Value Category) (k : Category) : List Value :=
  (entries.filter fun (_, c) => c == k).map (·.1)

def ofColumns (name : Value) (entries : Keyed Value Category) (idColumn : Value) :
    Except Fault TableSchema := do
  if !idColumn.isKey then throw .wrongShape
  let idType :=
    if idColumn.isNull then none
    else match Keyed.find? entries idColumn with
      | some .number => some IdType.number
      | _ => some IdType.string
  let pick := columnsIn entries
  make name idColumn idType
    ⟨pick .boolean, pick .buffer, pick .timestamp, pick .number, pick .string⟩

/-! ## The stored form -/

/-- The name of a category's list in the stored form. -/
def storedName : Category → String
  | .boolean => "booleanColumns"
  | .buffer => "bufferColumns"
  | .timestamp => "timestampColumns"
  | .number => "numberColumns"
  | .string => "stringColumns"

def storedOrder : List Category := [.boolean, .buffer, .timestamp, .number, .string]

def idTypeOf : Value → Except Fault (Option IdType)
  | .null => .ok none
  | .text s =>
    match IdType.ofName? s with
    | some t => .ok (some t)
    | none => .error (.badArgument (.idType (.text s)))
  | v => .error (.badArgument (.idType v))

def toStored (t : TableSchema) : Value :=
  .object ([("name", t.name), ("idColumn", t.idColumn),
      ("idType", match t.idType with
        | none => .null
        | some i => .text i.name)] ++
    storedOrder.map fun k => (storedName k, .list (t.columns.of k)))

/-- The members of a field of the stored form; a field that is not given has none. -/
def storedMembers (fields : Fields) (name : String) : Except Fault (List Value) :=
  match Keyed.find? fields name with
  | none => .ok []
  | some v =>
    if !v.isGiven then .ok []
    else match v.members? with
      | some vs => .ok vs
      | none => .error .wrongShape

def ofFields (fields : Fields) : Except Fault TableSchema := do
  let boolean ← storedMembers fields (storedName .boolean)
  let buffer ← storedMembers fields (storedName .buffer)
  let timestamp ← storedMembers fields (storedName .timestamp)
  let number ← storedMembers fields (storedName .number)
  let string ← storedMembers fields (storedName .string)
  match Keyed.find? fields "name" with
  | none => throw (.missingKey (.text "name"))
  | some name =>
    let idType ← idTypeOf ((Keyed.find? fields "idType").getD .null)
    make name ((Keyed.find? fields "idColumn").getD .null) idType
      ⟨boolean, buffer, timestamp, number, string⟩

/-- The schema of a stored form.  Whatever is wrong inside an object is one fault. -/
def ofStored : Value → Except Fault TableSchema
  | .object fields =>
    match ofFields fields with
    | .ok t => .ok t
    | .error _ => .error (.catalog (.schemaForm (.object fields)))
  | _ => .error .noSuchOperation

end TableSchema

end RowAccess
