import RowAccess.Config
import RowAccess.Text.Percent

/-
  RowAccess/Query/Filter.lean
  ===========================
  **Nested filters**: objects with the selected fields, the conditions, a limit and an order.
  Turning one into the record form of a query is forgiving: what it does not know it leaves out, and
  the checks of queries judge the result.  Conditions are not merged, so the last one of each kind
  counts.  Only an order that does not name columns and directions has no record form.
-/

namespace RowAccess

namespace Filter

def names : List String := ["fields", "where", "limit", "order"]

/-! ## Fields -/

/-- Does a value under a field's name select the field? -/
def isSelecting : Value → Bool
  | .bool b => b
  | .text s => s == "true"
  | _ => false

def selectedFields : Value → List Value
  | .object fs => (fs.filter fun (_, v) => isSelecting v).map fun (k, _) => .text k
  | .list vs => vs.filter Value.isText
  | _ => []

/-! ## Conditions -/

def comparator? (operator : String) : Option Comparator :=
  if operator == "eq" then some .eq
  else if operator == "gt" then some .gt
  else if operator == "lt" then some .lt
  else none

def comparisonRecord (column : String) (comparator : Comparator) (value : Value) : Value :=
  .object (Comparison.toRecord ⟨.text column, comparator, value⟩)

def valuesRecord (column : String) (values : Value) : Value :=
  .object [(ClauseField.column.name, .text column), (ClauseField.values.name, values)]

/-- The starter and the record that an operator on a column asks for. -/
def operatorClause? (column operator : String) (value : Value) : Option (StarterKind × Value) :=
  match comparator? operator with
  | some c => some (.where_, comparisonRecord column c value)
  | none =>
    if operator == "between" then some (.whereBetween, valuesRecord column value)
    else if operator == "inq" then some (.whereIn, valuesRecord column value)
    else if operator == "nin" then some (.whereNotIn, valuesRecord column value)
    else none

/-- Writes the conditions of an object of operators on a column into the query. -/
def putOperators (column : String) (operators : Fields) (query : Fields) : Fields :=
  operators.foldl
    (fun q (operator, value) =>
      match operatorClause? column operator value with
      | some (kind, record) => Keyed.put q kind.name record
      | none => q)
    query

/-- The comparisons of one field of a junction's entry. -/
def junctionField (column : String) : Value → List Value
  | .object operators =>
    operators.filterMap fun (operator, operand) =>
      (comparator? operator).map fun c => comparisonRecord column c operand
  | v => [comparisonRecord column .eq v]

def junctionEntry : Value → List Value
  | .object fs => fs.flatMap fun (column, v) => junctionField column v
  | _ => []

/-- The comparisons of a junction, in order. -/
def junction : Value → List Value
  | .list entries => entries.flatMap junctionEntry
  | _ => []

def putCondition (query : Fields) (name : String) (value : Value) : Fields :=
  if name == "and" then Keyed.put query Key.andWhere.name (.list (junction value))
  else if name == "or" then Keyed.put query Key.orWhere.name (.list (junction value))
  else match value with
    | .object operators => putOperators name operators query
    | _ => Keyed.put query StarterKind.where_.name (comparisonRecord name .eq value)

def putConditions (conditions query : Fields) : Fields :=
  conditions.foldl (fun q (name, value) => putCondition q name value) query

/-! ## Order -/

def dropWord? (word : String) (cs : List Char) : Option (List Char) :=
  let w := word.toList.reverse
  if w.isPrefixOf cs.reverse then some (cs.reverse.drop w.length).reverse else none

def directionWord : Direction → String
  | .ascending => "ASC"
  | .descending => "DESC"

/-- The direction at the end of the characters, and what stands before it. -/
def splitDirection? (cs : List Char) : Option (List Char × Direction) :=
  match dropWord? (directionWord .ascending) cs with
  | some before => some (before, .ascending)
  | none => (dropWord? (directionWord .descending) cs).map fun before => (before, .descending)

/-- Reads a column and a direction: the direction is the last word, written in capitals, blanks
part the two, and the column is not empty and stays within a line. -/
def orderTerm? (s : String) : Option OrderTerm :=
  match splitDirection? (Text.trimBack s.toList) with
  | none => none
  | some (before, direction) =>
    let column := Text.trim before
    if Text.trimBack before == before || column.isEmpty || column.contains '\n' then none
    else some ⟨.text (String.ofList column), direction⟩

/-- Characters that are a column name in an entry: at least one, none of them a line feed, and no
blank at either end. -/
def IsEntryColumn (column : List Char) : Prop :=
  column ≠ [] ∧ '\n' ∉ column ∧ (∀ c ∈ column.head?, Text.isBlank c = false) ∧
    ∀ c ∈ column.getLast?, Text.isBlank c = false

/-- A written order term in parts: the column and the word for its direction, with what stands
before, between and after them. -/
structure EntryParts where
  before : List Char
  column : List Char
  between : List Char
  direction : Direction
  after : List Char
  deriving DecidableEq, Repr

namespace EntryParts

def written (p : EntryParts) : List Char :=
  p.before ++ p.column ++ p.between ++ (directionWord p.direction).toList ++ p.after

/-- Are these the parts of an order term?  Blanks stand between the column and the word, and perhaps
around them. -/
structure IsEntry (p : EntryParts) : Prop where
  column : IsEntryColumn p.column
  before : p.before.all Text.isBlank = true
  between : p.between.all Text.isBlank = true
  between_ne : p.between ≠ []
  after : p.after.all Text.isBlank = true

/-- The term that the parts spell. -/
def term (p : EntryParts) : OrderTerm :=
  ⟨.text (String.ofList p.column), p.direction⟩

end EntryParts

def orderTerm : Value → Except Fault OrderTerm
  | .text s =>
    match orderTerm? s with
    | some t => .ok t
    | none => .error (.reading (.orderEntryForm s))
  | v => .error (.reading (.orderEntryKind v))

/-- The entries of an order: one text, or the members of a list or a byte string. -/
def orderEntries : Value → Except Fault (List Value)
  | .text s => .ok [.text s]
  | .list vs => .ok vs
  | .bytes bs => .ok (bs.map fun b => .int b.toNat)
  | v => .error (.reading (.orderKind v))

/-! ## Filters -/

def toQuery (filter : Fields) : Except Fault Fields := do
  let selected := ((Keyed.find? filter "fields").map selectedFields).getD []
  let query := if selected.isEmpty then [] else [(Key.select.name, .list selected)]
  let query :=
    match Keyed.find? filter "where" with
    | some (.object conditions) => putConditions conditions query
    | _ => query
  let query :=
    match Keyed.find? filter "limit" with
    | some limit => Keyed.put query Key.limit.name limit
    | none => query
  match Keyed.find? filter "order" with
  | none => return query
  | some order =>
    let terms ← (← orderEntries order).mapM orderTerm
    return Keyed.put query Key.order.name (.list (terms.map fun t => .object t.toRecord))

def ofJson (text : String) : Except Fault Fields :=
  match Json.read text.toList with
  | .error flaw => .error (.reading (.filterText text flaw))
  | .ok (.object fs) => .ok fs
  | .ok _ => .error (.reading (.filterKind text))

/-- Reads a filter from JSON text as it stands in an address, percent escapes included. -/
def ofEscapedJson (text : String) : Except Fault Fields :=
  ofJson (String.ofList (Text.Percent.decodePlus text.toList))

/-- The query of a filter that is given as a parameter: JSON text or an object. -/
def ofParameter : Value → Except Fault Fields
  | .text s => do toQuery (← ofJson s)
  | .object fs => toQuery fs
  | v => .error (.reading (.filterParameter v))

/-- Is the object a filter rather than a query? -/
def isFilter (fields : Fields) : Bool :=
  fields.any (fun (k, _) => names.contains k) && !fields.any fun (k, _) => Key.isName k

/-! ## Values that are perhaps no objects -/

/-- The fields of a filter.  What is no object fails according to what it is; where it holds the
first name that is looked for as a member, it fails as an index. -/
def fieldsOf : Value → Except Fault Fields
  | .object fields => .ok fields
  | .list vs => .error (if vs.contains (.text "fields") then .wrongShape else .noSuchOperation)
  | .text s => .error (if (s.splitOn "fields").length > 1 then .wrongShape else .noSuchOperation)
  | _ => .error .wrongShape

/-- Do the members of a value make it a filter rather than a query? -/
def holdsFilter (v : Value) : Except Fault Bool := do
  let members ← membersOf v
  if members.all Value.isKey then
    return isFilter ((members.filterMap Value.text?).map fun name => (name, .null))
  else throw .wrongShape

end Filter

end RowAccess
