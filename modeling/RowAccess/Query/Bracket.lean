import RowAccess.Query.Filter

/-
  RowAccess/Query/Bracket.lean
  ============================
  **Query strings with bracketed names.**  A name such as `AND_WHERE[0][COLUMN]` is a path into
  nested objects; an empty index stands for the next free one, and an object whose names are all
  numbers becomes a list in their order.  Commas part the entries of selections and value lists, and
  a record with a single column name is the short form of a condition on that column.
-/

namespace RowAccess

namespace Bracket

/-! ## Parameters -/

/-- The name and the value of a parameter; without an equals sign the value is empty. -/
def splitParameter (cs : List Char) : List Char × List Char :=
  (cs.takeWhile (· ≠ '='), (cs.dropWhile (· ≠ '=')).drop 1)

/-- The decoded parameters of a query string, in order. -/
def parameters (cs : List Char) : List (String × String) :=
  ((Text.cut '&' cs).filter fun piece => !piece.isEmpty).map fun piece =>
    let (name, value) := splitParameter piece
    (String.ofList (Text.Percent.decodePlus name), String.ofList (Text.Percent.decodePlus value))

/-! ## Key paths -/

def isBracket (c : Char) : Bool := c == '[' || c == ']'

/-- The indices in brackets that make up the characters, up to one line feed at the end.  The fuel
is at least the number of characters. -/
def indices? : Nat → List Char → Option (List String)
  | 0, cs => if cs.isEmpty then some [] else none
  | fuel + 1, cs =>
    match cs with
    | [] => some []
    | ['\n'] => some []
    | '[' :: r =>
      let inside := r.takeWhile fun c => !isBracket c
      match r.drop inside.length with
      | ']' :: rest => (indices? fuel rest).map (String.ofList inside :: ·)
      | _ => none
    | _ => none

/-- The path of a name: the part before the brackets and every index, or the whole name where it is
not of this form. -/
def keyPath (key : String) : List String :=
  let cs := key.toList
  let name := cs.takeWhile fun c => !isBracket c
  if name.isEmpty then [key]
  else match indices? (cs.length + 1) (cs.drop name.length) with
    | some indices => String.ofList name :: indices
    | none => [key]

def renderPath : List String → String
  | [] => ""
  | name :: indices => name ++ String.join (indices.map fun i => "[" ++ i ++ "]")

/-! ## Nesting -/

/-- The name that a segment stands for in an object: an empty one is the number of its fields. -/
def segmentName (fields : Fields) (segment : String) : String :=
  if segment.isEmpty then Text.decimal fields.length else segment

/-- The fields under a name, none where there is no object. -/
def fieldsUnder (fields : Fields) (name : String) : Fields :=
  match Keyed.find? fields name with
  | some (.object inner) => inner
  | _ => []

/-- Puts a value at the end of a path. -/
def insertAt : List String → Value → Fields → Fields
  | [], _, fields => fields
  | [segment], value, fields => Keyed.put fields (segmentName fields segment) value
  | segment :: rest, value, fields =>
    let name := segmentName fields segment
    Keyed.put fields name (.object (insertAt rest value (fieldsUnder fields name)))

def nest (parameters : List (String × String)) : Fields :=
  parameters.foldl (fun fields (key, value) => insertAt (keyPath key) (.text value) fields) []

/-! ## Indices -/

def indexNumber (s : String) : Except Fault Int :=
  match Number.readInt s.toList with
  | .ok n => .ok n
  | .error .malformed => .error (.badArgument (.integerText s))
  | .error (.tooLong n) => .error (.badArgument (.integerLength n))

/-- The values of numbered fields in the order of the numbers. -/
def inIndexOrder (fields : Fields) : Except Fault (List Value) := do
  let numbered ← fields.mapM fun (k, v) => do
    let n ← indexNumber k
    return (n, v)
  return (numbered.mergeSort fun a b => a.1 ≤ b.1).map (·.2)

/-- Are there fields, and are all their names indices? -/
def isIndexed (fields : Fields) : Bool :=
  !fields.isEmpty && fields.all fun (k, _) => Text.isIndexText k

mutual

/-- Turns numbered objects into lists, inner ones first. -/
def listed : Value → Except Fault Value
  | .object fs => do
    let fields ← listedFields fs
    if isIndexed fields then return .list (← inIndexOrder fields) else return .object fields
  | v => .ok v

/-- Turns numbered objects inside fields into lists. -/
def listedFields : List (String × Value) → Except Fault (List (String × Value))
  | [] => .ok []
  | (k, v) :: r => do
    let w ← listed v
    let rest ← listedFields r
    return (k, w) :: rest

end

/-! ## Short forms -/

/-- The entries of a text between its commas, without the blanks around them. -/
def splitValues : Value → Value
  | .text s => .list ((Text.cut ',' s.toList).map fun cs => .text (String.ofList (Text.trim cs)))
  | v => v

/-- What the short form of a record under a name holds: one value or a list of values. -/
def shortField? (name : String) : Option ClauseField :=
  if ["WHERE_IN", "WHERE_NOT_IN", "OR_WHERE_IN", "WHERE_BETWEEN", "WHERE_NOT_BETWEEN"].contains name
  then some .values
  else if ["WHERE", "WHERE_NOT", "WHERE_LIKE", "AND_WHERE", "OR_WHERE"].contains name then
    some .value
  else none

def splitRecord (fields : Fields) : Fields :=
  match Keyed.find? fields ClauseField.values.name with
  | some v => Keyed.put fields ClauseField.values.name (splitValues v)
  | none => fields

def expandRecord (name : String) : Value → Value
  | .object [(column, v)] =>
    if ClauseField.isName column then .object (splitRecord [(column, v)])
    else match shortField? name with
      | some .values =>
        .object [(ClauseField.column.name, .text column), (ClauseField.values.name, splitValues v)]
      | some f => .object [(ClauseField.column.name, .text column), (f.name, v)]
      | none => .object [(column, v)]
  | .object fields => .object (splitRecord fields)
  | v => v

/-- The long form of a value under a name of the query. -/
def normalizeValue (name : String) (v : Value) : Value :=
  if name == Key.select.name then splitValues v
  else match v with
    | .list vs => .list (vs.map (expandRecord name))
    | v => expandRecord name v

/-- The long form of every value of the query. -/
def normalize (fields : Fields) : Fields :=
  fields.map fun (k, v) => (k, normalizeValue k v)

/-! ## Query strings -/

def filterName : String := "filter"

/-- The query of a query string, with or without question marks in front. -/
def parse (text : String) : Except Fault Fields := do
  match ← listed (.object (nest (parameters (text.toList.dropWhile (· == '?'))))) with
  | .object fields =>
    let query := normalize (Keyed.drop fields filterName)
    match Keyed.find? fields filterName with
    | none => return query
    | some filter => return Keyed.putAll query (← Filter.ofParameter filter)
  | _ => throw (.reading (.noNames text))

end Bracket

/-- Reads a query of any form that a client may send: nothing, a query string, a filter, an object
with a filter beside other keys, or a query in its record form. -/
def readQuery : Value → Except Fault Fields
  | .null => .ok []
  | .text s => Bracket.parse s
  | .object fields =>
    match Keyed.find? fields Bracket.filterName with
    | some filter => do
      return Keyed.putAll (Keyed.drop fields Bracket.filterName) (← Filter.ofParameter filter)
    | none => if Filter.isFilter fields then Filter.toQuery fields else .ok fields
  | v => .error (.reading (.queryKind v))

/-- The query that a client sends, or what is raised where there is none. -/
def clientQuery (v : Value) : Except Fault Fields :=
  written (readQuery v)

end RowAccess
