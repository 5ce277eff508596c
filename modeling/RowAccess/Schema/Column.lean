import RowAccess.Config
import RowAccess.Number.Parsing
import RowAccess.Schema.Category

/-
  RowAccess/Schema/Column.lean
  ============================
  **Reported columns and their categories.**  An engine reports the name, the native type and the
  length of each column.  The native type decides the category, except that a column of length one
  and of the type that carries truth values holds truth values if a sampled row does not say
  otherwise.
-/

namespace RowAccess

/-! ## Looking up names -/

/-- The field under a name: under the exact name, or else under the first name that differs in case
only.  The names are texts, so that no other key is found among them. -/
def fieldUnder (fields : Fields) (key : Value) : Except Fault Value :=
  match key with
  | .text name =>
    match Keyed.find? fields name with
    | some v => .ok v
    | none =>
      match List.find? (fun (k, _) => Text.lower k == Text.lower name) fields with
      | some (_, v) => .ok v
      | none => .error (.missingKey key)
  | .bytes _ => .error (.missingKey key)
  | key => .error (if key.isKey then .noSuchOperation else .wrongShape)

/-- The entry at an index, counted from the end where it is negative. -/
def entryAt (flaw : BadIndex) (vs : List Value) (key : Value) : Except Fault Value :=
  match key.index? with
  | none => .error .wrongShape
  | some n =>
    if n < -Int.pow 2 63 ∨ Int.pow 2 63 ≤ n then .error (.badIndex .size)
    else
      let i := if n < 0 then n + vs.length else n
      if 0 ≤ i then
        match vs[i.toNat]? with
        | some v => .ok v
        | none => .error (.badIndex flaw)
      else .error (.badIndex flaw)

def hasRun (run : List UInt8) : List UInt8 → Bool
  | [] => run.isEmpty
  | b :: bs => run.isPrefixOf (b :: bs) || hasRun run bs

/-- Do the bytes hold the key: a number as one of them, bytes as a part of them? -/
def bytesHold (bs : List UInt8) (key : Value) : Except Fault Bool :=
  match key with
  | .bytes part => .ok (hasRun part bs)
  | key =>
    match key.index? with
    | none => .error .wrongShape
    | some n =>
      if 0 ≤ n ∧ n < 256 then .ok (bs.contains n.toNat.toUInt8)
      else .error (.badArgument .byteRange)

/-- The value under a name of a reported row, whatever the case of the name.  What is no row fails
according to what it is; where it holds the name as a member, the name is used as an index. -/
def caselessGet (row key : Value) : Except Fault Value :=
  match row with
  | .object fields => fieldUnder fields key
  | .list vs => if vs.contains key then entryAt .list vs key else .error .noSuchOperation
  | .bytes bs => do
    if ← bytesHold bs key then entryAt .bytes (bs.map fun b => .int b.toNat) key
    else throw .noSuchOperation
  | .text s =>
    match key with
    | .text part =>
      .error (if (s.splitOn part).length > 1 || part.isEmpty then .wrongShape else .noSuchOperation)
    | _ => .error .wrongShape
  | _ => .error .wrongShape

/-! ## Columns -/

structure Column where
  name : Value
  nativeType : String
  length : Option Int
  deriving Repr

namespace Column

def ofRow (row : Value) : Except Fault Column := do
  let length ← caselessGet row (.text "DATA_LENGTH")
  let name ← caselessGet row (.text "COLUMN_NAME")
  let nativeType ← caselessGet row (.text "DATA_TYPE")
  return ⟨name, nativeTypeName (← nativeType.told), length.numeral?.map Numeral.truncate⟩

/-- Does a sampled value stand for a truth value? -/
def isSentinel (c : Config) : Value → Except Fault Bool
  | .text s => .ok (c.truthOf? s).isSome
  | v => if v.isKey then .ok false else .error .wrongShape

/-- Does the column hold truth values, going by a sampled row where there is one? -/
def holdsTruth (c : Config) (sample : Value) (column : Column) : Except Fault Bool :=
  if column.nativeType ≠ c.effectiveBooleanType ∨ column.length ≠ some 1 then .ok false
  else match sample with
    | .null => .ok true
    | sample =>
      match caselessGet sample column.name with
      | .ok v => isSentinel c v
      | .error (.missingKey _) => .ok true
      | .error f => .error f

def classify (c : Config) (sample : Value) (column : Column) : Except Fault Category := do
  if c.dialect.numberTypes.contains column.nativeType then return .number
  else if c.dialect.bufferTypes.contains column.nativeType then return .buffer
  else if c.dialect.timestampTypes.contains column.nativeType then return .timestamp
  else if ← holdsTruth c sample column then return .boolean
  else return .string

end Column

end RowAccess
