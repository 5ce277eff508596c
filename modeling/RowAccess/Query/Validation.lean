import RowAccess.Conversion
import RowAccess.Number.Parsing

/-
  RowAccess/Query/Validation.lean
  ===============================
  **Checking queries.**  A check reads the record form of a query, applies defaults and conversions
  to it as it goes (the comparator, the bounds of a range, the limit, the direction of an order
  entry, single values in place of lists), and gives the typed form or the first fault met.  What
  was applied before a fault stays applied.
-/

namespace RowAccess

namespace Validation

/-- A check of a query: it may change the query and it may fail. -/
abbrev Check := ExceptT Fault (StateM Fields)

/-- Missing values: null and blank text. -/
def isMissing : Value → Bool
  | .null => true
  | .text s => Text.isBlankText s
  | _ => false

/-- The value of a field, null where it is absent. -/
def fieldValue (record : Fields) (name : String) : Value :=
  (Keyed.find? record name).getD .null

def fail {α : Type} (cause : ValidationFault) : Except Fault α :=
  .error (.validation cause)

/-- The first field that should hold a single value and holds a list or an object. -/
def nestedField? (record : Fields) : Option ClauseField :=
  [ClauseField.column, .comparator, .value].find? fun f =>
    let v := fieldValue record f.name
    v.isList || v.isObject

def recordOf (place : Location) : Value → Except Fault Fields
  | .object record =>
    match nestedField? record with
    | some f => fail (.nesting place f (fieldValue record f.name))
    | none => .ok record
  | v => fail (.recordKind place v)

def givenText? (v : Value) : Option String :=
  match v with
  | .text s => if Text.isBlankText s then none else some s
  | _ => none

def columnOf (place : Location) (record : Fields) : Except Fault String :=
  match givenText? (fieldValue record ClauseField.column.name) with
  | some c => .ok c
  | none => fail (.columnMissing place)

/-! ## Comparisons -/

def comparatorOf (place : Location) (record : Fields) : Except Fault Comparator :=
  let v := fieldValue record ClauseField.comparator.name
  if isMissing v then .ok .eq
  else match v with
    | .text s =>
      match Comparator.ofName? (Text.upper s) with
      | some c => .ok c
      | none => fail (.comparator place v)
    | _ => fail (.comparator place v)

def columnAndValue (place : Location) (record : Fields) : Except Fault (String × Value) := do
  let column ← columnOf place record
  let value := fieldValue record ClauseField.value.name
  if isMissing value then fail (.valueMissing place) else return (column, value)

def comparisonOf (place : Location) (record : Fields) : Except Fault Comparison := do
  let (column, value) ← columnAndValue place record
  let comparator ← comparatorOf place record
  return ⟨.text column, comparator, value⟩

def withComparator (c : Comparison) (record : Fields) : Fields :=
  Keyed.put record ClauseField.comparator.name (.text c.comparator.name)

/-- The pattern of a record; its comparator is disregarded. -/
def likeOf (place : Location) (record : Fields) : Except Fault Like := do
  let (column, value) ← columnAndValue place record
  return ⟨.text column, value⟩

/-! ## Value lists -/

def isEntry (v : Value) : Bool :=
  !isMissing v && !v.isList && !v.isObject

/-- The value list of a record: its first value and the others. -/
def valuesOf (place : Location) (record : Fields) : Except Fault (Value × List Value) :=
  match fieldValue record ClauseField.values.name with
  | .list (v :: vs) =>
    match (v :: vs).find? fun w => !isEntry w with
    | some w => fail (.valuesEntry place w)
    | none => .ok (v, vs)
  | _ => fail (.valuesMissing place)

def membershipOf (place : Location) (record : Fields) : Except Fault Membership := do
  let column ← columnOf place record
  let (v, vs) ← valuesOf place record
  return ⟨.text column, v, vs⟩

/-- A bound of a range: a text that spells a date stays as it is, all else is a number. -/
def boundOf (key : Key) (v : Value) : Except Fault Value := do
  if ← Conversion.isTimestampText v then return v
  match v.numeral? with
  | some n => return n.toValue
  | none => fail (.bound key v)

def rangeOf (place : Location) (record : Fields) : Except Fault Range := do
  let column ← columnOf place record
  let (v, vs) ← valuesOf place record
  match vs with
  | [w] =>
    let low ← boundOf place.key v
    let high ← boundOf place.key w
    return ⟨.text column, low, high⟩
  | _ => fail (.boundCount place.key (v :: vs))

def withBounds (r : Range) (record : Fields) : Fields :=
  Keyed.put record ClauseField.values.name (.list [r.low, r.high])

/-! ## Keys with one record -/

/-- The clause of a starter's record, and the record with what was applied to it. -/
def starterClause (kind : StarterKind) (record : Fields) : Except Fault (Clause × Fields) :=
  let place : Location := ⟨.starter kind, none⟩
  match kind with
  | .whereIn | .whereNotIn => do
    let m ← membershipOf place record
    return (.membership m, record)
  | .whereBetween | .whereNotBetween => do
    let r ← rangeOf place record
    return (.range r, withBounds r record)
  | .whereLike => do
    let l ← likeOf place record
    return (.like l, record)
  | .where_ | .whereNot => do
    let c ← comparisonOf place record
    return (.comparison c, withComparator c record)

def presentStarters (query : Fields) : List (StarterKind × Value) :=
  StarterKind.all.filterMap fun k => (Keyed.find? query k.name).map (k, ·)

def write (key : Key) (v : Value) : Check Unit :=
  modify fun q => Keyed.put q key.name v

def lookup (key : Key) : Check (Option Value) := do
  return Keyed.find? (← get) key.name

/-- The starter of the query: there may be one. -/
def checkStarter : Check (Option Starter) := do
  match presentStarters (← get) with
  | [] => return none
  | [(kind, v)] =>
    let record ← recordOf ⟨.starter kind, none⟩ v
    let (clause, left) ← starterClause kind record
    write (.starter kind) (.object left)
    return some ⟨kind, clause⟩
  | several => fail (.severalStarters (several.map (·.1)))

/-! ## Keys with several records -/

/-- The records of a value, from an index on. -/
def recordsFrom (key : Key) : Nat → List Value → Except Fault (List Fields)
  | _, [] => .ok []
  | i, v :: vs => do
    let r ← recordOf ⟨key, some i⟩ v
    let rs ← recordsFrom key (i + 1) vs
    return r :: rs

def recordsOf (key : Key) : Value → Except Fault (List Fields)
  | .object record => do
    let r ← recordOf ⟨key, none⟩ (.object record)
    return [r]
  | .list vs => recordsFrom key 0 vs
  | v => fail (.recordsKind key v)

/-- The comparisons of records from an index on, and the records with what was applied to them up
to the first fault. -/
def comparisonsFrom (key : Key) : Nat → List Fields → Except Fault (List Comparison) × List Fields
  | _, [] => (.ok [], [])
  | i, r :: rs =>
    match comparisonOf ⟨key, some i⟩ r with
    | .error f => (.error f, r :: rs)
    | .ok c =>
      let (rest, left) := comparisonsFrom key (i + 1) rs
      (rest.map (c :: ·), withComparator c r :: left)

def sameForm (v : Value) (records : List Fields) : Value :=
  match v, records with
  | .object _, [r] => .object r
  | _, rs => .list (rs.map .object)

def checkComparisons (key : Key) : Check (List Comparison) := do
  match ← lookup key with
  | none => return []
  | some v =>
    let records ← recordsOf key v
    let (outcome, left) := comparisonsFrom key 0 records
    write key (sameForm v left)
    outcome

/-- The memberships of records from an index on. -/
def membershipsFrom (key : Key) : Nat → List Fields → Except Fault (List Membership)
  | _, [] => .ok []
  | i, r :: rs => do
    let m ← membershipOf ⟨key, some i⟩ r
    let ms ← membershipsFrom key (i + 1) rs
    return m :: ms

def checkMemberships (key : Key) : Check (List Membership) := do
  match ← lookup key with
  | none => return []
  | some v => membershipsFrom key 0 (← recordsOf key v)

/-! ## Selection, limit and order -/

/-- The selected columns; a single name is put into a list. -/
def checkSelect : Check (List Value) := do
  match ← lookup .select with
  | none => return []
  | some v =>
    let v ← match v with
      | .text s => do
        write .select (.list [.text s])
        pure (.list [.text s])
      | v => pure v
    match v with
    | .list columns => if columns.any isMissing then fail (.select v) else return columns
    | _ => fail (.select v)

/-- The number of rows that a value allows. -/
def limitOf (v : Value) : Except Fault Nat :=
  match v.numeral?.bind Numeral.toInt? with
  | some (.ofNat n) => .ok n
  | _ => fail (.limit v)

/-- The limit, written back as an integer. -/
def checkLimit : Check (Option Nat) := do
  match ← lookup .limit with
  | none => return none
  | some v =>
    let n ← limitOf v
    write .limit (.int n)
    return some n

def orderTermOf (place : Location) (v : Value) : Except Fault OrderTerm :=
  match v with
  | .object entry =>
    match givenText? (fieldValue entry orderColumnName) with
    | none => fail (.orderColumn place)
    | some column =>
      let direction := fieldValue entry orderDirectionName
      match direction with
      | .text s =>
        match Direction.ofName? (Text.lower s) with
        | some d => .ok ⟨.text column, d⟩
        | none => fail (.orderDirection place direction)
      | _ => fail (.orderDirection place direction)
  | v => fail (.orderEntryKind place v)

def withDirection (t : OrderTerm) : Value → Value
  | .object entry => .object (Keyed.put entry orderDirectionName (.text t.direction.name))
  | v => v

/-- The order terms of entries from an index on, and the entries with what was applied to them up
to the first fault. -/
def orderTermsFrom : Nat → List Value → Except Fault (List OrderTerm) × List Value
  | _, [] => (.ok [], [])
  | i, v :: vs =>
    match orderTermOf ⟨.order, some i⟩ v with
    | .error f => (.error f, v :: vs)
    | .ok t =>
      let (rest, left) := orderTermsFrom (i + 1) vs
      (rest.map (t :: ·), withDirection t v :: left)

/-- The order; a single entry is put into a list. -/
def checkOrder : Check (List OrderTerm) := do
  match ← lookup .order with
  | none => return []
  | some v =>
    let v ← match v with
      | .object entry => do
        write .order (.list [.object entry])
        pure (.list [.object entry])
      | v => pure v
    match v with
    | .list entries =>
      let (outcome, left) := orderTermsFrom 0 entries
      write .order (.list left)
      outcome
    | _ => fail (.orderKind v)

/-! ## Queries -/

def presentAggregates (query : Fields) : List (Aggregate × Value) :=
  [Aggregate.min, .max].filterMap fun f => (Keyed.find? query f.name).map (f, ·)

def aggregateOf : List (Aggregate × Value) → Except Fault (Option AggregateRequest)
  | [] => .ok none
  | [(f, v)] =>
    match givenText? v with
    | some column => .ok (some ⟨f, column⟩)
    | none => fail (.aggregateColumn f)
  | _ => fail .twoAggregates

/-- The first name that is no key. -/
def unknownName? (query : Fields) : Option String :=
  (Keyed.keys query).find? fun k => !Key.isName k

/-- Checks everything but an aggregate. -/
def checkRows : Check Query := do
  let select ← checkSelect
  let starter ← checkStarter
  let andWhere ← checkComparisons .andWhere
  let orWhere ← checkComparisons .orWhere
  let orWhereIn ← checkMemberships .orWhereIn
  let limit ← checkLimit
  let order ← checkOrder
  return { select, starter, andWhere, orWhere, orWhereIn, limit, order }

def check : Check Query := do
  match unknownName? (← get) with
  | some name => fail (.unknownKey name)
  | none =>
    match ← aggregateOf (presentAggregates (← get)) with
    | some request => return { aggregate := some request }
    | none => checkRows

end Validation

/-- Checks the record form of a query: the typed form or the failure, and the query as the check
left it. -/
def validate (v : Value) : Except Fault (Reply Query) × Value :=
  match v with
  | .object query =>
    let (outcome, left) := Validation.check.run query
    (capture outcome, .object left)
  | v => (capture (.error (.validation (.queryKind v))), v)

/-- What is no object is refused for its kind. -/
theorem validate_of_not_isObject {v : Value} (h : v.isObject = false) :
    validate v = (capture (.error (.validation (.queryKind v))), v) := by
  cases v with
  | object query => cases h
  | _ => rfl

end RowAccess
