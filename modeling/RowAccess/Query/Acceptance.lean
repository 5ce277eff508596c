import RowAccess.Query.Validation

/-
  RowAccess/Query/Acceptance.lean
  ===============================
  **Which queries are well formed**, said without the check: an object under the names of keys that
  holds either one aggregate, or at most one starter beside selections, records, a limit and an
  order, each in its form.
-/

namespace RowAccess

namespace Acceptance

/-- A text that is not blank. -/
def IsName (v : Value) : Prop :=
  ∃ s, v = .text s ∧ Text.isBlankText s = false

/-- A value that is neither null nor blank text. -/
def IsPresent (v : Value) : Prop :=
  v ≠ .null ∧ ∀ s, v = .text s → Text.isBlankText s = false

/-- A value that is neither a list nor an object. -/
def IsSingle (v : Value) : Prop :=
  (∀ vs, v ≠ .list vs) ∧ ∀ fs, v ≠ .object fs

/-- The value of a field, null where it is absent. -/
def field (record : Fields) (f : ClauseField) : Value :=
  (Keyed.find? record f.name).getD .null

/-! ## Records -/

/-- A record that names a column and nests nothing where single values belong. -/
structure NamesColumn (record : Fields) : Prop where
  column : IsName (field record .column)
  single : ∀ f ∈ [ClauseField.column, .comparator, .value], IsSingle (field record f)

structure Compares (record : Fields) : Prop extends NamesColumn record where
  value : IsPresent (field record .value)

/-- A comparator that is left out, blank, or the name of one in any case. -/
def IsComparator (v : Value) : Prop :=
  ¬ IsPresent v ∨ ∃ s c, v = .text s ∧ Text.upper s = Comparator.name c

structure IsComparison (record : Fields) : Prop extends Compares record where
  comparator : IsComparator (field record .comparator)

structure Lists (record : Fields) (vs : List Value) : Prop extends NamesColumn record where
  values : field record .values = .list vs
  entries : ∀ v ∈ vs, IsPresent v ∧ IsSingle v

def IsMembership (record : Fields) : Prop :=
  ∃ vs, vs ≠ [] ∧ Lists record vs

/-- A bound of a range: a text that spells a naive timestamp, or a number. -/
def IsBound (v : Value) : Prop :=
  (∃ s t, v = .text s ∧ Iso.read (Text.strip s) = .ok t ∧ t.isNaive = true) ∨
    v.numeral?.isSome = true

def IsRange (record : Fields) : Prop :=
  ∃ low high, Lists record [low, high] ∧ IsBound low ∧ IsBound high

def StarterRecord (kind : StarterKind) (record : Fields) : Prop :=
  match kind with
  | .where_ | .whereNot => IsComparison record
  | .whereLike => Compares record
  | .whereIn | .whereNotIn => IsMembership record
  | .whereBetween | .whereNotBetween => IsRange record

def Records (p : Fields → Prop) (v : Value) : Prop :=
  (∃ record, v = .object record ∧ p record) ∨
    ∃ records : List Fields, v = .list (records.map .object) ∧ ∀ record ∈ records, p record

/-! ## Other keys -/

/-- A column name, or a list without missing entries. -/
def IsSelection (v : Value) : Prop :=
  IsName v ∨ ∃ vs, v = .list vs ∧ ∀ w ∈ vs, IsPresent w

/-- A whole number that is not negative, or a text that spells one. -/
def IsLimit (v : Value) : Prop :=
  ∃ (x : Numeral) (n : Nat), v.numeral? = some x ∧ x.toInt? = some n

/-- An order entry: a column and a direction in any case. -/
def IsOrderRecord (entry : Fields) : Prop :=
  IsName ((Keyed.find? entry orderColumnName).getD .null) ∧
    ∃ s d, Keyed.find? entry orderDirectionName = some (.text s) ∧
      Text.lower s = Direction.name d

/-! ## Queries -/

def Belongs : Key → Value → Prop
  | .select, v => IsSelection v
  | .starter kind, v => ∃ record, v = .object record ∧ StarterRecord kind record
  | .andWhere, v | .orWhere, v => Records IsComparison v
  | .orWhereIn, v => Records IsMembership v
  | .aggregate _, v => IsName v
  | .limit, v => IsLimit v
  | .order, v => Records IsOrderRecord v

/-- A query for an aggregate: one of the two, whatever else there is. -/
def IsAggregateQuery (query : Fields) : Prop :=
  ∃ f v, Keyed.find? query (Aggregate.name f) = some v ∧ IsName v ∧
    ∀ g, g ≠ f → Keyed.find? query (Aggregate.name g) = none

/-- A query for rows: no aggregate, at most one starter, and every key holds what belongs there. -/
structure IsRowQuery (query : Fields) : Prop where
  noAggregate : ∀ f, Keyed.find? query (Aggregate.name f) = none
  oneStarter : ∀ j k v w, Keyed.find? query (StarterKind.name j) = some v →
    Keyed.find? query (StarterKind.name k) = some w → j = k
  belongs : ∀ key v, Keyed.find? query (Key.name key) = some v → Belongs key v

end Acceptance

/-- A well-formed query. -/
def Acceptable (v : Value) : Prop :=
  ∃ query : Fields, v = .object query ∧ (∀ name ∈ Keyed.keys query, Key.isName name = true) ∧
    (Acceptance.IsAggregateQuery query ∨ Acceptance.IsRowQuery query)

end RowAccess
