import RowAccess.Conversion
import RowAccess.Number.Parsing
import RowAccess.Schema.Table

/-
  RowAccess/Operation/Storage.lean
  ================================
  **Clauses in the terms of storage.**  Before a clause reaches a backend, its values are put into
  the form for the category of its column: dates for timestamp columns, sentinels for columns of
  truth values, numbers for number columns.  Patterns, and clauses on columns that the schema does
  not know, stay as they are.
-/

namespace RowAccess

namespace Storage

/-- The truth value that a text spells, whatever its case. -/
def spelledTruth? (s : String) : Option Bool :=
  let lowered := Text.lower s
  if lowered = "true" then some true
  else if lowered = "false" then some false
  else none

def truthValue (c : Config) : Value → Value
  | .text s =>
    match spelledTruth? s with
    | some b => Conversion.booleanIn c (.bool b)
    | none => .text s
  | v => Conversion.booleanIn c v

def numberValue (v : Value) : Value :=
  match v.numeral? with
  | some n => n.toValue
  | none => v

def value (c : Config) (category : Category) (v : Value) : Except Fault Value :=
  match category with
  | .timestamp => (Conversion.comparisonDate c v).map .dateLiteral
  | .boolean => .ok (truthValue c v)
  | .number => .ok (numberValue v)
  | _ => .ok v

def comparison (c : Config) (category : Category) (clause : Comparison) :
    Except Fault Comparison := do
  return { clause with value := ← value c category clause.value }

def membership (c : Config) (category : Category) (clause : Membership) :
    Except Fault Membership := do
  let first ← value c category clause.first
  let rest ← clause.rest.mapM (value c category)
  return { clause with first, rest }

def range (c : Config) (category : Category) (clause : Range) : Except Fault Range := do
  let low ← value c category clause.low
  let high ← value c category clause.high
  return { clause with low, high }

def categoryIn? (schema : Option TableSchema) (column : Value) :
    Except Fault (Option Category) :=
  match schema with
  | none => .ok none
  | some t => t.lookup column

/-- Converts for the category of a column, or leaves as it is what has none. -/
def onColumn {α : Type} (schema : Option TableSchema) (column : Value)
    (convert : Category → α → Except Fault α) (a : α) : Except Fault α := do
  match ← categoryIn? schema column with
  | some k => convert k a
  | none => return a

end Storage

def Comparison.forStorage (schema : Option TableSchema) (c : Config) (clause : Comparison) :
    Except Fault Comparison :=
  Storage.onColumn schema clause.column (Storage.comparison c) clause

def Membership.forStorage (schema : Option TableSchema) (c : Config) (clause : Membership) :
    Except Fault Membership :=
  Storage.onColumn schema clause.column (Storage.membership c) clause

def Range.forStorage (schema : Option TableSchema) (c : Config) (clause : Range) :
    Except Fault Range :=
  Storage.onColumn schema clause.column (Storage.range c) clause

def Clause.forStorage (schema : Option TableSchema) (c : Config) : Clause → Except Fault Clause
  | .comparison clause => (clause.forStorage schema c).map .comparison
  | .like clause => .ok (.like clause)
  | .membership clause => (clause.forStorage schema c).map .membership
  | .range clause => (clause.forStorage schema c).map .range

end RowAccess
