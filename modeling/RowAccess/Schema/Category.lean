import RowAccess.Value

/-
  RowAccess/Schema/Category.lean
  ==============================
  **The categories of columns.**  Every column of a table belongs to exactly one of five.
-/

namespace RowAccess

/-- What a column holds. -/
inductive Category where
  | number
  | buffer
  | timestamp
  | boolean
  | string
  deriving DecidableEq, Repr

namespace Category

/-- Every category, in the order in which columns are looked up. -/
def all : List Category := [.number, .buffer, .timestamp, .boolean, .string]

def name : Category → String
  | .number => "number"
  | .buffer => "buffer"
  | .timestamp => "timestamp"
  | .boolean => "boolean"
  | .string => "string"

def ofName? (name : String) : Option Category :=
  all.find? fun c => c.name == name

end Category

inductive IdType where
  | number
  | string
  deriving DecidableEq, Repr

namespace IdType

def name : IdType → String
  | .number => "number"
  | .string => "string"

def ofName? (name : String) : Option IdType :=
  if name == "number" then some .number
  else if name == "string" then some .string
  else none

end IdType

end RowAccess
