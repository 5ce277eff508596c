import RowAccess.Calendar.Timestamp
import RowAccess.Keyed
import RowAccess.Number.Binary64

/-
  RowAccess/Value.lean
  ====================
  **The values that queries, records and rows hold**: the values of a JSON document, byte strings,
  dates and timestamps, and dates already written in the syntax of a SQL dialect.  Two values can be
  the same although their forms differ: `true`, the integer 1 and the number 1.0 are one value.
-/

namespace RowAccess

/-- A date or timestamp in the syntax of a SQL dialect.  A raw literal is an expression to be put
into the statement, any other one a text to be bound. -/
structure DateLiteral where
  text : String
  raw : Bool
  deriving DecidableEq, Repr

/-- A value of a query, a record or a row. -/
inductive Value where
  | null
  | bool (b : Bool)
  | int (n : Int)
  | float (x : Binary64)
  | text (s : String)
  | bytes (bs : List UInt8)
  | date (d : Date)
  | timestamp (t : Timestamp)
  | dateLiteral (l : DateLiteral)
  | list (xs : List Value)
  | object (fields : List (String × Value))
  deriving Repr, Inhabited

abbrev Fields := Keyed String Value

namespace Value

/-! ## Sameness -/

/-- The integer that stands for a truth value. -/
def ofBool (b : Bool) : Int := if b then 1 else 0

/-- Are two points in time the same?  Two zones are compared by the instant, a naive timestamp only
with a naive one. -/
def sameTime (t u : Timestamp) : Bool :=
  match t.offset, u.offset with
  | none, none => t == u
  | some o, some p =>
    let instant (s : Timestamp) (offset : Int) : Int × Nat :=
      let months := (List.range (s.date.month - 1)).map fun m => daysInMonth s.date.year (m + 1)
      let days : Nat := Date.daysBeforeYear s.date.year + months.foldl (· + ·) 0 + s.date.day
      (days * 86400 + (s.hour * 3600 + s.minute * 60 + s.second : Nat) - offset, s.micro)
    instant t o == instant u p
  | _, _ => false

mutual

/-- Are two values the same?  What is no number is the same as itself only where a document spells
it. -/
def same : Value → Value → Bool
  | .null, .null => true
  | .bool a, .bool b => a == b
  | .bool a, .int n => ofBool a == n
  | .int n, .bool b => n == ofBool b
  | .bool a, .float x => x.compareInt? (ofBool a) == some .eq
  | .float x, .bool b => x.compareInt? (ofBool b) == some .eq
  | .int m, .int n => m == n
  | .int n, .float x => x.compareInt? n == some .eq
  | .float x, .int n => x.compareInt? n == some .eq
  | .float x, .float y => x.same y || (x == y && x == .nan true)
  | .text s, .text t => s == t
  | .bytes a, .bytes b => a == b
  | .date d, .date e => d == e
  | .timestamp t, .timestamp u => sameTime t u
  | .dateLiteral l, .dateLiteral m => l == m
  | .list xs, .list ys => sameList xs ys
  | .object fs, .object gs => fs.length == gs.length && sameFields fs gs
  | _, _ => false

def sameList : List Value → List Value → Bool
  | [], [] => true
  | x :: xs, y :: ys => same x y && sameList xs ys
  | _, _ => false

/-- Does the second object hold the same value under every name of the first? -/
def sameFields : List (String × Value) → List (String × Value) → Bool
  | [], _ => true
  | (k, v) :: r, gs =>
    (match Keyed.find? gs k with
      | some w => same v w
      | none => false) && sameFields r gs

end

instance : BEq Value := ⟨same⟩

/-! ## Kinds of values -/

/-- The name of a value's kind in messages. -/
def kindName : Value → String
  | .null => "NoneType"
  | .bool _ => "bool"
  | .int _ => "int"
  | .float _ => "float"
  | .text _ => "str"
  | .bytes _ => "bytes"
  | .date _ => "date"
  | .timestamp _ => "datetime"
  | .dateLiteral _ => "DateLiteral"
  | .list _ => "list"
  | .object _ => "dict"

/-- The name of a value's kind together with where the kind is defined. -/
def fullKindName : Value → String
  | .date _ => "datetime.date"
  | .timestamp _ => "datetime.datetime"
  | v => v.kindName

def isList : Value → Bool
  | .list _ => true
  | _ => false

def isObject : Value → Bool
  | .object _ => true
  | _ => false

def isText : Value → Bool
  | .text _ => true
  | _ => false

def isNull : Value → Bool
  | .null => true
  | _ => false

/-- Values that may be a key: all but lists and objects. -/
def isKey : Value → Bool
  | .list _ => false
  | .object _ => false
  | _ => true

/-- Values that count as given: not null, false, zero or empty. -/
def isGiven : Value → Bool
  | .null => false
  | .bool b => b
  | .int n => n != 0
  | .float x => !x.isZero
  | .text s => !s.isEmpty
  | .bytes bs => !bs.isEmpty
  | .date _ => true
  | .timestamp _ => true
  | .dateLiteral _ => true
  | .list xs => !xs.isEmpty
  | .object fs => !fs.isEmpty

/-- The members of a value that has members: the entries of a list, the characters of a text, the
names of an object, the numbers of a byte string. -/
def members? : Value → Option (List Value)
  | .list xs => some xs
  | .text s => some (s.toList.map fun c => .text (String.singleton c))
  | .object fs => some (fs.map fun (k, _) => .text k)
  | .bytes bs => some (bs.map fun b => .int b.toNat)
  | _ => none

/-- The integer that a value is as an index: truth values are indexes too. -/
def index? : Value → Option Int
  | .int n => some n
  | .bool b => some (ofBool b)
  | _ => none

def text? : Value → Option String
  | .text s => some s
  | _ => none

def fields? : Value → Option Fields
  | .object fs => some fs
  | _ => none

end Value

end RowAccess
