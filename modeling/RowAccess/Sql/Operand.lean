import RowAccess.Shown
import RowAccess.Sql.Expression
import RowAccess.Text.Blank

/-
  RowAccess/Sql/Operand.lean
  ==========================
  **What a statement compares with or stores.**  A value is bound: the statement holds a
  placeholder, and the value travels beside it.  Only raw date literals and truth values stand in
  the statement itself.  Before it travels a value is prepared for its kind; the values of one list
  are all prepared for the kind of the first.
-/

namespace RowAccess.Sql

inductive Preparation where
  | plain
  | truth
  | double
  | instant
  | day
  | bytes
  deriving DecidableEq, Repr

/-- Why a value cannot be prepared. -/
inductive Unprepared where
  | noNumber (text : String)
  | numberKind (name : String)
  | numberSize
  | noTruth (shown : String)
  | truthRange (shown : String)
  | noKey (name : String)
  | instantKind
  | dayKind
  | bytesKind (name : String)
  | unnamed (shown : String)
  | memberless (name : String)
  | noIndex
  deriving DecidableEq, Repr

/-- The wording of a value that cannot be prepared. -/
def Unprepared.message : Unprepared → String
  | .noNumber text => "(builtins.ValueError) could not convert string to float: " ++ text
  | .numberKind name =>
    "(builtins.TypeError) float() argument must be a string or a real number, not '" ++ name ++ "'"
  | .numberSize => "(builtins.OverflowError) int too large to convert to float"
  | .noTruth shown => "(builtins.TypeError) Not a boolean value: " ++ shown
  | .truthRange shown =>
    "(builtins.ValueError) Value " ++ shown ++ " is not None, True, or False"
  | .noKey name => "(builtins.TypeError) unhashable type: '" ++ name ++ "'"
  | .instantKind =>
    "(builtins.TypeError) SQLite DateTime type only accepts Python datetime and date objects " ++
      "as input."
  | .dayKind =>
    "(builtins.TypeError) SQLite Date type only accepts Python date objects as input."
  | .bytesKind name =>
    "(builtins.TypeError) memoryview: a bytes-like object is required, not '" ++ name ++ "'"
  | .unnamed shown => "(builtins.KeyError) " ++ shown
  | .memberless name => "(builtins.TypeError) '" ++ name ++ "' object is not iterable"
  | .noIndex => "(builtins.IndexError) list index out of range"

namespace Preparation

def of : Value → Preparation
  | .bool _ => .truth
  | .float _ => .double
  | .timestamp _ => .instant
  | .date _ => .day
  | .bytes _ => .bytes
  | _ => .plain

/-- A value as a truth value, written as the integer that stands for it. -/
def toTruth : Value → Except Unprepared Value
  | .null => .ok .null
  | .bool b => .ok (.int (Value.ofBool b))
  | .int n => if n = 0 ∨ n = 1 then .ok (.int n) else .error (.truthRange (Value.int n).shown)
  | .float x =>
    match x.toInt? with
    | some n => if n = 0 ∨ n = 1 then .ok (.int n) else .error (.noTruth (Value.float x).shown)
    | none => .error (.noTruth (Value.float x).shown)
  | .list _ => .error (.noKey (Value.list []).kindName)
  | .object _ => .error (.noKey (Value.object []).kindName)
  | v => .error (.noTruth v.shown)

def intToDouble (n : Int) : Except Unprepared Value :=
  match Binary64.ofInt n with
  | .finite s m e => .ok (.float (.finite s m e))
  | _ => .error .numberSize

/-- The characters of a text with every blank beyond ASCII as a space. -/
def plainBlanks (cs : List Char) : List Char :=
  cs.map fun c => if 128 ≤ c.toNat && Text.isBlank c then ' ' else c

/-- Characters as a double; blanks of ASCII around them do not count. -/
def charsToDouble (cs : List Char) (shown : String) : Except Unprepared Value :=
  match Number.readDecimal? (trimNumber cs) with
  | some x => .ok (.float x)
  | none => .error (.noNumber shown)

def toDouble : Value → Except Unprepared Value
  | .null => .ok .null
  | .bool b => intToDouble (Value.ofBool b)
  | .int n => intToDouble n
  | .float x => .ok (.float x)
  | .text s => charsToDouble (plainBlanks s.toList) (Value.text s).shown
  | .bytes bs => charsToDouble (bs.map fun b => Char.ofNat b.toNat) (Value.bytes bs).shown
  | v => .error (.numberKind v.fullKindName)

/-- A value as a point in time. -/
def toInstant : Value → Except Unprepared Value
  | .null => .ok .null
  | .timestamp t => .ok (.text t.fullText)
  | .date d => .ok (.text (Timestamp.midnight d).fullText)
  | _ => .error .instantKind

def toDay : Value → Except Unprepared Value
  | .null => .ok .null
  | .timestamp t => .ok (.text t.date.text)
  | .date d => .ok (.text d.text)
  | _ => .error .dayKind

def toBytes : Value → Except Unprepared Value
  | .null => .ok .null
  | .bytes bs => .ok (.bytes bs)
  | v => .error (.bytesKind v.fullKindName)

def apply : Preparation → Value → Except Unprepared Value
  | .plain => .ok
  | .truth => toTruth
  | .double => toDouble
  | .instant => toInstant
  | .day => toDay
  | .bytes => toBytes

end Preparation

inductive Operand where
  | bound (preparation : Preparation) (value : Value)
  | verbatim (text : String)
  | truth (b : Bool)
  deriving Repr

namespace Operand

/-- A value bound by itself; a raw date literal stands in the statement, any other one is bound as
its text. -/
def ofValue : Value → Operand
  | .dateLiteral l => if l.raw then .verbatim l.text else .bound .plain (.text l.text)
  | v => .bound (.of v) v

def stored : Value → Operand
  | .dateLiteral l => if l.raw then .verbatim l.text else .bound .plain (.text l.text)
  | v => .bound .plain v

/-- Is the operand a value that travels beside the statement? -/
def isBound : Operand → Bool
  | .bound .. => true
  | _ => false

def sentCell (p : Preparation) (v : Value) : Cell :=
  match p.apply v with
  | .ok w => (Cell.ofValue w).toOption.getD .null
  | .error _ => .null

/-- The operand in an expression.  What stands in the statement as a text has no value here: such a
statement is read as a text. -/
def expr : Operand → Expr
  | .bound p v => .bound (sentCell p v)
  | .verbatim _ => .literal .null
  | .truth b => .literal (.int (Value.ofBool b))

end Operand

end RowAccess.Sql
