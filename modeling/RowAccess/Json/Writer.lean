import RowAccess.Number.Reading
import RowAccess.Number.Shortest
import RowAccess.Value

/-
  RowAccess/Json/Writer.lean
  ==========================
  **Writing JSON documents.**  The compact form puts a space after commas and colons, the indented
  form puts every entry on a line of its own, two spaces deeper than its container.  Characters
  beyond printable ASCII are written as numeric escapes, those beyond the basic plane as a pair.
  Byte strings, dates and timestamps have no JSON form, nor have integers of too many digits.
-/

namespace RowAccess.Json

def numericEscape (n : Nat) : String :=
  "\\u" ++ Text.paddedHex 4 n

def escapeChar (c : Char) : String :=
  let n := c.toNat
  match c with
  | '"' => "\\\""
  | '\\' => "\\\\"
  | '\n' => "\\n"
  | '\r' => "\\r"
  | '\t' => "\\t"
  | _ =>
    if n = 8 then "\\b"
    else if n = 12 then "\\f"
    else if 32 ≤ n && n < 127 then String.singleton c
    else if n < 0x10000 then numericEscape n
    else numericEscape (0xD800 + (n - 0x10000) / 0x400) ++
      numericEscape (0xDC00 + (n - 0x10000) % 0x400)

def writeString (s : String) : String :=
  "\"" ++ String.join (s.toList.map escapeChar) ++ "\""

/-- A number. -/
def writeFloat : Binary64 → String
  | .nan _ => "NaN"
  | .infinite negative => if negative then "-Infinity" else "Infinity"
  | x => x.text

/-- Why a value has no JSON form: its kind has none, or it is an integer of too many digits. -/
inductive Unwritable where
  | kind (name : String)
  | tooManyDigits
  deriving DecidableEq, Repr

/-- The wording of an unwritable value. -/
def Unwritable.message : Unwritable → String
  | .kind name => "Object of type " ++ name ++ " is not JSON serializable"
  | .tooManyDigits => Number.tooLongToWrite

/-- An integer, with no more digits than are read. -/
def writeInt (n : Int) : Except Unwritable String :=
  if Number.isWritten n then .ok (Text.decimalInt n) else .error .tooManyDigits

/-- The entries of a container between its brackets. -/
def enclose (opening closing : String) (indent : Option Nat) (entries : List String) : String :=
  if entries.isEmpty then opening ++ closing
  else match indent with
    | none => opening ++ ", ".intercalate entries ++ closing
    | some depth =>
      let line (d : Nat) := "\n" ++ String.ofList (List.replicate (2 * d) ' ')
      opening ++ line (depth + 1) ++ ("," ++ line (depth + 1)).intercalate entries ++ line depth ++
        closing

/-- The depth inside a container. -/
def deeper (indent : Option Nat) : Option Nat :=
  indent.map (· + 1)

mutual

/-- Writes a value at a depth, `none` for the compact form. -/
def write (indent : Option Nat) : Value → Except Unwritable String
  | .null => .ok "null"
  | .bool b => .ok (if b then "true" else "false")
  | .int n => writeInt n
  | .float x => .ok (writeFloat x)
  | .text s => .ok (writeString s)
  | .list xs => (writeEntries (deeper indent) xs).map (enclose "[" "]" indent)
  | .object fs => (writeFields (deeper indent) fs).map (enclose "\x7b" "\x7d" indent)
  | v => .error (.kind v.kindName)

def writeEntries (indent : Option Nat) : List Value → Except Unwritable (List String)
  | [] => .ok []
  | x :: xs => do
    let s ← write indent x
    let r ← writeEntries indent xs
    return s :: r

def writeFields (indent : Option Nat) : List (String × Value) → Except Unwritable (List String)
  | [] => .ok []
  | (k, v) :: r => do
    let s ← write indent v
    let rest ← writeFields indent r
    return (writeString k ++ ": " ++ s) :: rest

end

/-- The compact form of a document. -/
def compact (v : Value) : Except Unwritable String :=
  write none v

/-- The indented form of a document. -/
def indented (v : Value) : Except Unwritable String :=
  write (some 0) v

end RowAccess.Json
