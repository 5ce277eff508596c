import RowAccess.Number.Reading
import RowAccess.Number.Shortest
import RowAccess.Text.Quoted
import RowAccess.Value

/-
  RowAccess/Shown.lean
  ====================
  **Values in messages.**  `shown` writes a value so that its kind can be told: texts are quoted,
  dates and timestamps are written with their parts.  `plain` writes texts and dates as they are
  read aloud, and all else as `shown` does.  Both say what a value's text is where it has one:
  an integer of too many digits cannot be written, and `isWritable` tells whether a value holds one.
-/

namespace RowAccess

/-- A truth value in a message. -/
def boolShown (b : Bool) : String :=
  if b then "True" else "False"

def Date.shown (d : Date) : String :=
  "datetime.date(" ++ ", ".intercalate ([d.year, d.month, d.day].map Text.decimal) ++ ")"

/-- The parts of a timestamp down to the last one that is not zero, the minute at least. -/
def Timestamp.parts (t : Timestamp) : List Nat :=
  [t.date.year, t.date.month, t.date.day, t.hour, t.minute] ++
    (if t.second = 0 ∧ t.micro = 0 then [] else [t.second]) ++
    (if t.micro = 0 then [] else [t.micro])

/-- A timestamp with its parts and its zone. -/
def Timestamp.shown (t : Timestamp) : String :=
  "datetime.datetime(" ++ ", ".intercalate (t.parts.map Text.decimal) ++
    (match t.offset with
      | none => ""
      | some o =>
        ", tzinfo=" ++
          if o = 0 then "datetime.timezone.utc"
          else "datetime.timezone(" ++ durationShown o ++ ")") ++ ")"

def DateLiteral.shown (l : DateLiteral) : String :=
  "DateLiteral(text=" ++ Text.quoted l.text ++ ", raw=" ++ boolShown l.raw ++ ")"

namespace Value

mutual

def shown : Value → String
  | .null => "None"
  | .bool b => boolShown b
  | .int n => Text.decimalInt n
  | .float x => x.text
  | .text s => Text.quoted s
  | .bytes bs => Text.quotedBytes bs
  | .date d => d.shown
  | .timestamp t => t.shown
  | .dateLiteral l => l.shown
  | .list xs => "[" ++ ", ".intercalate (shownList xs) ++ "]"
  | .object fs => "\x7b" ++ ", ".intercalate (shownFields fs) ++ "\x7d"

def shownList : List Value → List String
  | [] => []
  | x :: xs => shown x :: shownList xs

/-- The fields of an object in a message. -/
def shownFields : List (String × Value) → List String
  | [] => []
  | (k, v) :: r => (Text.quoted k ++ ": " ++ shown v) :: shownFields r

end

def plain : Value → String
  | .text s => s
  | .date d => d.text
  | .timestamp t => t.textWith " "
  | v => v.shown

/-! ## Values that can be written -/

mutual

/-- Can a value be written?  It holds no integer of more digits than may be written. -/
def isWritable : Value → Bool
  | .int n => Number.isWritten n
  | .list xs => areWritable xs
  | .object fs => areFieldsWritable fs
  | _ => true

def areWritable : List Value → Bool
  | [] => true
  | x :: xs => isWritable x && areWritable xs

/-- Can the values of fields be written? -/
def areFieldsWritable : List (String × Value) → Bool
  | [] => true
  | (_, v) :: r => isWritable v && areFieldsWritable r

end

theorem isWritable_list_iff {xs : List Value} :
    (Value.list xs).isWritable = true ↔ ∀ x ∈ xs, x.isWritable = true := by
  rw [isWritable]
  induction xs with
  | nil => simp [areWritable]
  | cons x xs ih => rw [areWritable, Bool.and_eq_true, ih, List.forall_mem_cons]

theorem isWritable_object_iff {fields : Fields} :
    (Value.object fields).isWritable = true ↔ ∀ e ∈ fields, e.2.isWritable = true := by
  rw [isWritable]
  induction fields with
  | nil => simp [areFieldsWritable]
  | cons e fields ih => rw [areFieldsWritable, Bool.and_eq_true, ih, List.forall_mem_cons]

end Value

def namesShown (names : List String) : String :=
  "[" ++ ", ".intercalate (names.map Text.quoted) ++ "]"

end RowAccess
