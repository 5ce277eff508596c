import RowAccess.Calendar.Date

/-
  RowAccess/Calendar/Timestamp.lean
  =================================
  **Points in time**: a date, a time of day down to the microsecond and, for the timestamps that
  name one, the offset of the time zone.  A timestamp without an offset is called naive.
-/

namespace RowAccess

/-- A length of time in a message, in days and seconds. -/
def durationShown (seconds : Int) : String :=
  let days := seconds.fdiv 86400
  let rest := (seconds.fmod 86400).toNat
  let parts :=
    (if days = 0 then [] else ["days=" ++ Text.decimalInt days]) ++
      (if rest = 0 then [] else ["seconds=" ++ Text.decimal rest])
  "datetime.timedelta(" ++ (if parts.isEmpty then "0" else ", ".intercalate parts) ++ ")"

/-- A date with a time of day and perhaps a zone offset in seconds. -/
structure Timestamp where
  date : Date
  hour : Nat
  minute : Nat
  second : Nat
  micro : Nat
  offset : Option Int
  exists_time : hour < 24 ∧ minute < 60 ∧ second < 60 ∧ micro < 1000000
  deriving DecidableEq, Repr

namespace Timestamp

/-- The timestamp of the parts, if the time of day exists. -/
def of? (date : Date) (hour minute second micro : Nat) (offset : Option Int) :
    Option Timestamp :=
  if h : hour < 24 ∧ minute < 60 ∧ second < 60 ∧ micro < 1000000 then
    some ⟨date, hour, minute, second, micro, offset, h⟩
  else none

def midnight (date : Date) : Timestamp :=
  ⟨date, 0, 0, 0, 0, none, by decide⟩

/-- Does the timestamp name no zone? -/
def isNaive (t : Timestamp) : Bool :=
  t.offset.isNone

/-- The same time one day later, if the calendar has that day. -/
def nextDay? (t : Timestamp) : Option Timestamp :=
  t.date.next?.map fun d => { t with date := d }

/-- A number that puts naive timestamps in order of time at the precision of seconds. -/
def secondRank (t : Timestamp) : Nat :=
  ((t.date.rank * 24 + t.hour) * 60 + t.minute) * 60 + t.second

/-- The text of an offset: sign, hours, minutes, and seconds where there are any. -/
def offsetText (offset : Int) : String :=
  let n := offset.natAbs
  (if offset < 0 then "-" else "+") ++ Text.padded 2 (n / 3600) ++ ":" ++
    Text.padded 2 (n / 60 % 60) ++
    (if n % 60 = 0 then "" else ":" ++ Text.padded 2 (n % 60))

/-- Hours, minutes and seconds, and microseconds where there are any. -/
def timeText (t : Timestamp) : String :=
  Text.padded 2 t.hour ++ ":" ++ Text.padded 2 t.minute ++ ":" ++ Text.padded 2 t.second ++
    (if t.micro = 0 then "" else "." ++ Text.padded 6 t.micro)

def textWith (separator : String) (t : Timestamp) : String :=
  t.date.text ++ separator ++ t.timeText ++
    match t.offset with
    | none => ""
    | some o => offsetText o

def isoText (t : Timestamp) : String :=
  t.textWith "T"

/-- Date, a space and the time with all six places of the second, without the offset. -/
def fullText (t : Timestamp) : String :=
  t.date.text ++ " " ++ Text.padded 2 t.hour ++ ":" ++ Text.padded 2 t.minute ++ ":" ++
    Text.padded 2 t.second ++ "." ++ Text.padded 6 t.micro

end Timestamp

end RowAccess
