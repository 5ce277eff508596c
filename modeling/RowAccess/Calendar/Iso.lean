import RowAccess.Calendar.Timestamp
import RowAccess.Text.Blank

/-
  RowAccess/Calendar/Iso.lean
  ===========================
  **Reading ISO 8601 timestamps** from left to right.  A date is a year with a month and perhaps a
  day, with a day of the year, or with a week and perhaps a weekday, in the extended form with
  hyphens or the basic form without.  A time of day may follow, in the form of the date, and then a
  zone.  The first flaw met is reported with its byte position; a NUL character counts as the end.
-/

namespace RowAccess.Iso

/-- Why a text is no timestamp. -/
inductive Flaw where
  | ended (field : String) (missing : Nat)
  | unexpected (field : String) (c : Char) (index : Nat) (era : Bool)
  | week
  | dayTooSmall (count year : Nat)
  | dayTooLarge (count year : Nat)
  | extendedTime
  | basicTime
  | zoneMinute
  | zoneOffset (seconds : Int)
  | rest (text : String)
  | restAfterNul
  | year (n : Nat)
  | month
  | day
  | hour
  | minute
  | second
  | pastCalendar
  deriving DecidableEq, Repr

def Flaw.message : Flaw → String
  | .ended field missing =>
    "Unexpected end of string while parsing " ++ field ++ ". Expected " ++ Text.decimal missing ++
      " more character" ++ (if missing = 1 then "" else "s")
  | .unexpected field c index era =>
    "Invalid character while parsing " ++ field ++ " ('" ++ String.singleton c ++ "', Index: " ++
      Text.decimal index ++ ")" ++
      (if era then
        ". While valid ISO 8601 years, BCE years are not supported by Python's `datetime` objects."
      else "")
  | .week => "Invalid ISO Calendar date"
  | .dayTooSmall n y =>
    "Invalid ordinal day: " ++ Text.decimal n ++ " is too small for year " ++ Text.decimal y
  | .dayTooLarge n y =>
    "Invalid ordinal day: " ++ Text.decimal n ++ " is too large for year " ++ Text.decimal y
  | .extendedTime =>
    "Cannot combine \"basic\" date format with \"extended\" time format (Should be either " ++
      "`YYYY-MM-DDThh:mm:ss` or `YYYYMMDDThhmmss`)."
  | .basicTime =>
    "Cannot combine \"extended\" date format with \"basic\" time format (Should be either " ++
      "`YYYY-MM-DDThh:mm:ss` or `YYYYMMDDThhmmss`)."
  | .zoneMinute => "tzminute must be in 0..59"
  | .zoneOffset s =>
    "offset must be a timedelta strictly between -timedelta(hours=24) and timedelta(hours=24), " ++
      "not " ++ durationShown s ++ "."
  | .rest text => "unconverted data remains: '" ++ text ++ "'"
  | .restAfterNul => "unconverted data remains: embedded null byte"
  | .year n => "year " ++ Text.decimal n ++ " is out of range"
  | .month => "month must be in 1..12"
  | .day => "day is out of range for month"
  | .hour => "hour must be in 0..23"
  | .minute => "minute must be in 0..59"
  | .second => "second must be in 0..59"
  | .pastCalendar => "date value out of range"

/-! ## The reading position -/

/-- What is left of the text, and how many bytes are behind. -/
structure Cursor where
  rest : List Char
  index : Nat
  deriving Repr

/-- The character under the cursor; `none` at the end or at a NUL character. -/
def Cursor.head? (k : Cursor) : Option Char :=
  match k.rest with
  | [] => none
  | c :: _ => if c.toNat = 0 then none else some c

def Cursor.advance (k : Cursor) : Cursor :=
  match k.rest with
  | [] => k
  | c :: r => ⟨r, k.index + c.utf8Size⟩

/-- Reads `count` ASCII digits of a field after the value read so far. -/
def readDigits (field : String) : Nat → Nat → Cursor → Except Flaw (Nat × Cursor)
  | 0, value, k => .ok (value, k)
  | n + 1, value, k =>
    match k.head? with
    | none => .error (.ended field (n + 1))
    | some c =>
      match Text.asciiDigit? c with
      | some d => readDigits field n (10 * value + d) k.advance
      | none => .error (.unexpected field c k.index (field == "year" && c == '-' && k.index == 0))

/-- Passes one character of the class, or reports it under the field. -/
def readSeparator (field : String) (p : Char → Bool) (k : Cursor) : Except Flaw Cursor :=
  match k.head? with
  | none => .error (.ended field 1)
  | some c => if p c then .ok k.advance else .error (.unexpected field c k.index false)

/-- Is the next character in the class? -/
def Cursor.sees (k : Cursor) (p : Char → Bool) : Bool :=
  match k.head? with
  | none => false
  | some c => p c

def isTimeStart (c : Char) : Bool := c == 'T' || c == 't' || c == ' '

def isZoneStart (c : Char) : Bool := c == 'Z' || c == 'z' || c == '+' || c == '-'

def isFractionStart (c : Char) : Bool := c == '.' || c == ','

/-- Does another field follow before the class or the end? -/
def Cursor.continues (k : Cursor) (stop : Char → Bool) : Bool :=
  match k.head? with
  | none => false
  | some c => !stop c

/-! ## Dates -/

/-- The numbers of a date, whether it was written with hyphens, and the cursor after it. -/
structure DatePart where
  year : Nat
  month : Nat
  day : Nat
  extended : Bool
  cursor : Cursor

def ofOrdinal (year count : Nat) (extended : Bool) (k : Cursor) : Except Flaw DatePart :=
  if count < 1 then .error (.dayTooSmall count year)
  else if Date.daysInYear year < count then .error (.dayTooLarge count year)
  else
    let (m, d) := Date.ofDayOfYear year count
    .ok ⟨year, m, d, extended, k⟩

def ofWeek (year week weekday : Nat) (extended : Bool) (k : Cursor) : Except Flaw DatePart :=
  if year < 1 ∨ week < 1 ∨ Date.isoWeeks year < week ∨ weekday < 1 ∨ 7 < weekday then .error .week
  else
    let (y, m, d) := Date.ofIsoWeek year week weekday
    .ok ⟨y, m, d, extended, k⟩

/-- The rest of a date after the year and a hyphen. -/
def readExtendedDate (year : Nat) (k : Cursor) : Except Flaw DatePart := do
  if k.sees (· == 'W') then
    let (week, k) ← readDigits "iso_week" 2 0 k.advance
    if k.continues isTimeStart then
      let k ← readSeparator "date separator ('-')" (· == '-') k
      let (weekday, k) ← readDigits "iso_day" 1 0 k
      ofWeek year week weekday true k
    else ofWeek year week 1 true k
  else
    let (month, k) ← readDigits "month" 2 0 k
    if k.continues isTimeStart then
      if k.sees (· == '-') then
        let (day, k) ← readDigits "day" 2 0 k.advance
        return ⟨year, month, day, true, k⟩
      else
        let (count, k) ← readDigits "ordinal day" 1 month k
        ofOrdinal year count true k
    else return ⟨year, month, 1, true, k⟩

/-- The rest of a date after the year where no hyphen follows. -/
def readBasicDate (year : Nat) (k : Cursor) : Except Flaw DatePart := do
  if k.sees (· == 'W') then
    let (week, k) ← readDigits "iso_week" 2 0 k.advance
    if k.continues isTimeStart then
      let (weekday, k) ← readDigits "iso_day" 1 0 k
      ofWeek year week weekday false k
    else ofWeek year week 1 false k
  else
    let (month, k) ← readDigits "month" 2 0 k
    let (third, k) ← readDigits "ordinal day" 1 0 k
    if k.continues isTimeStart then
      let (day, k) ← readDigits "day" 1 third k
      return ⟨year, month, day, false, k⟩
    else ofOrdinal year (10 * month + third) false k

def readDate (k : Cursor) : Except Flaw DatePart := do
  let (year, k) ← readDigits "year" 4 0 k
  if k.sees (· == '-') then readExtendedDate year k.advance else readBasicDate year k

/-! ## Times -/

/-- The numbers of a time of day and the cursor after it. -/
structure TimePart where
  hour : Nat
  minute : Nat
  second : Nat
  micro : Nat
  cursor : Cursor

/-- Digits of a fraction of a second: up to six count, the others are passed over. -/
def fractionDigits : Nat → Nat → List Char → Nat → Nat × Cursor
  | places, value, c :: r, index =>
    match Text.asciiDigit? c with
    | some d =>
      match places with
      | 0 => fractionDigits 0 value r (index + 1)
      | p + 1 => fractionDigits p (10 * value + d) r (index + 1)
    | none => (value * Nat.pow 10 places, ⟨c :: r, index⟩)
  | places, value, [], index => (value * Nat.pow 10 places, ⟨[], index⟩)

/-- The fraction of a second, at least one digit. -/
def readFraction (k : Cursor) : Except Flaw (Nat × Cursor) := do
  let (first, k) ← readDigits "subsecond" 1 0 k
  return fractionDigits 5 first k.rest k.index

def readSeconds (hour minute : Nat) (k : Cursor) : Except Flaw TimePart := do
  let (second, k) ← readDigits "second" 2 0 k
  if k.sees isFractionStart then
    let (micro, k) ← readFraction k.advance
    return ⟨hour, minute, second, micro, k⟩
  else return ⟨hour, minute, second, 0, k⟩

/-- Minutes and seconds after an hour and a colon. -/
def readExtendedTime (hour : Nat) (k : Cursor) : Except Flaw TimePart := do
  let (minute, k) ← readDigits "minute" 2 0 k
  if k.continues isZoneStart then
    let k ← readSeparator "time separator (':')" (· == ':') k
    readSeconds hour minute k
  else return ⟨hour, minute, 0, 0, k⟩

/-- Minutes and seconds directly after an hour. -/
def readBasicTime (hour : Nat) (k : Cursor) : Except Flaw TimePart := do
  let (minute, k) ← readDigits "minute" 2 0 k
  if k.continues isZoneStart then readSeconds hour minute k
  else return ⟨hour, minute, 0, 0, k⟩

/-- A time of day in the form of the date. -/
def readTime (extended : Bool) (k : Cursor) : Except Flaw TimePart := do
  let (hour, k) ← readDigits "hour" 2 0 k
  if k.continues isZoneStart then
    if k.sees (· == ':') then
      let time ← readExtendedTime hour k.advance
      if extended then return time else throw .extendedTime
    else
      let time ← readBasicTime hour k
      if extended then throw .basicTime else return time
  else return ⟨hour, 0, 0, 0, k⟩

/-- The hours and minutes of a numeric zone. -/
def readOffset (negative : Bool) (k : Cursor) : Except Flaw (Int × Cursor) := do
  let (hours, k) ← readDigits "tz hour" 2 0 k
  let (minutes, k) ←
    if k.sees (· == ':') then readDigits "tz minute" 2 0 k.advance
    else if k.head?.isSome then readDigits "tz minute" 2 0 k
    else .ok (0, k)
  if 59 < minutes then throw .zoneMinute
  let size : Int := (hours * 60 + minutes : Nat) * 60
  let seconds := if negative then -size else size
  if 86400 ≤ size then throw (.zoneOffset seconds)
  return (seconds, k)

def readZone (k : Cursor) : Except Flaw (Option Int × Cursor) := do
  match k.head? with
  | some c =>
    if c = '+' ∨ c = '-' then
      let (seconds, k) ← readOffset (c == '-') k.advance
      return (some seconds, k)
    else if isZoneStart c then return (some 0, k.advance)
    else return (none, k)
  | none => return (none, k)

/-- Nothing may be left. -/
def readEnd (k : Cursor) : Except Flaw Unit :=
  match k.head? with
  | some _ => .error (.rest (String.ofList (k.rest.takeWhile fun c => c.toNat ≠ 0)))
  | none => if k.rest.isEmpty then .ok () else .error .restAfterNul

/-! ## Timestamps -/

/-- The timestamp of the numbers, or the first one out of range. -/
def assemble (d : DatePart) (t : TimePart) (offset : Option Int) : Except Flaw Timestamp :=
  if d.year < 1 ∨ 9999 < d.year then .error (.year d.year)
  else if d.month < 1 ∨ 12 < d.month then .error .month
  else match Date.of? d.year d.month d.day with
    | none => .error .day
    | some date =>
      if 23 < t.hour then .error .hour
      else if 59 < t.minute then .error .minute
      else match Timestamp.of? date t.hour t.minute t.second t.micro offset with
        | none => .error .second
        | some stamp => .ok stamp

/-- Reads a whole text.  Twenty-four o'clock is midnight of the next day. -/
def read (text : String) : Except Flaw Timestamp := do
  let d ← readDate ⟨text.toList, 0⟩
  if d.cursor.head?.isSome then
    let k ← readSeparator "date and time separator (i.e., 'T', 't', or ' ')" isTimeStart d.cursor
    let t ← readTime d.extended k
    let (offset, k) ← readZone t.cursor
    readEnd k
    if t.hour = 24 ∧ t.minute = 0 ∧ t.second = 0 ∧ t.micro = 0 then
      let stamp ← assemble d { t with hour := 0 } offset
      match stamp.nextDay? with
      | some next => return next
      | none => throw .pastCalendar
    else assemble d t offset
  else
    readEnd d.cursor
    assemble d ⟨0, 0, 0, 0, d.cursor⟩ none

end RowAccess.Iso
