import RowAccess.Text.Digit

/-
  RowAccess/Calendar/Date.lean
  ============================
  **Calendar dates of the years 1 to 9999** in the proleptic Gregorian calendar.  A date carries the
  proof that it exists, so every function on dates is total.  Dates are reached by month and day, by
  the day of the year, by ISO week and weekday, and by stepping to the next day.
-/

namespace RowAccess

def isLeapYear (year : Nat) : Bool :=
  year % 4 == 0 && (year % 100 != 0 || year % 400 == 0)

/-- The number of days of a month, zero for a number that is no month. -/
def daysInMonth (year month : Nat) : Nat :=
  match month with
  | 1 | 3 | 5 | 7 | 8 | 10 | 12 => 31
  | 4 | 6 | 9 | 11 => 30
  | 2 => if isLeapYear year then 29 else 28
  | _ => 0

structure Date where
  year : Nat
  month : Nat
  day : Nat
  exists_year : 1 ≤ year ∧ year ≤ 9999
  exists_month : 1 ≤ month ∧ month ≤ 12
  exists_day : 1 ≤ day ∧ day ≤ daysInMonth year month
  deriving DecidableEq, Repr

namespace Date

/-- The date of the three numbers, if there is one. -/
def of? (year month day : Nat) : Option Date :=
  if h₁ : 1 ≤ year ∧ year ≤ 9999 then
    if h₂ : 1 ≤ month ∧ month ≤ 12 then
      if h₃ : 1 ≤ day ∧ day ≤ daysInMonth year month then some ⟨year, month, day, h₁, h₂, h₃⟩
      else none
    else none
  else none

theorem of?_self (d : Date) : of? d.year d.month d.day = some d := by
  simp [of?, d.exists_year, d.exists_month, d.exists_day]

/-- A number that puts dates in calendar order. -/
def rank (d : Date) : Nat :=
  (d.year * 12 + d.month) * 32 + d.day

/-- The day after, if the calendar has one. -/
def next? (d : Date) : Option Date :=
  match of? d.year d.month (d.day + 1) with
  | some e => some e
  | none =>
    match of? d.year (d.month + 1) 1 with
    | some e => some e
    | none => of? (d.year + 1) 1 1

/-- Splits a day count from the first of the given month into a month and a day. -/
def monthDay (year : Nat) : Nat → Nat → Nat → Nat × Nat
  | 0, month, count => (month, count)
  | fuel + 1, month, count =>
    let days := daysInMonth year month
    if count ≤ days then (month, count) else monthDay year fuel (month + 1) (count - days)

def ofDayOfYear (year count : Nat) : Nat × Nat :=
  monthDay year 11 1 count

def daysInYear (year : Nat) : Nat :=
  if isLeapYear year then 366 else 365

/-- The number of days before a year, counted from the year 1. -/
def daysBeforeYear (year : Nat) : Nat :=
  let y := year - 1
  y * 365 + y / 4 - y / 100 + y / 400

/-- The weekday of the first of January, Monday being 0. -/
def firstWeekday (year : Nat) : Nat :=
  daysBeforeYear year % 7

/-- The number of ISO weeks of a year: 53 when it starts on a Thursday, or on a Wednesday in a leap
year. -/
def isoWeeks (year : Nat) : Nat :=
  let w := firstWeekday year
  if w = 3 ∨ (w = 2 ∧ isLeapYear year) then 53 else 52

/-- The year, month and day of an ISO week and weekday that exist.  The year may be a neighbour of
the given one. -/
def ofIsoWeek (year week weekday : Nat) : Nat × Nat × Nat :=
  let w := firstWeekday year
  -- The count of days from the first of January to the Monday of week 1, plus seven.
  let monday := if w ≤ 3 then 7 - w else 14 - w
  let count := monday + (week - 1) * 7 + weekday
  if count ≤ 7 then
    let (m, d) := ofDayOfYear (year - 1) (daysInYear (year - 1) + count - 7)
    (year - 1, m, d)
  else
    let inYear := count - 7
    if inYear ≤ daysInYear year then
      let (m, d) := ofDayOfYear year inYear
      (year, m, d)
    else
      let (m, d) := ofDayOfYear (year + 1) (inYear - daysInYear year)
      (year + 1, m, d)

/-- Year, month and day joined by hyphens. -/
def text (d : Date) : String :=
  Text.padded 4 d.year ++ "-" ++ Text.padded 2 d.month ++ "-" ++ Text.padded 2 d.day

end Date

end RowAccess
