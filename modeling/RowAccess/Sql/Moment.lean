import RowAccess.Sql.Numeric

/-
  RowAccess/Sql/Moment.lean
  =========================
  **Points in time as the functions of the engine see them.**  A moment is a number of milliseconds
  counted from noon of a day long past.  A day that was written is kept as it was written until the
  moment is moved, so that a thirty-first of February stays one.
-/

namespace RowAccess.Sql

/-- A moment: its milliseconds, and the day as it was written. -/
structure Moment where
  millis : Int
  written : Option (Int × Int × Int)
  deriving DecidableEq, Repr

namespace Moment

def dayLength : Int := 86400000

/-- The milliseconds up to the start of the year 1970. -/
def epoch : Int := 210866760000000

/-! ## Days -/

/-- The milliseconds up to the start of a day. -/
def ofDay (year month day : Int) : Int :=
  let (y, m) := if month ≤ 2 then (year - 1, month + 12) else (year, month)
  let a := y.tdiv 100
  let b := 2 - a + a.tdiv 4
  let x := (36525 * (y + 4716)).tdiv 100
  let w := (306001 * (m + 1)).tdiv 10000
  (2 * (x + w + day + b) - 3049) * (dayLength / 2)

/-- The year, month and day of milliseconds. -/
def dayOf (millis : Int) : Int × Int × Int :=
  let z := (millis + dayLength / 2).tdiv dayLength
  let a := (4 * z - 7468865).tdiv 146097
  let a := z + 1 + a - a.tdiv 4
  let b := a + 1524
  let c := (20 * b - 2442).tdiv 7305
  let d := (36525 * (c % 32768)).tdiv 100
  let e := (10000 * (b - d)).tdiv 306001
  let day := b - d - (306001 * e).tdiv 10000
  let month := if e < 14 then e - 1 else e - 13
  (if 2 < month then c - 4716 else c - 4715, month, day)

/-- The year, month and day of a moment. -/
def day (m : Moment) : Int × Int × Int :=
  m.written.getD (dayOf m.millis)

/-- The milliseconds since midnight. -/
def clock (m : Moment) : Int :=
  (m.millis + dayLength / 2) % dayLength

def ofMillis (millis : Int) : Moment :=
  ⟨millis, none⟩

def isValid (m : Moment) : Bool :=
  0 ≤ m.millis && m.millis ≤ 464269060799999

/-! ## Reading -/

/-- A number of so many digits between two bounds at the front of characters. -/
def digits? (count low high : Nat) (cs : List Char) : Option (Int × List Char) :=
  let ds := cs.take count
  let n := Text.ofDigits (digitValues ds)
  if ds.length = count && ds.all Char.isDigit && low ≤ n && n ≤ high then
    some (n, cs.drop count)
  else none

/-- The character at the front, and what follows. -/
def char? (c : Char) : List Char → Option (List Char)
  | d :: r => if c = d then some r else none
  | [] => none

/-- The milliseconds of a fraction of a second. -/
def fraction (ds : List Char) : Int :=
  let n := Text.ofDigits (digitValues ds)
  ((n * 2000 + Nat.pow 10 ds.length) / (2 * Nat.pow 10 ds.length) : Nat)

/-- The shift of a time zone in minutes, if nothing follows it. -/
def zone? (cs : List Char) : Option Int :=
  let cs := cs.dropWhile isNumberBlank
  let finished (n : Int) (r : List Char) : Option Int :=
    if (r.dropWhile isNumberBlank).isEmpty then some n else none
  match cs with
  | [] => some 0
  | c :: r =>
    if c = 'Z' ∨ c = 'z' then finished 0 r
    else if c = '+' ∨ c = '-' then do
      let (h, r) ← digits? 2 0 14 r
      let r ← char? ':' r
      let (m, r) ← digits? 2 0 59 r
      finished ((if c = '-' then -1 else 1) * (h * 60 + m)) r
    else none

/-- The milliseconds of a time of day, and its shift in minutes. -/
def time? (cs : List Char) : Option (Int × Int) := do
  let (h, r) ← digits? 2 0 24 cs
  let r ← char? ':' r
  let (m, r) ← digits? 2 0 59 r
  let minutes := h * 3600000 + m * 60000
  match r with
  | ':' :: r =>
    let (s, r) ← digits? 2 0 59 r
    match r with
    | '.' :: d :: r =>
      if d.isDigit then
        let ds := (d :: r).takeWhile Char.isDigit
        let shift ← zone? ((d :: r).drop ds.length)
        return (minutes + s * 1000 + fraction ds, shift)
      else none
    | r => return (minutes + s * 1000, ← zone? r)
  | r => return (minutes, ← zone? r)

/-- A moment written as a day, perhaps with a time. -/
def dayTime? (cs : List Char) : Option Moment := do
  let (negative, cs) := match cs with
    | '-' :: r => (true, r)
    | cs => (false, cs)
  let (y, r) ← digits? 4 0 9999 cs
  let r ← char? '-' r
  let (m, r) ← digits? 2 1 12 r
  let r ← char? '-' r
  let (d, r) ← digits? 2 1 31 r
  let y := if negative then -y else y
  let r := r.dropWhile fun c => isNumberBlank c || c == 'T'
  if r.isEmpty then return ⟨ofDay y m d, some (y, m, d)⟩
  else
    let (millis, shift) ← time? r
    if shift = 0 then return ⟨ofDay y m d + millis, some (y, m, d)⟩
    else return ofMillis (ofDay y m d + millis - shift * 60000)

def ofNumber? (x : Binary64) : Option Moment :=
  match x with
  | .finite false m e =>
    let scaled := m * 86400000
    let millis : Nat :=
      if 0 ≤ e then scaled * Nat.pow 2 e.toNat
      else (2 * scaled + Nat.pow 2 (-e).toNat) / (2 * Nat.pow 2 (-e).toNat)
    if (millis : Int) < 464269060800000 then some (ofMillis millis) else none
  | _ => none

/-- The moment that stands for now: the start of the year 2026. -/
def now : Moment :=
  ofMillis (ofDay 2026 1 1)

def ofCell? : Cell → Option Moment
  | .int n => ofNumber? (.ofInt n)
  | .real x => ofNumber? x
  | .text s =>
    let cs := s.toList.takeWhile fun c => c.toNat != 0
    match dayTime? cs with
    | some m => some m
    | none =>
      match time? cs with
      | some (millis, shift) => some (ofMillis (ofDay 2000 1 1 + millis - shift * 60000))
      | none =>
        if cs.map Char.toLower == "now".toList then some now
        else
          match numberOf? (String.ofList cs) with
          | some (.int n) => ofNumber? (.ofInt n)
          | some (.real x) => ofNumber? x
          | _ => none
  | _ => none

/-! ## Moving -/

def onDay (m : Moment) (year month day : Int) : Moment :=
  ofMillis (ofDay year month day + m.clock)

def plusMonths (m : Moment) (n : Int) : Moment :=
  let (y, month, d) := m.day
  let month := month + n
  let x := if 0 < month then (month - 1).tdiv 12 else (month - 12).tdiv 12
  m.onDay (y + x) (month - x * 12) d

def plusYears (m : Moment) (n : Int) : Moment :=
  let (y, month, d) := m.day
  m.onDay (y + n) month d

def units : List (String × Int) :=
  [("second", 1), ("minute", 60), ("hour", 3600), ("day", 86400), ("month", 2592000),
    ("year", 31536000)]

/-- The milliseconds of a written number of units of so many seconds, rounded away from zero. -/
def spanOf (l : Leading) (whole : Bool) (seconds : Int) : Int :=
  let digits := if whole then l.written.whole ++ l.written.fraction else l.written.fraction
  let n : Int := (Text.ofDigits digits : Nat)
  let den : Int := (Nat.pow 10 l.written.fraction.length : Nat)
  let span := (2 * n * 1000 * seconds + den) / (2 * den)
  if l.negative then -span else span

def moved? (m : Moment) (l : Leading) (unit : String) : Option Moment := do
  let name := if unit.endsWith "s" then (unit.dropEnd 1).toString else unit
  let (_, seconds) ← units.find? fun (u, _) => u == name
  if name == "month" || name == "year" then
    let whole := l.whole
    let later := if name == "month" then m.plusMonths whole else m.plusYears whole
    return ofMillis (later.millis + spanOf l false seconds)
  else return ofMillis (m.millis + spanOf l true seconds)

/-- The moment of the next day of a week, Sunday being zero; a day that fits is kept. -/
def onWeekday (m : Moment) (n : Int) : Moment :=
  let z := ((m.millis + 129600000).tdiv dayLength) % 7
  let z := if n < z then z - 7 else z
  ofMillis (m.millis + (n - z) * dayLength)

/-- The start of the day, month or year. -/
def startOf? (m : Moment) (unit : String) : Option Moment :=
  let (y, month, d) := m.day
  match unit with
  | "day" => some (ofMillis (ofDay y month d))
  | "month" => some (ofMillis (ofDay y month 1))
  | "year" => some (ofMillis (ofDay y 1 1))
  | _ => none

/-- The moment changed by the words of a modifier; `raw` is the number that the moment was given
as. -/
def modified? (raw : Option Cell) (m : Option Moment) (modifier : String) : Option Moment :=
  let words := ((modifier.toList.map Char.toLower).splitOn ' ').map String.ofList
  match words with
  | ["unixepoch"] =>
    match raw with
    | some (.int n) => some (ofMillis (n * 1000 + epoch))
    | some (.real x) => some (ofMillis (Cell.wholeOf (x.times (.ofInt 1000)) + epoch))
    | _ => none
  | ["julianday"] => if raw.isSome then m else none
  | ["localtime"] | ["utc"] => m
  | ["weekday", n] => do
    let m ← m
    match numberOf? n with
    | some (.int n) => if 0 ≤ n ∧ n ≤ 6 then some (m.onWeekday n) else none
    | _ => none
  | ["start", "of", unit] => m.bind fun m => m.startOf? unit
  | [number, unit] => do
    let m ← m
    let first ← number.toList.head?
    if first = '+' ∨ first = '-' ∨ first.isDigit then
      if (numberOf? number).isSome then m.moved? (leading number.toList) unit else none
    else none
  | [time] => do
    let m ← m
    match time.toList with
    | '+' :: r => (time? r).map fun (millis, _) => ofMillis (m.millis + millis)
    | '-' :: r => (time? r).map fun (millis, _) => ofMillis (m.millis - millis)
    | _ => none
  | _ => none

def ofArguments? : List Cell → Option Moment
  | [] => some now
  | c :: modifiers => do
    let raw := match c with
      | .int _ | .real _ => some c
      | .text s => numberOf? s
      | _ => none
    let m ← modifiers.foldlM
      (fun m c => match c.text? with
        | some s => (modified? raw m s).map some
        | none => none)
      (ofCell? c)
    match m with
    | some m => if m.isValid then some m else none
    | none => none

/-! ## Writing -/

/-- A number of at least so many digits. -/
def padded (width : Nat) (n : Int) : String :=
  (if n < 0 then "-" else "") ++ Text.padded width n.natAbs

def dayText (m : Moment) : String :=
  let (y, month, d) := m.day
  padded 4 y ++ "-" ++ padded 2 month ++ "-" ++ padded 2 d

def timeText (m : Moment) : String :=
  let s := m.clock / 1000
  padded 2 (s / 3600) ++ ":" ++ padded 2 (s / 60 % 60) ++ ":" ++ padded 2 (s % 60)

/-- The number of days before a day in its year. -/
def dayOfYear (m : Moment) : Int :=
  let (y, _, _) := m.day
  (m.millis - ofDay y 1 1) / dayLength

/-- The number of days. -/
def julian (m : Moment) : Binary64 :=
  (Binary64.ofInt m.millis).divide (.ofInt dayLength)

def letterText? (m : Moment) (c : Char) : Option String :=
  let (y, month, d) := m.day
  let s := m.clock / 1000
  let weekday := ((m.millis + 129600000).tdiv dayLength) % 7
  match c with
  | 'd' => some (padded 2 d)
  | 'f' => some (padded 2 (s % 60) ++ "." ++ padded 3 (m.clock % 1000))
  | 'H' => some (padded 2 (s / 3600))
  | 'j' => some (padded 3 (m.dayOfYear + 1))
  | 'J' => some (Real.text m.julian)
  | 'm' => some (padded 2 month)
  | 'M' => some (padded 2 (s / 60 % 60))
  | 's' => some (Text.decimalInt (m.millis / 1000 - epoch / 1000))
  | 'S' => some (padded 2 (s % 60))
  | 'w' => some (padded 1 weekday)
  | 'W' => some (padded 2 ((m.dayOfYear + 7 - (weekday + 6) % 7) / 7))
  | 'Y' => some (padded 4 y)
  | '%' => some "%"
  | _ => none

def formatted? (m : Moment) : List Char → Option String
  | [] => some ""
  | '%' :: c :: r => do return (← m.letterText? c) ++ (← formatted? m r)
  | ['%'] => none
  | c :: r => do return String.singleton c ++ (← formatted? m r)

/-- The result of a function of moments. -/
def apply (name : String) (arguments : List Cell) : Cell :=
  let on (f : Moment → Cell) : Cell := ((ofArguments? arguments).map f).getD .null
  match name, arguments with
  | "date", _ | "current_date", _ => on fun m => .text m.dayText
  | "time", _ | "current_time", _ => on fun m => .text m.timeText
  | "datetime", _ | "current_timestamp", _ => on fun m => .text (m.dayText ++ " " ++ m.timeText)
  | "julianday", _ => on fun m => .real m.julian
  | "unixepoch", _ => on fun m => .int (m.millis / 1000 - epoch / 1000)
  | "strftime", format :: rest =>
    match format.text?, ofArguments? rest with
    | some f, some m => ((m.formatted? f.toList).map Cell.text).getD .null
    | _, _ => .null
  | _, _ => .null

/-- The names that stand for now. -/
def currentNames : List String :=
  ["CURRENT_DATE", "CURRENT_TIME", "CURRENT_TIMESTAMP"]

def functionNames : List String :=
  ["date", "time", "datetime", "julianday", "unixepoch", "strftime"]

end Moment

end RowAccess.Sql
