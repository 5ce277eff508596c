import RowAccess.Config

/-
  RowAccess/Conversion.lean
  =========================
  **Values on their way to and from storage.**  Truth values are stored as the two sentinels of the
  configuration, timestamps as literals of the dialect down to the second, and bytes as they are;
  on the way back the sentinels become truth values, dates and timestamps their ISO 8601 text, and
  bytes a wrapper that JSON can hold.  What is already converted passes unchanged.
-/

namespace RowAccess

namespace Conversion

/-! ## Truth values -/

/-- A stored sentinel as a truth value. -/
def booleanOut (c : Config) : Value → Value
  | .text s =>
    match c.truthOf? s with
    | some b => .bool b
    | none => .text s
  | v => v

def booleanIn (c : Config) : Value → Value
  | .bool b => .text (c.sentinel b)
  | v => v

/-! ## Dates and timestamps -/

def timestampOfText (s : String) : Except Fault Timestamp :=
  match Iso.read (Text.strip s) with
  | .ok t => .ok t
  | .error .pastCalendar => .error .outOfRange
  | .error flaw => .error (.coercion (.timestampText s flaw))

def timestampOf (v : Value) : Except Fault Timestamp := do
  let t ← match v with
    | .timestamp t => .ok t
    | .date d => .ok (Timestamp.midnight d)
    | .text s => timestampOfText s
    | _ => .error (.coercion (.timestampKind v))
  if t.isNaive then return t else throw (.coercion (.zoned v))

/-- Is the value a text that spells a naive timestamp?  Only the overflow of the calendar is no
answer. -/
def isTimestampText (v : Value) : Except Fault Bool :=
  match v with
  | .text _ =>
    match timestampOf v with
    | .ok _ => .ok true
    | .error (.coercion _) => .ok false
    | .error f => .error f
  | _ => .ok false

def monthName (month : Nat) : String :=
  (["JAN", "FEB", "MAR", "APR", "MAY", "JUN", "JUL", "AUG", "SEP", "OCT", "NOV", "DEC"][month -
    1]?).getD ""

def fillPart (t : Timestamp) : LiteralPart → String
  | .year => Text.padded 4 t.date.year
  | .month => Text.padded 2 t.date.month
  | .monthName => monthName t.date.month
  | .day => Text.padded 2 t.date.day
  | .hour => Text.padded 2 t.hour
  | .minute => Text.padded 2 t.minute
  | .second => Text.padded 2 t.second
  | .text s => s

def fill (parts : List LiteralPart) (t : Timestamp) : String :=
  String.join (parts.map (fillPart t))

/-- A literal inside the raw expression, where the configuration and the dialect ask for it. -/
def wrapLiteral (c : Config) (wrapping : Option Wrapping) (literal : String) : DateLiteral :=
  match wrapping with
  | some w =>
    if c.wrapDateLiterals then ⟨w.before ++ literal ++ w.after, true⟩ else ⟨literal, false⟩
  | none => ⟨literal, false⟩

def storedTimestamp (c : Config) (t : Timestamp) : DateLiteral :=
  wrapLiteral c c.dialect.rawTimestamp (fill c.dialect.timestampLiteral t)

def comparedDate (c : Config) (t : Timestamp) : DateLiteral :=
  wrapLiteral c c.dialect.rawDate (fill c.dialect.dateLiteral t)

/-- A value as a stored timestamp.  A formatter of the configuration takes the place of the
dialect's literal for texts. -/
def timestampIn (c : Config) (v : Value) : Except Fault DateLiteral :=
  match c.timestampFormatter, v with
  | some format, .text s => .ok ⟨format s, false⟩
  | _, _ => (timestampOf v).map (storedTimestamp c)

def comparisonDate (c : Config) (v : Value) : Except Fault DateLiteral :=
  (timestampOf v).map (comparedDate c)

/-- A date or timestamp as its ISO 8601 text. -/
def timestampOut : Value → Value
  | .timestamp t => .text t.isoText
  | .date d => .text d.text
  | v => v

/-! ## Bytes -/

def byteOf (v : Value) : Except ByteFlaw UInt8 :=
  let ofInt (n : Int) : Except ByteFlaw UInt8 :=
    if 0 ≤ n ∧ n < 256 then .ok n.toNat.toUInt8 else .error .range
  match v with
  | .int n => ofInt n
  | .bool b => ofInt (Value.ofBool b)
  | _ => .error (.kind v.fullKindName)

def bytesOfWrapper (fields : Fields) : Except Fault (List UInt8) :=
  match Keyed.find? fields "type", Keyed.find? fields "data" with
  | some (.text "Buffer"), some (.list vs) =>
    match vs.mapM byteOf with
    | .ok bs => .ok bs
    | .error flaw => .error (.coercion (.bufferBytes flaw))
  | some (.text "Buffer"), some data => .error (.coercion (.bufferData data))
  | _, _ => .error (.coercion (.bufferWrapper (.object fields)))

/-- The bytes of a value: of a byte string, of a wrapper, or of the first of several chunks. -/
def bufferIn : Value → Except Fault (List UInt8)
  | .bytes bs => .ok bs
  | .object fields => bytesOfWrapper fields
  | .list [] => .error (.coercion .bufferEmpty)
  | .list (v :: _) => bufferIn v
  | v => .error (.coercion (.bufferKind v))

/-- A byte string in the wrapper that JSON can hold. -/
def bufferOut : Value → Value
  | .bytes bs =>
    .object [("type", .text "Buffer"), ("data", .list (bs.map fun b => .int b.toNat))]
  | v => v

end Conversion

end RowAccess
