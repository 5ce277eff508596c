import RowAccess.Number.Reading
import RowAccess.Value

/-
  RowAccess/Json/Reader.lean
  ==========================
  **Reading JSON documents.**  A number with a fraction or an exponent is a double, any other one an
  integer of any size up to 4300 digits; `NaN`, `Infinity` and `-Infinity` are numbers too.  The
  names of an object keep their first place and take their last value.  The first flaw is reported
  with its line, column and character position.
-/

namespace RowAccess.Json

/-- What was wrong at a position. -/
inductive Problem where
  | value
  | name
  | colon
  | comma
  | extra
  | unterminated
  | control
  | escape
  | unicodeEscape
  | mark
  deriving DecidableEq, Repr

def Problem.message : Problem → String
  | .value => "Expecting value"
  | .name => "Expecting property name enclosed in double quotes"
  | .colon => "Expecting ':' delimiter"
  | .comma => "Expecting ',' delimiter"
  | .extra => "Extra data"
  | .unterminated => "Unterminated string starting at"
  | .control => "Invalid control character at"
  | .escape => "Invalid \\escape"
  | .unicodeEscape => "Invalid \\uXXXX escape"
  | .mark => "Unexpected UTF-8 BOM (decode using utf-8-sig)"

/-- Why a text is no document. -/
inductive Flaw where
  | at (problem : Problem) (index : Nat)
  | tooManyDigits (count : Nat)
  deriving DecidableEq, Repr

/-- The line and column of a character position, both counted from one. -/
def place (cs : List Char) (index : Nat) : Nat × Nat :=
  let before := cs.take index
  (before.count '\n' + 1, (before.reverse.takeWhile (· ≠ '\n')).length + 1)

/-- The wording of a flaw in a text. -/
def Flaw.message (cs : List Char) : Flaw → String
  | .at problem index =>
    let (line, column) := place cs index
    problem.message ++ ": line " ++ Text.decimal line ++ " column " ++ Text.decimal column ++
      " (char " ++ Text.decimal index ++ ")"
  | .tooManyDigits count => Number.tooManyDigits count

/-- What is left of the text, and the number of characters passed. -/
structure Cursor where
  rest : List Char
  index : Nat
  deriving Repr

def isSpace (c : Char) : Bool :=
  c == ' ' || c == '\t' || c == '\n' || c == '\r'

/-- The cursor past `n` characters. -/
def Cursor.skip (k : Cursor) (n : Nat) : Cursor :=
  ⟨k.rest.drop n, k.index + n⟩

def Cursor.skipSpace (k : Cursor) : Cursor :=
  k.skip (k.rest.takeWhile isSpace).length

/-! ## Strings -/

def shortEscape? (c : Char) : Option Char :=
  match c with
  | '"' => some '"'
  | '\\' => some '\\'
  | '/' => some '/'
  | 'b' => some '\x08'
  | 'f' => some '\x0c'
  | 'n' => some '\n'
  | 'r' => some '\r'
  | 't' => some '\t'
  | _ => none

/-- The number of four hexadecimal digits. -/
def hex4? (cs : List Char) : Option Nat :=
  match cs with
  | a :: b :: c :: d :: _ => do
    let a ← Text.hexValue? a
    let b ← Text.hexValue? b
    let c ← Text.hexValue? c
    let d ← Text.hexValue? d
    return ((a * 16 + b) * 16 + c) * 16 + d
  | _ => none

def isHighHalf (n : Nat) : Bool := 0xD800 ≤ n && n ≤ 0xDBFF

def isLowHalf (n : Nat) : Bool := 0xDC00 ≤ n && n ≤ 0xDFFF

/-- The character of a code point; a half that stands alone becomes U+FFFD. -/
def ofCodePoint (n : Nat) : Char :=
  if 0xD800 ≤ n ∧ n ≤ 0xDFFF then Char.ofNat 0xFFFD else Char.ofNat n

/-- The character of a numeric escape, whose digits start the characters, and how many characters
it takes.  `index` is the position of the escape's letter. -/
def unicodeEscape (cs : List Char) (index : Nat) : Except Flaw (Char × Nat) :=
  -- A character has to follow the four digits, or the string cannot end.
  if cs.length < 5 then .error (.at .unicodeEscape index)
  else match hex4? cs with
    | none => .error (.at .unicodeEscape index)
    | some high =>
      match cs.drop 4 with
      | '\\' :: 'u' :: r =>
        if isHighHalf high && 5 ≤ r.length then
          match hex4? r with
          | none => .error (.at .unicodeEscape (index + 6))
          | some low =>
            if isLowHalf low then
              .ok (Char.ofNat (0x10000 + (high - 0xD800) * 0x400 + (low - 0xDC00)), 10)
            else .ok (ofCodePoint high, 4)
        else .ok (ofCodePoint high, 4)
      | _ => .ok (ofCodePoint high, 4)

/-- The characters of a string up to its closing quote.  `start` is the position of the opening
quote; the fuel is at least the number of characters left. -/
def readString (start : Nat) : Nat → List Char → Cursor → Except Flaw (String × Cursor)
  | 0, _, _ => .error (.at .unterminated start)
  | fuel + 1, done, k =>
    match k.rest with
    | [] => .error (.at .unterminated start)
    | '"' :: _ => .ok (String.ofList done.reverse, k.skip 1)
    | '\\' :: [] => .error (.at .unterminated start)
    | '\\' :: 'u' :: r =>
      match unicodeEscape r (k.index + 1) with
      | .error e => .error e
      | .ok (c, size) => readString start fuel (c :: done) (k.skip (2 + size))
    | '\\' :: c :: _ =>
      match shortEscape? c with
      | some e => readString start fuel (e :: done) (k.skip 2)
      | none => .error (.at .escape k.index)
    | c :: _ =>
      if c.toNat < 32 then .error (.at .control k.index)
      else readString start fuel (c :: done) (k.skip 1)

/-! ## Numbers -/

/-- ASCII digits at the front and what follows them. -/
def spanDigits (cs : List Char) : List Nat × List Char :=
  let ds := cs.takeWhile fun c => (Text.asciiDigit? c).isSome
  (ds.filterMap Text.asciiDigit?, cs.drop ds.length)

/-- The whole part of a number: a zero, or digits that start with none. -/
def wholePart? (cs : List Char) : Option (List Nat × List Char) :=
  match cs with
  | '0' :: r => some ([0], r)
  | _ =>
    match spanDigits cs with
    | ([], _) => none
    | found => some found

/-- A fraction, if a point and a digit follow. -/
def fractionPart (cs : List Char) : Option (List Nat) × List Char :=
  match cs with
  | '.' :: r =>
    match spanDigits r with
    | ([], _) => (none, cs)
    | (ds, rest) => (some ds, rest)
  | _ => (none, cs)

/-- An exponent, if its letter, perhaps a sign, and a digit follow. -/
def exponentPart (cs : List Char) : Option Int × List Char :=
  match cs with
  | c :: r =>
    if c = 'e' ∨ c = 'E' then
      let (negative, r) := Number.splitSign r
      match spanDigits r with
      | ([], _) => (none, cs)
      | (ds, rest) =>
        let n : Int := (Text.ofDigits ds : Nat)
        (some (if negative then -n else n), rest)
    else (none, cs)
  | [] => (none, cs)

/-- A number, or a flaw at its first character. -/
def readNumber (k : Cursor) : Except Flaw (Value × Cursor) :=
  let (negative, r) :=
    match k.rest with
    | '-' :: r => (true, r)
    | r => (false, r)
  match wholePart? r with
  | none => .error (.at .value k.index)
  | some (whole, r) =>
    let (fraction, r) := fractionPart r
    let (exponent, r) := exponentPart r
    let after := k.skip (k.rest.length - r.length)
    if fraction.isSome || exponent.isSome then
      let w : Number.Written := ⟨whole, fraction.getD [], exponent.getD 0⟩
      .ok (.float (w.toBinary64 negative), after)
    else if Number.digitLimit < whole.length then .error (.tooManyDigits whole.length)
    else
      let n : Int := (Text.ofDigits whole : Nat)
      .ok (.int (if negative then -n else n), after)

/-! ## Values -/

def words : List (String × Value) :=
  [("null", .null), ("true", .bool true), ("false", .bool false), ("NaN", .float (.nan true)),
    ("Infinity", .float (.infinite false)), ("-Infinity", .float (.infinite true))]

/-- The word at the front, if there is one. -/
def word? (cs : List Char) : Option (String × Value) :=
  words.find? fun (w, _) => w.toList.isPrefixOf cs

mutual

/-- A value at the cursor.  The fuel bounds the depth and the number of entries together. -/
def readValue : Nat → Cursor → Except Flaw (Value × Cursor)
  | 0, k => .error (.at .value k.index)
  | fuel + 1, k =>
    match k.rest with
    | [] => .error (.at .value k.index)
    | '"' :: _ => do
      let (s, k) ← readString k.index (k.rest.length + 1) [] (k.skip 1)
      return (.text s, k)
    | '{' :: _ =>
      let k := (k.skip 1).skipSpace
      match k.rest with
      | '}' :: _ => .ok (.object [], k.skip 1)
      | _ => readFields fuel [] k
    | '[' :: _ =>
      let k := (k.skip 1).skipSpace
      match k.rest with
      | ']' :: _ => .ok (.list [], k.skip 1)
      | _ => readEntries fuel [] k
    | cs =>
      match word? cs with
      | some (w, v) => .ok (v, k.skip w.length)
      | none => readNumber k

def readFields : Nat → Fields → Cursor → Except Flaw (Value × Cursor)
  | 0, _, k => .error (.at .name k.index)
  | fuel + 1, done, k =>
    match k.rest with
    | '"' :: _ => do
      let (name, k) ← readString k.index (k.rest.length + 1) [] (k.skip 1)
      let k := k.skipSpace
      match k.rest with
      | ':' :: _ =>
        let (v, k) ← readValue fuel (k.skip 1).skipSpace
        let done := Keyed.put done name v
        let k := k.skipSpace
        match k.rest with
        | '}' :: _ => return (.object done, k.skip 1)
        | ',' :: _ => readFields fuel done (k.skip 1).skipSpace
        | _ => .error (.at .comma k.index)
      | _ => .error (.at .colon k.index)
    | _ => .error (.at .name k.index)

def readEntries : Nat → List Value → Cursor → Except Flaw (Value × Cursor)
  | 0, _, k => .error (.at .value k.index)
  | fuel + 1, done, k => do
    let (v, k) ← readValue fuel k
    let k := k.skipSpace
    match k.rest with
    | ']' :: _ => return (.list (v :: done).reverse, k.skip 1)
    | ',' :: _ => readEntries fuel (v :: done) (k.skip 1).skipSpace
    | _ => .error (.at .comma k.index)

end

def read (cs : List Char) : Except Flaw Value := do
  match cs with
  | c :: _ => if c.toNat = 0xFEFF then throw (.at .mark 0)
  | [] => pure ()
  let (v, k) ← readValue (cs.length + 1) (Cursor.mk cs 0).skipSpace
  let k := k.skipSpace
  if k.rest.isEmpty then return v else throw (.at .extra k.index)

end RowAccess.Json
