import RowAccess.Number.Arithmetic
import RowAccess.Sql.Cell
import RowAccess.Sql.Expression
import RowAccess.Sql.Truth

/-
  RowAccess/Sql/Numeric.lean
  ==========================
  **Cells as numbers and as truth values.**  A text counts as the number it begins with, zero if it
  begins with none.  Integers that overflow become doubles, and a division by zero has no value.
-/

namespace RowAccess.Sql

/-! ## Numbers at the front of texts -/

/-- A number at the front of a text: its sign, digits and exponent, and whether it has a point or
an exponent. -/
structure Leading where
  negative : Bool
  written : Number.Written
  isWhole : Bool
  deriving Repr

/-- The exponent at the front of characters, with its letter. -/
def leadingExponent? : List Char → Option Int
  | c :: r =>
    if c = 'e' ∨ c = 'E' then
      let (negative, ds) := Number.splitSign r
      let ds := ds.takeWhile Char.isDigit
      if ds.isEmpty then none
      else
        let n : Int := (Text.ofDigits (digitValues ds) : Nat)
        some (if negative then -n else n)
    else none
  | [] => none

/-- The number at the front of characters. -/
def leading (cs : List Char) : Leading :=
  let (negative, cs) := Number.splitSign (cs.dropWhile isNumberBlank)
  let whole := cs.takeWhile Char.isDigit
  let afterWhole := cs.dropWhile Char.isDigit
  let (fraction, rest, pointed) := match afterWhole with
    | '.' :: r => (r.takeWhile Char.isDigit, r.dropWhile Char.isDigit, true)
    | r => ([], r, false)
  if whole.isEmpty && fraction.isEmpty then ⟨negative, ⟨[], [], 0⟩, true⟩
  else
    match leadingExponent? rest with
    | some e => ⟨negative, ⟨digitValues whole, digitValues fraction, e⟩, false⟩
    | none => ⟨negative, ⟨digitValues whole, digitValues fraction, 0⟩, !pointed⟩

namespace Leading

/-- The whole number before the point. -/
def whole (l : Leading) : Int :=
  let n : Int := (Text.ofDigits l.written.whole : Nat)
  if l.negative then -n else n

/-- The double. -/
def real (l : Leading) : Binary64 :=
  Real.ofWritten l.written l.negative

/-- The number as a cell: an integer where it is one that can be stored. -/
def cell (l : Leading) : Cell :=
  if l.isWhole && isStorable l.whole then .int l.whole else .real l.real

end Leading

namespace Cell

def chars : Cell → List Char
  | .text s => s.toList
  | .blob bs => Text.Utf8.replacing bs
  | _ => []

/-- The number that a cell stands for; an empty cell stays empty. -/
def number : Cell → Cell
  | .null => .null
  | .int n => .int n
  | .real x => .real x
  | c => (leading c.chars).cell

/-- The nearest integer that a cell can hold, toward zero. -/
def clamp (n : Int) : Int :=
  if n < -Int.pow 2 63 then -Int.pow 2 63
  else if Int.pow 2 63 ≤ n then Int.pow 2 63 - 1 else n

/-- A double as an integer, toward zero. -/
def wholeOf : Binary64 → Int
  | .infinite negative => if negative then -Int.pow 2 63 else Int.pow 2 63 - 1
  | x => clamp ((x.truncate?).getD 0)

/-- The integer that a cell stands for. -/
def toWhole : Cell → Int
  | .null => 0
  | .int n => n
  | .real x => wholeOf x
  | c => clamp (leading c.chars).whole

/-- The double that a cell stands for. -/
def toReal : Cell → Binary64
  | .null => .finite false 0 (-1074)
  | .int n => .ofInt n
  | .real x => x
  | c => (leading c.chars).real

def truth : Cell → Truth
  | .null => .unknown
  | .int n => .ofBool (n != 0)
  | c => .ofBool (!c.toReal.isZero)

/-- A double as a cell; what is no number has none. -/
def ofReal : Binary64 → Cell
  | .nan _ => .null
  | x => .real x

/-- An integer as a cell, a double where it is too large. -/
def ofWhole (n : Int) : Cell :=
  if isStorable n then .int n else .real (.ofInt n)

end Cell

namespace Truth

def cell : Truth → Cell
  | .no => .int 0
  | .unknown => .null
  | .yes => .int 1

/-- A truth value comes back from its cell. -/
@[simp] theorem truth_cell (t : Truth) : t.cell.truth = t := by
  cases t <;> rfl

end Truth

/-! ## Operators -/

namespace Calculation

/-- The remainder of integers, with the sign of the first. -/
def remainder (a b : Int) : Int :=
  if b = -1 then 0 else a.tmod b

def ofBits (bits : Nat) : Int :=
  let n : Nat := bits % Nat.pow 2 64
  if n < Nat.pow 2 63 then (n : Int) else (n : Int) - Int.pow 2 64

def bits (n : Int) : Nat :=
  (n % Int.pow 2 64).toNat

/-- An integer shifted to the left; a negative distance shifts to the right. -/
def shifted (n distance : Int) : Int :=
  if 0 ≤ distance then
    if 64 ≤ distance then 0 else ofBits (bits n * Nat.pow 2 distance.toNat)
  else if distance ≤ -64 then if n < 0 then -1 else 0
  else n / Int.pow 2 (-distance).toNat

/-- The result of an operator on integers, none where it is left to doubles. -/
def onWholes (op : Calculation) (a b : Int) : Option Cell :=
  let checked (n : Int) : Option Cell := if isStorable n then some (.int n) else none
  match op with
  | .add => checked (a + b)
  | .subtract => checked (a - b)
  | .multiply => checked (a * b)
  | .divide => if b = 0 then some .null else checked (a.tdiv b)
  | .modulo => if b = 0 then some .null else some (.int (remainder a b))
  | _ => none

/-- The result of an operator on numbers as doubles. -/
def onReals (op : Calculation) (a b : Cell) : Cell :=
  let x := a.toReal
  let y := b.toReal
  match op with
  | .add => .ofReal (x.plus y)
  | .subtract => .ofReal (x.minus y)
  | .multiply => .ofReal (x.times y)
  | .divide => if y.isZero then .null else .ofReal (x.divide y)
  | _ => if b.toWhole = 0 then .null else .real (.ofInt (remainder a.toWhole b.toWhole))

/-- The result of arithmetic on cells that are not empty. -/
def onNumbers (op : Calculation) (a b : Cell) : Cell :=
  match a.number, b.number with
  | .int m, .int n => (op.onWholes m n).getD (op.onReals (.int m) (.int n))
  | x, y => op.onReals x y

/-- The result of an operator. -/
def apply (op : Calculation) (a b : Cell) : Cell :=
  if a.isNull || b.isNull then .null
  else
    match op with
    | .concat => .text ((a.text?).getD "" ++ (b.text?).getD "")
    | .bitAnd => .int (ofBits (bits a.toWhole &&& bits b.toWhole))
    | .bitOr => .int (ofBits (bits a.toWhole ||| bits b.toWhole))
    | .shiftLeft => .int (shifted a.toWhole b.toWhole)
    | .shiftRight => .int (shifted a.toWhole (-b.toWhole))
    | _ => op.onNumbers a b

end Calculation

namespace Cell

/-- The cell with the opposite sign. -/
def negate (c : Cell) : Cell :=
  Calculation.subtract.apply (.int 0) c

/-- The integer whose bits are the other ones. -/
def complement (c : Cell) : Cell :=
  if c.isNull then .null else .int (-c.toWhole - 1)

end Cell

/-! ## Kinds -/

namespace Cast

/-- The affinity of what is turned into a kind. -/
def affinity : Cast → Affinity
  | .text => .text
  | .blob => .free
  | _ => .number

def bytesOf (c : Cell) : List UInt8 :=
  match c with
  | .blob bs => bs
  | c => Text.Utf8.encode ((c.text?).getD "").toList

/-- A number as an integer where it is one of moderate size. -/
def numericOf : Cell → Cell
  | .real x => wholeOr x
  | c => c

/-- A cell turned into a kind. -/
def apply (k : Cast) (c : Cell) : Cell :=
  if c.isNull then .null
  else
    match k with
    | .text => .text ((c.text?).getD "")
    | .integer => .int c.toWhole
    | .real => .real c.toReal
    | .numeric =>
      match c with
      | .int n => .int n
      | .real x => .real x
      | c => numericOf c.number
    | .blob => .blob (bytesOf c)

end Cast

end RowAccess.Sql
