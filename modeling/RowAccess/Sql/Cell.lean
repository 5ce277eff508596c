import RowAccess.Sql.Real
import RowAccess.Text.Utf8
import RowAccess.Value

/-
  RowAccess/Sql/Cell.lean
  =======================
  **What a cell of a table holds**: nothing, an integer of 64 bits, a double, a text or bytes.  All
  cells stand in one order: nothing, then numbers by value, then texts by code points, then byte
  strings.  A column has an affinity, which turns what is stored in it or compared with it into the
  column's own kind where that loses nothing.
-/

namespace RowAccess.Sql

inductive Cell where
  | null
  | int (n : Int)
  | real (x : Binary64)
  | text (s : String)
  | blob (bs : List UInt8)
  deriving DecidableEq, Repr, Inhabited

/-- The kind that a column prefers. -/
inductive Affinity where
  | text
  | number
  | free
  deriving DecidableEq, Repr

/-! ## Order -/

/-- The order of byte strings. -/
def compareBytes : List UInt8 → List UInt8 → Ordering
  | [], [] => .eq
  | [], _ :: _ => .lt
  | _ :: _, [] => .gt
  | a :: r, b :: s =>
    if a < b then .lt else if b < a then .gt else compareBytes r s

/-- The order of texts: by the numbers of their characters. -/
def compareChars : List Char → List Char → Ordering
  | [], [] => .eq
  | [], _ :: _ => .lt
  | _ :: _, [] => .gt
  | c :: r, d :: s =>
    if c.toNat < d.toNat then .lt else if d.toNat < c.toNat then .gt else compareChars r s

namespace Cell

/-- The place of a cell's kind in the order. -/
def rank : Cell → Nat
  | .null => 0
  | .int _ | .real _ => 1
  | .text _ => 2
  | .blob _ => 3

/-- The order of cells.  A double that is no number cannot be stored. -/
def order : Cell → Cell → Ordering
  | .int m, .int n => compare m n
  | .int m, .real x => ((x.compareInt? m).map Ordering.swap).getD .eq
  | .real x, .int n => (x.compareInt? n).getD .eq
  | .real x, .real y => (x.compare? y).getD .eq
  | .text s, .text t => compareChars s.toList t.toList
  | .blob a, .blob b => compareBytes a b
  | a, b => compare a.rank b.rank

def isNull : Cell → Bool
  | .null => true
  | _ => false

end Cell

/-! ## Text of cells -/

/-- The text of a cell, where it has one.  Bytes are read as UTF-8. -/
def Cell.text? : Cell → Option String
  | .null => none
  | .int n => some (Text.decimalInt n)
  | .real x => some (Real.text x)
  | .text s => some s
  | .blob bs => some (String.ofList (Text.Utf8.replacing bs))

/-! ## Texts as numbers -/

/-- Integers that a cell can hold. -/
def isStorable (n : Int) : Bool :=
  -Int.pow 2 63 ≤ n && n < Int.pow 2 63

/-- A double as an integer where it is one, the outermost integers apart. -/
def wholeOr (x : Binary64) : Cell :=
  match x.toInt? with
  | some n => if -Int.pow 2 63 < n ∧ n < Int.pow 2 63 - 1 then .int n else .real x
  | none => .real x

def isNumberBlank (c : Char) : Bool :=
  c == ' ' || (9 ≤ c.toNat && c.toNat ≤ 13)

/-- The characters without the blanks at either end. -/
def trimNumber (cs : List Char) : List Char :=
  ((cs.dropWhile isNumberBlank).reverse.dropWhile isNumberBlank).reverse

def digitValues (cs : List Char) : List Nat :=
  cs.map fun c => c.toNat - 48

/-- The exponent after its letter: a sign perhaps, and digits. -/
def readExponent? (cs : List Char) : Option Int :=
  let (negative, ds) := Number.splitSign cs
  if ds.isEmpty || !ds.all Char.isDigit then none
  else
    let n : Int := (Text.ofDigits (digitValues ds) : Nat)
    some (if negative then -n else n)

/-- The number that a text spells in full, an integer where it is one. -/
def numberOf? (s : String) : Option Cell := do
  let (negative, cs) := Number.splitSign (trimNumber s.toList)
  let whole := cs.takeWhile Char.isDigit
  let afterWhole := cs.dropWhile Char.isDigit
  let (fraction, rest) := match afterWhole with
    | '.' :: r => (r.takeWhile Char.isDigit, r.dropWhile Char.isDigit)
    | r => ([], r)
  if whole.isEmpty && fraction.isEmpty then none
  let value (exponent : Int) : Binary64 :=
    Real.ofWritten ⟨digitValues whole, digitValues fraction, exponent⟩ negative
  match rest with
  | [] =>
    if afterWhole.isEmpty then
      let n : Int := (Text.ofDigits (digitValues whole) : Nat)
      let n := if negative then -n else n
      return if isStorable n then .int n else .real (value 0)
    else return wholeOr (value 0)
  | e :: r =>
    if e = 'e' ∨ e = 'E' then
      let exponent ← readExponent? r
      return wholeOr (value exponent)
    else none

/-! ## Affinity -/

namespace Affinity

def apply : Affinity → Cell → Cell
  | .text, .int n => .text (Text.decimalInt n)
  | .text, .real x => .text (Real.text x)
  | .number, .text s => (numberOf? s).getD (.text s)
  | .number, .real x => wholeOr x
  | _, c => c

/-- How the cell of a column compares with another cell, undecided where either is empty. -/
def compare? (a : Affinity) (left right : Cell) : Option Ordering :=
  if left.isNull || right.isNull then none
  else some (Cell.order (a.apply left) (a.apply right))

end Affinity

/-- The whole number that a cell stands for. -/
def Cell.count? (c : Cell) : Option Int :=
  match Affinity.number.apply c with
  | .int n => some n
  | _ => none

/-! ## Cells and values -/

/-- Why a value cannot be sent. -/
inductive Unsendable where
  | tooLarge
  | kind (name : String)
  deriving DecidableEq, Repr

def Cell.ofValue : Value → Except Unsendable Cell
  | .null => .ok .null
  | .bool b => .ok (.int (Value.ofBool b))
  | .int n => if isStorable n then .ok (.int n) else .error .tooLarge
  | .float (.nan _) => .ok .null
  | .float x => .ok (.real x)
  | .text s => .ok (.text s)
  | .bytes bs => .ok (.blob bs)
  | .date d => .ok (.text d.text)
  | .timestamp t => .ok (.text (t.textWith " "))
  | v => .error (.kind v.kindName)

def Cell.toValue : Cell → Value
  | .null => .null
  | .int n => .int n
  | .real x => .float x
  | .text s => .text s
  | .blob bs => .bytes bs

end RowAccess.Sql
