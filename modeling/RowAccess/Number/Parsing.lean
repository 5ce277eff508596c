import RowAccess.Number.Reading
import RowAccess.Value

/-
  RowAccess/Number/Parsing.lean
  =============================
  **The number that a value stands for.**  Integers and finite doubles stand for themselves, texts
  for the number they spell, an integer first.  Truth values are no numbers.
-/

namespace RowAccess

/-- An integer or a finite double. -/
inductive Numeral where
  | int (n : Int)
  | float (negative : Bool) (mantissa : Nat) (exponent : Int)
  deriving DecidableEq, Repr

namespace Numeral

def toValue : Numeral → Value
  | .int n => .int n
  | .float s m e => .float (.finite s m e)

/-- The numeral of a double, unless it is infinite or missing. -/
def ofBinary64? : Binary64 → Option Numeral
  | .finite s m e => some (.float s m e)
  | _ => none

/-- The integer that the numeral equals. -/
def toInt? : Numeral → Option Int
  | .int n => some n
  | .float s m e => (Binary64.finite s m e).toInt?

/-- The integer part of the numeral, toward zero. -/
def truncate : Numeral → Int
  | .int n => n
  | .float s m e => ((Binary64.finite s m e).truncate?).getD 0

/-- The numeral that a text spells, blanks around it apart. -/
def ofText? (s : String) : Option Numeral :=
  let cs := Text.trim s.toList
  match Number.readInt cs with
  | .ok n => some (.int n)
  | .error _ => (Number.readDecimal? cs).bind ofBinary64?

end Numeral

def Value.numeral? : Value → Option Numeral
  | .int n => some (.int n)
  | .float x => Numeral.ofBinary64? x
  | .text s => Numeral.ofText? s
  | _ => none

end RowAccess
