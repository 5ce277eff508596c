import RowAccess.Text.Digit

/-
  RowAccess/Number/Binary64.lean
  ==============================
  **Double precision numbers in exact arithmetic.**  A finite number is a sign, a mantissa below
  2^53 and an exponent of two of at least -1074, with the mantissa at least 2^52 unless the exponent
  is the least one, so that equal numbers of equal sign have one form.  Rounding a quotient goes to
  the nearest number, a tie to the even mantissa.

  What is no number is `nan`, which equals nothing.  The one that documents spell is the same thing
  wherever it is read; it is told apart from every other by a mark.
-/

namespace RowAccess

/-- A double precision number. -/
inductive Binary64 where
  | finite (negative : Bool) (mantissa : Nat) (exponent : Int)
  | infinite (negative : Bool)
  | nan (spelled : Bool)
  deriving DecidableEq, Repr, Inhabited

namespace Binary64

/-! ## Rounding -/

/-- The quotient of two numbers with its remainder resolved to the nearest integer, a tie to the
even one. -/
def roundDiv (num den : Nat) : Nat :=
  let q := num / den
  let r := num % den
  if 2 * r < den then q
  else if den < 2 * r then q + 1
  else if q % 2 = 0 then q else q + 1

/-- The numerator and denominator of `num / den / 2^e`. -/
def scaled (num den : Nat) (e : Int) : Nat × Nat :=
  if 0 ≤ e then (num, den * Nat.pow 2 e.toNat) else (num * Nat.pow 2 (-e).toNat, den)

/-- The exponent of two that brings the quotient into 2^52 to 2^53, but at least -1074. -/
def exponentFor (num den : Nat) : Int :=
  let guess : Int := (Nat.log2 num : Int) - (Nat.log2 den : Int) - 52
  let (n, d) := scaled num den guess
  let e := if n / d < Nat.pow 2 52 then guess - 1 else guess
  max e (-1074)

/-- The number nearest to a quotient, with the given sign. -/
def ofRatio (negative : Bool) (num den : Nat) : Binary64 :=
  if num = 0 then .finite negative 0 (-1074)
  else
    let e := exponentFor num den
    let (n, d) := scaled num den e
    let q := roundDiv n d
    let (m, e) := if q = Nat.pow 2 53 then (Nat.pow 2 52, e + 1) else (q, e)
    if 971 < e then .infinite negative else .finite negative m e

/-- The number nearest to `digits * 10^exponent`. -/
def ofDecimal (negative : Bool) (digits : Nat) (exponent : Int) : Binary64 :=
  if 0 ≤ exponent then ofRatio negative (digits * Nat.pow 10 exponent.toNat) 1
  else ofRatio negative digits (Nat.pow 10 (-exponent).toNat)

/-- The number nearest to an integer. -/
def ofInt (n : Int) : Binary64 :=
  ofRatio (n < 0) n.natAbs 1

/-! ## Comparison -/

/-- The least exponent of the two, at which both are integers. -/
def commonExponent (x y : Int) : Int := min x y

/-- The signed integer `± mantissa * 2^(exponent - base)`, for a base up to the exponent. -/
def signedAt (negative : Bool) (mantissa : Nat) (exponent base : Int) : Int :=
  let n : Int := (mantissa * Nat.pow 2 (exponent - base).toNat : Nat)
  if negative then -n else n

/-- How two numbers compare, `none` if one of them is no number. -/
def compare? : Binary64 → Binary64 → Option Ordering
  | .nan _, _ => none
  | _, .nan _ => none
  | .infinite a, .infinite b => some (compare (!a) (!b))
  | .infinite a, .finite .. => some (if a then .lt else .gt)
  | .finite .., .infinite b => some (if b then .gt else .lt)
  | .finite a m e, .finite b n f =>
    let base := commonExponent e f
    some (compare (signedAt a m e base) (signedAt b n f base))

/-- How a number compares with an integer. -/
def compareInt? (x : Binary64) (n : Int) : Option Ordering :=
  match x with
  | .nan _ => none
  | .infinite a => some (if a then .lt else .gt)
  | .finite a m e =>
    let base := commonExponent e 0
    some (compare (signedAt a m e base) (n * Int.pow 2 (0 - base).toNat))

/-- Equality of numbers: the two zeros are equal, no number equals `nan`. -/
def same (x y : Binary64) : Bool := compare? x y == some .eq

/-- The integer part of a finite number, toward zero. -/
def truncate? : Binary64 → Option Int
  | .finite negative m e =>
    let n : Int := if 0 ≤ e then (m * Nat.pow 2 e.toNat : Nat) else (m / Nat.pow 2 (-e).toNat : Nat)
    some (if negative then -n else n)
  | _ => none

/-- The integer that the number equals. -/
def toInt? (x : Binary64) : Option Int :=
  match truncate? x with
  | some n => if compareInt? x n == some .eq then some n else none
  | none => none

def isZero : Binary64 → Bool
  | .finite _ 0 _ => true
  | _ => false

end Binary64

end RowAccess
