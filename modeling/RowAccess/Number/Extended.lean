import RowAccess.Number.Binary64

/-
  RowAccess/Number/Extended.lean
  ==============================
  **Numbers with 64 bits of mantissa.**  Decimal text is turned into doubles, and doubles into text,
  in arithmetic that is a little wider than the doubles themselves: every product, quotient and sum
  is rounded to 64 bits, a tie to the even mantissa.  The exponents that arise are small, so that
  the width of an exponent plays no part.
-/

namespace RowAccess

/-- The number `mantissa * 2^exponent`, never negative, with a mantissa below 2^64. -/
structure Extended where
  mantissa : Nat
  exponent : Int
  deriving DecidableEq, Repr

namespace Extended

/-- The number nearest to `num / den * 2^e`. -/
def ofRatio (num den : Nat) (e : Int) : Extended :=
  if num = 0 then ⟨0, 0⟩
  else
    let widened := Nat.log2 den + 66 - Nat.log2 num
    let n := num * Nat.pow 2 widened
    let excess := Nat.log2 (n / den) - 63
    let m := Binary64.roundDiv n (den * Nat.pow 2 excess)
    let e := e - widened + excess
    if m = Nat.pow 2 64 then ⟨Nat.pow 2 63, e + 1⟩ else ⟨m, e⟩

/-- A natural number. -/
def ofNat (n : Nat) : Extended :=
  ofRatio n 1 0

/-- The size of a finite double. -/
def ofParts (mantissa : Nat) (exponent : Int) : Extended :=
  ⟨mantissa, exponent⟩

/-- The double nearest to a decimal, as a wider number. -/
def ofDouble (digits : Nat) (exponent : Int) : Extended :=
  match Binary64.ofDecimal false digits exponent with
  | .finite _ m e => ⟨m, e⟩
  | _ => ⟨0, 0⟩

/-- The rounded product. -/
def mul (x y : Extended) : Extended :=
  ofRatio (x.mantissa * y.mantissa) 1 (x.exponent + y.exponent)

/-- The rounded quotient. -/
def div (x y : Extended) : Extended :=
  ofRatio x.mantissa y.mantissa (x.exponent - y.exponent)

/-- The mantissa at a lower exponent. -/
def mantissaAt (x : Extended) (base : Int) : Nat :=
  x.mantissa * Nat.pow 2 (x.exponent - base).toNat

/-- The rounded sum. -/
def add (x y : Extended) : Extended :=
  let base := min x.exponent y.exponent
  ofRatio (x.mantissaAt base + y.mantissaAt base) 1 base

/-- The rounded difference, zero where it would be negative. -/
def sub (x y : Extended) : Extended :=
  let base := min x.exponent y.exponent
  ofRatio (x.mantissaAt base - y.mantissaAt base) 1 base

/-- Is the first number less than the second? -/
def less (x y : Extended) : Bool :=
  let base := min x.exponent y.exponent
  x.mantissaAt base < y.mantissaAt base

/-- The integer part. -/
def floor (x : Extended) : Nat :=
  if 0 ≤ x.exponent then x.mantissa * Nat.pow 2 x.exponent.toNat
  else x.mantissa / Nat.pow 2 (-x.exponent).toNat

/-- The nearest double. -/
def toBinary64 (negative : Bool) (x : Extended) : Binary64 :=
  if 0 ≤ x.exponent then Binary64.ofRatio negative (x.mantissa * Nat.pow 2 x.exponent.toNat) 1
  else Binary64.ofRatio negative x.mantissa (Nat.pow 2 (-x.exponent).toNat)

/-- A power of ten by repeated squaring: `base` is squared for every binary digit of the exponent
and multiplied in where the digit is one. -/
def powerFrom (base result : Extended) : Nat → Nat → Extended
  | 0, _ => result
  | fuel + 1, e =>
    let result := if e % 2 = 1 then result.mul base else result
    if e / 2 = 0 then result else powerFrom (base.mul base) result fuel (e / 2)

/-- The power of ten with an exponent, rounded at every step. -/
def powerOfTen (e : Nat) : Extended :=
  powerFrom (ofNat 10) (ofNat 1) (Nat.log2 e + 1) e

end Extended

end RowAccess
