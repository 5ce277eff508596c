import RowAccess.Number.Binary64

/-
  RowAccess/Number/Arithmetic.lean
  ================================
  **Sums, products and quotients of doubles.**  A result that is finite is the exact one, rounded
  once.  An infinite operand gives what its limit gives, and no number where there is no limit.
-/

namespace RowAccess.Binary64

/-- The number nearest to `mantissa * 2^exponent`, with the given sign. -/
def ofScaled (negative : Bool) (mantissa : Nat) (exponent : Int) : Binary64 :=
  if 0 ≤ exponent then ofRatio negative (mantissa * Nat.pow 2 exponent.toNat) 1
  else ofRatio negative mantissa (Nat.pow 2 (-exponent).toNat)

/-- The number with the opposite sign. -/
def negate : Binary64 → Binary64
  | .finite a m e => .finite (!a) m e
  | .infinite a => .infinite (!a)
  | .nan s => .nan s

/-- The rounded sum. -/
def plus : Binary64 → Binary64 → Binary64
  | .finite a m e, .finite b n f =>
    let base := commonExponent e f
    let sum := signedAt a m e base + signedAt b n f base
    ofScaled (if sum = 0 then a && b else sum < 0) sum.natAbs base
  | .infinite a, .infinite b => if a = b then .infinite a else .nan false
  | .infinite a, .finite .. => .infinite a
  | .finite .., .infinite b => .infinite b
  | _, _ => .nan false

/-- The rounded difference. -/
def minus (x y : Binary64) : Binary64 :=
  x.plus y.negate

/-- The rounded product. -/
def times : Binary64 → Binary64 → Binary64
  | .finite a m e, .finite b n f => ofScaled (a != b) (m * n) (e + f)
  | .infinite a, .infinite b => .infinite (a != b)
  | .infinite a, .finite b n _ => if n = 0 then .nan false else .infinite (a != b)
  | .finite a m _, .infinite b => if m = 0 then .nan false else .infinite (a != b)
  | _, _ => .nan false

/-- The rounded quotient. -/
def divide : Binary64 → Binary64 → Binary64
  | .finite a m e, .finite b n f =>
    if n = 0 then if m = 0 then .nan false else .infinite (a != b)
    else if 0 ≤ e - f then ofRatio (a != b) (m * Nat.pow 2 (e - f).toNat) n
    else ofRatio (a != b) m (n * Nat.pow 2 (-(e - f)).toNat)
  | .infinite a, .finite b _ _ => .infinite (a != b)
  | .finite a _ _, .infinite b => .finite (a != b) 0 (-1074)
  | _, _ => .nan false

end RowAccess.Binary64
