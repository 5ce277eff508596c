import RowAccess.Number.Binary64

/-
  RowAccess/Number/Shortest.lean
  ==============================
  **The text of a double precision number**: the fewest significant digits that read back as the
  number, of two such texts the nearer one, written positionally from 10^-4 up to 10^16 and with an
  exponent of at least two digits beyond.  A whole number keeps one zero after the point.
-/

namespace RowAccess.Binary64

/-- A positive decimal `0.d₁d₂… * 10^point` by its digits. -/
structure Digits where
  digits : List Nat
  point : Int
  deriving DecidableEq, Repr

/-- The number of digits before the point of `num / den`; negative when zeros follow the point. -/
def pointOf (num den : Nat) : Int :=
  ((Nat.toDigits 10 (num * Nat.pow 10 400 / den)).length : Int) - 400

/-- The two neighbours of `num / den` on the grid of `count` significant digits, as the lower
integer, the remainder and the divisor of the scaled value. -/
def gridBelow (num den count : Nat) (point : Int) : Nat × Nat × Nat :=
  let shift : Int := (count : Int) - point
  let (n, d) :=
    if 0 ≤ shift then (num * Nat.pow 10 shift.toNat, den)
    else (num, den * Nat.pow 10 (-shift).toNat)
  (n / d, n % d, d)

/-- The numerator and denominator of `mantissa * 2^exponent`. -/
def ratio (mantissa : Nat) (exponent : Int) : Nat × Nat :=
  if 0 ≤ exponent then (mantissa * Nat.pow 2 exponent.toNat, 1)
  else (mantissa, Nat.pow 2 (-exponent).toNat)

/-- The digits of a grid point, without zeros at the end. -/
def digitsOf (n count : Nat) (point : Int) : Digits :=
  let ds := (Nat.toDigits 10 n).map fun c => c.toNat - 48
  let point := point + ((ds.length : Int) - (count : Int))
  ⟨(ds.reverse.dropWhile (· == 0)).reverse, point⟩

/-- Tries the grids from `count` digits on; the last grid always reads back. -/
def shortestFrom (mantissa : Nat) (exponent : Int) (point : Int) : Nat → Nat → Digits
  | 0, count =>
    let (num, den) := ratio mantissa exponent
    digitsOf (gridBelow num den count point).1 count point
  | fuel + 1, count =>
    let (num, den) := ratio mantissa exponent
    let (low, rest, den) := gridBelow num den count point
    let reads (n : Nat) : Bool :=
      ofDecimal false n (point - (count : Int)) == .finite false mantissa exponent
    match reads low, reads (low + 1) with
    | true, true =>
      let up := den < 2 * rest || (2 * rest == den && low % 2 == 1)
      digitsOf (if up then low + 1 else low) count point
    | true, false => digitsOf low count point
    | false, true => digitsOf (low + 1) count point
    | false, false => shortestFrom mantissa exponent point fuel (count + 1)

/-- The fewest digits that read back as the positive number. -/
def shortest (mantissa : Nat) (exponent : Int) : Digits :=
  let (num, den) := ratio mantissa exponent
  shortestFrom mantissa exponent (pointOf num den) 17 1

def digitText (ds : List Nat) : String :=
  String.ofList (ds.map fun d => Char.ofNat (48 + d))

def zeros (n : Nat) : String :=
  String.ofList (List.replicate n '0')

/-- Exponent notation: one digit, a point where more follow, and the exponent with its sign and at
least two digits. -/
def exponentText (ds : List Nat) (e : Int) : String :=
  let rest := digitText (ds.drop 1)
  digitText (ds.take 1) ++ (if rest.isEmpty then "" else "." ++ rest) ++
    (if e < 0 then "e-" else "e+") ++ Text.padded 2 e.natAbs

def Digits.text (d : Digits) : String :=
  let count := d.digits.length
  if -4 < d.point ∧ d.point ≤ 16 then
    if d.point ≤ 0 then "0." ++ zeros (-d.point).toNat ++ digitText d.digits
    else
      let whole := d.point.toNat
      if count ≤ whole then digitText d.digits ++ zeros (whole - count) ++ ".0"
      else digitText (d.digits.take whole) ++ "." ++ digitText (d.digits.drop whole)
  else exponentText d.digits (d.point - 1)

def text : Binary64 → String
  | .nan _ => "nan"
  | .infinite negative => if negative then "-inf" else "inf"
  | .finite negative m e =>
    (if negative then "-" else "") ++ if m = 0 then "0.0" else (shortest m e).text

end RowAccess.Binary64
