import RowAccess.Number.Arithmetic
import RowAccess.Number.Extended
import RowAccess.Number.Reading
import RowAccess.Number.Shortest

/-
  RowAccess/Sql/Real.lean
  =======================
  **Doubles and their text in the engine.**  A decimal is read as an integer of at most 64 bits and
  a power of ten, and the two are brought together in wider arithmetic with one rounding at the end;
  the last digit can therefore differ from the nearest double.  A double is written with fifteen
  significant digits, found one by one in the same arithmetic, so that an exact half goes down.
-/

namespace RowAccess.Sql

namespace Real

/-! ## Reading -/

def digitRoom : Nat := (Nat.pow 2 63 - 1 - 9) / 10

/-- Below this number there is room for a factor of ten. -/
def tenfoldRoom : Nat := (Nat.pow 2 63 - 1) / 10

/-- The first digits of the part before the point, and the number of those left out: once a digit
has used up the room, all others are left out. -/
def wholePart (s : Nat) : List Nat → Nat × Nat
  | [] => (s, 0)
  | d :: ds =>
    let s := s * 10 + d
    if digitRoom ≤ s then (s, ds.length) else wholePart s ds

/-- The digits of the part after the point for which there is room, and their number. -/
def fractionPart (s : Nat) (taken : Nat) : List Nat → Nat × Nat
  | [] => (s, taken)
  | d :: ds => if s < digitRoom then fractionPart (s * 10 + d) (taken + 1) ds else (s, taken)

/-- Takes factors of ten into the integer, or out of it, as far as that is exact.  What is left is
the integer and the size of the exponent. -/
def absorb (negative : Bool) (s : Nat) : Nat → Nat × Nat
  | 0 => (s, 0)
  | e + 1 =>
    if negative then
      if s % 10 = 0 then absorb negative (s / 10) e else (s, e + 1)
    else
      if s < tenfoldRoom then absorb negative (s * 10) e else (s, e + 1)

/-- The double of an integer and a power of ten; `small` says that the exponent is negative. -/
def combine (negative small : Bool) (s e : Nat) : Binary64 :=
  let n := Extended.ofNat s
  let step (scale : Extended) : Binary64 :=
    (if small then n.div scale else n.mul scale).toBinary64 negative
  if e = 0 then Binary64.ofRatio negative s 1
  else if e ≤ 307 then step (Extended.powerOfTen e)
  else if e < 342 then
    let far := Binary64.ofDecimal false 1 308
    let near := step (Extended.powerOfTen (e - 308))
    if small then near.divide far else near.times far
  else if small then .finite negative 0 (-1074)
  else .infinite negative

/-- An exponent of six digits or more counts as ten thousand. -/
def cutExponent (e : Int) : Int :=
  if e.natAbs < 100000 then e else if e < 0 then -10000 else 10000

/-- The double of a written decimal. -/
def ofWritten (w : Number.Written) (negative : Bool) : Binary64 :=
  let (s, left) := wholePart 0 w.whole
  let (s, taken) := fractionPart s 0 w.fraction
  let exponent := cutExponent w.exponent + (left : Int) - (taken : Int)
  if s = 0 then .finite negative 0 (-1074)
  else
    let small := decide (exponent < 0)
    let (s, e) := absorb small s exponent.natAbs
    combine negative small s e

/-! ## Writing -/

/-- The double nearest to 5 * 10^-5, times the one nearest to 10^-10: half a unit of the fifteenth
digit. -/
def half : Extended :=
  match (Binary64.ofDecimal false 5 (-5)).times (Binary64.ofDecimal false 1 (-10)) with
  | .finite _ m e => ⟨m, e⟩
  | _ => ⟨0, 0⟩

/-- Raises a scale by a factor as long as the number is at least so many times the scale; the second
number counts the factors of ten. -/
def raiseScale (x factor : Extended) (zeros : Nat) (scale : Extended) (count : Int) :
    Nat → Extended × Int
  | 0 => (scale, count)
  | fuel + 1 =>
    if x.less (factor.mul scale) || 350 < count then (scale, count)
    else raiseScale x factor zeros (scale.mul factor) (count + zeros) fuel

/-- Raises a number by a factor as long as it is less than a bound; the second number counts the
factors of ten. -/
def raise (bound factor : Extended) (zeros : Nat) (x : Extended) (count : Int) :
    Nat → Extended × Int
  | 0 => (x, count)
  | fuel + 1 =>
    if x.less bound then raise bound factor zeros (x.mul factor) (count - zeros) fuel
    else (x, count)

/-- A positive number brought between one and ten, and the exponent of ten taken out. -/
def normalized (x : Extended) : Extended × Int :=
  let one := Extended.ofNat 1
  let (scale, count) := raiseScale x (Extended.ofDouble 1 100) 100 one 0 8
  let (scale, count) := raiseScale x (Extended.ofDouble 1 10) 10 scale count 40
  let (scale, count) := raiseScale x (Extended.ofNat 10) 1 scale count 400
  let (x, count) := raise (Extended.ofDouble 1 (-8)) (Extended.ofDouble 1 8) 8 (x.div scale) count 60
  raise one (Extended.ofNat 10) 1 x count 20

/-- The digits of a number below ten, one by one. -/
def digitsFrom (x : Extended) : Nat → List Nat
  | 0 => []
  | count + 1 =>
    let d := x.floor
    d :: digitsFrom ((x.sub (Extended.ofNat d)).mul (Extended.ofNat 10)) count

/-- The fifteen significant digits of a positive number, without zeros at the end. -/
def fifteenDigits (mantissa : Nat) (exponent : Int) : Binary64.Digits :=
  let (x, e) := normalized (.ofParts mantissa exponent)
  let x := x.add half
  let (x, e) :=
    if x.less (Extended.ofNat 10) then (x, e) else (x.mul (Extended.ofDouble 1 (-1)), e + 1)
  ⟨((digitsFrom x 15).reverse.dropWhile (· == 0)).reverse, e + 1⟩

/-- Digits with a point: positional from 10^-4 up to 10^15, with an exponent beyond. -/
def pointed (d : Binary64.Digits) : String :=
  if -4 < d.point ∧ d.point ≤ 15 then d.text
  else
    let rest := Binary64.digitText (d.digits.drop 1)
    let e := d.point - 1
    Binary64.digitText (d.digits.take 1) ++ "." ++ (if rest.isEmpty then "0" else rest) ++
      (if e < 0 then "e-" else "e+") ++ Text.padded 2 e.natAbs

def text : Binary64 → String
  | .nan _ => ""
  | .infinite negative => if negative then "-Inf" else "Inf"
  | .finite negative m e =>
    if m = 0 then "0.0" else (if negative then "-" else "") ++ pointed (fifteenDigits m e)

end Real

end RowAccess.Sql
