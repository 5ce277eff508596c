import RowAccess.Number.Binary64
import RowAccess.Text.Blank

/-
  RowAccess/Number/Reading.lean
  =============================
  **Reading numbers from text.**  Digits of every script count; one underscore may stand between
  two digits; an integer has at most 4300 digits; a decimal may leave out the part before or after
  its point and may name infinity or the missing number in any case.
-/

namespace RowAccess.Number

def digitLimit : Nat := 4300

/-- The wording for an integer of too many digits. -/
def tooManyDigits (count : Nat) : String :=
  "Exceeds the limit (4300 digits) for integer string conversion: value has " ++
    Text.decimal count ++ " digits; use sys.set_int_max_str_digits() to increase the limit"

/-- The wording where an integer of too many digits is to be written. -/
def tooLongToWrite : String :=
  "Exceeds the limit (4300 digits) for integer string conversion; use " ++
    "sys.set_int_max_str_digits() to increase the limit"

/-- Has an integer no more digits than may be written? -/
def isWritten (n : Int) : Bool :=
  (Nat.toDigits 10 n.natAbs).length ≤ digitLimit

theorem isWritten_iff {n : Int} : isWritten n = true ↔ n.natAbs < Nat.pow 10 digitLimit := by
  have hlimit : 0 < digitLimit := by decide
  rw [isWritten, decide_eq_true_iff]
  -- The limit is made a variable, since its power is too large to be evaluated.
  generalize digitLimit = limit at hlimit ⊢
  exact Nat.length_toDigits_le_iff (by decide) hlimit

theorem isWritten_of_lt {n : Int} {places : Nat} (h : n.natAbs < Nat.pow 10 places)
    (hplaces : places ≤ digitLimit) : isWritten n = true := by
  rw [isWritten_iff]
  generalize digitLimit = limit at hplaces ⊢
  exact Nat.lt_of_lt_of_le h (Nat.pow_le_pow_right (by decide) hplaces)

/-- The least positive integer of too many digits. -/
def leastUnwritten : Int :=
  (Nat.pow 10 digitLimit : Nat)

theorem isWritten_leastUnwritten : isWritten leastUnwritten = false := by
  rw [← Bool.not_eq_true, isWritten_iff, leastUnwritten, Int.natAbs_natCast]
  exact Nat.lt_irrefl _

/-- Why a text is no integer. -/
inductive Refusal where
  | malformed
  | tooLong (count : Nat)
  deriving DecidableEq, Repr

/-- The digit values of a digit sequence in which a single underscore may separate two digits. -/
def digitSequence? : List Char → Option (List Nat)
  | [] => none
  | [c] => (Text.decimalValue? c).map ([·])
  | c :: '_' :: r => do
    let d ← Text.decimalValue? c
    let ds ← digitSequence? r
    return d :: ds
  | c :: r => do
    let d ← Text.decimalValue? c
    let ds ← digitSequence? r
    return d :: ds

/-- The sign in front, and what follows it. -/
def splitSign : List Char → Bool × List Char
  | '-' :: r => (true, r)
  | '+' :: r => (false, r)
  | r => (false, r)

/-- Reads an integer from characters without blanks at their ends. -/
def readInt (cs : List Char) : Except Refusal Int :=
  let (negative, r) := splitSign cs
  match digitSequence? r with
  | none => .error .malformed
  | some ds =>
    if digitLimit < ds.length then .error (.tooLong ds.length)
    else
      let n : Int := (Text.ofDigits ds : Nat)
      .ok (if negative then -n else n)

/-- A written decimal: the digits before and after the point and the exponent of ten. -/
structure Written where
  whole : List Nat
  fraction : List Nat
  exponent : Int
  deriving DecidableEq, Repr

/-- The number nearest to a written decimal.  Exponents far outside the range of finite numbers are
cut, which changes no result. -/
def Written.toBinary64 (w : Written) (negative : Bool) : Binary64 :=
  let ds := (w.whole ++ w.fraction).dropWhile (· == 0)
  let point := w.exponent - (w.fraction.length : Int)
  let top := point + (ds.length : Int)
  if ds.isEmpty then .finite negative 0 (-1074)
  else if 400 < top then .infinite negative
  else if top < -400 then .finite negative 0 (-1074)
  else Binary64.ofDecimal negative (Text.ofDigits ds) point

/-- Splits the characters at the first one that satisfies the test. -/
def splitAt? (p : Char → Bool) (cs : List Char) : List Char × Option (List Char) :=
  match cs.dropWhile fun c => !p c with
  | [] => (cs, none)
  | _ :: r => (cs.takeWhile fun c => !p c, some r)

/-- The digits of a part that may be empty. -/
def optionalDigits? : List Char → Option (List Nat)
  | [] => some []
  | cs => digitSequence? cs

/-- Reads the decimal form of a number without its sign. -/
def readWritten? (cs : List Char) : Option Written := do
  let (mantissa, exponent) := splitAt? (fun c => c == 'e' || c == 'E') cs
  let (whole, fraction) := splitAt? (· == '.') mantissa
  let whole ← optionalDigits? whole
  let fraction ← optionalDigits? (fraction.getD [])
  if whole.isEmpty && fraction.isEmpty then none
  match exponent with
  | none => return ⟨whole, fraction, 0⟩
  | some e =>
    let (negative, digits) := splitSign e
    let ds ← digitSequence? digits
    let n : Int := (Text.ofDigits ds : Nat)
    return ⟨whole, fraction, if negative then -n else n⟩

def smallAscii (cs : List Char) : List Char :=
  cs.map Char.toLower

/-- Reads a decimal, infinity or the missing number from characters without blanks at their
ends. -/
def readDecimal? (cs : List Char) : Option Binary64 :=
  let (negative, r) := splitSign cs
  let name := smallAscii r
  if name = "inf".toList ∨ name = "infinity".toList then some (.infinite negative)
  else if name = "nan".toList then some (.nan false)
  else (readWritten? r).map (·.toBinary64 negative)

end RowAccess.Number
