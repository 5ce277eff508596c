import RowAccess.Sql.Moment
import RowAccess.Sql.Numeric
import RowAccess.Sql.Wildcard

/-
  RowAccess/Sql/Function.lean
  ===========================
  **Functions of cells.**  A function has a name and takes a number of arguments; its name is found
  in any case.  Aggregates have names too, but no place in an expression over a single row.
-/

namespace RowAccess.Sql

/-- A name of a function, and how many arguments it takes. -/
structure Signature where
  name : String
  least : Nat
  most : Option Nat
  deriving DecidableEq, Repr

namespace Signature

def exact (count : Nat) (name : String) : Signature :=
  ⟨name, count, some count⟩

def atLeast (count : Nat) (name : String) : Signature :=
  ⟨name, count, none⟩

/-- Does the function take so many arguments? -/
def takes (s : Signature) (count : Nat) : Bool :=
  s.least ≤ count && (s.most.map fun most => decide (count ≤ most)).getD true

def functions : List Signature :=
  ["abs", "hex", "length", "likely", "lower", "quote", "sign", "typeof", "unicode", "unlikely",
    "upper", "zeroblob", "ceil", "ceiling", "floor", "trunc", "soundex", "sqrt", "degrees",
    "radians"].map (exact 1) ++
    ["changes", "total_changes", "random", "sqlite_version", "pi", "current_date", "current_time",
      "current_timestamp"].map (exact 0) ++
    ["glob", "ifnull", "instr", "likelihood", "nullif", "match", "mod"].map (exact 2) ++
    ["iif", "replace"].map (exact 3) ++
    [⟨"like", 2, some 3⟩, ⟨"substr", 2, some 3⟩, ⟨"substring", 2, some 3⟩, ⟨"round", 1, some 2⟩,
      ⟨"trim", 1, some 2⟩, ⟨"ltrim", 1, some 2⟩, ⟨"rtrim", 1, some 2⟩] ++
    ("char" :: Moment.functionNames).map (atLeast 0) ++ ["coalesce", "max", "min"].map (atLeast 2)

/-- The functions of the rows of a table. -/
def aggregates : List Signature :=
  ["avg", "max", "min", "sum", "total"].map (exact 1) ++
    [⟨"count", 0, some 1⟩, ⟨"group_concat", 1, some 2⟩]

end Signature

def smallName (name : String) : String :=
  String.ofList (name.toList.map Char.toLower)

/-- What a name with a number of arguments calls. -/
inductive Callee where
  | function
  | aggregate
  | miscounted
  | unknown
  deriving DecidableEq, Repr

def Callee.of (name : String) (count : Nat) : Callee :=
  let named (s : Signature) : Bool := s.name == smallName name
  let fits (s : Signature) : Bool := named s && s.takes count
  if Signature.functions.any fits then .function
  else if Signature.aggregates.any fits then .aggregate
  else if (Signature.functions ++ Signature.aggregates).any named then .miscounted
  else .unknown

namespace Function

def engineVersion : String := "3.40.1"

/-! ## Texts -/

/-- The characters before the first null character. -/
def visible (cs : List Char) : List Char :=
  cs.takeWhile fun c => c.toNat != 0

/-- The text of a cell, empty for an empty cell. -/
def textOf (c : Cell) : String :=
  c.text?.getD ""

/-- Turns the text of a cell, an empty cell stays empty. -/
def onText (f : String → Cell) (c : Cell) : Cell :=
  (c.text?.map f).getD .null

/-- The text with every character changed. -/
def mapped (f : Char → Char) : Cell → Cell :=
  onText fun s => .text (String.ofList ((visible s.toList).map f))

/-- The number of characters, or of bytes. -/
def length : Cell → Cell
  | .blob bs => .int bs.length
  | c => onText (fun s => .int (visible s.toList).length) c

/-- The part of a list from a place on: places count from one, negative ones from the end.  A
negative count takes what stands before the place, and no count takes all that follows. -/
def part {α : Type} (xs : List α) (start : Int) (count : Option Int) : List α :=
  let size : Int := xs.length
  let backward := (count.map fun n => decide (n < 0)).getD false
  let wanted : Int := (count.map fun n => (n.natAbs : Int)).getD (size + start.natAbs + 1)
  let (first, wanted) : Int × Int :=
    if start < 0 then
      let first := start + size
      if first < 0 then (0, max 0 (wanted + first)) else (first, wanted)
    else if 0 < start then (start - 1, wanted)
    else (0, max 0 (wanted - 1))
  let (first, wanted) : Int × Int :=
    if backward then
      let first := first - wanted
      if first < 0 then (0, wanted + first) else (first, wanted)
    else (first, wanted)
  (xs.drop first.toNat).take wanted.toNat

/-- A part of a text or of bytes. -/
def substring (c start : Cell) (count : Option Cell) : Cell :=
  if start.isNull || (count.map Cell.isNull).getD false then .null
  else
    match c with
    | .null => .null
    | .blob bs => .blob (part bs start.toWhole (count.map Cell.toWhole))
    | c =>
      .text (String.ofList (part (visible (textOf c).toList) start.toWhole
        (count.map Cell.toWhole)))

/-- The place of the first list in the second, counted from one, zero if it has none. -/
def placeOf {α : Type} [BEq α] (needle : List α) : List α → Nat → Nat
  | [], n => if needle.isEmpty then n else 0
  | x :: xs, n => if needle.isPrefixOf (x :: xs) then n else placeOf needle xs (n + 1)

def place (c needle : Cell) : Cell :=
  if c.isNull || needle.isNull then .null
  else
    match c, needle with
    | .blob bs, .blob ns => .int (placeOf ns bs 1)
    | c, needle => .int (placeOf (textOf needle).toList (textOf c).toList 1)

/-- Replaces every occurrence of a list that is not empty; `skip` members are part of the last
one. -/
def replaced (needle other : List Char) : List Char → Nat → List Char
  | [], _ => []
  | c :: r, 0 =>
    if needle.isPrefixOf (c :: r) then other ++ replaced needle other r (needle.length - 1)
    else c :: replaced needle other r 0
  | _ :: r, skip + 1 => replaced needle other r skip

/-- The text of the first cell with the second replaced by the third. -/
def replacement (c needle other : Cell) : Cell :=
  if c.isNull || needle.isNull || other.isNull then .null
  else if (textOf needle).isEmpty then .text (textOf c)
  else
    .text (String.ofList
      (replaced (textOf needle).toList (textOf other).toList (textOf c).toList 0))

def trimmed (front back : Bool) (set : List Char) (cs : List Char) : List Char :=
  let cs := if front then cs.dropWhile set.contains else cs
  if back then (cs.reverse.dropWhile set.contains).reverse else cs

def trim (front back : Bool) (c : Cell) (set : Option Cell) : Cell :=
  if (set.map Cell.isNull).getD false then .null
  else
    onText (fun s => .text (String.ofList
      (trimmed front back ((set.map fun x => (textOf x).toList).getD [' ']) s.toList))) c

/-! ## Kinds and forms -/

def kindOf : Cell → String
  | .null => "null"
  | .int _ => "integer"
  | .real _ => "real"
  | .text _ => "text"
  | .blob _ => "blob"

/-- Bytes in hexadecimal digits. -/
def hexText (bs : List UInt8) : String :=
  String.ofList (bs.flatMap fun b =>
    [Text.hexCapital (b.toNat / 16), Text.hexCapital (b.toNat % 16)])

def quote : Cell → String
  | .null => "NULL"
  | .text s =>
    let doubled := (visible s.toList).flatMap fun c => if c = '\'' then [c, c] else [c]
    "'" ++ String.ofList doubled ++ "'"
  | .blob bs => "X'" ++ hexText bs ++ "'"
  | c => textOf c

/-! ## Numbers -/

/-- The size of a number; only an integer stays one. -/
def absolute : Cell → Cell
  | .null => .null
  | .int n => .int n.natAbs
  | c =>
    let x := c.toReal
    .ofReal (match x with
      | .finite _ m e => .finite false m e
      | .infinite _ => .infinite false
      | .nan s => .nan s)

/-- The number of a cell that is one, or a text that spells one in full. -/
def exactNumber : Cell → Cell
  | .text s => (numberOf? s).getD .null
  | .blob bs => (numberOf? (String.ofList (Text.Utf8.replacing bs))).getD .null
  | c => c

def signOf (c : Cell) : Cell :=
  match exactNumber c with
  | .int n => .int n.sign
  | .real x =>
    match x.compareInt? 0 with
    | some .lt => .int (-1)
    | some .gt => .int 1
    | some .eq => .int 0
    | none => .null
  | _ => .null

/-- A double rounded by a rule for the quotient of its size. -/
def roundedBy (rule : Bool → Nat → Nat → Nat) (c : Cell) : Cell :=
  match exactNumber c with
  | .real (.finite negative m e) =>
    if 0 ≤ e then .real (.finite negative m e)
    else .real (.ofRatio negative (rule negative m (Nat.pow 2 (-e).toNat)) 1)
  | c => c

/-- The least integer that is not less. -/
def ceiling : Cell → Cell :=
  roundedBy fun negative m d => if negative then m / d else (m + d - 1) / d

/-- The greatest integer that is not greater. -/
def floor : Cell → Cell :=
  roundedBy fun negative m d => if negative then (m + d - 1) / d else m / d

/-- The integer part. -/
def truncated : Cell → Cell :=
  roundedBy fun _ m d => m / d

/-- A number rounded to so many digits after the point, a half away from zero. -/
def round (c : Cell) (digits : Cell) : Cell :=
  if c.isNull || digits.isNull then .null
  else
    let places := (min 30 (max 0 digits.toWhole)).toNat
    match c.toReal with
    | .finite negative m e =>
      if 0 ≤ e then .real (.finite negative m e)
      else
        let den := Nat.pow 2 (-e).toNat
        let scaled := (2 * m * Nat.pow 10 places + den) / (2 * den)
        .real (.ofRatio negative scaled (Nat.pow 10 places))
    | x => .ofReal x

/-! ## Choices -/

def firstGiven (cells : List Cell) : Cell :=
  (cells.find? fun c => !c.isNull).getD .null

/-- The least or greatest of several cells, empty if one of them is. -/
def extreme (greatest : Bool) : List Cell → Cell
  | [] => .null
  | c :: cells =>
    if (c :: cells).any Cell.isNull then .null
    else
      cells.foldl
        (fun best d =>
          if Cell.order d best == (if greatest then .gt else .lt) then d else best)
        c

/-! ## Patterns -/

/-- Is the cell a byte string? -/
def isBlob : Cell → Bool
  | .blob _ => true
  | _ => false

/-- Is one side of a match a byte string?  Such a one matches nothing. -/
def isUnmatchable (c pattern : Cell) : Bool :=
  isBlob c || isBlob pattern

/-- The truth of a match of texts by a rule: a byte string matches nothing. -/
def matchTruth (rule : List Char → List Char → Bool) (c pattern : Cell) : Truth :=
  if isUnmatchable c pattern then .no
  else
    match c.text?, pattern.text? with
    | some s, some p => .ofBool (rule (visible p.toList) (visible s.toList))
    | _, _ => .unknown

def likeTruth (c pattern : Cell) : Truth :=
  matchTruth Pattern.isFit c pattern

/-- The truth of a match against a pattern with an escape, undecided where there is none. -/
def escapedTruth (c pattern escape : Cell) : Truth :=
  if isUnmatchable c pattern then .no
  else if escape.isNull then .unknown
  else
    match (textOf escape).toList with
    | e :: _ => matchTruth (Wildcard.isEscapedFit e) c pattern
    | [] => .unknown

/-! ## Sounds -/

/-- The digit for the sound of a small letter, zero where it has none. -/
def soundDigit (c : Char) : Char :=
  let groups : List (Char × String) :=
    [('1', "bfpv"), ('2', "cgjkqsxz"), ('3', "dt"), ('4', "l"), ('5', "mn"), ('6', "r")]
  ((groups.find? fun (_, letters) => letters.toList.contains c).map (·.1)).getD '0'

/-- The digits of sounds, none of them twice in a row; what has no sound parts them. -/
def soundDigits (before : Char) : List Char → List Char
  | [] => []
  | c :: r =>
    if c.isAlpha then
      let d := soundDigit c.toLower
      if d = '0' then soundDigits '0' r
      else if d = before then soundDigits before r
      else d :: soundDigits d r
    else soundDigits before r

/-- The first letter of a text and three digits for the sounds behind it. -/
def soundText (s : String) : String :=
  match s.toList.dropWhile fun c => !c.isAlpha with
  | [] => "?000"
  | c :: r =>
    let digits := (soundDigits (soundDigit c.toLower) r).take 3
    String.ofList (c.toUpper :: digits ++ List.replicate (3 - digits.length) '0')

/-! ## Geometry -/

/-- The double nearest to a half turn in radians. -/
def halfTurn : Binary64 :=
  .ofDecimal false 3141592653589793 (-15)

/-- The number of a cell that is one or spells one, as a double. -/
def doubleOf? (c : Cell) : Option Binary64 :=
  match exactNumber c with
  | .int n => some (.ofInt n)
  | .real x => some x
  | _ => none

def onDouble (f : Binary64 → Binary64) (c : Cell) : Cell :=
  ((doubleOf? c).map fun x => Cell.ofReal (f x)).getD .null

/-- The integer below the root of another, by halving an interval. -/
def rootBetween (n : Nat) : Nat → Nat → Nat → Nat
  | 0, low, _ => low
  | fuel + 1, low, high =>
    if high ≤ low + 1 then low
    else
      let middle := (low + high) / 2
      if middle * middle ≤ n then rootBetween n fuel middle high else rootBetween n fuel low middle

/-- The double nearest to the root of another. -/
def squareRoot : Binary64 → Binary64
  | .finite negative m e =>
    if m = 0 then .finite negative 0 (-1074)
    else if negative then .nan false
    else
      let odd := e % 2
      let scaled := m * Nat.pow 2 odd.toNat * Nat.pow 2 120
      let half := (e - odd) / 2 - 60
      let root := rootBetween scaled 256 0 (Nat.pow 2 100)
      let sticky := if root * root = scaled then 0 else 1
      Binary64.ofScaled false (2 * root + sticky) (half - 1)
  | .infinite false => .infinite false
  | _ => .nan false

/-- The remainder of doubles, with the sign of the first. -/
def remainder : Binary64 → Binary64 → Binary64
  | .finite a m e, .finite b n f =>
    if n = 0 then .nan false
    else
      let base := Binary64.commonExponent e f
      let x := Binary64.signedAt a m e base
      let y := Binary64.signedAt b n f base
      Binary64.ofScaled a (x.natAbs % y.natAbs) base
  | .finite a m e, .infinite _ => .finite a m e
  | _, _ => .nan false

/-- The result of a function, by its name in small letters. -/
def apply (name : String) (cells : List Cell) : Cell :=
  match name, cells with
  | "abs", [c] => absolute c
  | "hex", [c] => .text (hexText (Cast.bytesOf c))
  | "length", [c] => length c
  | "likely", [c] | "unlikely", [c] | "likelihood", [c, _] => c
  | "lower", [c] => mapped Char.toLower c
  | "upper", [c] => mapped Char.toUpper c
  | "quote", [c] => .text (quote c)
  | "sign", [c] => signOf c
  | "typeof", [c] => .text (kindOf c)
  | "unicode", [c] =>
    onText (fun s => (s.toList.head?.map fun d => Cell.int d.toNat).getD .null) c
  | "zeroblob", [c] => .blob (List.replicate c.toWhole.toNat 0)
  | "ceil", [c] | "ceiling", [c] => ceiling c
  | "floor", [c] => floor c
  | "trunc", [c] => truncated c
  | "like", [pattern, c] => (likeTruth c pattern).cell
  | "like", [pattern, c, escape] => (escapedTruth c pattern escape).cell
  | "glob", [pattern, c] => (matchTruth Wildcard.isGlob c pattern).cell
  | "soundex", [c] => .text (soundText (textOf c))
  | "sqrt", [c] => onDouble squareRoot c
  | "degrees", [c] => onDouble (fun x => x.times ((Binary64.ofInt 180).divide halfTurn)) c
  | "radians", [c] => onDouble (fun x => x.times (halfTurn.divide (Binary64.ofInt 180))) c
  | "mod", [a, b] => onDouble (fun x => ((doubleOf? b).map (remainder x)).getD (.nan false)) a
  | "pi", [] => .real halfTurn
  | "random", [] => .int 5577006791947779410
  | "changes", [] | "total_changes", [] => .int 0
  | "sqlite_version", [] => .text engineVersion
  | "ifnull", [a, b] => firstGiven [a, b]
  | "instr", [c, needle] => place c needle
  | "nullif", [a, b] => if !a.isNull && !b.isNull && Cell.order a b == .eq then .null else a
  | "iif", [test, a, b] => if test.truth.isYes then a else b
  | "replace", [c, needle, other] => replacement c needle other
  | "substr", [c, start] | "substring", [c, start] => substring c start none
  | "substr", [c, start, count] | "substring", [c, start, count] => substring c start (some count)
  | "round", [c] => round c (.int 0)
  | "round", [c, digits] => round c digits
  | "trim", [c] => trim true true c none
  | "trim", [c, set] => trim true true c (some set)
  | "ltrim", [c] => trim true false c none
  | "ltrim", [c, set] => trim true false c (some set)
  | "rtrim", [c] => trim false true c none
  | "rtrim", [c, set] => trim false true c (some set)
  | "char", cells =>
    .text (String.ofList (cells.map fun c => Char.ofNat c.toWhole.toNat))
  | "coalesce", cells => firstGiven cells
  | "max", cells => extreme true cells
  | "min", cells => extreme false cells
  | name, cells => Moment.apply name cells

end Function

end RowAccess.Sql
