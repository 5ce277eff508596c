import RowAccess.Sql.Identifier
import RowAccess.Sql.Numeric

/-
  RowAccess/Sql/Token.lean
  ========================
  **The tokens of a statement.**  A text is cut into words, names in quotes, literals, parameters
  and symbols; blanks and comments stand between them.  What begins like a token and is none is kept as
  a stray piece, so that a reader that comes to it can say so.
-/

namespace RowAccess.Sql

inductive TokenKind where
  | word
  | name (n : Name)
  | literal (c : Cell)
  | parameter
  | symbol
  | stray
  deriving DecidableEq, Repr

/-- A token: its kind and its characters. -/
structure Token where
  kind : TokenKind
  text : String
  deriving DecidableEq, Repr

namespace Token

/-! ## Characters -/

def isWordPart (c : Char) : Bool :=
  c.isAlphanum || c == '_' || c == '$' || 128 ≤ c.toNat

def isWordStart (c : Char) : Bool :=
  c.isAlpha || c == '_' || 128 ≤ c.toNat

def isBlankStart (c : Char) : Bool :=
  c == ' ' || c == '\t' || c == '\n' || c.toNat == 12 || c == '\r'

/-! ## Pieces -/

/-- The length of what stands in quotes, both quotes included, if the second is there; a quote
written twice ends nothing. -/
def quotedLength? (quote : Char) : List Char → Option Nat
  | [] => none
  | [c] => if c = quote then some 1 else none
  | c :: d :: r =>
    if c = quote then
      if d = quote then (quotedLength? quote r).map (· + 2) else some 1
    else (quotedLength? quote (d :: r)).map (· + 1)

/-- The characters between quotes, a quote written twice as one. -/
def unquoted (quote : Char) : List Char → List Char
  | [] => []
  | [c] => if c = quote then [] else [c]
  | c :: d :: r =>
    if c = quote && d = quote then quote :: unquoted quote r else c :: unquoted quote (d :: r)

/-- The length of a comment that ends with a star and a slash, or with the text. -/
def commentLength : List Char → Nat
  | [] => 0
  | '*' :: '/' :: _ => 2
  | _ :: r => commentLength r + 1

/-- The bytes of pairs of hexadecimal digits. -/
def hexBytes? : List Char → Option (List UInt8)
  | [] => some []
  | [_] => none
  | a :: b :: r => do
    let high ← Text.hexValue? a
    let low ← Text.hexValue? b
    let rest ← hexBytes? r
    return (high * 16 + low).toUInt8 :: rest

/-- Is the character a hexadecimal digit? -/
def isHex (c : Char) : Bool :=
  (Text.hexValue? c).isSome

/-- The value of hexadecimal digits as an integer of 64 bits. -/
def hexCell (cs : List Char) : Cell :=
  .int (Calculation.ofBits (cs.foldl (fun n c => n * 16 + (Text.hexValue? c).getD 0) 0))

/-- The length of the number at the front of characters that begin with a digit, or with a point and
a digit. -/
def numberLength (cs : List Char) : Nat :=
  let whole := (cs.takeWhile Char.isDigit).length
  let rest := cs.drop whole
  let fraction := match rest with
    | '.' :: r => 1 + (r.takeWhile Char.isDigit).length
    | _ => 0
  let rest := rest.drop fraction
  let exponent := match rest with
    | e :: s :: d :: r =>
      if e ≠ 'e' ∧ e ≠ 'E' then 0
      else if s.isDigit then 1 + ((s :: d :: r).takeWhile Char.isDigit).length
      else if (s = '+' ∨ s = '-') ∧ d.isDigit then
        2 + ((d :: r).takeWhile Char.isDigit).length
      else 0
    | [e, s] => if (e = 'e' ∨ e = 'E') ∧ s.isDigit then 2 else 0
    | _ => 0
  whole + fraction + exponent

def take (kind : List Char → TokenKind) (cs : List Char) (count : Nat) : Token × Nat :=
  (⟨kind (cs.take count), String.ofList (cs.take count)⟩, count)

/-- A number at the front of characters; a word that follows at once makes it none. -/
def numberAt (cs : List Char) : Token × Nat :=
  let hex := match cs with
    | '0' :: x :: r => if x = 'x' ∨ x = 'X' then (r.takeWhile isHex) else []
    | _ => []
  let count := if hex.isEmpty then numberLength cs else 2 + hex.length
  let word := ((cs.drop count).takeWhile isWordPart).length
  if word = 0 then
    take
      (fun ds => if hex.isEmpty then .literal (leading ds).cell
        else .literal (hexCell hex))
      cs count
  else take (fun _ => .stray) cs (count + word)

/-- A text or a name in quotes at the front of characters. -/
def quotedAt (quote : Char) (cs : List Char) : Token × Nat :=
  match quotedLength? quote (cs.drop 1) with
  | none => take (fun _ => .stray) cs cs.length
  | some n =>
    let inner := String.ofList (unquoted quote ((cs.drop 1).take (n - 1)))
    take
      (fun _ => if quote = '\'' then .literal (.text inner) else .name ⟨inner, quote = '"'⟩)
      cs (n + 1)

def bracketedAt (cs : List Char) : Token × Nat :=
  let inner := (cs.drop 1).takeWhile (· != ']')
  if (cs.drop (1 + inner.length)).isEmpty then take (fun _ => .stray) cs cs.length
  else take (fun _ => .name ⟨String.ofList inner, false⟩) cs (inner.length + 2)

/-- Bytes in hexadecimal digits at the front of characters. -/
def bytesAt (cs : List Char) : Token × Nat :=
  let digits := (cs.drop 2).takeWhile isHex
  match cs.drop (2 + digits.length), hexBytes? digits with
  | '\'' :: _, some bs => take (fun _ => .literal (.blob bs)) cs (digits.length + 3)
  | rest, _ =>
    let junk := (rest.takeWhile (· != '\'')).length
    take (fun _ => .stray) cs (min cs.length (2 + digits.length + junk + 1))

def parameterAt (cs : List Char) : Token × Nat :=
  match cs with
  | '?' :: r => take (fun _ => .parameter) cs (1 + (r.takeWhile Char.isDigit).length)
  | cs =>
    let word := ((cs.drop 1).takeWhile isWordPart).length
    take (fun _ => if word = 0 then .stray else .parameter) cs (1 + word)

/-- Symbols of three characters. -/
def triples : List String := ["->>"]

/-- Symbols of two characters. -/
def pairs : List String := ["==", "<=", "<>", "<<", ">=", ">>", "!=", "||", "->"]

def singles : List Char :=
  ['(', ')', ';', '+', '-', '*', '/', '%', '=', '<', '>', '|', ',', '&', '~', '.']

def symbolAt (cs : List Char) : Token × Nat :=
  if triples.contains (String.ofList (cs.take 3)) then take (fun _ => .symbol) cs 3
  else if pairs.contains (String.ofList (cs.take 2)) then take (fun _ => .symbol) cs 2
  else take (fun ds => if ds.all singles.contains then .symbol else .stray) cs 1

/-- The token at the front of characters that are no blank and no comment, and its length. -/
def front (cs : List Char) : Token × Nat :=
  match cs with
  | [] => (⟨.stray, ""⟩, 1)
  | c :: r =>
    if (c = 'x' ∨ c = 'X') ∧ r.head? = some '\'' then bytesAt cs
    else if isWordStart c then take (fun _ => .word) cs (cs.takeWhile isWordPart).length
    else if c.isDigit || (c = '.' && (r.head?.map Char.isDigit).getD false) then numberAt cs
    else if c = '\'' ∨ c = '"' ∨ c.toNat = 96 then quotedAt c cs
    else if c = '[' then bracketedAt cs
    else if c = '?' ∨ c = ':' ∨ c = '@' ∨ c = '$' ∨ c = '#' then parameterAt cs
    else symbolAt cs

/-- The number of characters of blanks or of a comment at the front. -/
def gap (cs : List Char) : Nat :=
  match cs with
  | '-' :: '-' :: r => 2 + (r.takeWhile (· != '\n')).length
  | '/' :: '*' :: c :: r => 2 + commentLength (c :: r)
  | c :: r => if isBlankStart c then 1 + (r.takeWhile isNumberBlank).length else 0
  | [] => 0

/-- The tokens of characters; `skip` of them belong to the last token or gap. -/
def scan : List Char → Nat → List Token
  | [], _ => []
  | _ :: r, skip + 1 => scan r skip
  | c :: r, 0 =>
    match gap (c :: r) with
    | n + 1 => scan r n
    | 0 =>
      let (t, n) := front (c :: r)
      t :: scan r (n - 1)

def ofText (s : String) : List Token :=
  scan s.toList 0

/-! ## Words -/

/-- Words that can never be names. -/
def reserved : List String :=
  ["ADD", "ALL", "ALTER", "AND", "AS", "AUTOINCREMENT", "BETWEEN", "CASE", "CHECK", "COLLATE",
    "COMMIT", "CONSTRAINT", "CREATE", "DEFAULT", "DEFERRABLE", "DELETE", "DISTINCT", "DROP",
    "ELSE", "ESCAPE", "EXCEPT", "EXISTS", "FOREIGN", "FROM", "GROUP", "HAVING", "IN", "INDEX",
    "INSERT", "INTERSECT", "INTO", "IS", "ISNULL", "JOIN", "LIMIT", "NOT", "NOTHING", "NOTNULL",
    "NULL", "ON", "OR", "ORDER", "PRIMARY", "REFERENCES", "RETURNING", "SELECT", "SET", "TABLE",
    "THEN", "TO", "TRANSACTION", "UNION", "UNIQUE", "UPDATE", "USING", "VALUES", "WHEN", "WHERE"]

def isWord (t : Token) (word : String) : Bool :=
  t.kind == .word && Identifier.same t.text word

def isSymbol (t : Token) (symbol : String) : Bool :=
  t.kind == .symbol && t.text == symbol

def name? (t : Token) : Option Name :=
  match t.kind with
  | .name n => some n
  | .word => if reserved.any fun w => Identifier.same w t.text then none else some ⟨t.text, false⟩
  | _ => none

end Token

end RowAccess.Sql
