import RowAccess.Text.Utf8

/-
  RowAccess/Text/Percent.lean
  ===========================
  **Percent escapes.**  Decoding turns each `%XX` into a byte and reads every longest run of ASCII
  characters and escapes as UTF-8, with U+FFFD for malformed parts; a percent sign without two
  hexadecimal digits stays as it is.  Encoding escapes every byte outside the unreserved
  characters, so decoding gives the text back.
-/

namespace RowAccess.Text.Percent

/-- The bytes of a run of ASCII characters, escapes resolved. -/
def bytes : List Char → List UInt8
  | '%' :: a :: b :: r =>
    match hexValue? a, hexValue? b with
    | some x, some y => (16 * x + y).toUInt8 :: bytes r
    | _, _ => 37 :: bytes (a :: b :: r)
  | c :: r => c.toNat.toUInt8 :: bytes r
  | [] => []

/-- Percent decoding of characters: `run` holds the ASCII characters since the last one beyond
ASCII, last first. -/
def decodeRuns (run : List Char) : List Char → List Char
  | [] => Utf8.replacing (bytes run.reverse)
  | c :: r =>
    if c.toNat < 128 then decodeRuns (c :: run) r
    else Utf8.replacing (bytes run.reverse) ++ c :: decodeRuns [] r

def decode (cs : List Char) : List Char :=
  if cs.contains '%' then decodeRuns [] cs else cs

/-- Percent decoding where a plus sign stands for a space. -/
def decodePlus (cs : List Char) : List Char :=
  decode (cs.map fun c => if c = '+' then ' ' else c)

/-- Characters that are never escaped: ASCII letters and digits, `_`, `.`, `-` and `~`. -/
def isUnreserved (c : Char) : Bool :=
  c.isAlphanum || c == '_' || c == '.' || c == '-' || c == '~'

def escape (b : UInt8) : List Char :=
  ['%', hexCapital (b.toNat / 16), hexCapital (b.toNat % 16)]

def encodeChar (c : Char) : List Char :=
  if isUnreserved c then [c] else (Utf8.encodeChar c).flatMap escape

def encode (cs : List Char) : List Char :=
  cs.flatMap encodeChar

end RowAccess.Text.Percent
