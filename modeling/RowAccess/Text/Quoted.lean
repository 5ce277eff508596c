import RowAccess.Text.Digit
import RowAccess.Text.PrintableTable

/-
  RowAccess/Text/Quoted.lean
  ==========================
  **Quoted text in messages.**  A text is quoted with apostrophes, or with double quotes when it
  holds an apostrophe and no double quote.  Inside, the backslash and the quote are escaped, line
  feed, carriage return and tab have short escapes, and a character without a printed form is
  written by its number.
-/

namespace RowAccess.Text

def isPrintable (c : Char) : Bool :=
  let n := c.toNat
  if n < 127 then 32 ≤ n else !inRanges unprintableRanges n

/-- The quote for the characters: an apostrophe unless they hold one and no double quote. -/
def quoteFor (cs : List Char) : Char :=
  if cs.contains '\'' && !cs.contains '"' then '"' else '\''

def escapeChar (quote c : Char) : String :=
  if c = quote || c = '\\' then String.ofList ['\\', c]
  else if c = '\n' then "\\n"
  else if c = '\r' then "\\r"
  else if c = '\t' then "\\t"
  else if isPrintable c then String.singleton c
  else
    let n := c.toNat
    if n < 0x100 then "\\x" ++ paddedHex 2 n
    else if n < 0x10000 then "\\u" ++ paddedHex 4 n
    else "\\U" ++ paddedHex 8 n

/-- The quoted form of a text. -/
def quoted (s : String) : String :=
  let cs := s.toList
  let quote := quoteFor cs
  String.singleton quote ++ String.join (cs.map (escapeChar quote)) ++ String.singleton quote

def escapeByte (quote : Char) (b : UInt8) : String :=
  let n := b.toNat
  let c := Char.ofNat n
  if c = quote || c = '\\' then String.ofList ['\\', c]
  else if c = '\n' then "\\n"
  else if c = '\r' then "\\r"
  else if c = '\t' then "\\t"
  else if 32 ≤ n && n < 127 then String.singleton c
  else "\\x" ++ paddedHex 2 n

/-- The quoted form of a byte string, marked by a leading `b`. -/
def quotedBytes (bs : List UInt8) : String :=
  let quote := quoteFor (bs.map fun b => Char.ofNat b.toNat)
  "b" ++ String.singleton quote ++ String.join (bs.map (escapeByte quote)) ++
    String.singleton quote

end RowAccess.Text
