import RowAccess.Text.CaseTable
import RowAccess.Text.Digit

/-
  RowAccess/Text/Case.lean
  ========================
  **Small and capital letters of every script.**  Both mappings are the full ones: a capital may be
  longer than its letter, and a capital sigma becomes the final small sigma at the end of a word.
-/

namespace RowAccess.Text

/-- The other case of a code point under the runs, the code point itself if none holds it. -/
def CaseRun.apply (runs : List CaseRun) (n : Nat) : Nat :=
  match runs.find? fun r => r.first ≤ n && n ≤ r.last && (n - r.first) % r.step == 0 with
  | some r => ((n : Int) + r.shift).toNat
  | none => n

/-- The small form of a single character, sigma and the dotted capital I apart. -/
def smallChar (c : Char) : Char :=
  if c.toNat < 128 then c.toLower else Char.ofNat (CaseRun.apply smallRuns c.toNat)

def capitalChars (c : Char) : List Char :=
  if c.toNat < 128 then [c.toUpper]
  else match longCapitals.find? fun (n, _) => n == c.toNat with
    | some (_, form) => form.map Char.ofNat
    | none => [Char.ofNat (CaseRun.apply capitalRuns c.toNat)]

/-- Does the first character that is not skipped exist and have case? -/
def meetsCased (cs : List Char) : Bool :=
  match cs.dropWhile fun c => inRanges skippedRanges c.toNat with
  | [] => false
  | c :: _ => inRanges casedRanges c.toNat

/-- The small letters of `cs`, where `before` holds the characters already passed, last first. -/
def smallFrom (before : List Char) : List Char → List Char
  | [] => []
  | c :: r =>
    let form :=
      if c.toNat = 0x3A3 then
        [if meetsCased before && !meetsCased r then Char.ofNat 0x3C2 else Char.ofNat 0x3C3]
      else if c.toNat = 0x130 then [Char.ofNat 0x69, Char.ofNat 0x307]
      else [smallChar c]
    form ++ smallFrom (c :: before) r

/-- The text in small letters. -/
def lower (s : String) : String :=
  String.ofList (smallFrom [] s.toList)

/-- The text in capital letters. -/
def upper (s : String) : String :=
  String.ofList (s.toList.flatMap capitalChars)

end RowAccess.Text
