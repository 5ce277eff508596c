/-
  RowAccess/Text/Blank.lean
  =========================
  **Blank characters and trimming.**  The blanks are the white space and separator characters of
  Unicode together with the four information separators U+001C to U+001F.  The zero width space
  U+200B and the byte order mark U+FEFF are no blanks.
-/

namespace RowAccess.Text

/-- Blank characters: those that trimming removes. -/
def isBlank (c : Char) : Bool :=
  let n := c.toNat
  n == 0x20 || (9 ≤ n && n ≤ 13) || (0x1C ≤ n && n ≤ 0x1F) || n == 0x85 || n == 0xA0 ||
    n == 0x1680 || (0x2000 ≤ n && n ≤ 0x200A) || n == 0x2028 || n == 0x2029 || n == 0x202F ||
    n == 0x205F || n == 0x3000

def trimFront (cs : List Char) : List Char :=
  cs.dropWhile isBlank

def trimBack (cs : List Char) : List Char :=
  (cs.reverse.dropWhile isBlank).reverse

/-- The characters without the blanks at either end. -/
def trim (cs : List Char) : List Char :=
  trimBack (trimFront cs)

/-- The text without the blanks at either end. -/
def strip (s : String) : String :=
  String.ofList (trim s.toList)

/-- A text of blanks only, the empty text included. -/
def isBlankText (s : String) : Bool :=
  s.toList.all isBlank

theorem trimFront_of_head {c : Char} {cs : List Char} (h : isBlank c = false) :
    trimFront (c :: cs) = c :: cs := by
  simp [trimFront, h]

theorem trimFront_eq_nil_iff (cs : List Char) : trimFront cs = [] ↔ cs.all isBlank = true := by
  induction cs with
  | nil => simp [trimFront]
  | cons c r ih =>
    rw [trimFront] at *
    by_cases h : isBlank c = true
    · rw [List.dropWhile_cons_of_pos h, ih]
      simp [h]
    · simp [h]

/-! ## Cutting at a separator -/

/-- The pieces between the separators, always at least one. -/
def cut (separator : Char) : List Char → List (List Char)
  | [] => [[]]
  | c :: r =>
    if c = separator then [] :: cut separator r
    else match cut separator r with
      | [] => [[c]]
      | piece :: rest => (c :: piece) :: rest

end RowAccess.Text
