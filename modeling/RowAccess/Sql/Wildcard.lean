import RowAccess.Sql.Pattern

/-
  RowAccess/Sql/Wildcard.lean
  ===========================
  **Patterns with other signs.**  A pattern is cut into parts before it is compared: runs, single
  characters, sets of characters, and characters that stand for themselves.  This is how patterns of
  files are read, where letters have to agree in case, and patterns with a character that takes the
  meaning from the sign behind it.
-/

namespace RowAccess.Sql

/-- A part of a pattern. -/
inductive Wildcard where
  | run
  | one
  | within (inverted : Bool) (ranges : List (Char × Char))
  | letter (c : Char)
  | nothing
  deriving DecidableEq, Repr

namespace Wildcard

/-! ## Comparing -/

/-- Does a part that is no run stand for the character?  `fold` brings letters to one case. -/
def standsFor (fold : Char → Char) (w : Wildcard) (c : Char) : Bool :=
  match w with
  | .one => true
  | .letter d => fold d == fold c
  | .within inverted ranges =>
    (ranges.any fun (low, high) => low.toNat ≤ c.toNat && c.toNat ≤ high.toNat) != inverted
  | _ => false

/-- Do the characters have the form of the parts? -/
def fits (fold : Char → Char) : List Wildcard → List Char → Bool
  | [], cs => cs.isEmpty
  | .run :: ws, cs => (Pattern.ends cs).any fun rest => fits fold ws rest
  | w :: ws, cs =>
    match cs with
    | [] => false
    | c :: r => standsFor fold w c && fits fold ws r

/-! ## Reading -/

/-- The ranges of a set up to its closing bracket, and what follows; `before` is the character that a
range can begin with. -/
def rangesOf (before : Option Char) : List Char → Option (List (Char × Char) × List Char)
  | [] => none
  | c :: r =>
    if c = ']' then some ([], r)
    else
      match before, r with
      | some low, high :: rest =>
        if c = '-' ∧ high ≠ ']' then
          (rangesOf none rest).map fun (ranges, left) => ((low, high) :: ranges, left)
        else (rangesOf (some c) (high :: rest)).map fun (ranges, left) => ((c, c) :: ranges, left)
      | _, r => (rangesOf (some c) r).map fun (ranges, left) => ((c, c) :: ranges, left)

/-- The set after an opening bracket, and what follows; a bracket that comes first is a member. -/
def setOf (cs : List Char) : Option (Wildcard × List Char) :=
  let (inverted, cs) := match cs with
    | '^' :: r => (true, r)
    | cs => (false, cs)
  let (first, cs) := match cs with
    | ']' :: r => ([(']', ']')], r)
    | cs => ([], cs)
  (rangesOf none cs).map fun (ranges, left) => (.within inverted (first ++ ranges), left)

/-- The parts of a pattern of files; `fuel` bounds their number.  A set without an end stands for
nothing. -/
def ofGlob : Nat → List Char → List Wildcard
  | 0, _ => []
  | _, [] => []
  | fuel + 1, c :: r =>
    if c = '*' then .run :: ofGlob fuel r
    else if c = '?' then .one :: ofGlob fuel r
    else if c = '[' then
      match setOf r with
      | some (set, rest) => set :: ofGlob fuel rest
      | none => [.nothing]
    else .letter c :: ofGlob fuel r

/-- The parts of a pattern in which a character takes the meaning from the sign behind it. -/
def ofEscaped (escape : Char) : List Char → List Wildcard
  | [] => []
  | [c] =>
    if c = escape then [.nothing]
    else if c = '%' then [.run] else if c = '_' then [.one] else [.letter c]
  | c :: d :: r =>
    if c = escape then .letter d :: ofEscaped escape r
    else if c = '%' then .run :: ofEscaped escape (d :: r)
    else if c = '_' then .one :: ofEscaped escape (d :: r)
    else .letter c :: ofEscaped escape (d :: r)

def isGlob (pattern cs : List Char) : Bool :=
  fits id (ofGlob (pattern.length + 1) pattern) cs

def isEscapedFit (escape : Char) (pattern cs : List Char) : Bool :=
  fits Char.toLower (ofEscaped escape pattern) cs

end Wildcard

end RowAccess.Sql
