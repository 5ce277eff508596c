/-
  RowAccess/Sql/Pattern.lean
  ==========================
  **Patterns.**  In a pattern a percent sign stands for any run of characters and an underscore for
  any one character; every other character stands for itself, ASCII letters in either case.

  `fits` says what a pattern means.  `isFit` decides it in a time that grows with the product of the
  two lengths: it marks, from the last character of the pattern to the first, the ends of the text
  that fit (`marks_eq`).
-/

namespace RowAccess.Sql.Pattern

/-- The ends of a list, itself first and the empty list last. -/
def ends {α : Type} : List α → List (List α)
  | [] => [[]]
  | a :: r => (a :: r) :: ends r

/-- Does a character of a pattern, no percent sign, stand for the character? -/
def standsFor (p c : Char) : Bool :=
  p = '_' || p.toLower == c.toLower

def fits : List Char → List Char → Bool
  | [], cs => cs.isEmpty
  | p :: ps, cs =>
    if p = '%' then (ends cs).any fun rest => fits ps rest
    else match cs with
      | [] => false
      | c :: r => standsFor p c && fits ps r

/-! ## Deciding -/

def markBefore : List Bool → List Bool
  | [] => []
  | b :: bs =>
    let rest := markBefore bs
    (b || rest.headD false) :: rest

/-- Marks every place whose character the pattern character stands for and whose next place is
marked. -/
def markStep (p : Char) : List Char → List Bool → List Bool
  | c :: cs, _ :: bs => (standsFor p c && bs.headD false) :: markStep p cs bs
  | _, _ => [false]

/-- For every end of the characters, itself first: does it fit the pattern? -/
def marks : List Char → List Char → List Bool
  | [], cs => (ends cs).map List.isEmpty
  | p :: ps, cs => if p = '%' then markBefore (marks ps cs) else markStep p cs (marks ps cs)

def isFit (pattern cs : List Char) : Bool :=
  (marks pattern cs).headD false

/-! ## Laws -/

theorem mem_ends {α : Type} (xs ys : List α) : ys ∈ ends xs ↔ ∃ zs, xs = zs ++ ys := by
  induction xs with
  | nil => simp [ends, eq_comm]
  | cons a r ih =>
    simp only [ends, List.mem_cons, ih]
    constructor
    · rintro (rfl | ⟨zs, rfl⟩)
      · exact ⟨[], rfl⟩
      · exact ⟨a :: zs, rfl⟩
    · rintro ⟨zs, h⟩
      cases zs with
      | nil => exact Or.inl h.symm
      | cons b zs =>
        simp only [List.cons_append, List.cons.injEq] at h
        exact Or.inr ⟨zs, h.2⟩

/-- A percent sign at the front fits every run of characters before a fitting rest. -/
theorem fits_percent (ps cs : List Char) :
    fits ('%' :: ps) cs = true ↔ ∃ run rest, cs = run ++ rest ∧ fits ps rest = true := by
  simp only [fits, if_true, List.any_eq_true, mem_ends]
  constructor
  · rintro ⟨rest, ⟨run, h⟩, hf⟩
    exact ⟨run, rest, h, hf⟩
  · rintro ⟨run, rest, h, hf⟩
    exact ⟨rest, ⟨run, h⟩, hf⟩

theorem headD_map_ends (f : List Char → Bool) (cs : List Char) :
    ((ends cs).map f).headD false = f cs := by
  cases cs <;> rfl

theorem markBefore_map (f : List Char → Bool) (cs : List Char) :
    markBefore ((ends cs).map f) = (ends cs).map fun rest => (ends rest).any f := by
  induction cs with
  | nil => simp [ends, markBefore]
  | cons c r ih =>
    have hr : ((ends r).map fun rest => (ends rest).any f).headD false = (ends r).any f :=
      headD_map_ends _ r
    simp only [ends, List.map_cons, markBefore, ih, hr, List.any_cons]

theorem markStep_map (p : Char) (ps : List Char) (hp : p ≠ '%') (cs : List Char) :
    markStep p cs ((ends cs).map (fits ps)) = (ends cs).map (fits (p :: ps)) := by
  induction cs with
  | nil => simp [ends, markStep, fits, hp]
  | cons c r ih =>
    simp only [ends, List.map_cons, markStep, ih, headD_map_ends]
    simp [fits, hp]

theorem marks_eq (pattern cs : List Char) : marks pattern cs = (ends cs).map (fits pattern) := by
  induction pattern generalizing cs with
  | nil => rfl
  | cons p ps ih =>
    unfold marks
    split
    · next hp =>
      subst hp
      rw [ih, markBefore_map]
      simp [fits]
    · next hp => rw [ih, markStep_map p ps hp]

/-- The decision is right. -/
theorem isFit_eq (pattern cs : List Char) : isFit pattern cs = fits pattern cs := by
  rw [isFit, marks_eq, headD_map_ends]

end RowAccess.Sql.Pattern
