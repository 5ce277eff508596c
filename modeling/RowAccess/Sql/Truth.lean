/-
  RowAccess/Sql/Truth.lean
  ========================
  **Three-valued logic.**  A condition on missing data is neither true nor false but unknown.  A
  conjunction is as false as its falsest part, a disjunction as true as its truest, and the negation
  of the unknown is unknown.  A row is selected only when its condition is true.
-/

namespace RowAccess.Sql

inductive Truth where
  | no
  | unknown
  | yes
  deriving DecidableEq, Repr

namespace Truth

/-- The truth of a decided condition. -/
def ofBool (b : Bool) : Truth :=
  if b then .yes else .no

def isYes : Truth → Bool
  | .yes => true
  | _ => false

/-- Negation. -/
def not : Truth → Truth
  | .no => .yes
  | .unknown => .unknown
  | .yes => .no

/-- Conjunction. -/
def and : Truth → Truth → Truth
  | .no, _ => .no
  | _, .no => .no
  | .yes, .yes => .yes
  | _, _ => .unknown

/-- Disjunction. -/
def or : Truth → Truth → Truth
  | .yes, _ => .yes
  | _, .yes => .yes
  | .no, .no => .no
  | _, _ => .unknown

/-- The disjunction of a list, false for the empty one. -/
def any (ts : List Truth) : Truth :=
  ts.foldr or .no

/-- The conjunction of a list, true for the empty one. -/
def all (ts : List Truth) : Truth :=
  ts.foldr and .yes

@[simp] theorem not_not (t : Truth) : t.not.not = t := by cases t <;> rfl

@[simp] theorem and_yes (t : Truth) : t.and .yes = t := by cases t <;> rfl

@[simp] theorem yes_and (t : Truth) : Truth.yes.and t = t := by cases t <;> rfl

@[simp] theorem or_no (t : Truth) : t.or .no = t := by cases t <;> rfl

@[simp] theorem no_or (t : Truth) : Truth.no.or t = t := by cases t <;> rfl

theorem and_assoc (s t u : Truth) : (s.and t).and u = s.and (t.and u) := by
  cases s <;> cases t <;> cases u <;> rfl

theorem or_assoc (s t u : Truth) : (s.or t).or u = s.or (t.or u) := by
  cases s <;> cases t <;> cases u <;> rfl

end Truth

end RowAccess.Sql
