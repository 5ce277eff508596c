import RowAccess.Query.Clause

/-
  RowAccess/Sql/Relation.lean
  ===========================
  **Relations that a comparison asks for.**  Every relation has an opposite, which holds for two
  operands exactly when the relation does not.
-/

namespace RowAccess.Sql

/-- How a comparison compares. -/
inductive Relation where
  | eq
  | ne
  | gt
  | le
  | lt
  | ge
  deriving DecidableEq, Repr

namespace Relation

def symbol : Relation → String
  | .eq => "="
  | .ne => "!="
  | .gt => ">"
  | .le => "<="
  | .lt => "<"
  | .ge => ">="

def negate : Relation → Relation
  | .eq => .ne
  | .ne => .eq
  | .gt => .le
  | .le => .gt
  | .lt => .ge
  | .ge => .lt

/-- The relation of the operands the other way round. -/
def flip : Relation → Relation
  | .eq => .eq
  | .ne => .ne
  | .gt => .lt
  | .le => .ge
  | .lt => .gt
  | .ge => .le

def holds : Relation → Ordering → Bool
  | .eq, o => o == .eq
  | .ne, o => o != .eq
  | .gt, o => o == .gt
  | .le, o => o != .gt
  | .lt, o => o == .lt
  | .ge, o => o != .lt

def of : Comparator → Relation
  | .eq => .eq
  | .gt => .gt
  | .lt => .lt

@[simp] theorem negate_negate (r : Relation) : r.negate.negate = r := by cases r <;> rfl

theorem holds_negate (r : Relation) (o : Ordering) : r.negate.holds o = !r.holds o := by
  cases r <;> cases o <;> rfl

end Relation

end RowAccess.Sql
