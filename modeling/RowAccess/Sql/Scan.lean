import RowAccess.Sql.Plan

/-
  RowAccess/Sql/Scan.lean
  =======================
  **The rows that a read meets.**  The rows that pass are met in the order of their turns, and within
  a turn in the order of their ids.  A plan changes the order and nothing else (`scan_perm`).
-/

namespace RowAccess.Sql

/-- Does a row pass the test? -/
def passes (test : Option Expr) (i : Item) : Bool :=
  match test with
  | none => true
  | some e => (e.truth i).isYes

namespace Turns

def order : List Nat → List Nat → Ordering
  | [], [] => .eq
  | [], _ :: _ => .lt
  | _ :: _, [] => .gt
  | m :: ms, n :: ns => (compare m n).then (order ms ns)

/-- Rows in the order of their turns; rows of one turn keep their places. -/
def arrange (t : Turns) (rows : List Item) : List Item :=
  match t with
  | .whole => rows
  | t => rows.mergeSort fun a b => order (t.turn a) (t.turn b) != .gt

/-- The rows stay the same. -/
theorem arrange_perm (t : Turns) (rows : List Item) : (t.arrange rows).Perm rows := by
  unfold arrange
  split
  · exact .refl _
  · exact List.mergeSort_perm ..

end Turns

/-- The rows that pass, in the order in which they are met. -/
def scan (sorting : Bool) (test : Option Expr) (rows : List Item) : List Item :=
  match test with
  | none => rows
  | some e => (Turns.of sorting e).arrange (rows.filter (passes test))

/-- The rows met are those that pass. -/
theorem scan_perm (sorting : Bool) (test : Option Expr) (rows : List Item) :
    (scan sorting test rows).Perm (rows.filter (passes test)) := by
  match test with
  | none => exact .of_eq (List.filter_eq_self.2 fun _ _ => rfl).symm
  | some e => exact Turns.arrange_perm ..

end RowAccess.Sql
