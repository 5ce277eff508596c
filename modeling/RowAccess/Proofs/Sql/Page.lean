import Mathlib.Data.List.Nodup
import RowAccess.Proofs.Sql.CellOrder
import RowAccess.Sql.Statement

/-
  RowAccess/Proofs/Sql/Page.lean
  ==============================
  **A page is sorted before it is cut.**  Rows are ordered by terms, the first that tells two of them
  apart, from either end.  For rows that a table can hold this is one order, so that the first rows of
  the sorted ones come before all that the limit leaves out (`isPage_limitRows`).
-/

namespace RowAccess

/-- The order from the end that a direction asks for. -/
def Direction.fromEnd (d : Direction) (o : Ordering) : Ordering :=
  match d with
  | .ascending => o
  | .descending => o.swap

namespace Sql

/-! ## Pages -/

/-- The number of rows that a limit leaves of some; a negative limit leaves all. -/
def allowed (count : Option Int) (total : Nat) : Nat :=
  match count with
  | none => total
  | some n => if n < 0 then total else min n.toNat total

/-- Are the rows the first of those that match, as many as the limit allows? -/
structure IsPage {α : Type} (order : α → α → Ordering) (count : Option Int)
    (matching rows : List α) : Prop where
  subset : ∀ i ∈ rows, i ∈ matching
  nodup : rows.Nodup
  length : rows.length = allowed count matching.length
  sorted : rows.Pairwise fun i j => order i j ≠ .gt
  least : ∀ i ∈ matching, i ∉ rows → ∀ j ∈ rows, order i j ≠ .lt

section Page

variable {α : Type} {order : α → α → Ordering} {matching sorted : List α}

theorem limitRows_eq_take (count : Option Int) (rows : List α) :
    limitRows count rows = rows.take (allowed count rows.length) := by
  cases count with
  | none => exact List.take_length.symm
  | some n =>
    simp only [limitRows, allowed]
    split
    · exact List.take_length.symm
    · exact List.take_eq_take_min

theorem allowed_le (count : Option Int) (total : Nat) : allowed count total ≤ total := by
  unfold allowed
  split
  · exact Nat.le_refl _
  · split
    · exact Nat.le_refl _
    · exact Nat.min_le_right _ _

/-- **The first of sorted rows are a page of them**: what is cut off stands behind what is left. -/
theorem isPage_limitRows (count : Option Int) (hperm : sorted.Perm matching)
    (hnodup : matching.Nodup) (hsorted : sorted.Pairwise fun i j => order i j ≠ .gt)
    (hswap : ∀ i ∈ matching, ∀ j ∈ matching, order i j = (order j i).swap) :
    IsPage order count matching (limitRows count sorted) := by
  rw [limitRows_eq_take, hperm.length_eq]
  generalize hm : allowed count matching.length = m
  have hle : m ≤ sorted.length := by
    rw [hperm.length_eq, ← hm]
    exact allowed_le count _
  rw [← List.take_append_drop m sorted] at hsorted
  obtain ⟨hfirst, -, hbehind⟩ := List.pairwise_append.1 hsorted
  have hsubset (i : α) (hi : i ∈ sorted.take m) : i ∈ matching :=
    hperm.subset (List.mem_of_mem_take hi)
  refine ⟨hsubset, (hperm.nodup_iff.2 hnodup).sublist (List.take_sublist _ _), ?_, hfirst, ?_⟩
  · rw [List.length_take, Nat.min_eq_left hle, hm]
  · intro i hi hout j hj hless
    have hcut : i ∈ sorted.drop m := by
      have hmem := hperm.symm.subset hi
      rw [← List.take_append_drop m sorted] at hmem
      exact (List.mem_append.1 hmem).resolve_left hout
    refine hbehind j hj i hcut ?_
    rw [hswap j (hsubset j hj) i hi, hless]
    rfl

end Page

/-! ## Orders of rows -/

/-- The cell of a row under a name, as the engine finds it. -/
def Item.under (i : Item) (name : Value) : Cell :=
  (Predicate.columnExpr (Predicate.nameOf name)).cell i

/-- The order of two rows by terms: by the first that tells them apart, each from its end. -/
def rowOrder (cells : Cell → Cell → Ordering) : List OrderTerm → Item → Item → Ordering
  | [], _, _ => .eq
  | t :: ts, i, j =>
    (t.direction.fromEnd (cells (i.under t.column) (j.under t.column))).then
      (rowOrder cells ts i j)

section Rows

variable {cells : Cell → Cell → Ordering}

instance [Std.TransCmp cells] (t : OrderTerm) : Std.TransCmp fun i j : Item =>
    t.direction.fromEnd (cells (i.under t.column) (j.under t.column)) where
  eq_swap {i j} := by
    have hswap : cells (i.under t.column) (j.under t.column) =
        (cells (j.under t.column) (i.under t.column)).swap := Std.OrientedCmp.eq_swap
    cases t.direction with
    | ascending => exact hswap
    | descending => exact congrArg Ordering.swap hswap
  isLE_trans {i j k} := by
    have htrans {c d e : Cell} : (cells c d).isLE → (cells d e).isLE → (cells c e).isLE :=
      Std.TransCmp.isLE_trans
    have hswap (c d : Cell) : (cells c d).swap = cells d c := Std.OrientedCmp.eq_swap.symm
    cases t.direction with
    | ascending => exact htrans
    | descending =>
      simp only [Direction.fromEnd, hswap]
      exact fun hij hjk => htrans hjk hij

instance [Std.TransCmp cells] (terms : List OrderTerm) : Std.TransCmp (rowOrder cells terms) := by
  induction terms with
  | nil => exact { eq_swap := rfl, isLE_trans := fun _ _ => rfl }
  | cons t ts ih => exact inferInstanceAs (Std.TransCmp (compareLex _ (rowOrder cells ts)))

/-- Does every column of the row hold a cell that a table can hold? -/
def Item.IsStored (i : Item) : Prop :=
  ∀ column, (i.cell column).IsStored

variable {i j : Item} {rows : List Item}

theorem Item.IsStored.under (h : i.IsStored) (name : Value) : (i.under name).IsStored := by
  intro t
  unfold Item.under Predicate.columnExpr
  show Name.cell _ i ≠ _
  unfold Name.cell
  cases Name.meaning? ⟨Identifier.found (Predicate.nameOf name),
      !Identifier.isPlain (Predicate.nameOf name)⟩ with
  | none => rintro ⟨⟩
  | some meaning =>
    cases meaning with
    | column c => exact h c t
    | text s => rintro ⟨⟩
    | truth b => rintro ⟨⟩

/-- Rows of a table stand in one order by any terms. -/
theorem rowOrder_eq (hi : i.IsStored) (hj : j.IsStored) (terms : List OrderTerm) :
    rowOrder Cell.order terms i j = rowOrder Cell.rankOrder terms i j := by
  induction terms with
  | nil => rfl
  | cons t ts ih =>
    rw [rowOrder, rowOrder, ih, Cell.order_eq_rankOrder (hi.under t.column) (hj.under t.column)]

theorem rowOrder_swap (hi : i.IsStored) (hj : j.IsStored) (terms : List OrderTerm) :
    rowOrder Cell.order terms i j = (rowOrder Cell.order terms j i).swap := by
  rw [rowOrder_eq hi hj, rowOrder_eq hj hi]
  exact Std.OrientedCmp.eq_swap

/-- An order term as the engine reads it. -/
def termExpr (t : OrderTerm) : Expr × Direction :=
  (Predicate.columnExpr (Predicate.nameOf t.column), t.direction)

theorem termsOrder_termExpr (terms : List OrderTerm) (i j : Item) :
    termsOrder (terms.map termExpr) i j = rowOrder Cell.order terms i j := by
  induction terms with
  | nil => rfl
  | cons t ts ih =>
    have hterm : termOrder (termExpr t) i j =
        t.direction.fromEnd (Cell.order (i.under t.column) (j.under t.column)) := by
      simp only [termOrder, termExpr, Predicate.columnExpr, Expr.collation?, Option.getD_none,
        Collation.keyCell_binary]
      rfl
    rw [List.map_cons, termsOrder, List.foldr_cons, hterm, rowOrder, ← ih]
    rfl

/-- The rows of a table are sorted by the terms, whatever two of them are compared. -/
theorem pairwise_sortRows (hrows : ∀ i ∈ rows, i.IsStored) (terms : List OrderTerm) :
    (sortRows (terms.map termExpr) rows).Pairwise
      fun i j => rowOrder Cell.order terms i j ≠ .gt := by
  have hperm : (sortRows (terms.map termExpr) rows).Perm rows := List.mergeSort_perm _ _
  have hle (o : Ordering) : (o != .gt) = o.isLE := by
    cases o <;> rfl
  have hsame : sortRows (terms.map termExpr) rows =
      rows.mergeSort fun i j => (rowOrder Cell.rankOrder terms i j).isLE := by
    have hmap := List.map_mergeSort (f := id) (l := rows)
      (r := fun i j => termsOrder (terms.map termExpr) i j != .gt)
      (s := fun i j => (rowOrder Cell.rankOrder terms i j).isLE) (fun i hi j hj => by
        rw [termsOrder_termExpr, rowOrder_eq (hrows i hi) (hrows j hj), hle]
        rfl)
    rwa [List.map_id, List.map_id] at hmap
  have hsorted : (sortRows (terms.map termExpr) rows).Pairwise
      fun i j => (rowOrder Cell.rankOrder terms i j).isLE = true := by
    rw [hsame]
    refine List.pairwise_mergeSort (fun i j k => Std.TransCmp.isLE_trans) (fun i j => ?_) rows
    have hswap : rowOrder Cell.rankOrder terms j i = (rowOrder Cell.rankOrder terms i j).swap :=
      Std.OrientedCmp.eq_swap
    rw [hswap]
    cases rowOrder Cell.rankOrder terms i j <;> rfl
  refine hsorted.imp_of_mem fun hi hj h => ?_
  rw [rowOrder_eq (hrows _ (hperm.subset hi)) (hrows _ (hperm.subset hj))]
  rintro hgt
  rw [hgt] at h
  cases h

end Rows

end Sql

end RowAccess
