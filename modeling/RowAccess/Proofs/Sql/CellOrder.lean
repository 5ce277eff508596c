import Mathlib.Algebra.Order.Field.Power
import Mathlib.Algebra.Order.Group.Int
import Mathlib.Data.Rat.Cast.Order
import Mathlib.Order.WithBot
import RowAccess.Sql.Result

/-
  RowAccess/Proofs/Sql/CellOrder.lean
  ===================================
  **The order of cells is one order.**  Integers and doubles are compared in four ways, each at an
  exponent of its own.  All of them compare the numbers that are meant, so that cells stand in the
  order of three ranks: of their kind, of their number and of their characters or bytes
  (`order_eq_rankOrder`).  The double that is no number is apart; no table holds it.
-/

namespace RowAccess

/-! ## Numbers -/

theorem compare_of_strictMono {α β : Type} [LinearOrder α] [LinearOrder β] {f : α → β}
    (hf : StrictMono f) (a b : α) : compare (f a) (f b) = compare a b := by
  rw [← cmp_eq_compare, ← cmp_eq_compare, hf.cmp_map_eq]

namespace Binary64

/-- The number that a finite double is. -/
def rational (negative : Bool) (mantissa : Nat) (exponent : Int) : ℚ :=
  (if negative then -(mantissa : ℚ) else mantissa) * 2 ^ exponent

/-- The number that a double is, between the two infinities. -/
def quantity : Binary64 → WithBot (WithTop ℚ)
  | .finite negative m e => ((rational negative m e : WithTop ℚ) : WithBot (WithTop ℚ))
  | .infinite negative => if negative then ⊥ else ((⊤ : WithTop ℚ) : WithBot (WithTop ℚ))
  | .nan _ => ((0 : WithTop ℚ) : WithBot (WithTop ℚ))

variable {x y : Binary64}

theorem cast_signedAt (negative : Bool) (m : Nat) {e base : Int} (h : base ≤ e) :
    ((signedAt negative m e base : Int) : ℚ) = rational negative m e * 2 ^ (-base) := by
  have hpower : (2 : ℚ) ^ (e - base).toNat = 2 ^ e * 2 ^ (-base) := by
    rw [← zpow_natCast, Int.toNat_of_nonneg (Int.sub_nonneg_of_le h), ← zpow_add₀ two_ne_zero,
      Int.sub_eq_add_neg]
  have hwhole : (((m * Nat.pow 2 (e - base).toNat : Nat) : Int) : ℚ) = m * (2 ^ e * 2 ^ (-base)) := by
    rw [← hpower, Nat.pow_eq]
    push_cast
    rfl
  unfold signedAt rational
  cases negative with
  | false =>
    rw [if_neg Bool.false_ne_true, if_neg Bool.false_ne_true, hwhole, mul_assoc]
  | true =>
    rw [if_pos rfl, if_pos rfl, Int.cast_neg, hwhole, neg_mul, neg_mul, mul_assoc]

theorem coe_strictMono : StrictMono fun q : ℚ => ((q : WithTop ℚ) : WithBot (WithTop ℚ)) :=
  WithBot.coe_strictMono.comp WithTop.coe_strictMono

/-- Integers that are two numbers at one exponent compare as the numbers do. -/
theorem compare_of_scaled {m n : Int} {p q : ℚ} {base : Int} (hm : (m : ℚ) = p * 2 ^ (-base))
    (hn : (n : ℚ) = q * 2 ^ (-base)) :
    compare m n = compare ((p : WithTop ℚ) : WithBot (WithTop ℚ)) (q : WithTop ℚ) := by
  have hscaled : StrictMono fun q : ℚ => q * 2 ^ (-base) :=
    fun a b hab => mul_lt_mul_of_pos_right hab (zpow_pos two_pos _)
  calc compare m n = compare (m : ℚ) (n : ℚ) := (compare_of_strictMono Int.cast_strictMono m n).symm
    _ = compare p q := by rw [hm, hn]; exact compare_of_strictMono hscaled p q
    _ = _ := (compare_of_strictMono coe_strictMono p q).symm

/-- Two doubles compare as the numbers that they are. -/
theorem compare?_eq (hx : ∀ t, x ≠ .nan t) (hy : ∀ t, y ≠ .nan t) :
    x.compare? y = some (compare x.quantity y.quantity) := by
  cases x with
  | nan t => exact absurd rfl (hx t)
  | infinite a =>
    cases y with
    | nan t => exact absurd rfl (hy t)
    | infinite b => cases a <;> cases b <;> rfl
    | finite b n f => cases a <;> rfl
  | finite a m e =>
    cases y with
    | nan t => exact absurd rfl (hy t)
    | infinite b => cases b <;> rfl
    | finite b n f =>
      exact congrArg some (compare_of_scaled (cast_signedAt a m (min_le_left e f))
        (cast_signedAt b n (min_le_right e f)))

/-- A double and an integer compare as the numbers that they are. -/
theorem compareInt?_eq (hx : ∀ t, x ≠ .nan t) (n : Int) :
    x.compareInt? n =
      some (compare x.quantity (((n : ℚ) : WithTop ℚ) : WithBot (WithTop ℚ))) := by
  cases x with
  | nan t => exact absurd rfl (hx t)
  | infinite a => cases a <;> rfl
  | finite a m e =>
    have hbase : min e 0 ≤ 0 := min_le_right e 0
    have hinteger : ((n * Int.pow 2 (0 - min e 0).toNat : Int) : ℚ) = n * 2 ^ (-min e 0) := by
      rw [Int.cast_mul, Int.pow_eq]
      push_cast
      rw [← zpow_natCast, Int.toNat_of_nonneg (Int.sub_nonneg_of_le hbase), zero_sub]
    exact congrArg some (compare_of_scaled (cast_signedAt a m (min_le_left e 0)) hinteger)

end Binary64

namespace Sql

/-! ## Texts and bytes -/

theorem compare_then (m n : Nat) (o : Ordering) :
    (if m < n then .lt else if n < m then .gt else o) = (compare m n).then o := by
  rcases Nat.lt_trichotomy m n with h | rfl | h
  · rw [if_pos h, Nat.compare_eq_lt.2 h]
    rfl
  · rw [if_neg (Nat.lt_irrefl _), if_neg (Nat.lt_irrefl _), Nat.compare_eq_eq.2 rfl]
    rfl
  · rw [if_neg (Nat.lt_asymm h), if_pos h, Nat.compare_eq_gt.2 h]
    rfl

theorem compareChars_eq (cs ds : List Char) :
    compareChars cs ds = List.compareLex compare (cs.map Char.toNat) (ds.map Char.toNat) := by
  induction cs generalizing ds with
  | nil => cases ds <;> rfl
  | cons c cs ih =>
    cases ds with
    | nil => rfl
    | cons d ds =>
      rw [compareChars, compare_then, ih]
      exact List.compareLex_cons_cons.symm

theorem compareChars_swap (cs ds : List Char) : compareChars ds cs = (compareChars cs ds).swap := by
  rw [compareChars_eq, compareChars_eq]
  exact Std.OrientedCmp.eq_swap

/-- Texts are compared as their characters are ordered. -/
theorem compareChars_of_lt {cs ds : List Char} (h : cs < ds) : compareChars cs ds = .lt := by
  induction cs generalizing ds with
  | nil =>
    cases ds with
    | nil => exact absurd h (List.lt_irrefl _)
    | cons d ds => rfl
  | cons c cs ih =>
    cases ds with
    | nil => exact absurd h (List.not_lt_nil _)
    | cons d ds =>
      rw [compareChars, compare_then]
      rcases List.cons_lt_cons_iff.1 h with hlt | ⟨rfl, hlt⟩
      · have hnumbers : c.toNat < d.toNat := hlt
        rw [Nat.compare_eq_lt.2 hnumbers]
        rfl
      · rw [Nat.compare_eq_eq.2 rfl, ih hlt]
        rfl

theorem compareBytes_eq (as bs : List UInt8) :
    compareBytes as bs = List.compareLex compare (as.map UInt8.toNat) (bs.map UInt8.toNat) := by
  induction as generalizing bs with
  | nil => cases bs <;> rfl
  | cons a as ih =>
    cases bs with
    | nil => rfl
    | cons b bs =>
      simp only [compareBytes, UInt8.lt_iff_toNat_lt]
      rw [compare_then, ih]
      exact List.compareLex_cons_cons.symm

/-! ## Cells -/

namespace Cell

/-- Is the cell one that a table can hold? -/
def IsStored (c : Cell) : Prop :=
  ∀ t, c ≠ .real (.nan t)

/-- The number of a cell, the same for all that are none. -/
def quantity : Cell → WithBot (WithTop ℚ)
  | .int n => (((n : ℚ) : WithTop ℚ) : WithBot (WithTop ℚ))
  | .real x => x.quantity
  | _ => ⊥

/-- The characters or bytes of a cell. -/
def units : Cell → List Nat
  | .text s => s.toList.map Char.toNat
  | .blob bs => bs.map UInt8.toNat
  | _ => []

/-- The order of cells by their kinds, then by their numbers, then by their characters or bytes. -/
def rankOrder : Cell → Cell → Ordering :=
  compareLex (compareOn rank)
    (compareLex (compareOn quantity) fun a b => List.compareLex compare a.units b.units)

instance : Std.TransCmp fun a b : Cell => List.compareLex compare a.units b.units where
  eq_swap {a b} :=
    (Std.OrientedCmp.eq_swap : List.compareLex compare a.units b.units = _)
  isLE_trans := fun hab hbc =>
    (Std.TransCmp.isLE_trans hab hbc : (List.compareLex compare _ _).isLE = true)

instance : Std.TransCmp rankOrder :=
  inferInstanceAs (Std.TransCmp (compareLex _ (compareLex _ _)))

variable {a b : Cell}

theorem rankOrder_of_number (ha : a.rank = 1) (hb : b.rank = 1) :
    rankOrder a b = compare a.quantity b.quantity := by
  have hunits {c : Cell} (hc : c.rank = 1) : c.units = [] := by
    cases c <;> first | rfl | cases hc
  have hranks : compare a.rank b.rank = .eq := Nat.compare_eq_eq.2 (ha.trans hb.symm)
  simp only [rankOrder, compareLex, compareOn, hranks, hunits ha, hunits hb,
    List.compareLex_nil_nil, Ordering.eq_then, Ordering.then_eq]

theorem rankOrder_of_units (hrank : a.rank = b.rank) (hquantity : a.quantity = b.quantity) :
    rankOrder a b = List.compareLex compare a.units b.units := by
  simp only [rankOrder, compareLex, compareOn, hrank, hquantity, Std.ReflCmp.compare_self,
    Ordering.eq_then]

/-- **Cells stand in one order**, whichever way two of them are compared. -/
theorem order_eq_rankOrder (ha : a.IsStored) (hb : b.IsStored) : order a b = rankOrder a b := by
  have hreal {x : Binary64} (hx : (Cell.real x).IsStored) (t : Bool) : x ≠ .nan t :=
    fun h => hx t (congrArg Cell.real h)
  cases a with
  | null => cases b <;> rfl
  | int m =>
    cases b with
    | int n =>
      rw [rankOrder_of_number rfl rfl]
      exact (compare_of_strictMono (Binary64.coe_strictMono.comp Int.cast_strictMono) m n).symm
    | real y =>
      rw [rankOrder_of_number rfl rfl, order, Binary64.compareInt?_eq (hreal hb)]
      exact Std.OrientedCmp.eq_swap.symm
    | _ => rfl
  | real x =>
    cases b with
    | int n =>
      rw [rankOrder_of_number rfl rfl, order, Binary64.compareInt?_eq (hreal ha)]
      rfl
    | real y =>
      rw [rankOrder_of_number rfl rfl, order, Binary64.compare?_eq (hreal ha) (hreal hb)]
      rfl
    | _ => rfl
  | text s =>
    cases b with
    | text t =>
      rw [rankOrder_of_units (a := .text s) (b := .text t) rfl rfl]
      exact compareChars_eq s.toList t.toList
    | _ => rfl
  | blob as =>
    cases b with
    | blob bs =>
      rw [rankOrder_of_units (a := .blob as) (b := .blob bs) rfl rfl]
      exact compareBytes_eq as bs
    | _ => rfl

end Cell

end Sql

end RowAccess
