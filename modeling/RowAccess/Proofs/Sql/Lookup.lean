import RowAccess.Operation.Storage
import RowAccess.Proofs.Sql.Insertion
import RowAccess.Proofs.Sql.Selection

/-
  RowAccess/Proofs/Sql/Lookup.lean
  ================================
  **A lookup in the id column finds the row of one number, or none.**  The value of a lookup is prepared
  for its kind and compared as the column compares it.  Neither reading a text nor rounding makes what
  is no number, so no two ids are equal to one value (`eq_of_isSought`).  A number that the column can
  store is sought by itself (`isSought_int`); a value that is null seeks none.
-/

namespace RowAccess

namespace Binary64

theorem ofRatio_ne_nan (negative : Bool) (num den : Nat) (t : Bool) :
    ofRatio negative num den ≠ .nan t := by
  unfold ofRatio
  dsimp only
  split
  · rintro ⟨⟩
  · split
    · split <;> rintro ⟨⟩
    · split <;> rintro ⟨⟩

theorem ofScaled_ne_nan (negative : Bool) (mantissa : Nat) (exponent : Int) (t : Bool) :
    ofScaled negative mantissa exponent ≠ .nan t := by
  unfold ofScaled
  split
  · exact ofRatio_ne_nan _ _ _ t
  · exact ofRatio_ne_nan _ _ _ t

variable {x : Binary64} {m : Nat}

theorem times_ne_nan (hx : ∀ t, x ≠ .nan t) (hm : m ≠ 0) (negative : Bool) (e : Int) (t : Bool) :
    x.times (.finite negative m e) ≠ .nan t := by
  cases x with
  | finite a n f => exact ofScaled_ne_nan _ _ _ t
  | infinite a =>
    rw [times, if_neg hm]
    rintro ⟨⟩
  | nan s => exact absurd rfl (hx s)

theorem divide_ne_nan (hx : ∀ t, x ≠ .nan t) (hm : m ≠ 0) (negative : Bool) (e : Int) (t : Bool) :
    x.divide (.finite negative m e) ≠ .nan t := by
  cases x with
  | finite a n f =>
    rw [divide, if_neg hm]
    split
    · exact ofRatio_ne_nan _ _ _ t
    · exact ofRatio_ne_nan _ _ _ t
  | infinite a => rintro ⟨⟩
  | nan s => exact absurd rfl (hx s)

end Binary64

namespace Sql

open Outcome

theorem toBinary64_ne_nan (negative : Bool) (x : Extended) (t : Bool) :
    x.toBinary64 negative ≠ .nan t := by
  unfold Extended.toBinary64
  split
  · exact Binary64.ofRatio_ne_nan _ _ _ t
  · exact Binary64.ofRatio_ne_nan _ _ _ t

/-- Is the double finite and above zero? -/
def isPositive : Binary64 → Bool
  | .finite false m _ => m != 0
  | _ => false

theorem exists_far : ∃ m e, Binary64.ofDecimal false 1 308 = .finite false m e ∧ m ≠ 0 := by
  have hfar : isPositive (Binary64.ofDecimal false 1 308) = true := by decide +kernel
  unfold isPositive at hfar
  split at hfar
  · next m e heq => exact ⟨m, e, heq, bne_iff_ne.1 hfar⟩
  · cases hfar

/-- A written decimal is a number. -/
theorem ofWritten_ne_nan (w : Number.Written) (negative t : Bool) :
    Real.ofWritten w negative ≠ .nan t := by
  obtain ⟨m, e, hfar, hm⟩ := exists_far
  have hcombine (small : Bool) (s k : Nat) : Real.combine negative small s k ≠ .nan t := by
    unfold Real.combine
    dsimp only
    split
    · exact Binary64.ofRatio_ne_nan _ _ _ t
    · split
      · exact toBinary64_ne_nan _ _ t
      · split
        · rw [hfar]
          split
          · exact Binary64.divide_ne_nan (fun t => toBinary64_ne_nan _ _ t) hm _ _ t
          · exact Binary64.times_ne_nan (fun t => toBinary64_ne_nan _ _ t) hm _ _ t
        · split <;> rintro ⟨⟩
  unfold Real.ofWritten
  dsimp only
  split
  · rintro ⟨⟩
  · exact hcombine _ _ _

/-! ## The value of a lookup -/

/-- The cell that a lookup in a number column sends for a value. -/
def soughtCell (v : Value) : Cell :=
  let w := Predicate.bindable (Storage.numberValue v)
  Operand.sentCell (.of w) w

/-- Is the number the one that a lookup of the value in a number column finds? -/
def IsSought (v : Value) (n : Int) : Prop :=
  Affinity.number.compare? (.int n) (soughtCell v) = some .eq

theorem exists_of_sentCell {p : Preparation} {v : Value} (h : Operand.sentCell p v ≠ .null) :
    ∃ w, p.apply v = .ok w ∧ Cell.ofValue w = .ok (Operand.sentCell p v) := by
  unfold Operand.sentCell at h ⊢
  split at h
  · next w hw =>
    simp only [hw] at h ⊢
    refine ⟨w, rfl, ?_⟩
    cases hcell : Cell.ofValue w with
    | error e =>
      rw [hcell] at h
      exact absurd rfl h
    | ok c => rfl
  · exact absurd rfl h

theorem ofValue_ne_nan (v : Value) (t : Bool) : Cell.ofValue v ≠ .ok (.real (.nan t)) := by
  cases v with
  | int n =>
    rw [Cell.ofValue]
    split <;> rintro ⟨⟩
  | float x => cases x <;> rintro ⟨⟩
  | _ => rintro ⟨⟩

/-- No number column compares with what is no number. -/
theorem apply_ne_nan {c : Cell} (hc : ∀ t, c ≠ .real (.nan t)) (t : Bool) :
    Affinity.number.apply c ≠ .real (.nan t) := by
  have hwhole {x : Binary64} (hx : x ≠ .nan t) : wholeOr x ≠ .real (.nan t) := by
    rcases wholeOr_cases x with h | ⟨n, -, h⟩
    · rw [h]
      exact fun hreal => hx (Cell.real.inj hreal)
    · rw [h]
      rintro ⟨⟩
  cases c with
  | real x => exact hwhole fun hx => hc t (congrArg Cell.real hx)
  | text s =>
    cases hs : numberOf? s with
    | none =>
      simp only [Affinity.apply, hs, Option.getD_none]
      rintro ⟨⟩
    | some c =>
      simp only [Affinity.apply, hs, Option.getD_some]
      rcases numberOf?_eq_some hs with ⟨n, -, rfl⟩ | ⟨w, negative, rfl | rfl⟩
      · rintro ⟨⟩
      · exact fun h => ofWritten_ne_nan w negative t (Cell.real.inj h)
      · exact hwhole (ofWritten_ne_nan w negative t)
  | _ => rintro ⟨⟩

theorem soughtCell_ne_nan (v : Value) (t : Bool) : soughtCell v ≠ .real (.nan t) := by
  intro h
  obtain ⟨w, -, hw⟩ := exists_of_sentCell (p := .of (Predicate.bindable (Storage.numberValue v)))
    (v := Predicate.bindable (Storage.numberValue v)) (by
      show soughtCell v ≠ .null
      rw [h]
      rintro ⟨⟩)
  exact ofValue_ne_nan w t (hw.trans (congrArg Except.ok h))

/-! ## One number for one value -/

theorem eq_of_compareInt? {x : Binary64} {a b : Int} (ha : x.compareInt? a = some .eq)
    (hb : x.compareInt? b = some .eq) : a = b := by
  cases x with
  | nan t => cases ha
  | infinite s => cases s <;> cases ha
  | finite s m e =>
    have hpower : Int.pow 2 (0 - Binary64.commonExponent e 0).toNat ≠ 0 := by
      have hpos : (0 : Int) < 2 ^ (0 - Binary64.commonExponent e 0).toNat := Int.pow_pos (by decide)
      exact (Int.ne_of_lt hpos).symm
    have ha := Int.compare_eq_eq.1 (Option.some.inj ha)
    have hb := Int.compare_eq_eq.1 (Option.some.inj hb)
    exact Int.eq_of_mul_eq_mul_right hpower (ha.symm.trans hb)

theorem eq_of_order {c : Cell} (hc : ∀ t, c ≠ .real (.nan t)) {a b : Int}
    (ha : Cell.order (.int a) c = .eq) (hb : Cell.order (.int b) c = .eq) : a = b := by
  have hreal {x : Binary64} (hx : ∀ t, x ≠ .nan t) {n : Int}
      (h : ((x.compareInt? n).map Ordering.swap).getD .eq = .eq) : x.compareInt? n = some .eq := by
    cases hn : x.compareInt? n with
    | some o =>
      rw [hn] at h
      cases o <;> first | rfl | cases h
    | none =>
      cases x with
      | nan t => exact absurd rfl (hx t)
      | _ => cases hn
  cases c with
  | int n => exact (Int.compare_eq_eq.1 ha).trans (Int.compare_eq_eq.1 hb).symm
  | real x =>
    have hx (t : Bool) : x ≠ .nan t := fun h => hc t (congrArg Cell.real h)
    exact eq_of_compareInt? (hreal hx ha) (hreal hx hb)
  | null => cases ha
  | text s => cases ha
  | blob bs => cases ha

/-- **No two numbers are sought by one value.** -/
theorem eq_of_isSought {v : Value} {a b : Int} (ha : IsSought v a) (hb : IsSought v b) : a = b := by
  have horder {n : Int} (h : IsSought v n) :
      Cell.order (.int n) (Affinity.number.apply (soughtCell v)) = .eq := by
    unfold IsSought Affinity.compare? at h
    split at h
    · cases h
    · exact Option.some.inj h
  exact eq_of_order (apply_ne_nan (soughtCell_ne_nan v)) (horder ha) (horder hb)

/-! ## The rows that a lookup meets -/

section Rows

variable {c : String} {p : Predicate} {i : Item}

theorem affinity?_columnExpr {column : ItemColumn}
    (hc : ItemColumn.find? (Identifier.found c) = some column) :
    (Predicate.columnExpr c).affinity? = some column.affinity := by
  have hmeaning : Name.meaning? ⟨Identifier.found c, !Identifier.isPlain c⟩ =
      some (.column column) := by
    rw [Name.meaning?]
    simp only [hc]
  simp only [Predicate.columnExpr, Expr.affinity?, hmeaning]
  rfl

/-- A row passes an equality of the id column where its id equals the value as a number. -/
theorem passes_id_iff (hc : ItemColumn.find? (Identifier.found c) = some .id) {e : Expr}
    (he : e.IsValue) :
    passes (some (.compare .eq (Predicate.columnExpr c) e)) i = true ↔
      Affinity.number.compare? (.int i.id) (e.cell i) = some .eq := by
  have hbetween : Collation.between (Predicate.columnExpr c) e = .binary := by
    cases he <;> rfl
  have hshared : Affinity.shared (Predicate.columnExpr c).affinity? e.affinity? = .number := by
    rw [affinity?_columnExpr hc]
    cases he <;> rfl
  have htruth : (Expr.compare .eq (Predicate.columnExpr c) e).truth i =
      compareTruth .number .binary .eq (.int i.id) (e.cell i) := by
    rw [Expr.truth, Expr.cell, Truth.truth_cell, Expr.comparison, hbetween, hshared,
      cell_columnExpr hc]
    rfl
  rw [passes, htruth, compareTruth, Collation.keyCell_binary, Collation.keyCell_binary]
  cases Affinity.number.compare? (.int i.id) (e.cell i) with
  | none =>
    constructor
    · rintro ⟨⟩
    · rintro ⟨⟩
  | some o => cases o <;> decide

theorem sentCell_truth (b : Bool) : Operand.sentCell .truth (.bool b) = .int (Value.ofBool b) := by
  cases b <;> rfl

/-- A value that is no raw literal is bound for its kind. -/
theorem ofValue_eq_bound {w : Value} (hw : Predicate.isVerbatim w = false) :
    Operand.ofValue w = .bound (.of (Predicate.bindable w)) (Predicate.bindable w) := by
  cases w with
  | dateLiteral l =>
    have hraw : l.raw = false := hw
    simp only [Operand.ofValue, Predicate.bindable, hraw, Bool.false_eq_true, if_false]
    rfl
  | _ => rfl

/-- The predicate of a value that is not null compares the column with the cell that is sent. -/
theorem exists_operand {w : Value} (hw : Predicate.isVerbatim w = false) (hnull : w ≠ .null)
    (hp : Predicate.ofComparison (equality c w) = .ok p) :
    ∃ o, p = .compare c .eq o ∧ ∀ i,
      o.expr.cell i = Operand.sentCell (.of (Predicate.bindable w)) (Predicate.bindable w) := by
  have hcell (i : Item) : (Operand.ofValue w).expr.cell i =
      Operand.sentCell (.of (Predicate.bindable w)) (Predicate.bindable w) := by
    rw [ofValue_eq_bound hw]
    rfl
  cases w with
  | null => exact absurd rfl hnull
  | bool b =>
    cases hp
    exact ⟨.truth b, rfl, fun i => (sentCell_truth b).symm⟩
  | _ =>
    obtain ⟨⟨⟩, -, hp⟩ := bind_eq_ok_iff.1 hp
    cases hp
    exact ⟨_, rfl, hcell⟩

/-- The rows that a lookup in the id column meets are those whose id is sought. -/
theorem passes_equality (hc : ItemColumn.find? (Identifier.found c) = some .id) {v : Value}
    (hv : Predicate.isVerbatim (Storage.numberValue v) = false)
    (hp : Predicate.ofComparison (equality c (Storage.numberValue v)) = .ok p) :
    passes (some p.expr) i = true ↔ IsSought v i.id := by
  by_cases hnull : Storage.numberValue v = .null
  · rw [hnull] at hp
    cases hp
    have hsought : soughtCell v = .null := by
      rw [soughtCell, hnull]
      rfl
    have hpasses : passes (some (Predicate.absent false c).expr) i = false := by
      rw [passes, Predicate.expr, Expr.truth, Expr.cell, Truth.truth_cell, cell_columnExpr hc]
      rfl
    rw [IsSought, hsought]
    constructor
    · intro h
      cases hpasses.symm.trans h
    · rintro ⟨⟩
  · obtain ⟨o, rfl, ho⟩ := exists_operand hv hnull hp
    rw [IsSought, soughtCell, ← ho i]
    exact passes_id_iff hc o.isValue_expr

/-- The predicate of a value that some number answers to can be sent. -/
theorem exists_sendable {v : Value} {n : Int}
    (hv : Predicate.isVerbatim (Storage.numberValue v) = false) (h : IsSought v n) :
    ∃ o, Predicate.ofComparison (equality c (Storage.numberValue v)) = .ok (.compare c .eq o) ∧
      o.IsSendable := by
  have hcell : soughtCell v ≠ .null := by
    intro hnull
    rw [IsSought, hnull] at h
    cases h
  obtain ⟨w, hw, hsent⟩ := exists_of_sentCell hcell
  have hsendable : (Operand.ofValue (Storage.numberValue v)).IsSendable := by
    rw [ofValue_eq_bound hv]
    exact ⟨w, _, hw, hsent⟩
  unfold soughtCell at hcell
  generalize Storage.numberValue v = u at hv hcell hsendable
  have hnamed : Predicate.checkNamed (.text c) [.ofValue u] = .ok () := by
    simp [Predicate.checkNamed, Value.isText]
  cases u with
  | null => exact absurd rfl hcell
  | bool b => exact ⟨.truth b, rfl, trivial⟩
  | _ => exact ⟨_, bind_eq_ok_iff.2 ⟨(), hnamed, rfl⟩, hsendable⟩

end Rows

/-! ## Numbers -/

/-- Is the value an integer, a truth value or a double that is a number? -/
def IsNumeric : Value → Prop
  | .int _ | .bool _ => True
  | .float x => ∀ t, x ≠ .nan t
  | _ => False

/-- A value that some number answers to can be written: an integer is one that can be stored. -/
theorem isWritable_of_isSought {v : Value} {n : Int} (h : IsSought v n) : v.isWritable = true := by
  cases v with
  | int m =>
    have hcell : soughtCell (.int m) = (Cell.ofValue (.int m)).toOption.getD .null := rfl
    rw [IsSought, hcell, Cell.ofValue] at h
    split at h
    · next hm =>
      have hbounds := (isStorable_iff m).1 hm
      have hpower : Int.pow 2 63 < 10 ^ 19 := by decide
      have hshort : m.natAbs < 10 ^ 19 := by omega
      exact Number.isWritten_of_lt hshort (by decide)
    · cases h
  | list | object => cases h
  | _ => rfl

/-- A number is looked up as the cell that stores it. -/
theorem soughtCell_of_isNumeric {v : Value} {c : Cell} (hv : IsNumeric v)
    (hc : Cell.ofValue v = .ok c) : soughtCell v = c ∧ c ≠ .null := by
  cases v with
  | int n =>
    rw [Cell.ofValue] at hc
    split at hc
    · next hn =>
      cases hc
      have hsent : soughtCell (.int n) = (Cell.ofValue (.int n)).toOption.getD .null := rfl
      rw [hsent, Cell.ofValue, if_pos hn]
      exact ⟨rfl, by rintro ⟨⟩⟩
    · cases hc
  | bool b =>
    cases hc
    exact ⟨sentCell_truth b, by rintro ⟨⟩⟩
  | float x =>
    cases x with
    | nan t => exact absurd rfl (hv t)
    | finite s m e =>
      cases hc
      exact ⟨rfl, by rintro ⟨⟩⟩
    | infinite s =>
      cases hc
      exact ⟨rfl, by rintro ⟨⟩⟩
  | _ => cases hv

theorem isSought_of_apply {v : Value} {n : Int}
    (h : Affinity.number.apply (soughtCell v) = .int n) : IsSought v n := by
  have hnull : (soughtCell v).isNull = false := by
    cases hcell : soughtCell v <;> first | rfl | (rw [hcell] at h; cases h)
  have hself : Cell.order (.int n) (.int n) = .eq := Int.compare_eq_eq.2 rfl
  show (if (Cell.int n).isNull || (soughtCell v).isNull then none
    else some (Cell.order (.int n) (Affinity.number.apply (soughtCell v)))) = some .eq
  rw [hnull, h, hself]
  rfl

/-- An integer that can be stored is the number that its lookup seeks. -/
theorem isSought_int {n : Int} (h : isStorable n = true) : IsSought (.int n) n := by
  have hcell : Cell.ofValue (.int n) = .ok (.int n) := if_pos h
  refine isSought_of_apply ?_
  rw [(soughtCell_of_isNumeric (v := .int n) trivial hcell).1]
  rfl

end Sql

end RowAccess
