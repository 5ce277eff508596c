import Mathlib.Algebra.Group.Nat.Defs
import RowAccess.Proofs.Keyed
import RowAccess.Proofs.Outcome
import RowAccess.Proofs.Query.Bracket.Parameter
import RowAccess.Proofs.Text.Digit

/-
  RowAccess/Proofs/Query/Bracket/Index.lean
  =========================================
  **Numbered fields become the list they were numbered from.**  The decimal text of an index is an
  index, is read as the number it was written from, and is the text of no other one.  So fields that
  are named by the indices of a list, in any order, are put in the order of the list
  (`Bracket.inIndexOrder_eq`).
-/

namespace RowAccess.Bracket

open Keyed

/-! ## Decimal indices -/

theorem isBracket_digitChar : ∀ d < 10, isBracket d.digitChar = false := by decide

theorem decimal_ne_empty (n : Nat) : Text.decimal n ≠ "" := by
  intro h
  have hlist := congrArg String.toList h
  rw [Text.toList_decimal] at hlist
  exact Text.toDigits_ne_nil n hlist

theorem isSegment_decimal (n : Nat) : IsSegment (Text.decimal n) := by
  constructor
  · exact decimal_ne_empty n
  · intro c hc
    rw [Text.toList_decimal] at hc
    obtain ⟨d, hd, rfl⟩ := Text.mem_toDigits hc
    exact isBracket_digitChar d hd

theorem isIndexText_decimal (n : Nat) : Text.isIndexText (Text.decimal n) = true := by
  have hempty : (Text.decimal n).isEmpty = false := by
    simpa using decimal_ne_empty n
  have hall : (Text.decimal n).toList.all Text.isDigitLike = true := by
    rw [Text.toList_decimal, List.all_eq_true]
    intro c hc
    obtain ⟨d, hd, rfl⟩ := Text.mem_toDigits hc
    simp [Text.isDigitLike, Text.decimalValue?_digitChar d hd]
  rw [Text.isIndexText, hempty, hall]
  rfl

theorem digitChar_no_sign : ∀ d < 10, d.digitChar ≠ '-' ∧ d.digitChar ≠ '+' := by decide

/-- An index of at most as many digits as are read is read as the number it was written from. -/
theorem indexNumber_decimal {n : Nat} (h : n < 10 ^ Number.digitLimit) :
    indexNumber (Text.decimal n) = .ok (n : Int) := by
  have hsign : Number.splitSign (Nat.toDigits 10 n) = (false, Nat.toDigits 10 n) := by
    cases hdigits : Nat.toDigits 10 n with
    | nil => exact absurd hdigits (Text.toDigits_ne_nil n)
    | cons c r =>
      obtain ⟨d, hd, hc⟩ := Text.mem_toDigits (n := n) (c := c) (by rw [hdigits]; simp)
      obtain ⟨hminus, hplus⟩ := digitChar_no_sign d hd
      rw [← hc] at hminus hplus
      unfold Number.splitSign
      split
      next heq => exact absurd (List.cons.inj heq).1 hminus
      next heq => exact absurd (List.cons.inj heq).1 hplus
      next => rfl
  have hlength : ¬ Number.digitLimit < (Text.digitValues n).length := by
    rw [Text.length_digitValues, Nat.not_lt]
    exact (Nat.length_toDigits_le_iff (by omega) (by decide)).2 h
  unfold indexNumber Number.readInt
  rw [Text.toList_decimal, hsign]
  simp only [Number.digitSequence?_toDigits, hlength, if_false, Text.ofDigits_digitValues,
    Bool.false_eq_true]

/-! ## Numbered fields -/

/-- The entries of a list as fields named by their indices. -/
def numbered : Nat → List Value → Fields
  | _, [] => []
  | i, v :: vs => (Text.decimal i, v) :: numbered (i + 1) vs

theorem keys_numbered (i : Nat) (vs : List Value) :
    keys (numbered i vs) = (List.range' i vs.length).map Text.decimal := by
  induction vs generalizing i with
  | nil => rfl
  | cons v vs ih =>
    rw [numbered, List.length_cons, List.range'_succ, List.map_cons, ← ih (i + 1)]
    rfl

theorem keys_numbered_zero (vs : List Value) :
    keys (numbered 0 vs) = (List.range vs.length).map Text.decimal := by
  rw [keys_numbered, List.range_eq_range']

theorem isSegment_of_mem_numbered (i : Nat) (vs : List Value) :
    ∀ k ∈ keys (numbered i vs), IsSegment k := by
  intro k hk
  rw [keys_numbered] at hk
  obtain ⟨j, -, rfl⟩ := List.mem_map.1 hk
  exact isSegment_decimal j

theorem nodup_keys_numbered (i : Nat) (vs : List Value) : (keys (numbered i vs)).Nodup := by
  rw [keys_numbered]
  refine List.pairwise_map.2 ((List.nodup_range' 1).imp ?_)
  intro m n hne heq
  exact hne (Text.decimal_injective heq)

theorem find?_numbered (i j : Nat) (vs : List Value) :
    find? (numbered i vs) (Text.decimal (i + j)) = vs[j]? := by
  induction vs generalizing i j with
  | nil => rfl
  | cons v vs ih =>
    cases j with
    | zero => simp [numbered, find?]
    | succ j =>
      have hne : Text.decimal i ≠ Text.decimal (i + (j + 1)) := by
        intro heq
        have := Text.decimal_injective heq
        omega
      have hrest := ih (i + 1) j
      rw [Nat.add_right_comm, Nat.add_assoc] at hrest
      rw [numbered, find?, if_neg (by simpa using hne), hrest, List.getElem?_cons_succ]

theorem mem_of_mem_numbered {i : Nat} {vs : List Value} {e : String × Value}
    (h : e ∈ numbered i vs) : e.2 ∈ vs := by
  induction vs generalizing i with
  | nil => cases h
  | cons v vs ih =>
    rcases List.mem_cons.1 h with rfl | h
    · exact List.mem_cons_self
    · exact List.mem_cons_of_mem _ (ih h)

/-- Only the names decide whether fields are numbered. -/
theorem isIndexed_eq_of_perm {fs gs : Fields} (h : (keys fs).Perm (keys gs)) :
    isIndexed fs = isIndexed gs := by
  have hkeys : ∀ fs : Fields,
      isIndexed fs = (!(keys fs).isEmpty && (keys fs).all Text.isIndexText) := by
    intro fs
    simp [isIndexed, keys, List.all_map, Function.comp_def]
  rw [hkeys, hkeys, h.all_eq, h.isEmpty_eq]

/-- Fields under distinct names are the names with what is under them, in any order. -/
theorem perm_of_keys {ws : Fields} (hdistinct : (keys ws).Nodup) {names : List String}
    (h : (keys ws).Perm names) :
    ws.Perm (names.map fun k => (k, (find? ws k).getD .null)) := by
  have hself : (keys ws).map (fun k => (k, (find? ws k).getD .null)) = ws := by
    rw [keys, List.map_map]
    refine (List.map_congr_left ?_).trans (List.map_id ws)
    intro e he
    have hfind : find? ws e.1 = some e.2 :=
      (find?_eq_some_iff (fun k _ => exact_of_lawful k) hdistinct e.1 e.2).2 he
    simp [hfind]
  have hperm := h.map fun k => (k, (find? ws k).getD Value.null)
  rwa [hself] at hperm

/-- Entries are sorted by their numbers into the order in which the numbers ascend. -/
theorem mergeSort_eq_of_perm {α : Type} {xs ys : List (Int × α)} (hperm : xs.Perm ys)
    (h : ys.Pairwise fun a b => a.1 < b.1) : (xs.mergeSort fun a b => a.1 ≤ b.1) = ys := by
  have hsort := (List.mergeSort_perm xs fun a b => a.1 ≤ b.1).trans hperm
  have hle : (xs.mergeSort fun a b => a.1 ≤ b.1).Pairwise fun a b => a.1 ≤ b.1 := by
    refine (List.pairwise_mergeSort ?_ ?_ xs).imp fun hab => of_decide_eq_true hab
    · intro a b c hab hbc
      have hab' := of_decide_eq_true hab
      have hbc' := of_decide_eq_true hbc
      exact decide_eq_true (Int.le_trans hab' hbc')
    · intro a b
      rcases Int.le_total a.1 b.1 with hab | hba
      · simp [hab]
      · simp [hba]
  have hne : (xs.mergeSort fun a b => a.1 ≤ b.1).Pairwise fun a b => a.1 ≠ b.1 :=
    (hsort.pairwise_iff fun hab => hab.symm).2 (h.imp fun hab => Int.ne_of_lt hab)
  have hlt := (hle.and hne).imp fun hab => Int.lt_iff_le_and_ne.2 hab
  refine hsort.eq_of_pairwise ?_ hlt h
  intro a b _ _ hab hba
  exact absurd hab (Int.lt_asymm hba)

theorem inIndexOrder_single (i : String) (v : Value) :
    inIndexOrder [(i, v)] = (indexNumber i).map fun _ => [v] := by
  rw [inIndexOrder, List.mapM_cons, List.mapM_nil]
  dsimp only
  cases indexNumber i with
  | error f => rfl
  | ok n => simp only [bind, Except.bind, pure, Except.pure, Except.map, List.mergeSort_singleton,
      List.map_cons, List.map_nil]

/-- Fields that are named by indices are put in the order of the indices. -/
theorem inIndexOrder_eq {ws : Fields} {n : Nat} (hn : n ≤ 10 ^ Number.digitLimit)
    (h : (keys ws).Perm ((List.range n).map Text.decimal)) :
    inIndexOrder ws =
      .ok ((List.range n).map fun i => (find? ws (Text.decimal i)).getD .null) := by
  have hdistinct : (keys ws).Nodup := by
    refine h.nodup_iff.2 (List.pairwise_map.2 (List.nodup_range.imp ?_))
    intro i j hne heq
    exact hne (Text.decimal_injective heq)
  let number : String → Int := fun k => (indexNumber k).toOption.getD 0
  have hnumber : ∀ i < n, indexNumber (Text.decimal i) = .ok (i : Int) :=
    fun i hi => indexNumber_decimal (Nat.lt_of_lt_of_le hi hn)
  have hkey : ∀ e ∈ ws, indexNumber e.1 = .ok (number e.1) := by
    intro e he
    obtain ⟨i, hi, heq⟩ := List.mem_map.1 (h.mem_iff.1 (List.mem_map.2 ⟨e, he, rfl⟩))
    rw [← heq]
    simp only [hnumber i (List.mem_range.1 hi), number]
    rfl
  let inOrder : List (Int × Value) :=
    (List.range n).map fun (i : Nat) => ((i : Int), (find? ws (Text.decimal i)).getD .null)
  have hperm : (ws.map fun e => (number e.1, e.2)).Perm inOrder := by
    have hws := (perm_of_keys hdistinct h).map fun e => (number e.1, e.2)
    rw [List.map_map, List.map_map] at hws
    refine hws.trans (.of_eq (List.map_congr_left ?_))
    intro i hi
    simp only [Function.comp, number, hnumber i (List.mem_range.1 hi)]
    rfl
  have hascending : inOrder.Pairwise fun a b => a.1 < b.1 := by
    refine List.pairwise_map.2 (List.pairwise_lt_range.imp ?_)
    intro i j hij
    exact Int.ofNat_lt.2 hij
  unfold inIndexOrder
  rw [Outcome.mapM_eq_ok (g := fun e => (number e.1, e.2)) fun e he => by
    dsimp only
    rw [hkey e he]
    rfl]
  show Except.ok (List.map _ (List.mergeSort _ _)) = _
  rw [mergeSort_eq_of_perm hperm hascending, List.map_map]
  rfl

/-- The numbered entries of a list are put in the order of the list. -/
theorem inIndexOrder_numbered {vs : List Value} (hshort : vs.length ≤ 10 ^ Number.digitLimit) :
    inIndexOrder (numbered 0 vs) = .ok vs := by
  rw [inIndexOrder_eq hshort (.of_eq (keys_numbered_zero vs))]
  refine congrArg Except.ok (List.ext_getElem (by simp) ?_)
  intro i hi hi'
  have hfind := find?_numbered 0 i vs
  rw [Nat.zero_add] at hfind
  simp [hfind, List.getElem?_eq_getElem hi']

end RowAccess.Bracket
