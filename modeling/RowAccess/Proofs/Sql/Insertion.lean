import RowAccess.Proofs.Sql.Update

/-
  RowAccess/Proofs/Sql/Insertion.lean
  ===================================
  **What an insertion does to the table.**  The new row has the id that its cells ask for, else the next
  one, and no row had that id before.  All other rows stay as they are (`insertRow_eq_ok`).  As long as
  the table has room the id is an integer of 64 bits.
-/

namespace RowAccess.Sql

open Outcome

/-! ## Integers of 64 bits -/

theorem isStorable_iff (n : Int) : isStorable n = true ↔ -Int.pow 2 63 ≤ n ∧ n < Int.pow 2 63 := by
  rw [isStorable, Bool.and_eq_true, decide_eq_true_iff, decide_eq_true_iff]

theorem wholeOr_cases (x : Binary64) :
    wholeOr x = .real x ∨ ∃ n, isStorable n = true ∧ wholeOr x = .int n := by
  unfold wholeOr
  split
  · next n _ =>
    split
    · next hbounds =>
      refine .inr ⟨n, ?_, rfl⟩
      rw [isStorable_iff]
      omega
    · exact .inl rfl
  · exact .inl rfl

/-- What a text is read as: an integer that is written as one, or a decimal, which may be whole. -/
theorem numberOf?_eq_some {s : String} {c : Cell} (h : numberOf? s = some c) :
    (∃ n, isStorable n = true ∧ c = .int n) ∨
      ∃ w negative, c = .real (Real.ofWritten w negative) ∨ c = wholeOr (Real.ofWritten w negative) := by
  unfold numberOf? at h
  generalize Number.splitSign (trimNumber s.toList) = signed at h
  obtain ⟨negative, cs⟩ := signed
  dsimp only at h
  generalize Prod.fst (_ : List Char × List Char) = fraction at h
  generalize Prod.snd (_ : List Char × List Char) = rest at h
  by_cases hempty : ((cs.takeWhile Char.isDigit).isEmpty && fraction.isEmpty) = true
  · rw [if_pos hempty] at h
    cases h
  rw [if_neg hempty] at h
  cases rest with
  | nil =>
    dsimp only at h
    split at h
    · have h := Option.some.inj h
      generalize (if negative = true then _ else _ : Int) = n at h
      split at h
      · next hstorable => exact .inl ⟨n, hstorable, h.symm⟩
      · exact .inr ⟨_, _, .inl h.symm⟩
    · exact .inr ⟨_, _, .inr (Option.some.inj h).symm⟩
  | cons e r =>
    dsimp only at h
    split at h
    · obtain ⟨exponent, -, h⟩ := Option.bind_eq_some_iff.1 h
      exact .inr ⟨_, _, .inr (Option.some.inj h).symm⟩
    · cases h

/-- A number column makes integers of 64 bits of whatever it stores. -/
theorem isStorable_of_apply {c : Cell} {n : Int} (hc : ∀ m, c = .int m → isStorable m = true)
    (h : Affinity.number.apply c = .int n) : isStorable n = true := by
  have hwhole {x : Binary64} (h : wholeOr x = .int n) : isStorable n = true := by
    rcases wholeOr_cases x with hreal | ⟨m, hm, hint⟩
    · cases hreal.symm.trans h
    · cases hint.symm.trans h
      exact hm
  cases c with
  | int m =>
    cases h
    exact hc n rfl
  | real x => exact hwhole h
  | text s =>
    cases hs : numberOf? s with
    | none =>
      simp only [Affinity.apply, hs, Option.getD_none] at h
      cases h
    | some c =>
      simp only [Affinity.apply, hs, Option.getD_some] at h
      subst h
      rcases numberOf?_eq_some hs with ⟨m, hm, hint⟩ | ⟨w, negative, hreal | hint⟩
      · cases hint
        exact hm
      · cases hreal
      · exact hwhole hint.symm
  | null => cases h
  | blob bs => cases h

/-! ## The next id -/

namespace Items

variable {t u : Items} {item : Item}

/-- Are the ids of the rows integers of 64 bits, and is a positive one left? -/
structure IsHeld (t : Items) : Prop where
  ids : ∀ r ∈ t.rows, isStorable r.id = true
  room : (t.rows.length : Int) < greatestId

theorem firstFree_le (n : Int) (rows : List Item) : firstFree n rows ≤ n + rows.length := by
  induction rows generalizing n with
  | nil => simp [firstFree]
  | cons r rest ih =>
    have hfree := ih n
    have hnext := ih (n + 1)
    rw [List.length_cons, firstFree]
    split
    · omega
    · split <;> omega

theorem isStorable_nextId (h : t.IsHeld) : isStorable t.nextId = true := by
  have hroom := h.room
  have hids := h.ids
  have hpower : Int.pow 2 63 = 9223372036854775808 := rfl
  simp only [isStorable_iff, greatestId, hpower] at hids hroom ⊢
  have hfirst := le_firstFree 1 t.rows
  have hlast := firstFree_le 1 t.rows
  unfold nextId
  cases hrow : t.rows.getLast? with
  | none =>
    dsimp only
    omega
  | some r =>
    have hr := hids r (List.mem_of_getLast? hrow)
    simp only [greatestId, hpower]
    split <;> omega

/-- A row takes its place only where no row has its id. -/
theorem id_ne_of_insert? (h : t.insert? item = some u) : ∀ r ∈ t.rows, r.id ≠ item.id := by
  intro r hr hid
  have hnone := (t.insert?_eq_none_iff item).2 ⟨r, hr, hid⟩
  cases hnone.symm.trans h

end Items

/-! ## The id that cells ask for -/

section Asked

variable {cells : List (ItemColumn × Cell)} {asked : Option Int}

theorem isStorable_of_askedId {n : Int}
    (hcells : ∀ e ∈ cells, ∀ m, e.2 = .int m → isStorable m = true)
    (h : askedId cells = .ok (some n)) : isStorable n = true := by
  unfold askedId at h
  split at h
  · cases h
  · cases h
  · next column c _ hfind =>
    have hmem : (column, c) ∈ cells := List.mem_reverse.1 (List.mem_of_find?_eq_some hfind)
    split at h
    · next m hm =>
      cases h
      exact isStorable_of_apply (hcells _ hmem) hm
    · cases h

/-- Cells that agree on the id ask for the one that its column stores. -/
theorem exists_of_askedId {c : Cell} (hmem : (ItemColumn.id, c) ∈ cells)
    (honly : ∀ e ∈ cells, e.1 = .id → e.2 = c) (hc : c ≠ .null) (h : askedId cells = .ok asked) :
    ∃ n, asked = some n ∧ Affinity.number.apply c = .int n := by
  obtain ⟨e, he⟩ : ∃ e, cells.reverse.find? (fun e => e.1 == .id) = some e := by
    refine Option.isSome_iff_exists.1 (List.find?_isSome.2 ⟨_, List.mem_reverse.2 hmem, ?_⟩)
    rfl
  have hid : e.1 = .id := beq_iff_eq.1 (List.find?_some (p := fun e : ItemColumn × Cell => e.1 == ItemColumn.id) he)
  have hcell : e.2 = c := honly e (List.mem_reverse.1 (List.mem_of_find?_eq_some he)) hid
  obtain ⟨column, cell⟩ := e
  cases hcell
  unfold askedId at h
  rw [he] at h
  split at h
  · next hnone => cases hnone
  · next hnull =>
    cases hnull
    exact absurd rfl hc
  · next column' cell' _ hsome =>
    cases hsome
    split at h
    · next n hn =>
      cases h
      exact ⟨n, rfl, hn⟩
    · cases h

end Asked

/-! ## The new row -/

theorem Item.id_putAll? {i j : Item} {cells : List (ItemColumn × Cell)}
    (hcells : ∀ e ∈ cells, e.1 ≠ .id) (h : i.putAll? cells = some j) : j.id = i.id := by
  induction cells generalizing i with
  | nil =>
    cases h
    rfl
  | cons e cells ih =>
    obtain ⟨hne, hrest⟩ := List.forall_mem_cons.1 hcells
    rw [putAll?, List.foldlM_cons] at h
    obtain ⟨i', hput, h⟩ := Option.bind_eq_some_iff.1 h
    have hid : Cell.int i'.id = .int i.id := cell_put?_of_ne hput (Ne.symm hne)
    rw [ih hrest h, Cell.int.inj hid]

theorem id_newRow {cells : List (ItemColumn × Cell)} {id : Int} {item : Item}
    (h : newRow cells id = some item) : item.id = id := by
  refine Item.id_putAll? ?_ h
  intro e he
  exact bne_iff_ne.1 (List.mem_filter.1 (List.mem_reverse.1 he)).2

theorem exists_newRow {cells : List (ItemColumn × Cell)} {t u : Items} {item : Item}
    (h : insertRow cells t = .ok (u, item)) : ∃ id, newRow cells id = some item := by
  obtain ⟨asked, -, h⟩ := bind_eq_ok_iff.1 h
  dsimp only at h
  split at h
  · cases h
  · next item' hnew =>
    split at h
    · cases h
    · cases h
      exact ⟨_, hnew⟩

/-- A column but that of the ids stores the cell that all cells for it are. -/
theorem cell_insertRow {cells : List (ItemColumn × Cell)} {t u : Items} {item : Item}
    {column : ItemColumn} {v : Cell} (h : insertRow cells t = .ok (u, item)) (hcolumn : column ≠ .id)
    (hmem : (column, v) ∈ cells) (honly : ∀ e ∈ cells, e.1 = column → e.2 = v) :
    item.cell column = column.affinity.apply v := by
  obtain ⟨id, hnew⟩ := exists_newRow h
  refine Item.cell_putAll?_of_forall ?_ (.inl ?_) hnew
  · exact fun e he => honly e (List.mem_of_mem_filter (List.mem_reverse.1 he))
  · exact List.mem_reverse.2 (List.mem_filter.2 ⟨hmem, bne_iff_ne.2 hcolumn⟩)

/-- Is the row new among the rows, all of which stay? -/
structure IsAdded (item : Item) (before after : List Item) : Prop where
  fresh : ∀ r ∈ before, r.id ≠ item.id
  rows : after.Perm (item :: before)

/-- **An insertion adds a row** with the id that its cells ask for, else with the next one. -/
theorem insertRow_eq_ok {cells : List (ItemColumn × Cell)} {t u : Items} {item : Item}
    (h : insertRow cells t = .ok (u, item)) :
    ∃ asked, askedId cells = .ok asked ∧ item.id = asked.getD t.nextId ∧
      IsAdded item t.rows u.rows := by
  obtain ⟨asked, hasked, h⟩ := bind_eq_ok_iff.1 h
  refine ⟨asked, hasked, ?_⟩
  dsimp only at h
  split at h
  · cases h
  · next item' hnew =>
    split at h
    · cases h
    · next u' hinsert =>
      cases h
      exact ⟨id_newRow hnew, Items.id_ne_of_insert? hinsert, Items.perm_insert? hinsert⟩

end RowAccess.Sql
