import Mathlib.Data.List.Perm.Basic
import RowAccess.Proofs.Keyed
import RowAccess.Proofs.Outcome
import RowAccess.Sql.Engine

/-
  RowAccess/Proofs/Sql/Update.lean
  ================================
  **What an update does to the table.**  Rows are changed one after the other, and a changed row may
  move to another id.  Because ids are distinct no change meets a row that was changed before, so that
  in the end exactly the rows that pass are changed and all others are as they were
  (`updateRows_perm`).  A changed row holds in every column the last cell that was meant for it, as
  the column stores it (`cell_updatedRow`).
-/

namespace RowAccess.Sql

open Outcome

/-! ## Rows of distinct ids -/

theorem perm_place? {item : Item} {rows placed : List Item} (h : place? item rows = some placed) :
    placed.Perm (item :: rows) := by
  induction rows generalizing placed with
  | nil =>
    cases h
    exact .refl _
  | cons r rest ih =>
    unfold place? at h
    split at h
    · cases h
      exact .refl _
    · split at h
      · cases h
      · obtain ⟨tail, htail, rfl⟩ := Option.map_eq_some_iff.1 h
        exact ((ih htail).cons r).trans (.swap ..)

namespace Items

variable {t u : Items} {i : Item} {rows : List Item}

theorem perm_insert? (h : t.insert? i = some u) : u.rows.Perm (i :: t.rows) :=
  perm_place? (rows_insert? h)

theorem pairwise_ne (t : Items) : t.rows.Pairwise fun i j => i.id ≠ j.id :=
  t.ascending.imp fun h => by omega

theorem nodup (t : Items) : t.rows.Nodup :=
  t.pairwise_ne.imp fun h heq => h (congrArg Item.id heq)

/-- Without the id of one of its rows a table has the other rows. -/
theorem perm_keep_ne (h : t.rows.Perm (i :: rows)) :
    (t.keep fun j => j.id != i.id).rows.Perm rows := by
  have hdistinct : (i :: rows).Pairwise fun i j => i.id ≠ j.id :=
    h.pairwise t.pairwise_ne fun h => h.symm
  obtain ⟨hi, -⟩ := List.pairwise_cons.1 hdistinct
  have hfilter : (i :: rows).filter (fun j => j.id != i.id) = rows := by
    rw [List.filter_cons_of_neg (by simp)]
    exact List.filter_eq_self.2 fun j hj => bne_iff_ne.2 (hi j hj).symm
  have hperm := h.filter fun j => j.id != i.id
  rwa [hfilter] at hperm

end Items

/-! ## Rows that pass -/

/-- What becomes of the rows that pass, together with the other rows, is what becomes of every row in
its place. -/
theorem perm_map_filter_append (p : Item → Bool) (f : Item → Item) (rows : List Item) :
    ((rows.filter p).map f ++ rows.filter fun i => !p i).Perm
      (rows.map fun i => if p i then f i else i) := by
  induction rows with
  | nil => exact .refl _
  | cons i rows ih =>
    by_cases hp : p i = true
    · simpa [hp] using ih
    · simp only [Bool.not_eq_true] at hp
      simp only [hp, List.filter_cons_of_neg, Bool.false_eq_true, not_false_eq_true, Bool.not_false,
        List.filter_cons_of_pos, List.map_cons, if_false]
      exact List.perm_middle.trans (ih.cons i)

section Run

variable {entries : List (String × Expr)}

/-- The row after an update that can be carried out, else the row itself. -/
def rowAfter (entries : List (String × Expr)) (i : Item) : Item :=
  (updatedRow entries i).getD i

/-- One change takes a row out of the table and puts the changed row in. -/
theorem updateRow_perm {t u : Items} {i : Item} {rows : List Item}
    (h : updateRow entries t i = .ok u) (ht : t.rows.Perm (i :: rows)) :
    updatedRow entries i = some (rowAfter entries i) ∧ u.rows.Perm (rowAfter entries i :: rows) := by
  unfold updateRow at h
  split at h
  · cases h
  · next changed hchanged =>
    have hafter : rowAfter entries i = changed := by rw [rowAfter, hchanged, Option.getD_some]
    split at h
    · cases h
    · next u' hinsert =>
      cases h
      rw [hafter]
      exact ⟨hchanged, (Items.perm_insert? hinsert).trans ((Items.perm_keep_ne ht).cons changed)⟩

/-- Is the table the one in which some of the rows were changed? -/
structure Changed (entries : List (String × Expr)) (t : Items) (done : List Item) (u : Items) :
    Prop where
  updated : ∀ i ∈ done, updatedRow entries i = some (rowAfter entries i)
  perm : u.rows.Perm (done.map (rowAfter entries) ++ t.rows.filter fun i => !done.contains i)

theorem Changed.nil (t : Items) : Changed entries t [] t where
  updated := fun _ h => absurd h List.not_mem_nil
  perm := by simp

/-- The step of the run: a row that was not changed yet is changed. -/
theorem Changed.step {t u u' : Items} {done : List Item} {i : Item}
    (h : Changed entries t done u) (hi : i ∈ t.rows) (hdone : i ∉ done)
    (hstep : updateRow entries u i = .ok u') : Changed entries t (done ++ [i]) u' := by
  have hwithout : (t.rows.filter fun j => !done.contains j).erase i =
      t.rows.filter fun j => !(done ++ [i]).contains j := by
    rw [List.Nodup.erase_eq_filter (t.nodup.filter _), List.filter_filter]
    refine List.filter_congr fun j _ => ?_
    simp only [List.contains_append, List.contains_cons, List.contains_nil, Bool.or_false,
      Bool.not_or, Bool.and_comm, bne]
  have hrest : (t.rows.filter fun j => !done.contains j).Perm
      (i :: t.rows.filter fun j => !(done ++ [i]).contains j) := by
    rw [← hwithout]
    refine List.perm_cons_erase (List.mem_filter.2 ⟨hi, ?_⟩)
    simpa using hdone
  have hrows := h.perm.trans ((hrest.append_left _).trans List.perm_middle)
  obtain ⟨hupdated, hperm⟩ := updateRow_perm hstep hrows
  constructor
  case updated =>
    intro j hj
    rcases List.mem_append.1 hj with hj | hj
    · exact h.updated j hj
    · rw [List.mem_singleton.1 hj]
      exact hupdated
  case perm =>
    rw [List.map_append, List.append_assoc]
    exact hperm.trans List.perm_middle.symm

/-- **An update changes the rows that pass, each as if it were alone, and no others.** -/
theorem updateRows_perm {p : Item → Bool} {t u : Items}
    (h : updateRows entries p t = .ok u) :
    (∀ i ∈ t.rows.filter p, updatedRow entries i = some (rowAfter entries i)) ∧
      u.rows.Perm (t.rows.map fun i => if p i then rowAfter entries i else i) := by
  have hrun : (t.rows.filter p).Nodup → (∀ i ∈ t.rows.filter p, i ∈ t.rows) →
      Changed entries t (t.rows.filter p) u := by
    refine foldlM_induction
      (fun done u => done.Nodup → (∀ i ∈ done, i ∈ t.rows) → Changed entries t done u)
      (fun _ _ => .nil t) ?_ h
    intro done u i u' ih hstep hnodup hmem
    obtain ⟨hdone, -, hne⟩ := List.nodup_append.1 hnodup
    have hi : i ∈ done ++ [i] := List.mem_append_right _ List.mem_cons_self
    refine (ih hdone fun j hj => hmem j (List.mem_append_left _ hj)).step (hmem i hi) ?_ hstep
    intro hmember
    exact hne i hmember i List.mem_cons_self rfl
  have hchanged := hrun (t.nodup.filter p) fun i hi => (List.mem_filter.1 hi).1
  have hothers : (t.rows.filter fun i => !(t.rows.filter p).contains i) =
      t.rows.filter fun i => !p i := by
    refine List.filter_congr fun i hi => ?_
    simp [hi]
  refine ⟨hchanged.updated, hchanged.perm.trans ?_⟩
  rw [hothers]
  exact perm_map_filter_append p _ t.rows

end Run

/-! ## A changed row -/

namespace Item

variable {i j : Item}

/-- Cells put under different columns stand there as the columns store them. -/
theorem cell_putAll? {cells : Keyed ItemColumn Cell} (hcells : (Keyed.keys cells).Nodup)
    (h : i.putAll? cells = some j) (c : ItemColumn) :
    j.cell c = ((Keyed.find? cells c).map c.affinity.apply).getD (i.cell c) := by
  induction cells generalizing i with
  | nil =>
    cases h
    rfl
  | cons e cells ih =>
    obtain ⟨d, v⟩ := e
    obtain ⟨hd, hrest⟩ := List.nodup_cons.1 hcells
    rw [putAll?, List.foldlM_cons] at h
    obtain ⟨i', hput, h⟩ := Option.bind_eq_some_iff.1 h
    rw [ih hrest h]
    by_cases hc : c = d
    · subst hc
      have hnone : Keyed.find? cells c = none :=
        ((Keyed.exact_of_lawful c).find?_eq_none_iff cells).2 hd
      simp [hnone, Keyed.find?, cell_put?_self hput]
    · have hne : (d == c) = false := beq_eq_false_iff_ne.2 (Ne.symm hc)
      simp [Keyed.find?, hne, cell_put?_of_ne hput hc]

/-- Where all cells for a column are one cell, the column stores it. -/
theorem cell_putAll?_of_forall {cells : List (ItemColumn × Cell)} {column : ItemColumn} {v : Cell}
    (hcells : ∀ e ∈ cells, e.1 = column → e.2 = v)
    (hmem : (column, v) ∈ cells ∨ i.cell column = column.affinity.apply v)
    (h : i.putAll? cells = some j) : j.cell column = column.affinity.apply v := by
  induction cells generalizing i with
  | nil =>
    cases h
    exact hmem.resolve_left List.not_mem_nil
  | cons e cells ih =>
    obtain ⟨hfirst, hrest⟩ := List.forall_mem_cons.1 hcells
    obtain ⟨d, w⟩ := e
    rw [putAll?, List.foldlM_cons] at h
    obtain ⟨i', hput, h⟩ := Option.bind_eq_some_iff.1 h
    refine ih hrest ?_ h
    by_cases hd : d = column
    · subst hd
      have hw : w = v := hfirst rfl
      exact .inr (hw ▸ cell_put?_self hput)
    · rcases hmem with hmem | hcell
      · rcases List.mem_cons.1 hmem with heq | hmem
        · exact absurd (Prod.mk.inj heq).1.symm hd
        · exact .inl hmem
      · rw [cell_put?_of_ne hput (Ne.symm hd)]
        exact .inr hcell

end Item

/-- A column of an updated row holds the last cell that was meant for it, or what it held before. -/
theorem cell_updatedRow {entries : List (String × Expr)} {i j : Item}
    (h : updatedRow entries i = some j) (c : ItemColumn) :
    j.cell c =
      ((Keyed.find? (entryCells entries i).reverse c).map c.affinity.apply).getD (i.cell c) := by
  rw [Item.cell_putAll? (Keyed.nodup_keys_ofEntries _) h, Keyed.find?_ofEntries]

end RowAccess.Sql
