import RowAccess.Proofs.Query.Bracket.Nest

/-
  RowAccess/Proofs/Query/Bracket/Listing.lean
  ===========================================
  **Numbered objects become lists again.**  What the texts of a value build has an object for every
  list, with the indices as names.  By induction on the value, inner ones first, every such object
  becomes the list it was made from and no other object does, so the value comes back up to the
  order of the names in its objects (`Bracket.Spelled.listed`).
-/

namespace RowAccess

open Keyed

/-- The same value, but for the order of the names in its objects. -/
inductive Value.Reordered : Value → Value → Prop
  | same (v : Value) : Reordered v v
  | list {vs ws : List Value} (length : vs.length = ws.length)
    (entries : ∀ (i : Nat) v w, vs[i]? = some v → ws[i]? = some w → Reordered v w) :
    Reordered (.list vs) (.list ws)
  | object {fs gs : Fields} (names : (keys fs).Perm (keys gs))
    (values : ∀ k v w, find? fs k = some v → find? gs k = some w → Reordered v w) :
    Reordered (.object fs) (.object gs)

namespace Value.Reordered

variable {v : Value} {s : String} {ws : List Value} {gs : Fields}

theorem text_inv (h : Reordered v (.text s)) : v = .text s := by
  cases h
  rfl

theorem list_inv (h : Reordered v (.list ws)) :
    ∃ vs, v = .list vs ∧ vs.length = ws.length ∧
      ∀ (i : Nat) x y, vs[i]? = some x → ws[i]? = some y → Reordered x y := by
  cases h with
  | same =>
    refine ⟨ws, rfl, rfl, ?_⟩
    intro i x y hx hy
    rw [hx] at hy
    cases hy
    exact .same x
  | list length entries => exact ⟨_, rfl, length, entries⟩

theorem object_inv (h : Reordered v (.object gs)) :
    ∃ fs, v = .object fs ∧ (keys fs).Perm (keys gs) ∧
      ∀ k x y, find? fs k = some x → find? gs k = some y → Reordered x y := by
  cases h with
  | same =>
    refine ⟨gs, rfl, .refl _, ?_⟩
    intro k x y hx hy
    rw [hx] at hy
    cases hy
    exact .same x
  | object names values => exact ⟨_, rfl, names, values⟩

end Value.Reordered

open Value (Reordered)

namespace Bracket

/-! ## Inner objects first -/

/-- What a value becomes where it can be read. -/
def asListed (v : Value) : Value :=
  match listed v with
  | .ok u => u
  | .error _ => v

theorem listedFields_eq_map {fs : Fields} (h : ∀ e ∈ fs, listed e.2 = .ok (asListed e.2)) :
    listedFields fs = .ok (fs.map fun e => (e.1, asListed e.2)) := by
  induction fs with
  | nil => rfl
  | cons e r ih =>
    obtain ⟨k, v⟩ := e
    have hv : listed v = .ok (asListed v) := h (k, v) List.mem_cons_self
    have hr := ih fun e he => h e (List.mem_cons_of_mem _ he)
    rw [listedFields, hv, hr]
    rfl

theorem listed_object {fs : Fields} (h : ∀ e ∈ fs, listed e.2 = .ok (asListed e.2)) :
    listed (.object fs) =
      if isIndexed fs then (inIndexOrder (fs.map fun e => (e.1, asListed e.2))).map .list
      else .ok (.object (fs.map fun e => (e.1, asListed e.2))) := by
  have hkeys := keys_map_values fs fun _ => asListed
  rw [listed, listedFields_eq_map h, ← isIndexed_eq_of_perm (.of_eq hkeys)]
  show (if _ then _ else _) = _
  split
  · cases inIndexOrder (fs.map fun e => (e.1, asListed e.2)) <;> rfl
  · rfl

/-! ## Values from their texts -/

/-- What stands under the names is read by itself before the names decide what becomes of it. -/
theorem Fronts.listed {names : List String} {ls : List (List String × String)}
    (fronts : Fronts names ls)
    (h : ∀ k ∈ names, ∃ v u, Spelled (under k ls) v ∧ Bracket.listed (built (under k ls)) = .ok u) :
    ∃ us : Fields, (keys us).Perm names ∧
      (∀ k ∈ names, ∃ u, find? us k = some u ∧ Bracket.listed (built (under k ls)) = .ok u) ∧
      Bracket.listed (built ls) =
        if isIndexed us then (inIndexOrder us).map .list else .ok (.object us) := by
  have hkeys := fronts.keys_perm
  have hnodup : (keys (insertAll ls [])).Nodup := hkeys.nodup_iff.2 fronts.distinct
  have hfind : ∀ k ∈ names, find? (insertAll ls []) k = some (built (under k ls)) := by
    intro k hk
    obtain ⟨v, u, hspelled, -⟩ := h k hk
    exact find?_insertAll fronts.begins (fronts.some_under k hk) hspelled
  have hread : ∀ k ∈ names,
      Bracket.listed (built (under k ls)) = .ok (asListed (built (under k ls))) := by
    intro k hk
    obtain ⟨v, u, -, hu⟩ := h k hk
    rw [asListed, hu]
  have hentries : ∀ e ∈ insertAll ls [], Bracket.listed e.2 = .ok (asListed e.2) := by
    rintro ⟨k, w⟩ he
    have hk : k ∈ names := hkeys.mem_iff.1 (List.mem_map.2 ⟨_, he, rfl⟩)
    have hw := (find?_eq_some_iff (fun k _ => exact_of_lawful k) hnodup k w).2 he
    rw [hfind k hk] at hw
    cases hw
    exact hread k hk
  have hmap := keys_map_values (insertAll ls []) fun _ => asListed
  refine ⟨(insertAll ls []).map fun e => (e.1, asListed e.2), ?_, ?_, ?_⟩
  · rwa [hmap]
  · intro k hk
    refine ⟨asListed (built (under k ls)), ?_, hread k hk⟩
    rw [find?_map_values _ fun _ => asListed, hfind k hk]
    rfl
  · rw [built_of_begins fronts.begins, listed_object hentries, isIndexed_eq_of_perm (.of_eq hmap)]

theorem isIndexed_of_decimal {us : Fields} {n : Nat} (hn : n ≠ 0)
    (h : (keys us).Perm ((List.range n).map Text.decimal)) : isIndexed us = true := by
  rw [isIndexed, Bool.and_eq_true]
  constructor
  · cases us with
    | nil => simpa [keys, hn] using h.nil_eq
    | cons e r => rfl
  · rw [List.all_eq_true]
    intro e he
    have hk := h.mem_iff.1 (List.mem_map.2 ⟨e, he, rfl⟩)
    obtain ⟨i, -, hi⟩ := List.mem_map.1 hk
    show Text.isIndexText e.1 = true
    rw [← hi]
    exact isIndexText_decimal i

/-- What the texts of a value build is read as the value. -/
theorem Spelled.listed {ls : List (List String × String)} {v : Value} (h : Spelled ls v) :
    ∃ u, Bracket.listed (built ls) = .ok u ∧ Reordered u v := by
  induction h with
  | text s => exact ⟨.text s, rfl, .same _⟩
  | @object ls fs fronts unlisted inner ih =>
    obtain ⟨us, hkeys, hfind, hlisted⟩ := fronts.listed (by
      intro k hk
      obtain ⟨v, hv⟩ := (exact_of_lawful k).exists_find? hk
      obtain ⟨u, hu, -⟩ := ih k v hv
      exact ⟨v, u, inner k v hv, hu⟩)
    rw [isIndexed_eq_of_perm hkeys, unlisted] at hlisted
    refine ⟨_, hlisted, .object hkeys ?_⟩
    intro k u v hu hv
    have hk : k ∈ keys fs := (exact_of_lawful k).mem_keys_of_find? hv
    obtain ⟨u₁, hu₁, hread₁⟩ := hfind k hk
    obtain ⟨u₂, hread₂, hreordered⟩ := ih k v hv
    rw [hu] at hu₁
    rw [hread₁] at hread₂
    cases hu₁
    cases hread₂
    exact hreordered
  | @list ls vs fronts ne_nil short inner ih =>
    have hget : ∀ i ∈ List.range vs.length, ∃ v, vs[i]? = some v := fun i hi =>
      ⟨_, List.getElem?_eq_getElem (List.mem_range.1 hi)⟩
    obtain ⟨us, hkeys, hfind, hlisted⟩ := fronts.listed (by
      intro k hk
      obtain ⟨i, hi, rfl⟩ := List.mem_map.1 hk
      obtain ⟨v, hv⟩ := hget i hi
      obtain ⟨u, hu, -⟩ := ih i v hv
      exact ⟨v, u, inner i v hv, hu⟩)
    have hlength : vs.length ≠ 0 := by simpa using ne_nil
    rw [isIndexed_of_decimal hlength hkeys, inIndexOrder_eq short hkeys] at hlisted
    refine ⟨_, hlisted, .list (by simp) ?_⟩
    intro i u v hu hv
    have hi : i ∈ List.range vs.length := by
      rw [List.mem_range]
      exact (List.getElem?_eq_some_iff.1 hv).1
    obtain ⟨u₁, hu₁, hread₁⟩ := hfind _ (List.mem_map.2 ⟨i, hi, rfl⟩)
    obtain ⟨u₂, hread₂, hreordered⟩ := ih i v hv
    rw [List.getElem?_map, List.getElem?_range (List.mem_range.1 hi)] at hu
    simp only [Option.map_some, hu₁, Option.getD_some, Option.some.injEq] at hu
    rw [hread₁] at hread₂
    cases hread₂
    rwa [← hu]

end Bracket

end RowAccess
