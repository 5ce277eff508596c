import RowAccess.Proofs.Query.Bracket.Listing
import RowAccess.Proofs.Query.Bracket.Spelling

/-
  RowAccess/Proofs/Query/Bracket/InOrder.lean
  ===========================================
  **Parameters in the order of a value give back the value itself.**  The texts of one field come
  together, so a whole field is built before the next one begins, and every name goes to the end of
  its object.  Thus nothing of the order of the names is lost, and what the texts of a value build
  is read as that value (`Bracket.IsPrintable.listed_leaves`).
-/

namespace RowAccess.Bracket

open Keyed

/-! ## One field after another -/

/-- The texts behind one name build what stands under it. -/
theorem insertAll_map_cons {k : String} (hk : k ≠ "") {ls : List (List String × String)}
    (hne : ls ≠ []) (hon : ∀ l ∈ ls, l.1 ≠ []) (fields : Fields) :
    insertAll (ls.map fun l => (k :: l.1, l.2)) fields =
      put fields k (.object (insertAll ls (fieldsUnder fields k))) := by
  induction ls generalizing fields with
  | nil => exact absurd rfl hne
  | cons l ls ih =>
    obtain ⟨path, s⟩ := l
    have hpath : path ≠ [] := hon _ List.mem_cons_self
    rw [List.map_cons, insertAll_cons hk, if_neg hpath]
    cases ls with
    | nil => rfl
    | cons l' ls =>
      -- The name is there from the first text on; each later one replaces what stands under it.
      rw [ih (List.cons_ne_nil _ _) fun m hm => hon m (List.mem_cons_of_mem _ hm), put_put]
      simp [fieldsUnder, insertAll]

/-- A new name with its texts goes to the end. -/
theorem insertAll_map_cons_of_not_mem {k : String} (hk : k ≠ "")
    {ls : List (List String × String)} {v : Value} (hne : ls ≠ []) (hls : Spelled ls v)
    {fields : Fields} (hnew : k ∉ keys fields) :
    insertAll (ls.map fun l => (k :: l.1, l.2)) fields = fields ++ [(k, built ls)] := by
  have hexact := exact_of_lawful k
  rw [← hexact.put_of_not_mem hnew]
  rcases hls.text_or_begins with ⟨s, rfl⟩ | hbegins
  · rw [List.map_cons, List.map_nil, insertAll_cons hk, if_pos rfl]
    rfl
  · have hon : ∀ l ∈ ls, l.1 ≠ [] := by
      intro l hl
      obtain ⟨name, rest, hpath, -⟩ := hbegins l hl
      rw [hpath]
      exact List.cons_ne_nil _ _
    have hnone : fieldsUnder fields k = [] := by
      rw [fieldsUnder, (hexact.find?_eq_none_iff fields).2 hnew]
    rw [insertAll_map_cons hk hne hon, hnone, built_of_begins hbegins]

theorem insertAll_fieldLeaves {joined : Bool} {fs done : Fields}
    (hdistinct : (keys (done ++ fs)).Nodup) (hnames : ∀ k ∈ keys fs, IsSegment k)
    (h : ∀ e ∈ fs, IsPrintable joined e.2) :
    insertAll (fieldLeaves joined [] fs) done =
      done ++ fs.map fun e => (e.1, built (leaves joined [] e.2)) := by
  -- The fields that are done grow by one field a step, so the induction is over all of them.
  induction fs generalizing done with
  | nil => simp [fieldLeaves, insertAll]
  | cons e r ih =>
    obtain ⟨name, v⟩ := e
    obtain ⟨hne, hspelled⟩ := (h (name, v) List.mem_cons_self).spelled
    have hname := (hnames name List.mem_cons_self).ne_empty
    have hnew : name ∉ keys done := by
      intro hmem
      rw [keys, List.map_append, List.nodup_append] at hdistinct
      exact hdistinct.2.2 name hmem name List.mem_cons_self rfl
    rw [fieldLeaves, List.nil_append, leaves_cons, insertAll, List.foldl_append]
    have hfirst := insertAll_map_cons_of_not_mem hname hne hspelled hnew
    rw [insertAll] at hfirst
    rw [hfirst, ← insertAll, ih]
    · simp
    · simpa [keys] using hdistinct
    · exact fun k hk => hnames k (List.mem_cons_of_mem _ hk)
    · exact fun e he => h e (List.mem_cons_of_mem _ he)

theorem built_fieldLeaves {joined : Bool} {fs : Fields} (hdistinct : (keys fs).Nodup)
    (hnames : ∀ k ∈ keys fs, IsSegment k) (h : ∀ e ∈ fs, IsPrintable joined e.2) :
    built (fieldLeaves joined [] fs) =
      .object (fs.map fun e => (e.1, built (leaves joined [] e.2))) := by
  have hfronts := fronts_fieldLeaves hdistinct hnames fun e he => (h e he).spelled.1
  have hnone : (keys ([] ++ fs)).Nodup := hdistinct
  rw [built_of_begins hfronts.begins, insertAll_fieldLeaves hnone hnames h, List.nil_append]

/-! ## Values in their order -/

/-- Fields whose values are read again are read in their order. -/
theorem listed_fieldLeaves {fs : Fields} (hdistinct : (keys fs).Nodup)
    (hnames : ∀ k ∈ keys fs, IsSegment k) (h : ∀ e ∈ fs, IsPrintable false e.2)
    (hread : ∀ e ∈ fs, listed (built (leaves false [] e.2)) = .ok e.2) :
    listed (built (fieldLeaves false [] fs)) =
      if isIndexed fs then (inIndexOrder fs).map .list else .ok (.object fs) := by
  let build : String → Value → Value := fun _ v => built (leaves false [] v)
  have hkeys : keys (fs.map fun e => (e.1, build e.1 e.2)) = keys fs := keys_map_values fs build
  have hlisted : ∀ e ∈ fs, asListed (build e.1 e.2) = e.2 := by
    intro e he
    rw [asListed, hread e he]
  have hback : (fs.map fun e => (e.1, build e.1 e.2)).map (fun e => (e.1, asListed e.2)) = fs := by
    rw [List.map_map]
    refine (List.map_congr_left ?_).trans (List.map_id fs)
    intro e he
    exact congrArg (Prod.mk e.1) (hlisted e he)
  rw [built_fieldLeaves hdistinct hnames h]
  show listed (.object (fs.map fun e => (e.1, build e.1 e.2))) = _
  rw [listed_object, hback, isIndexed_eq_of_perm (.of_eq hkeys)]
  intro e he
  obtain ⟨e', he', rfl⟩ := List.mem_map.1 he
  exact (hread e' he').trans (congrArg _ (hlisted e' he').symm)

/-- What the texts of a printable value build is read as the value, the order of its names
included. -/
theorem IsPrintable.listed_leaves {v : Value} (h : IsPrintable false v) :
    listed (built (leaves false [] v)) = .ok v := by
  induction h with
  | text s => rfl
  | texts isJoined ss => cases isJoined
  | object ne_nil distinct segments unlisted inner ih =>
    rw [leaves, listed_fieldLeaves distinct segments inner ih, unlisted]
    rfl
  | @list vs ne_nil short inner ih =>
    have hindexed : isIndexed (numbered 0 vs) = true :=
      isIndexed_of_decimal (by simpa using ne_nil) (.of_eq (keys_numbered_zero vs))
    have hleaves : leaves false [] (.list vs) = fieldLeaves false [] (numbered 0 vs) :=
      entryLeaves_eq false [] 0 vs
    have hlisted := listed_fieldLeaves (nodup_keys_numbered 0 vs) (isSegment_of_mem_numbered 0 vs)
      (fun e he => inner _ (mem_of_mem_numbered he)) fun e he => ih _ (mem_of_mem_numbered he)
    rw [hleaves, hlisted, hindexed, inIndexOrder_numbered short]
    rfl

end RowAccess.Bracket
