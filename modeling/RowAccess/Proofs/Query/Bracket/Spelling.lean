import RowAccess.Proofs.Query.Bracket.Nest

/-
  RowAccess/Proofs/Query/Bracket/Spelling.lean
  ============================================
  **The parameters of a value spell it.**  Under the name of a field stand the texts of its value
  and nothing else, and under an index those of an entry.  So a value whose names stand for
  themselves is spelled by its texts (`Bracket.IsPrintable.spelled`); a list of texts that is
  written between commas counts as one text.
-/

namespace RowAccess.Bracket

open Keyed

/-! ## The texts of a value -/

mutual

/-- A longer path goes in front of every path. -/
theorem leaves_cons (joined : Bool) (k : String) (path : List String) (v : Value) :
    leaves joined (k :: path) v = (leaves joined path v).map fun l => (k :: l.1, l.2) := by
  cases v with
  | text s => rfl
  | object fs => exact fieldLeaves_cons joined k path fs
  | list vs =>
    unfold leaves
    split
    · rfl
    · exact entryLeaves_cons _ k path 0 vs
  | _ => rfl

theorem fieldLeaves_cons (joined : Bool) (k : String) (path : List String)
    (fs : List (String × Value)) : fieldLeaves joined (k :: path) fs =
      (fieldLeaves joined path fs).map fun l => (k :: l.1, l.2) := by
  cases fs with
  | nil => rfl
  | cons e r =>
    obtain ⟨name, v⟩ := e
    rw [fieldLeaves, fieldLeaves, List.map_append, ← fieldLeaves_cons joined k path r]
    rw [List.cons_append, leaves_cons joined k (path ++ [name]) v]

theorem entryLeaves_cons (joined : Bool) (k : String) (path : List String) (i : Nat)
    (vs : List Value) : entryLeaves joined (k :: path) i vs =
      (entryLeaves joined path i vs).map fun l => (k :: l.1, l.2) := by
  cases vs with
  | nil => rfl
  | cons v r =>
    rw [entryLeaves, entryLeaves, List.map_append, ← entryLeaves_cons joined k path (i + 1) r]
    rw [List.cons_append, leaves_cons joined k (path ++ [Text.decimal i]) v]

end

theorem under_append (k : String) (ls ls' : List (List String × String)) :
    under k (ls ++ ls') = under k ls ++ under k ls' :=
  List.filterMap_append

theorem under_map_cons (k name : String) (ls : List (List String × String)) :
    under k (ls.map fun l => (name :: l.1, l.2)) = if name = k then ls else [] := by
  induction ls with
  | nil => simp [under]
  | cons l ls ih =>
    rw [List.map_cons, under_cons, ih]
    by_cases h : name = k
    · simp [h]
    · simp [h]

/-- Under the name of a field are the texts of its value. -/
theorem under_fieldLeaves {joined : Bool} {fs : Fields} (h : (keys fs).Nodup) (k : String) :
    under k (fieldLeaves joined [] fs) = ((find? fs k).map (leaves joined [])).getD [] := by
  induction fs with
  | nil => rfl
  | cons e r ih =>
    obtain ⟨name, v⟩ := e
    rw [keys, List.map_cons, List.nodup_cons] at h
    rw [fieldLeaves, List.nil_append, leaves_cons, under_append, under_map_cons, ih h.2, find?]
    by_cases hk : name = k
    · subst hk
      have hnone : find? r name = none := ((exact_of_lawful name).find?_eq_none_iff r).2 h.1
      simp [hnone]
    · simp [hk]

theorem entryLeaves_eq (joined : Bool) (path : List String) (i : Nat) (vs : List Value) :
    entryLeaves joined path i vs = fieldLeaves joined path (numbered i vs) := by
  induction vs generalizing i with
  | nil => rfl
  | cons v vs ih => rw [entryLeaves, numbered, fieldLeaves, ih]

/-- The texts of fields stand under the names of the fields. -/
theorem fronts_fieldLeaves {joined : Bool} {fs : Fields} (hdistinct : (keys fs).Nodup)
    (hnames : ∀ k ∈ keys fs, IsSegment k) (h : ∀ e ∈ fs, leaves joined [] e.2 ≠ []) :
    Fronts (keys fs) (fieldLeaves joined [] fs) := by
  constructor
  · exact hdistinct
  · exact hnames
  · clear h hdistinct hnames
    induction fs with
    | nil =>
      intro l hl
      cases hl
    | cons e r ih =>
      obtain ⟨name, v⟩ := e
      intro l hl
      rw [fieldLeaves, List.nil_append, leaves_cons] at hl
      rcases List.mem_append.1 hl with hl | hl
      · obtain ⟨l', -, rfl⟩ := List.mem_map.1 hl
        exact ⟨name, l'.1, rfl, List.mem_cons_self⟩
      · obtain ⟨name', rest, hpath, hmem⟩ := ih l hl
        exact ⟨name', rest, hpath, List.mem_cons_of_mem _ hmem⟩
  · intro k hk
    obtain ⟨v, hv⟩ := (exact_of_lawful k).exists_find? hk
    rw [under_fieldLeaves hdistinct, hv]
    exact h _ ((exact_of_lawful k).mem_of_find? hv)

/-! ## Values that are spelled -/

theorem textsOf?_map_text (ss : List String) : textsOf? (ss.map .text) = some ss := by
  induction ss with
  | nil => rfl
  | cons s ss ih =>
    rw [textsOf?, List.map_cons, List.mapM_cons, ← textsOf?, ih]
    rfl

theorem textsOf?_of_not_text {v : Value} (hv : v.text? = none) (vs : List Value) :
    textsOf? (v :: vs) = none := by
  rw [textsOf?, List.mapM_cons, hv]
  rfl

mutual

/-- The value that the texts spell: with `joined` a list of texts is one text. -/
def packed (joined : Bool) : Value → Value
  | .object fs => .object (packedFields joined fs)
  | .list vs =>
    match joined, textsOf? vs with
    | true, some ss => .text (",".intercalate ss)
    | _, _ => .list (packedEntries joined vs)
  | v => v

def packedFields (joined : Bool) : List (String × Value) → List (String × Value)
  | [] => []
  | (k, v) :: r => (k, packed joined v) :: packedFields joined r

def packedEntries (joined : Bool) : List Value → List Value
  | [] => []
  | v :: r => packed joined v :: packedEntries joined r

end

theorem packedFields_eq_map (joined : Bool) (fs : Fields) :
    packedFields joined fs = fs.map fun e => (e.1, packed joined e.2) := by
  induction fs with
  | nil => rfl
  | cons e r ih => rw [packedFields, ih, List.map_cons]

theorem packedEntries_eq_map (joined : Bool) (vs : List Value) :
    packedEntries joined vs = vs.map (packed joined) := by
  induction vs with
  | nil => rfl
  | cons v r ih => rw [packedEntries, ih, List.map_cons]

theorem list_texts_or_entries (joined : Bool) (vs : List Value) :
    (∃ ss, leaves joined [] (.list vs) = [([], ",".intercalate ss)] ∧
      packed joined (.list vs) = .text (",".intercalate ss)) ∨
    (leaves joined [] (.list vs) = entryLeaves joined [] 0 vs ∧
      packed joined (.list vs) = .list (packedEntries joined vs)) := by
  unfold leaves packed
  cases joined with
  | false => exact .inr ⟨rfl, rfl⟩
  | true =>
    cases htexts : textsOf? vs with
    | none => exact .inr ⟨rfl, rfl⟩
    | some ss => exact .inl ⟨ss, rfl, rfl⟩

/-- A value of texts whose names stand for themselves, with something in every list and object, and
no list longer than the indices that can be read. -/
inductive IsPrintable (joined : Bool) : Value → Prop
  | text (s : String) : IsPrintable joined (.text s)
  | texts (isJoined : joined = true) (ss : List String) : IsPrintable joined (.list (ss.map .text))
  | object {fs : Fields} (ne_nil : fs ≠ []) (distinct : (keys fs).Nodup)
    (segments : ∀ k ∈ keys fs, IsSegment k) (unlisted : isIndexed fs = false)
    (inner : ∀ e ∈ fs, IsPrintable joined e.2) : IsPrintable joined (.object fs)
  | list {vs : List Value} (ne_nil : vs ≠ []) (short : vs.length ≤ 10 ^ Number.digitLimit)
    (inner : ∀ v ∈ vs, IsPrintable joined v) : IsPrintable joined (.list vs)

/-- Fields are spelled when their values are. -/
theorem spelled_fieldLeaves {joined : Bool} {fs : Fields} (hdistinct : (keys fs).Nodup)
    (hnames : ∀ k ∈ keys fs, IsSegment k) (hunlisted : isIndexed fs = false)
    (h : ∀ e ∈ fs, leaves joined [] e.2 ≠ [] ∧
      Spelled (leaves joined [] e.2) (packed joined e.2)) :
    Spelled (fieldLeaves joined [] fs) (.object (packedFields joined fs)) := by
  have hfronts := fronts_fieldLeaves hdistinct hnames fun e he => (h e he).1
  have hkeys := keys_map_values fs fun _ => packed joined
  rw [packedFields_eq_map]
  refine .object ?_ ?_ ?_
  · rwa [hkeys]
  · rw [← hunlisted]
    exact isIndexed_eq_of_perm (.of_eq hkeys)
  · intro k w hw
    rw [find?_map_values fs fun _ => packed joined] at hw
    obtain ⟨v, hv, rfl⟩ := Option.map_eq_some_iff.1 hw
    rw [under_fieldLeaves hdistinct, hv]
    exact (h _ ((exact_of_lawful k).mem_of_find? hv)).2

theorem spelled_entryLeaves {joined : Bool} {vs : List Value} (hne : vs ≠ [])
    (hshort : vs.length ≤ 10 ^ Number.digitLimit)
    (h : ∀ v ∈ vs, leaves joined [] v ≠ [] ∧ Spelled (leaves joined [] v) (packed joined v)) :
    Spelled (entryLeaves joined [] 0 vs) (.list (packedEntries joined vs)) := by
  have hdistinct := nodup_keys_numbered 0 vs
  have hfronts : Fronts (keys (numbered 0 vs)) (fieldLeaves joined [] (numbered 0 vs)) :=
    fronts_fieldLeaves hdistinct (isSegment_of_mem_numbered 0 vs)
      fun e he => (h e.2 (mem_of_mem_numbered he)).1
  rw [entryLeaves_eq, packedEntries_eq_map]
  refine .list ?_ ?_ ?_ ?_
  · rwa [List.length_map, ← keys_numbered_zero]
  · simpa using hne
  · rwa [List.length_map]
  · intro i w hw
    rw [List.getElem?_map] at hw
    obtain ⟨v, hv, rfl⟩ := Option.map_eq_some_iff.1 hw
    have hfind := find?_numbered 0 i vs
    rw [Nat.zero_add] at hfind
    rw [under_fieldLeaves hdistinct, hfind, hv]
    exact (h v (List.mem_of_getElem? hv)).2

theorem packed_texts (ss : List String) :
    packed true (.list (ss.map .text)) = .text (",".intercalate ss) := by
  simp only [packed, textsOf?_map_text]

theorem IsPrintable.spelled {joined : Bool} {v : Value} (h : IsPrintable joined v) :
    leaves joined [] v ≠ [] ∧ Spelled (leaves joined [] v) (packed joined v) := by
  induction h with
  | text s => exact ⟨List.cons_ne_nil _ _, .text s⟩
  | texts isJoined ss =>
    subst isJoined
    simp only [packed_texts, leaves, textsOf?_map_text]
    exact ⟨List.cons_ne_nil _ _, .text _⟩
  | object ne_nil distinct segments unlisted _ ih =>
    have hspelled := spelled_fieldLeaves distinct segments unlisted ih
    refine ⟨hspelled.ne_nil ?_, hspelled⟩
    simpa [packedFields_eq_map] using ne_nil
  | @list vs ne_nil short _ ih =>
    rcases list_texts_or_entries joined vs with ⟨ss, hleaves, hpacked⟩ | ⟨hleaves, hpacked⟩
    · rw [hleaves, hpacked]
      exact ⟨List.cons_ne_nil _ _, .text _⟩
    · have hspelled := spelled_entryLeaves ne_nil short ih
      rw [hleaves, hpacked]
      exact ⟨hspelled.ne_nil (by simp), hspelled⟩

end RowAccess.Bracket
