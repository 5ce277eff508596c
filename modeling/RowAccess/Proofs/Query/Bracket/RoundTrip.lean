import RowAccess.Proofs.Query.Bracket.Canonical
import RowAccess.Proofs.Query.Bracket.Listing

/-
  RowAccess/Proofs/Query/Bracket/RoundTrip.lean
  =============================================
  **A query comes back from its query string.**  Its parameters may come in any order: what they
  build is the query with every value list as one text.  No full record is taken for a short form,
  and the long form of a record cuts its value list again, so the canonical query is what is read
  (`Bracket.parse_queryString`).
-/

namespace RowAccess.Bracket

open Keyed
open Value (Reordered)

/-! ## Short forms do not touch a full record -/

theorem IsTextList.splitValues_packed {v : Value} (h : IsTextList v) :
    ∃ s, packed true v = .text s ∧ splitValues (.text s) = v := by
  obtain ⟨ss, ne_nil, parted⟩ := h
  refine ⟨_, packed_texts ss, ?_⟩
  have hlist : (",".intercalate ss).toList = [','].intercalate (ss.map String.toList) := by
    rw [String.toList_intercalate]
    rfl
  have hcut : Text.cut ',' (",".intercalate ss).toList = ss.map String.toList := by
    rw [hlist]
    refine Text.cut_intercalate (by simpa using ne_nil) ?_
    intro piece hpiece
    obtain ⟨s, hs, rfl⟩ := List.mem_map.1 hpiece
    exact (parted s hs).1
  rw [splitValues, hcut, List.map_map]
  refine congrArg Value.list (List.map_congr_left ?_)
  intro s hs
  simp [(parted s hs).2]

theorem keys_splitRecord (fs : Fields) : keys (splitRecord fs) = keys fs := by
  unfold splitRecord
  split
  next v hv =>
    have hexact := exact_of_lawful ClauseField.values.name
    exact hexact.keys_put_of_mem (hexact.mem_keys_of_find? hv) _
  next => rfl

theorem find?_splitRecord_values (fs : Fields) :
    find? (splitRecord fs) ClauseField.values.name =
      (find? fs ClauseField.values.name).map splitValues := by
  unfold splitRecord
  split
  next v hv => rw [find?_put_self, hv, Option.map_some]
  next hnone => rw [hnone, Option.map_none]

theorem find?_splitRecord_of_ne {fs : Fields} {k : String} (hk : k ≠ ClauseField.values.name) :
    find? (splitRecord fs) k = find? fs k := by
  unfold splitRecord
  split
  next v _ => exact find?_put_of_ne (Ne.symm hk) _
  next => rfl

theorem expandRecord_of_length {fs : Fields} (h : fs.length ≠ 1) (name : String) :
    expandRecord name (.object fs) = .object (splitRecord fs) := by
  match fs with
  | [] => rfl
  | [_] => exact absurd rfl h
  | _ :: _ :: _ => rfl

/-- The long form of a record is the record, with its value list cut again. -/
theorem IsRecordValue.expandRecord_reordered {choices : List (List String)}
    (hchoices : ∀ names ∈ choices, names ∈ recordNames) {v u : Value}
    (h : IsRecordValue choices v) (hu : Reordered u (packed true v)) (name : String) :
    Reordered (expandRecord name u) v := by
  obtain ⟨names, choice, record⟩ := h
  next fs =>
  rw [packed, packedFields_eq_map] at hu
  obtain ⟨gs, rfl, hkeys, hentries⟩ := hu.object_inv
  rw [keys_map_values fs fun _ => packed true] at hkeys
  have hlength : gs.length ≠ 1 := by
    have htwo := two_le_recordNames names (hchoices names choice)
    have heq := (hkeys.trans record.names).length_eq
    rw [keys, List.length_map] at heq
    omega
  rw [expandRecord_of_length hlength]
  refine .object (by rwa [keys_splitRecord]) ?_
  intro k x y hx hy
  have hpacked : find? (fs.map fun e => (e.1, packed true e.2)) k = some (packed true y) := by
    rw [find?_map_values fs fun _ => packed true, hy]
    rfl
  by_cases hk : k = ClauseField.values.name
  · subst hk
    rw [find?_splitRecord_values] at hx
    obtain ⟨w, hw, rfl⟩ := Option.map_eq_some_iff.1 hx
    obtain ⟨s, hs, hsplit⟩ := (record.values hy).splitValues_packed
    have hreordered := hentries _ w _ hw hpacked
    rw [hs] at hreordered
    rw [hreordered.text_inv, hsplit]
    exact .same y
  · rw [find?_splitRecord_of_ne hk] at hx
    obtain ⟨s, rfl⟩ := record.text hy hk
    exact hentries k x _ hx hpacked

/-- The records of a list are brought into their long form one by one. -/
theorem IsRecordList.expandRecord_reordered {choices : List (List String)}
    (hchoices : ∀ names ∈ choices, names ∈ recordNames) {v u : Value}
    (h : IsRecordList choices v) (hu : Reordered u (packed true v)) (name : String) :
    ∃ us, u = .list us ∧ Reordered (.list (us.map (expandRecord name))) v := by
  obtain ⟨ne_nil, short, records⟩ := h
  next vs =>
  have hpacked : packed true (.list vs) = .list (vs.map (packed true)) := by
    have htexts : textsOf? vs = none := by
      obtain ⟨w, ws, rfl⟩ := List.exists_cons_of_ne_nil ne_nil
      obtain ⟨-, -⟩ := records w List.mem_cons_self
      exact textsOf?_of_not_text rfl ws
    simp only [packed, htexts, packedEntries_eq_map]
  rw [hpacked] at hu
  obtain ⟨us, rfl, hlength, hentries⟩ := hu.list_inv
  rw [List.length_map] at hlength
  refine ⟨us, rfl, .list (by rwa [List.length_map]) ?_⟩
  intro i x y hx hy
  rw [List.getElem?_map] at hx
  obtain ⟨w, hw, rfl⟩ := Option.map_eq_some_iff.1 hx
  have hrecord := records y (List.mem_of_getElem? hy)
  refine hrecord.expandRecord_reordered hchoices (hentries i w _ hw ?_) name
  rw [List.getElem?_map, hy]
  rfl

theorem name_ne_select {key : Key} (h : key ≠ .select) : (key.name == Key.select.name) = false :=
  beq_false_of_ne fun heq => h (Key.name_injective heq)

/-- Outside of a selection the entries of a list are expanded, or the value itself. -/
theorem normalizeValue_of_ne {key : Key} (h : key ≠ .select) (v : Value) :
    normalizeValue key.name v =
      match v with
      | .list vs => .list (vs.map (expandRecord key.name))
      | v => expandRecord key.name v := by
  have hname := name_ne_select h
  cases v <;> simp [normalizeValue, hname]

section Normal

variable {key : Key} {v u : Value} (hkey : key ≠ .select) (hu : Reordered u (packed true v))

include hkey hu

theorem IsRecordValue.normalizeValue_reordered {choices : List (List String)}
    (hchoices : ∀ names ∈ choices, names ∈ recordNames) (h : IsRecordValue choices v) :
    Reordered (normalizeValue key.name u) v := by
  have hexpand := h.expandRecord_reordered hchoices hu key.name
  obtain ⟨-, -⟩ := h
  rw [packed] at hu
  obtain ⟨gs, rfl, -⟩ := hu.object_inv
  rw [normalizeValue_of_ne hkey]
  exact hexpand

theorem IsRecordList.normalizeValue_reordered {choices : List (List String)}
    (hchoices : ∀ names ∈ choices, names ∈ recordNames) (h : IsRecordList choices v) :
    Reordered (normalizeValue key.name u) v := by
  obtain ⟨us, rfl, hexpand⟩ := h.expandRecord_reordered hchoices hu key.name
  rw [normalizeValue_of_ne hkey]
  exact hexpand

end Normal

/-- What the parameters of a value build is normalized to the value. -/
theorem IsCanonicalValue.normalizeValue_reordered {key : Key} {v u : Value}
    (h : IsCanonicalValue key v) (hu : Reordered u (packed true v)) :
    Reordered (normalizeValue key.name u) v := by
  cases key with
  | select =>
    obtain ⟨s, hs, hsplit⟩ := IsTextList.splitValues_packed h
    rw [hs] at hu
    simp only [hu.text_inv, normalizeValue, beq_self_eq_true, if_true, hsplit]
    exact .same v
  | starter kind =>
    exact IsRecordValue.normalizeValue_reordered (by simp) hu clauseNames_subset h
  | order => exact IsRecordList.normalizeValue_reordered (by simp) hu orderNames_subset h
  | andWhere | orWhere | orWhereIn =>
    rcases h with h | h
    · exact h.normalizeValue_reordered (by simp) hu clauseNames_subset
    · exact h.normalizeValue_reordered (by simp) hu clauseNames_subset
  | limit | aggregate f =>
    obtain ⟨s, rfl⟩ := h
    simp only [packed] at hu
    rw [hu.text_inv, normalizeValue_of_ne (by simp)]
    exact .same _

/-! ## The round trip -/

/-- The paths of parameters are those that they were named by. -/
theorem keyPath_named {ls : List (List String × String)} {fs : Fields}
    (h : Spelled ls (.object fs)) :
    (named ls).map (fun p => (keyPath p.1, p.2)) = ls := by
  have hsegments := h.segments
  have hbegins := h.begins
  rw [named, List.map_map]
  refine (List.map_congr_left ?_).trans (List.map_id ls)
  rintro ⟨path, s⟩ hl
  obtain ⟨name, rest, hpath, -⟩ := hbegins _ hl
  have hne : path ≠ [] := by
    rw [show path = name :: rest from hpath]
    exact List.cons_ne_nil _ _
  simp only [Function.comp, keyPath_of_segments hne (hsegments _ hl), id]

/-- What the parameters of a canonical query build is read as the query with its value lists as
texts, whatever the order of the parameters. -/
theorem IsCanonical.listed_nest {query : Fields} (h : IsCanonical query)
    {ps : List (String × String)} (hps : ps.Perm (ofQuery query)) :
    ∃ gs, listed (.object (nest ps)) = .ok (.object gs) ∧
      Reordered (.object gs) (.object (packedFields true query)) := by
  have hspelled := h.spelled
  have hperm := hps.map fun p => (keyPath p.1, p.2)
  rw [ofQuery, keyPath_named hspelled] at hperm
  have hspelled' := hspelled.perm hperm.symm
  obtain ⟨u, hu, hreordered⟩ := hspelled'.listed
  rw [built_of_begins hspelled'.begins, ← nest_eq] at hu
  obtain ⟨gs, rfl, -⟩ := hreordered.object_inv
  exact ⟨gs, hu, hreordered⟩

theorem key_ne_filterName (key : Key) : key.name ≠ filterName := by
  have hall : ∀ key ∈ Key.all, key.name ≠ filterName := by decide
  exact hall key (Key.mem_all key)

theorem parse_eq {text : String} {ps : List (String × String)} {fs : Fields}
    (hps : parameters (text.toList.dropWhile (· == '?')) = ps)
    (hlisted : listed (.object (nest ps)) = .ok (.object fs)) (hfilter : filterName ∉ keys fs) :
    parse text = .ok (normalize fs) := by
  have hfind := ((exact_of_lawful filterName).find?_eq_none_iff fs).2 hfilter
  have hdrop : Keyed.drop fs filterName = fs := by
    refine List.filter_eq_self.2 ?_
    rintro ⟨k, v⟩ he
    have hk : k ≠ filterName := by
      rintro rfl
      exact hfilter (List.mem_map.2 ⟨_, he, rfl⟩)
    simpa using hk
  rw [parse, hps, hlisted]
  dsimp only [bind, Except.bind]
  rw [hfind, hdrop]
  rfl

/-- A canonical query comes back from its parameters in any order, with or without a question mark
in front, up to the order of the names in its objects. -/
theorem parse_queryString {query : Fields} (h : IsCanonical query) {ps : List (String × String)}
    (hps : ps.Perm (ofQuery query)) (mark : Bool) :
    ∃ parsed, parse ((if mark then "?" else "") ++ queryString ps) = .ok parsed ∧
      Reordered (.object parsed) (.object query) := by
  obtain ⟨gs, hlisted, hreordered⟩ := h.listed_nest hps
  obtain ⟨gs', heq, hkeys, hentries⟩ := hreordered.object_inv
  cases heq
  rw [packedFields_eq_map, keys_map_values query fun _ => packed true] at hkeys
  have hfilter : filterName ∉ keys gs := by
    intro hmem
    obtain ⟨e, he, hname⟩ := List.mem_map.1 (hkeys.mem_iff.1 hmem)
    obtain ⟨key, hkey, -⟩ := h.values e he
    exact key_ne_filterName key (hkey.symm.trans hname)
  have hparameters : parameters
      (((if mark then "?" else "") ++ queryString ps).toList.dropWhile (· == '?')) = ps := by
    cases mark with
    | false => simp [dropWhile_queryString, parameters_queryString]
    | true => simp [dropWhile_queryString, parameters_queryString]
  refine ⟨normalize gs, parse_eq hparameters hlisted hfilter, .object ?_ ?_⟩
  · rw [normalize]
    exact (List.Perm.of_eq (keys_map_values gs normalizeValue)).trans hkeys
  · intro k x y hx hy
    rw [normalize, find?_map_values gs normalizeValue] at hx
    obtain ⟨u, hu, rfl⟩ := Option.map_eq_some_iff.1 hx
    obtain ⟨key, hkey, hvalue⟩ := h.values _ ((exact_of_lawful k).mem_of_find? hy)
    have hpacked : find? (packedFields true query) k = some (packed true y) := by
      rw [packedFields_eq_map, find?_map_values query fun _ => packed true, hy]
      rfl
    cases hkey
    exact hvalue.normalizeValue_reordered (hentries _ u _ hu hpacked)

/-- A query with a value list, a record alone and records in a list. -/
def mixedQuery : Fields :=
  [("SELECT", .list [.text "ID", .text "NAME"]),
    ("WHERE_IN", .object [("COLUMN", .text "ID"), ("VALUES", .list [.text "1", .text "2"])]),
    ("AND_WHERE", .list [.object [("COLUMN", .text "NAME"), ("VALUE", .text "[a]=b&c%2C")],
      .object [("COLUMN", .text "AGE"), ("COMPARATOR", .text "GT"), ("VALUE", .text "18")]])]

theorem isCanonical_mixedQuery : IsCanonical mixedQuery := by
  have hshort : 2 ≤ 10 ^ Number.digitLimit :=
    Nat.le_trans (by decide) (Nat.pow_le_pow_right (by decide) (by decide : 1 ≤ Number.digitLimit))
  constructor
  · decide
  · intro e he
    simp only [mixedQuery, List.mem_cons, List.not_mem_nil, or_false] at he
    rcases he with rfl | rfl | rfl
    · refine ⟨.select, rfl, ?_⟩
      exact IsTextList.intro ["ID", "NAME"] (by decide) (by decide)
    · refine ⟨.starter .whereIn, rfl, .intro ["COLUMN", "VALUES"] (by decide) ⟨by decide, ?_⟩⟩
      simp only [IsField, ClauseField.name, List.mem_cons, List.not_mem_nil, or_false,
        forall_eq_or_imp, forall_eq]
      exact ⟨⟨_, rfl⟩, IsTextList.intro ["1", "2"] (by decide) (by decide)⟩
    · refine ⟨.andWhere, rfl, .inr (.intro (by simp) hshort ?_)⟩
      simp only [List.mem_cons, List.not_mem_nil, or_false, forall_eq_or_imp, forall_eq]
      constructor
      · refine .intro ["COLUMN", "VALUE"] (by decide) ⟨by decide, ?_⟩
        simp [IsField, ClauseField.name]
      · refine .intro ["COLUMN", "COMPARATOR", "VALUE"] (by decide) ⟨by decide, ?_⟩
        simp [IsField, ClauseField.name]

theorem parse_queryString_mixedQuery :
    IsCanonical mixedQuery ∧ (ofQuery mixedQuery).reverse.Perm (ofQuery mixedQuery) ∧
      ∃ parsed, parse ("?" ++ queryString (ofQuery mixedQuery).reverse) = .ok parsed ∧
        Reordered (.object parsed) (.object mixedQuery) := by
  have hcanonical := isCanonical_mixedQuery
  have hperm := List.reverse_perm (ofQuery mixedQuery)
  exact ⟨hcanonical, hperm, parse_queryString hcanonical hperm true⟩

end RowAccess.Bracket
