import RowAccess.Proofs.Query.Bracket.Spelling

/-
  RowAccess/Proofs/Query/Bracket/Canonical.lean
  =============================================
  **Queries that a query string can hold.**  A canonical query has under each key what the key asks
  for: texts, lists of texts that commas can part, and records of these under the names of a clause
  or an order.  No such name holds a bracket or is an index, so the parameters of the query spell it
  (`Bracket.IsCanonical.spelled`).
-/

namespace RowAccess.Bracket

open Keyed

/-! ## Canonical queries -/

inductive IsTextList : Value → Prop
  | intro (ss : List String) (ne_nil : ss ≠ [])
    (parted : ∀ s ∈ ss, ',' ∉ s.toList ∧ Text.trim s.toList = s.toList) :
    IsTextList (.list (ss.map .text))

/-- Is it a list of texts under the name of a value list, and a text under every other? -/
def IsField (e : String × Value) : Prop :=
  if e.1 = ClauseField.values.name then IsTextList e.2 else ∃ s, e.2 = .text s

structure IsRecord (names : List String) (fs : Fields) : Prop where
  names : (keys fs).Perm names
  fields : ∀ e ∈ fs, IsField e

/-- The names in a record that compares a column with one value, or with one value by a comparator
of its own, or with a list of values. -/
def clauseNames : List (List String) :=
  [[ClauseField.column.name, ClauseField.value.name],
    [ClauseField.column.name, ClauseField.comparator.name, ClauseField.value.name],
    [ClauseField.column.name, ClauseField.values.name]]

def orderNames : List (List String) :=
  [[orderColumnName, orderDirectionName]]

inductive IsRecordValue (choices : List (List String)) : Value → Prop
  | intro (names : List String) {fs : Fields} (choice : names ∈ choices)
    (record : IsRecord names fs) : IsRecordValue choices (.object fs)

/-- A list of records, no longer than the indices that can be read. -/
inductive IsRecordList (choices : List (List String)) : Value → Prop
  | intro {vs : List Value} (ne_nil : vs ≠ []) (short : vs.length ≤ 10 ^ Number.digitLimit)
    (records : ∀ v ∈ vs, IsRecordValue choices v) : IsRecordList choices (.list vs)

def IsCanonicalValue : Key → Value → Prop
  | .select, v => IsTextList v
  | .starter _, v => IsRecordValue clauseNames v
  | .andWhere, v | .orWhere, v | .orWhereIn, v =>
    IsRecordValue clauseNames v ∨ IsRecordList clauseNames v
  | .order, v => IsRecordList orderNames v
  | .limit, v | .aggregate _, v => ∃ s, v = .text s

/-- A query in its record form whose leaves are texts. -/
structure IsCanonical (query : Fields) : Prop where
  distinct : (keys query).Nodup
  values : ∀ e ∈ query, ∃ key : Key, e.1 = key.name ∧ IsCanonicalValue key e.2

/-! ## Canonical queries are spelled by their parameters -/

/-- Does the text stand for itself in a path, and for no index? -/
def isOwnName (s : String) : Bool :=
  !s.isEmpty && s.toList.all (fun c => !isBracket c) && !Text.isIndexText s

theorem isSegment_of_isOwnName {s : String} (h : isOwnName s = true) : IsSegment s := by
  simp only [isOwnName, Bool.and_eq_true, List.all_eq_true, Bool.not_eq_true'] at h
  obtain ⟨⟨hempty, hplain⟩, -⟩ := h
  constructor
  · rintro rfl
    cases hempty
  · exact hplain

theorem isIndexed_of_isOwnName {fs : Fields} (h : ∀ k ∈ keys fs, isOwnName k = true) :
    isIndexed fs = false := by
  cases fs with
  | nil => rfl
  | cons e r =>
    have hname : isOwnName e.1 = true := h e.1 List.mem_cons_self
    simp only [isOwnName, Bool.and_eq_true, Bool.not_eq_true'] at hname
    simp [isIndexed, hname.2]

/-- An object is printable when its names stand for themselves and for no index. -/
theorem IsPrintable.object_of_isOwnName {joined : Bool} {fs : Fields} (ne_nil : fs ≠ [])
    (distinct : (keys fs).Nodup) (hown : ∀ k ∈ keys fs, isOwnName k = true)
    (inner : ∀ e ∈ fs, IsPrintable joined e.2) : IsPrintable joined (.object fs) := by
  have hsegments : ∀ k ∈ keys fs, IsSegment k := fun k hk => isSegment_of_isOwnName (hown k hk)
  exact .object ne_nil distinct hsegments (isIndexed_of_isOwnName hown) inner

theorem isOwnName_key (key : Key) : isOwnName key.name = true := by
  have hall : ∀ key ∈ Key.all, isOwnName key.name = true := by decide
  exact hall key (Key.mem_all key)

def recordNames : List (List String) :=
  clauseNames ++ orderNames

theorem isOwnName_recordNames : ∀ names ∈ recordNames, ∀ k ∈ names, isOwnName k = true := by decide

theorem nodup_recordNames : ∀ names ∈ recordNames, names.Nodup := by decide

theorem two_le_recordNames : ∀ names ∈ recordNames, 2 ≤ names.length := by decide

theorem IsRecord.values {names : List String} {fs : Fields} (h : IsRecord names fs) {v : Value}
    (hv : find? fs ClauseField.values.name = some v) : IsTextList v := by
  have hfield := h.fields _ ((exact_of_lawful _).mem_of_find? hv)
  rwa [IsField, if_pos rfl] at hfield

theorem IsRecord.text {names : List String} {fs : Fields} (h : IsRecord names fs) {k : String}
    {v : Value} (hv : find? fs k = some v) (hk : k ≠ ClauseField.values.name) :
    ∃ s, v = .text s := by
  have hfield := h.fields _ ((exact_of_lawful k).mem_of_find? hv)
  rwa [IsField, if_neg hk] at hfield

theorem IsTextList.isPrintable {v : Value} (h : IsTextList v) : IsPrintable true v := by
  obtain ⟨ss, -, -⟩ := h
  exact .texts rfl ss

section Record

variable {choices : List (List String)} (hchoices : ∀ names ∈ choices, names ∈ recordNames)

include hchoices

theorem IsRecordValue.isPrintable {v : Value} (h : IsRecordValue choices v) :
    IsPrintable true v := by
  obtain ⟨names, choice, record⟩ := h
  next fs =>
  have hmem := hchoices names choice
  have hown : ∀ k ∈ keys fs, isOwnName k = true := fun k hk =>
    isOwnName_recordNames names hmem k (record.names.mem_iff.1 hk)
  have hdistinct : (keys fs).Nodup := record.names.nodup_iff.2 (nodup_recordNames names hmem)
  refine .object_of_isOwnName ?_ hdistinct hown ?_
  · rintro rfl
    have hlength := two_le_recordNames names hmem
    rw [← record.names.length_eq] at hlength
    exact absurd hlength (by decide)
  · rintro ⟨k, v⟩ he
    have hfield := record.fields _ he
    rw [IsField] at hfield
    split at hfield
    next => exact hfield.isPrintable
    next =>
      obtain ⟨s, rfl⟩ := hfield
      exact .text s

theorem IsRecordList.isPrintable {v : Value} (h : IsRecordList choices v) :
    IsPrintable true v := by
  obtain ⟨ne_nil, short, records⟩ := h
  exact .list ne_nil short fun v hv => (records v hv).isPrintable hchoices

end Record

theorem clauseNames_subset : ∀ names ∈ clauseNames, names ∈ recordNames := by decide

theorem orderNames_subset : ∀ names ∈ orderNames, names ∈ recordNames := by decide

theorem IsCanonicalValue.isPrintable {key : Key} {v : Value} (h : IsCanonicalValue key v) :
    IsPrintable true v := by
  cases key with
  | select => exact IsTextList.isPrintable h
  | starter kind => exact IsRecordValue.isPrintable clauseNames_subset h
  | order => exact IsRecordList.isPrintable orderNames_subset h
  | andWhere | orWhere | orWhereIn =>
    rcases h with h | h
    · exact h.isPrintable clauseNames_subset
    · exact h.isPrintable clauseNames_subset
  | limit | aggregate f =>
    obtain ⟨s, rfl⟩ := h
    exact .text s

theorem IsCanonical.spelled {query : Fields} (h : IsCanonical query) :
    Spelled (fieldLeaves true [] query) (.object (packedFields true query)) := by
  have hown : ∀ k ∈ keys query, isOwnName k = true := by
    intro k hk
    obtain ⟨e, he, rfl⟩ := List.mem_map.1 hk
    obtain ⟨key, hname, -⟩ := h.values e he
    rw [hname]
    exact isOwnName_key key
  refine spelled_fieldLeaves h.distinct ?_ (isIndexed_of_isOwnName hown) ?_
  · exact fun k hk => isSegment_of_isOwnName (hown k hk)
  · intro e he
    obtain ⟨key, -, hvalue⟩ := h.values e he
    exact hvalue.isPrintable.spelled

end RowAccess.Bracket
