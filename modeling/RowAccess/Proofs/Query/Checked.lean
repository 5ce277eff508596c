import RowAccess.Proofs.Query.Record

/-
  RowAccess/Proofs/Query/Checked.lean
  ===================================
  **What a check of records gives, it gives again.**  A check of a record has a value exactly where
  the record names the column and holds what the value holds.  So the record that a check leaves is
  checked with the same result and left as it is, and so is the record form of the result.
-/

namespace RowAccess

theorem ClauseField.name_injective {f g : ClauseField} (h : f.name = g.name) : f = g := by
  cases f <;> cases g <;> first | rfl | exact absurd h (by decide)

namespace Validation

open Keyed Acceptance

variable {place : Location} {record : Fields}

/-! ## Fields -/

theorem field_put_self (record : Fields) (f : ClauseField) (v : Value) :
    field (put record f.name v) f = v := by
  simp [field]

theorem field_put_of_ne {f g : ClauseField} (h : f ≠ g) (record : Fields) (v : Value) :
    field (put record f.name v) g = field record g := by
  rw [field, field, find?_put_of_ne fun hname => h (ClauseField.name_injective hname)]

theorem IsFlat.put {f : ClauseField} {v : Value} (h : IsFlat record)
    (hv : f ≠ .values → IsSingle v) : IsFlat (put record f.name v) := by
  intro g hg
  by_cases hfg : f = g
  · subst hfg
    rw [field_put_self]
    refine hv ?_
    rintro rfl
    simp at hg
  · rw [field_put_of_ne hfg]
    exact h g hg

theorem recordOf_object (place : Location) (h : IsFlat record) :
    recordOf place (.object record) = .ok record := by
  rw [recordOf, nestedField?_eq_none_iff.2 h]

theorem isSingle_text (s : String) : IsSingle (.text s) := by
  simp [IsSingle]

theorem isSingle_of_isName {v : Value} (h : IsName v) : IsSingle v := by
  obtain ⟨s, rfl, -⟩ := h
  exact isSingle_text s

/-- Does the record name the column? -/
structure Names (record : Fields) (column : Value) : Prop where
  named : field record .column = column
  isName : IsName column

theorem columnOf_eq_ok_iff {s : String} :
    columnOf place record = .ok s ↔ Names record (.text s) := by
  have hgiven : columnOf place record = .ok s ↔ givenText? (field record .column) = some s := by
    rw [columnOf, fieldValue_name]
    cases givenText? (field record .column) with
    | some t => simp
    | none => simp [fail]
  rw [hgiven, givenText?_eq_some_iff]
  constructor
  · rintro ⟨hcolumn, hblank⟩
    exact ⟨hcolumn, s, rfl, hblank⟩
  · rintro ⟨hcolumn, t, heq, hblank⟩
    cases heq
    exact ⟨hcolumn, hblank⟩

/-- A check that starts with the column has a value where the record names one. -/
theorem columnOf_bind_eq_ok_iff {α : Type} {f : String → Except Fault α} {a : α} :
    columnOf place record >>= f = .ok a ↔ ∃ s, Names record (.text s) ∧ f s = .ok a := by
  rw [Outcome.bind_eq_ok_iff]
  simp only [columnOf_eq_ok_iff]

/-! ## Comparisons and patterns -/

/-- Does the record hold the value, and is it one? -/
structure Holds (record : Fields) (value : Value) : Prop where
  held : field record .value = value
  present : IsPresent value

theorem columnAndValue_eq_ok_iff {s : String} {v : Value} :
    columnAndValue place record = .ok (s, v) ↔ Names record (.text s) ∧ Holds record v := by
  rw [columnAndValue, columnOf_bind_eq_ok_iff]
  dsimp only
  rw [fieldValue_name]
  cases hmissing : isMissing (field record .value) with
  | true =>
    constructor
    · rintro ⟨t, -, h⟩
      cases h
    · rintro ⟨-, hvalue, hpresent⟩
      rw [hvalue] at hmissing
      exact absurd hpresent (isMissing_iff.1 hmissing)
  | false =>
    constructor
    · rintro ⟨t, hnames, h⟩
      cases h
      exact ⟨hnames, rfl, isMissing_eq_false_iff.1 hmissing⟩
    · rintro ⟨hnames, hvalue, -⟩
      exact ⟨s, hnames, by rw [hvalue]; rfl⟩

theorem comparisonOf_eq_ok_iff {c : Comparison} :
    comparisonOf place record = .ok c ↔ Names record c.column ∧ Holds record c.value ∧
      comparatorOf place record = .ok c.comparator := by
  rw [comparisonOf, Outcome.bind_eq_ok_iff]
  constructor
  · rintro ⟨⟨s, v⟩, hparts, h⟩
    obtain ⟨comparator, hcomparator, hpure⟩ := Outcome.bind_eq_ok_iff.1 h
    cases hpure
    obtain ⟨hnames, hvalue⟩ := columnAndValue_eq_ok_iff.1 hparts
    exact ⟨hnames, hvalue, hcomparator⟩
  · obtain ⟨column, comparator, value⟩ := c
    rintro ⟨hnames, hvalue, hcomparator⟩
    obtain ⟨s, rfl, -⟩ := hnames.isName
    refine ⟨(s, value), columnAndValue_eq_ok_iff.2 ⟨hnames, hvalue⟩, ?_⟩
    exact Outcome.bind_eq_ok_iff.2 ⟨comparator, hcomparator, rfl⟩

theorem likeOf_eq_ok_iff {l : Like} :
    likeOf place record = .ok l ↔ Names record l.column ∧ Holds record l.pattern := by
  rw [likeOf, Outcome.bind_eq_ok_iff]
  constructor
  · rintro ⟨⟨s, v⟩, hparts, h⟩
    cases h
    exact columnAndValue_eq_ok_iff.1 hparts
  · obtain ⟨column, pattern⟩ := l
    rintro ⟨hnames, hvalue⟩
    obtain ⟨s, rfl, -⟩ := hnames.isName
    exact ⟨(s, pattern), columnAndValue_eq_ok_iff.2 ⟨hnames, hvalue⟩, rfl⟩

/-- The name of a comparator is read as the comparator. -/
theorem comparatorOf_name (place : Location) {c : Comparator}
    (h : field record .comparator = .text c.name) : comparatorOf place record = .ok c := by
  rw [comparatorOf, fieldValue_name, h]
  cases c <;> rfl

theorem withComparator_withComparator (c : Comparison) (record : Fields) :
    withComparator c (withComparator c record) = withComparator c record :=
  put_put record _ _ _

theorem comparisonOf_withComparator {c : Comparison} (h : comparisonOf place record = .ok c) :
    comparisonOf place (withComparator c record) = .ok c := by
  obtain ⟨hnames, hvalue, -⟩ := comparisonOf_eq_ok_iff.1 h
  refine comparisonOf_eq_ok_iff.2 ⟨⟨?_, hnames.isName⟩, ⟨?_, hvalue.present⟩, ?_⟩
  · rw [withComparator, field_put_of_ne (by decide), hnames.named]
  · rw [withComparator, field_put_of_ne (by decide), hvalue.held]
  · exact comparatorOf_name place (field_put_self record .comparator _)

theorem IsFlat.withComparator (h : IsFlat record) (c : Comparison) :
    IsFlat (withComparator c record) :=
  h.put fun _ => isSingle_text _

theorem comparisonOf_toRecord {c : Comparison} (h : comparisonOf place record = .ok c)
    (place' : Location) : comparisonOf place' c.toRecord = .ok c := by
  obtain ⟨hnames, hvalue, -⟩ := comparisonOf_eq_ok_iff.1 h
  exact comparisonOf_eq_ok_iff.2
    ⟨⟨rfl, hnames.isName⟩, ⟨rfl, hvalue.present⟩, comparatorOf_name place' rfl⟩

theorem isFlat_toRecord_comparison {c : Comparison} (hflat : IsFlat record)
    (h : comparisonOf place record = .ok c) : IsFlat c.toRecord := by
  obtain ⟨hnames, hvalue, -⟩ := comparisonOf_eq_ok_iff.1 h
  intro f hf
  cases f with
  | column => exact isSingle_of_isName hnames.isName
  | comparator => exact isSingle_text _
  | value =>
    have hsingle := hflat .value (by simp)
    rw [hvalue.held] at hsingle
    exact hsingle
  | values => simp at hf

/-! ## Value lists and ranges -/

/-- Does the record hold the list, and are its entries values? -/
structure HoldsList (record : Fields) (values : List Value) : Prop where
  held : field record .values = .list values
  entries : ∀ w ∈ values, IsPresent w ∧ IsSingle w

theorem membershipOf_eq_ok_iff {m : Membership} :
    membershipOf place record = .ok m ↔ Names record m.column ∧ HoldsList record m.values := by
  rw [membershipOf, columnOf_bind_eq_ok_iff]
  constructor
  · rintro ⟨s, hnames, h⟩
    obtain ⟨⟨v, vs⟩, hvalues, hpure⟩ := Outcome.bind_eq_ok_iff.1 h
    cases hpure
    obtain ⟨hfield, hentries⟩ := valuesOf_eq_ok_iff.1 hvalues
    exact ⟨hnames, hfield, hentries⟩
  · obtain ⟨column, v, vs⟩ := m
    rintro ⟨hnames, hvalues⟩
    obtain ⟨s, rfl, -⟩ := hnames.isName
    refine ⟨s, hnames, Outcome.bind_eq_ok_iff.2 ⟨(v, vs), ?_, rfl⟩⟩
    exact valuesOf_eq_ok_iff.2 ⟨hvalues.held, hvalues.entries⟩

theorem rangeOf_eq_ok_iff {r : Range} :
    rangeOf place record = .ok r ↔ Names record r.column ∧
      ∃ v w, HoldsList record [v, w] ∧ boundOf place.key v = .ok r.low ∧
        boundOf place.key w = .ok r.high := by
  rw [rangeOf, columnOf_bind_eq_ok_iff]
  constructor
  · rintro ⟨s, hnames, h⟩
    obtain ⟨⟨v, vs⟩, hvalues, h⟩ := Outcome.bind_eq_ok_iff.1 h
    obtain ⟨hfield, hentries⟩ := valuesOf_eq_ok_iff.1 hvalues
    rcases vs with _ | ⟨w, _ | ⟨u, us⟩⟩
    · cases h
    · obtain ⟨low, hlow, h⟩ := Outcome.bind_eq_ok_iff.1 h
      obtain ⟨high, hhigh, h⟩ := Outcome.bind_eq_ok_iff.1 h
      cases h
      exact ⟨hnames, v, w, ⟨hfield, hentries⟩, hlow, hhigh⟩
    · cases h
  · obtain ⟨column, low, high⟩ := r
    rintro ⟨hnames, v, w, hvalues, hlow, hhigh⟩
    obtain ⟨s, rfl, -⟩ := hnames.isName
    refine ⟨s, hnames, Outcome.bind_eq_ok_iff.2 ⟨(v, [w]), ?_, ?_⟩⟩
    · exact valuesOf_eq_ok_iff.2 ⟨hvalues.held, hvalues.entries⟩
    · exact Outcome.bind_eq_ok_iff.2 ⟨low, hlow, Outcome.bind_eq_ok_iff.2 ⟨high, hhigh, rfl⟩⟩

/-- A bound is a date as it was given, or a number. -/
theorem boundOf_eq_ok {key : Key} {v w : Value} (h : boundOf key v = .ok w) :
    (w = v ∧ Conversion.isTimestampText v = .ok true) ∨ ∃ n : Numeral, w = n.toValue := by
  unfold boundOf at h
  obtain ⟨spells, hspells, h⟩ := Outcome.bind_eq_ok_iff.1 h
  cases spells with
  | true =>
    cases h
    exact .inl ⟨rfl, hspells⟩
  | false =>
    rw [if_neg Bool.false_ne_true] at h
    split at h
    next n _ =>
      cases h
      exact .inr ⟨n, rfl⟩
    next => cases h

theorem boundOf_toValue (key : Key) (n : Numeral) : boundOf key n.toValue = .ok n.toValue := by
  cases n <;> rfl

/-- A bound is its own bound. -/
theorem boundOf_boundOf {key : Key} {v w : Value} (h : boundOf key v = .ok w) (key' : Key) :
    boundOf key' w = .ok w := by
  rcases boundOf_eq_ok h with ⟨rfl, hspells⟩ | ⟨n, rfl⟩
  · rw [boundOf, hspells]
    rfl
  · exact boundOf_toValue key' n

theorem isEntry_boundOf {key : Key} {v w : Value} (h : boundOf key v = .ok w)
    (hv : IsPresent v ∧ IsSingle v) : IsPresent w ∧ IsSingle w := by
  rcases boundOf_eq_ok h with ⟨rfl, -⟩ | ⟨n, rfl⟩
  · exact hv
  · cases n <;> simp [Numeral.toValue, IsPresent, IsSingle]

/-- A record with the bounds of a range has this range. -/
theorem rangeOf_of_bounds {r : Range} {left : Fields} (h : rangeOf place record = .ok r)
    (place' : Location) (hcolumn : field left .column = r.column)
    (hvalues : field left .values = .list [r.low, r.high]) : rangeOf place' left = .ok r := by
  obtain ⟨hnames, v, w, hlist, hlow, hhigh⟩ := rangeOf_eq_ok_iff.1 h
  refine rangeOf_eq_ok_iff.2 ⟨⟨hcolumn, hnames.isName⟩, r.low, r.high, ⟨hvalues, ?_⟩, ?_, ?_⟩
  · simp only [List.mem_cons, List.not_mem_nil, or_false, forall_eq_or_imp, forall_eq]
    exact ⟨isEntry_boundOf hlow (hlist.entries v (by simp)),
      isEntry_boundOf hhigh (hlist.entries w (by simp))⟩
  · exact boundOf_boundOf hlow _
  · exact boundOf_boundOf hhigh _

theorem isFlat_columnAndList {column : Value} (h : IsName column) (vs : List Value) :
    IsFlat [(ClauseField.column.name, column), (ClauseField.values.name, .list vs)] := by
  intro f hf
  cases f with
  | column => exact isSingle_of_isName h
  | comparator => simp [field, find?, ClauseField.name, IsSingle]
  | value => simp [field, find?, ClauseField.name, IsSingle]
  | values => simp at hf

/-! ## Starters -/

/-- What the check of a starter's record gives: the clause, and the record that is left. -/
inductive Gives (kind : StarterKind) (record : Fields) : Clause → Fields → Prop where
  | comparison {c : Comparison} (hkind : kind = .where_ ∨ kind = .whereNot)
      (h : comparisonOf ⟨.starter kind, none⟩ record = .ok c) :
      Gives kind record (.comparison c) (withComparator c record)
  | like {l : Like} (hkind : kind = .whereLike)
      (h : likeOf ⟨.starter kind, none⟩ record = .ok l) : Gives kind record (.like l) record
  | membership {m : Membership} (hkind : kind = .whereIn ∨ kind = .whereNotIn)
      (h : membershipOf ⟨.starter kind, none⟩ record = .ok m) :
      Gives kind record (.membership m) record
  | range {r : Range} (hkind : kind = .whereBetween ∨ kind = .whereNotBetween)
      (h : rangeOf ⟨.starter kind, none⟩ record = .ok r) :
      Gives kind record (.range r) (withBounds r record)

theorem gives_of_starterClause {kind : StarterKind} {clause : Clause} {left : Fields}
    (h : starterClause kind record = .ok (clause, left)) : Gives kind record clause left := by
  cases kind with
  | where_ | whereNot =>
    obtain ⟨c, hc, hpure⟩ := Outcome.bind_eq_ok_iff.1 h
    cases hpure
    exact .comparison (by simp) hc
  | whereLike =>
    obtain ⟨l, hl, hpure⟩ := Outcome.bind_eq_ok_iff.1 h
    cases hpure
    exact .like rfl hl
  | whereIn | whereNotIn =>
    obtain ⟨m, hm, hpure⟩ := Outcome.bind_eq_ok_iff.1 h
    cases hpure
    exact .membership (by simp) hm
  | whereBetween | whereNotBetween =>
    obtain ⟨r, hr, hpure⟩ := Outcome.bind_eq_ok_iff.1 h
    cases hpure
    exact .range (by simp) hr

theorem Gives.starterClause {kind : StarterKind} {clause : Clause} {left : Fields}
    (h : Gives kind record clause left) : starterClause kind record = .ok (clause, left) := by
  cases h with
  | comparison hkind h =>
    rcases hkind with rfl | rfl <;> exact Outcome.bind_eq_ok_iff.2 ⟨_, h, rfl⟩
  | like hkind h =>
    subst hkind
    exact Outcome.bind_eq_ok_iff.2 ⟨_, h, rfl⟩
  | membership hkind h =>
    rcases hkind with rfl | rfl <;> exact Outcome.bind_eq_ok_iff.2 ⟨_, h, rfl⟩
  | range hkind h =>
    rcases hkind with rfl | rfl <;> exact Outcome.bind_eq_ok_iff.2 ⟨_, h, rfl⟩

/-- The record that is left gives the same clause and is left as it is. -/
theorem Gives.left {kind : StarterKind} {clause : Clause} {left : Fields} (hflat : IsFlat record)
    (h : Gives kind record clause left) : IsFlat left ∧ Gives kind left clause left := by
  cases h with
  | @comparison c hkind h =>
    refine ⟨hflat.withComparator c, ?_⟩
    have hleft := Gives.comparison hkind (comparisonOf_withComparator h)
    rw [withComparator_withComparator] at hleft
    exact hleft
  | like hkind h => exact ⟨hflat, .like hkind h⟩
  | membership hkind h => exact ⟨hflat, .membership hkind h⟩
  | @range r hkind h =>
    obtain ⟨hnames, -⟩ := rangeOf_eq_ok_iff.1 h
    refine ⟨hflat.put fun hne => absurd rfl hne, ?_⟩
    have hagain : rangeOf ⟨.starter kind, none⟩ (withBounds r record) = .ok r := by
      refine rangeOf_of_bounds h _ ?_ (field_put_self record .values _)
      rw [withBounds, field_put_of_ne (by decide), hnames.named]
    have hleft := Gives.range hkind hagain
    rw [withBounds, withBounds, put_put] at hleft
    exact hleft

/-- The record form of the clause gives the clause and is left as it is. -/
theorem Gives.toRecord {kind : StarterKind} {clause : Clause} {left : Fields}
    (hflat : IsFlat record) (h : Gives kind record clause left) :
    IsFlat clause.toRecord ∧ Gives kind clause.toRecord clause clause.toRecord := by
  cases h with
  | comparison hkind h =>
    exact ⟨isFlat_toRecord_comparison hflat h, .comparison hkind (comparisonOf_toRecord h _)⟩
  | @like l hkind h =>
    obtain ⟨hnames, hvalue⟩ := likeOf_eq_ok_iff.1 h
    have hlike : likeOf ⟨.starter kind, none⟩ (Clause.like l).toRecord = .ok l :=
      likeOf_eq_ok_iff.2 ⟨⟨rfl, hnames.isName⟩, rfl, hvalue.present⟩
    refine ⟨?_, .like hkind hlike⟩
    intro f hf
    cases f with
    | column => exact isSingle_of_isName hnames.isName
    | comparator => simp [field, find?, Clause.toRecord, ClauseField.name, IsSingle]
    | value =>
      have hsingle := hflat .value hf
      rw [hvalue.held] at hsingle
      exact hsingle
    | values => simp at hf
  | membership hkind h =>
    obtain ⟨hnames, hvalues⟩ := membershipOf_eq_ok_iff.1 h
    refine ⟨isFlat_columnAndList hnames.isName _, .membership hkind ?_⟩
    exact membershipOf_eq_ok_iff.2 ⟨⟨rfl, hnames.isName⟩, rfl, hvalues.entries⟩
  | range hkind h =>
    obtain ⟨hnames, -⟩ := rangeOf_eq_ok_iff.1 h
    refine ⟨isFlat_columnAndList hnames.isName _, .range hkind ?_⟩
    exact rangeOf_of_bounds h _ rfl rfl

/-! ## Lists of records -/

theorem recordsFrom_map (key : Key) (i : Nat) {records : List Fields}
    (h : ∀ r ∈ records, IsFlat r) : recordsFrom key i (records.map .object) = .ok records := by
  induction records generalizing i with
  | nil => rfl
  | cons r rs ih =>
    obtain ⟨hr, hrs⟩ := List.forall_mem_cons.1 h
    rw [List.map_cons, recordsFrom, recordOf_object _ hr, ih _ hrs]
    rfl

/-- The records of a key are read back from the form in which they are written. -/
theorem recordsOf_sameForm {key : Key} {v : Value} {records left : List Fields}
    (h : recordsOf key v = .ok records) (hlength : left.length = records.length)
    (hflat : ∀ r ∈ left, IsFlat r) :
    recordsOf key (sameForm v left) = .ok left ∧
      sameForm (sameForm v left) left = sameForm v left := by
  cases v with
  | object record =>
    obtain ⟨r, -, hpure⟩ := Outcome.bind_eq_ok_iff.1 h
    cases hpure
    obtain ⟨l, rfl⟩ := List.length_eq_one_iff.1 hlength
    refine ⟨?_, rfl⟩
    have hl : recordOf ⟨key, none⟩ (.object l) = .ok l := recordOf_object _ (hflat l (by simp))
    exact Outcome.bind_eq_ok_iff.2 ⟨l, hl, rfl⟩
  | list vs => exact ⟨recordsFrom_map key 0 hflat, rfl⟩
  | _ => cases h

theorem isFlat_of_recordsOf {key : Key} {v : Value} {records : List Fields}
    (h : recordsOf key v = .ok records) : ∀ r ∈ records, IsFlat r :=
  (recordsOf_eq_ok h).1

theorem comparisonsFrom_left (key : Key) (i : Nat) {records : List Fields}
    (hflat : ∀ r ∈ records, IsFlat r) :
    (comparisonsFrom key i records).2.length = records.length ∧
      (∀ r ∈ (comparisonsFrom key i records).2, IsFlat r) ∧
      comparisonsFrom key i (comparisonsFrom key i records).2 = comparisonsFrom key i records := by
  induction records generalizing i with
  | nil => exact ⟨rfl, hflat, rfl⟩
  | cons r rs ih =>
    cases hc : comparisonOf ⟨key, some i⟩ r with
    | error f =>
      have hstep : comparisonsFrom key i (r :: rs) = (.error f, r :: rs) := by
        rw [comparisonsFrom, hc]
      rw [hstep]
      exact ⟨rfl, hflat, hstep⟩
    | ok c =>
      obtain ⟨hr, hrs⟩ := List.forall_mem_cons.1 hflat
      obtain ⟨hlength, hflats, hagain⟩ := ih (i + 1) hrs
      have hstep : comparisonsFrom key i (r :: rs) =
          ((comparisonsFrom key (i + 1) rs).1.map (c :: ·),
            withComparator c r :: (comparisonsFrom key (i + 1) rs).2) := by
        rw [comparisonsFrom, hc]
      rw [hstep]
      refine ⟨by simp [hlength], ?_, ?_⟩
      · exact List.forall_mem_cons.2 ⟨hr.withComparator c, hflats⟩
      · rw [comparisonsFrom, comparisonOf_withComparator hc]
        dsimp only
        rw [hagain, withComparator_withComparator]

/-- The record forms of comparisons give the comparisons and are left as they are. -/
theorem comparisonsFrom_toRecord {key : Key} {i : Nat} {records : List Fields}
    {cs : List Comparison} (hflat : ∀ r ∈ records, IsFlat r)
    (h : (comparisonsFrom key i records).1 = .ok cs) (j : Nat) :
    (∀ r ∈ cs.map Comparison.toRecord, IsFlat r) ∧
      comparisonsFrom key j (cs.map Comparison.toRecord) =
        (.ok cs, cs.map Comparison.toRecord) := by
  induction records generalizing i j cs with
  | nil =>
    cases h
    exact ⟨by simp, rfl⟩
  | cons r rs ih =>
    rw [comparisonsFrom] at h
    cases hc : comparisonOf ⟨key, some i⟩ r with
    | error f =>
      rw [hc] at h
      cases h
    | ok c =>
      rw [hc] at h
      obtain ⟨cs, hrest, rfl⟩ := Outcome.map_eq_ok_iff.1 h
      obtain ⟨hr, hrs⟩ := List.forall_mem_cons.1 hflat
      obtain ⟨hflats, hagain⟩ := ih hrs hrest (j + 1)
      refine ⟨?_, ?_⟩
      · rw [List.map_cons, List.forall_mem_cons]
        exact ⟨isFlat_toRecord_comparison hr hc, hflats⟩
      · rw [List.map_cons, comparisonsFrom, comparisonOf_toRecord hc, hagain]
        rfl

theorem membershipsFrom_toRecord {key : Key} {i : Nat} {records : List Fields}
    {ms : List Membership} (h : membershipsFrom key i records = .ok ms) (j : Nat) :
    (∀ r ∈ ms.map Membership.toRecord, IsFlat r) ∧
      membershipsFrom key j (ms.map Membership.toRecord) = .ok ms := by
  induction records generalizing i j ms with
  | nil =>
    cases h
    exact ⟨by simp, rfl⟩
  | cons r rs ih =>
    obtain ⟨m, hm, h⟩ := Outcome.bind_eq_ok_iff.1 h
    obtain ⟨ms, hrest, h⟩ := Outcome.bind_eq_ok_iff.1 h
    cases h
    obtain ⟨hnames, hvalues⟩ := membershipOf_eq_ok_iff.1 hm
    obtain ⟨hflats, hagain⟩ := ih hrest (j + 1)
    refine ⟨?_, ?_⟩
    · rw [List.map_cons, List.forall_mem_cons]
      exact ⟨isFlat_columnAndList hnames.isName _, hflats⟩
    · have hrecord : membershipOf ⟨key, some j⟩ m.toRecord = .ok m :=
        membershipOf_eq_ok_iff.2 ⟨⟨rfl, hnames.isName⟩, rfl, hvalues.entries⟩
      rw [List.map_cons, membershipsFrom, hrecord, Outcome.ok_bind, hagain]
      rfl

/-! ## Order terms -/

/-- Does the entry name the column? -/
structure Sorts (entry : Fields) (column : Value) : Prop where
  named : fieldValue entry orderColumnName = column
  isName : IsName column

theorem orderTermOf_eq_ok {v : Value} {t : OrderTerm} (h : orderTermOf place v = .ok t) :
    ∃ entry, v = .object entry ∧ Sorts entry t.column := by
  cases v with
  | object entry =>
    rw [orderTermOf] at h
    cases hgiven : givenText? (fieldValue entry orderColumnName) with
    | none =>
      rw [hgiven] at h
      cases h
    | some column =>
      rw [hgiven] at h
      obtain ⟨hcolumn, hblank⟩ := givenText?_eq_some_iff.1 hgiven
      dsimp only at h
      split at h
      · split at h
        · cases h
          exact ⟨entry, rfl, hcolumn, column, rfl, hblank⟩
        · cases h
      · cases h
  | _ => cases h

theorem orderTermOf_entry {entry : Fields} {t : OrderTerm} (place : Location)
    (h : Sorts entry t.column)
    (hdirection : fieldValue entry orderDirectionName = .text t.direction.name) :
    orderTermOf place (.object entry) = .ok t := by
  obtain ⟨column, direction⟩ := t
  obtain ⟨hcolumn, s, heq, hblank⟩ := h
  dsimp only at heq hdirection
  subst heq
  rw [orderTermOf, givenText?_eq_some_iff.2 ⟨hcolumn, hblank⟩]
  dsimp only
  rw [hdirection]
  cases direction <;> rfl

theorem orderTermOf_withDirection {v : Value} {t : OrderTerm} (h : orderTermOf place v = .ok t) :
    orderTermOf place (withDirection t v) = .ok t ∧
      withDirection t (withDirection t v) = withDirection t v := by
  obtain ⟨entry, rfl, hsorts⟩ := orderTermOf_eq_ok h
  constructor
  · refine orderTermOf_entry place ⟨?_, hsorts.isName⟩ ?_
    · rw [← hsorts.named, fieldValue, fieldValue, find?_put_of_ne (by decide)]
    · rw [fieldValue, find?_put_self]
      rfl
  · exact congrArg Value.object (put_put entry _ _ _)

theorem orderTermOf_toRecord {v : Value} {t : OrderTerm} (h : orderTermOf place v = .ok t)
    (place' : Location) : orderTermOf place' (.object t.toRecord) = .ok t := by
  obtain ⟨entry, -, hsorts⟩ := orderTermOf_eq_ok h
  exact orderTermOf_entry place' ⟨rfl, hsorts.isName⟩ rfl

theorem orderTermsFrom_left (i : Nat) (vs : List Value) :
    orderTermsFrom i (orderTermsFrom i vs).2 = orderTermsFrom i vs := by
  induction vs generalizing i with
  | nil => rfl
  | cons v vs ih =>
    cases ht : orderTermOf ⟨.order, some i⟩ v with
    | error f =>
      have hstep : orderTermsFrom i (v :: vs) = (.error f, v :: vs) := by
        rw [orderTermsFrom, ht]
      rw [hstep]
      exact hstep
    | ok t =>
      have hstep : orderTermsFrom i (v :: vs) =
          ((orderTermsFrom (i + 1) vs).1.map (t :: ·),
            withDirection t v :: (orderTermsFrom (i + 1) vs).2) := by
        rw [orderTermsFrom, ht]
      obtain ⟨hagain, hdirection⟩ := orderTermOf_withDirection ht
      rw [hstep, orderTermsFrom, hagain]
      dsimp only
      rw [ih, hdirection]

/-- The record forms of order terms give the terms and are left as they are. -/
theorem orderTermsFrom_toRecord {i : Nat} {vs : List Value} {ts : List OrderTerm}
    (h : (orderTermsFrom i vs).1 = .ok ts) (j : Nat) :
    orderTermsFrom j (ts.map fun t => .object t.toRecord) =
      (.ok ts, ts.map fun t => .object t.toRecord) := by
  induction vs generalizing i j ts with
  | nil =>
    cases h
    rfl
  | cons v vs ih =>
    rw [orderTermsFrom] at h
    cases ht : orderTermOf ⟨.order, some i⟩ v with
    | error f =>
      rw [ht] at h
      cases h
    | ok t =>
      rw [ht] at h
      obtain ⟨ts, hrest, rfl⟩ := Outcome.map_eq_ok_iff.1 h
      rw [List.map_cons, orderTermsFrom, orderTermOf_toRecord ht, ih hrest (j + 1)]
      rfl

end Validation

end RowAccess
