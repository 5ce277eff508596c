import RowAccess.Proofs.Outcome
import RowAccess.Query.Acceptance

/-
  RowAccess/Proofs/Query/Record.lean
  ==================================
  **What the check of records decides.**  Each check of a record, of its value list or of its bounds
  succeeds exactly on the records of the form that belongs there, and so does the check of several
  of them.  The one exception is a date past the end of the calendar: its overflow is no fault of
  the record, and the check ends there (`Validation.Decides`).
-/

namespace RowAccess

/-! ## Names -/

theorem Comparator.ofName?_eq_some_iff {s : String} {c : Comparator} :
    Comparator.ofName? s = some c ↔ s = c.name := by
  constructor
  · intro h
    have hname := List.find?_some h
    exact (beq_iff_eq.1 hname).symm
  · rintro rfl
    cases c <;> rfl

theorem Direction.ofName?_eq_some_iff {s : String} {d : Direction} :
    Direction.ofName? s = some d ↔ s = d.name := by
  constructor
  · intro h
    unfold Direction.ofName? at h
    split at h
    next heq =>
      cases h
      exact beq_iff_eq.1 heq
    next =>
      split at h
      next heq =>
        cases h
        exact beq_iff_eq.1 heq
      next => cases h
  · rintro rfl
    cases d <;> rfl

namespace Validation

open Keyed Acceptance

variable {α β : Type}

/-! ## Deciding -/

/-- Does the outcome tell whether the condition holds, an overflow of the calendar apart? -/
structure Decides (x : Except Fault α) (p : Prop) : Prop where
  sound : ∀ a, x = .ok a → p
  complete : p → (∃ a, x = .ok a) ∨ x = .error .outOfRange

namespace Decides

variable {p q : Prop}

theorem ok (a : α) (h : p) : Decides (.ok a) p :=
  ⟨fun _ _ => h, fun _ => .inl ⟨a, rfl⟩⟩

theorem error (f : Fault) (h : ¬ p) : Decides (.error f : Except Fault α) p := by
  constructor
  · intro a ha
    cases ha
  · intro hp
    exact absurd hp h

theorem iff {x : Except Fault α} (h : Decides x p) (hpq : p ↔ q) : Decides x q := by
  constructor
  · intro a ha
    exact hpq.1 (h.sound a ha)
  · intro hq
    exact h.complete (hpq.2 hq)

theorem bind {x : Except Fault α} {f : α → Except Fault β} (h : Decides x p)
    (hf : ∀ a, x = .ok a → Decides (f a) q) : Decides (x >>= f) (p ∧ q) := by
  cases x with
  | error e =>
    constructor
    · intro b hb
      cases hb
    · intro hpq
      rcases h.complete hpq.1 with ⟨a, ha⟩ | he
      · cases ha
      · cases he
        exact .inr rfl
  | ok a =>
    have hp : p := h.sound a rfl
    constructor
    · intro b hb
      exact ⟨hp, (hf a rfl).sound b hb⟩
    · intro hpq
      exact (hf a rfl).complete hpq.2

theorem map {x : Except Fault α} {f : α → β} (h : Decides x p) : Decides (x.map f) p := by
  cases x with
  | error e =>
    constructor
    · intro b hb
      cases hb
    · intro hp
      rcases h.complete hp with ⟨a, ha⟩ | he
      · cases ha
      · cases he
        exact .inr rfl
  | ok a => exact ok (f a) (h.sound a rfl)

theorem bind_pure {x : Except Fault α} {f : α → β} (h : Decides x p) :
    Decides (x >>= fun a => pure (f a)) p := by
  have hmap : (x >>= fun a => pure (f a)) = x.map f := by
    cases x <;> rfl
  rw [hmap]
  exact h.map

end Decides

/-! ## Values -/

theorem isMissing_eq_false_iff {v : Value} : isMissing v = false ↔ IsPresent v := by
  cases v <;> simp [isMissing, IsPresent]

theorem isMissing_iff {v : Value} : isMissing v = true ↔ ¬ IsPresent v := by
  rw [← isMissing_eq_false_iff]
  simp

theorem isSingle_iff {v : Value} : (v.isList || v.isObject) = false ↔ IsSingle v := by
  cases v <;> simp [IsSingle, Value.isList, Value.isObject]

theorem givenText?_eq_some_iff {v : Value} {s : String} :
    givenText? v = some s ↔ v = .text s ∧ Text.isBlankText s = false := by
  cases v with
  | text t =>
    rw [givenText?]
    by_cases ht : Text.isBlankText t = true
    · rw [if_pos ht]
      constructor
      · intro h
        cases h
      · rintro ⟨heq, hs⟩
        cases heq
        rw [ht] at hs
        cases hs
    · rw [if_neg ht]
      constructor
      · intro h
        cases h
        exact ⟨rfl, Bool.eq_false_iff.2 ht⟩
      · rintro ⟨heq, -⟩
        cases heq
        rfl
  | _ => simp [givenText?]

theorem isEntry_iff {v : Value} : isEntry v = true ↔ IsPresent v ∧ IsSingle v := by
  rw [← isMissing_eq_false_iff, ← isSingle_iff]
  simp [isEntry, and_assoc]

/-! ## Records -/

/-- Does the record hold single values where they belong? -/
def IsFlat (record : Fields) : Prop :=
  ∀ f ∈ [ClauseField.column, .comparator, .value], IsSingle (field record f)

theorem nestedField?_eq_none_iff {record : Fields} :
    nestedField? record = none ↔ IsFlat record := by
  unfold nestedField? IsFlat
  rw [List.find?_eq_none]
  constructor
  · intro h f hf
    exact isSingle_iff.1 (Bool.eq_false_iff.2 (h f hf))
  · intro h f hf
    exact Bool.eq_false_iff.1 (isSingle_iff.2 (h f hf))

theorem recordOf_eq_ok {place : Location} {v : Value} {record : Fields}
    (h : recordOf place v = .ok record) : v = .object record ∧ IsFlat record := by
  cases v with
  | object fields =>
    rw [recordOf] at h
    cases hnested : nestedField? fields with
    | none =>
      rw [hnested] at h
      cases h
      exact ⟨rfl, nestedField?_eq_none_iff.1 hnested⟩
    | some f =>
      rw [hnested] at h
      cases h
  | _ => cases h

theorem decides_recordOf (place : Location) (v : Value) :
    Decides (recordOf place v) (∃ record, v = .object record ∧ IsFlat record) := by
  constructor
  · intro record h
    exact ⟨record, recordOf_eq_ok h⟩
  · rintro ⟨record, rfl, hflat⟩
    refine .inl ⟨record, ?_⟩
    rw [recordOf, nestedField?_eq_none_iff.2 hflat]

theorem fieldValue_name (record : Fields) (f : ClauseField) :
    fieldValue record f.name = field record f := rfl

theorem decides_columnOf (place : Location) (record : Fields) :
    Decides (columnOf place record) (IsName (field record .column)) := by
  rw [columnOf, fieldValue_name]
  cases hgiven : givenText? (field record .column) with
  | some s => exact .ok s ⟨s, givenText?_eq_some_iff.1 hgiven⟩
  | none =>
    refine .error _ ?_
    rintro ⟨s, hs⟩
    rw [givenText?_eq_some_iff.2 hs] at hgiven
    cases hgiven

/-! ## Comparisons -/

theorem decides_columnAndValue (place : Location) (record : Fields) :
    Decides (columnAndValue place record)
      (IsName (field record .column) ∧ IsPresent (field record .value)) := by
  refine (decides_columnOf place record).bind ?_
  intro column _
  dsimp only
  split
  next hmissing => exact .error _ (isMissing_iff.1 hmissing)
  next hpresent => exact .ok _ (isMissing_eq_false_iff.1 (Bool.eq_false_iff.2 hpresent))

theorem decides_comparatorOf (place : Location) (record : Fields) :
    Decides (comparatorOf place record) (IsComparator (field record .comparator)) := by
  rw [comparatorOf, fieldValue_name]
  generalize field record .comparator = v
  split
  next hmissing => exact .ok _ (.inl (isMissing_iff.1 hmissing))
  next hgiven =>
    have hpresent := isMissing_eq_false_iff.1 (Bool.eq_false_iff.2 hgiven)
    have hnot : (¬ ∃ s c, v = .text s ∧ Text.upper s = Comparator.name c) → ¬ IsComparator v := by
      rintro hnone (habsent | hname)
      · exact habsent hpresent
      · exact hnone hname
    cases v with
    | text s =>
      dsimp only
      cases hname : Comparator.ofName? (Text.upper s) with
      | some c => exact .ok c (.inr ⟨s, c, rfl, Comparator.ofName?_eq_some_iff.1 hname⟩)
      | none =>
        refine .error _ (hnot ?_)
        rintro ⟨t, c, heq, ht⟩
        cases heq
        rw [Comparator.ofName?_eq_some_iff.2 ht] at hname
        cases hname
    | _ =>
      refine .error _ (hnot ?_)
      rintro ⟨t, c, heq, -⟩
      cases heq

theorem decides_comparisonOf (place : Location) {record : Fields} (hflat : IsFlat record) :
    Decides (comparisonOf place record) (IsComparison record) := by
  have hparts : Decides (comparisonOf place record)
      ((IsName (field record .column) ∧ IsPresent (field record .value)) ∧
        IsComparator (field record .comparator)) := by
    refine (decides_columnAndValue place record).bind ?_
    intro parts _
    exact (decides_comparatorOf place record).bind_pure
  refine hparts.iff ?_
  constructor
  · rintro ⟨⟨hcolumn, hvalue⟩, hcomparator⟩
    exact ⟨⟨⟨hcolumn, hflat⟩, hvalue⟩, hcomparator⟩
  · intro h
    exact ⟨⟨h.column, h.value⟩, h.comparator⟩

theorem decides_likeOf (place : Location) {record : Fields} (hflat : IsFlat record) :
    Decides (likeOf place record) (Compares record) := by
  have hparts : Decides (likeOf place record)
      (IsName (field record .column) ∧ IsPresent (field record .value)) :=
    (decides_columnAndValue place record).bind_pure
  refine hparts.iff ?_
  constructor
  · rintro ⟨hcolumn, hvalue⟩
    exact ⟨⟨hcolumn, hflat⟩, hvalue⟩
  · intro h
    exact ⟨h.column, h.value⟩

/-! ## Value lists -/

theorem valuesOf_eq_ok_iff {place : Location} {record : Fields} {v : Value} {vs : List Value} :
    valuesOf place record = .ok (v, vs) ↔ field record .values = .list (v :: vs) ∧
      ∀ w ∈ v :: vs, IsPresent w ∧ IsSingle w := by
  rw [valuesOf, fieldValue_name]
  have hentries : ∀ ws : List Value, (ws.find? fun w => !isEntry w) = none ↔
      ∀ w ∈ ws, IsPresent w ∧ IsSingle w := by
    intro ws
    rw [List.find?_eq_none]
    constructor
    · intro h w hw
      exact isEntry_iff.1 (by simpa using h w hw)
    · intro h w hw
      simp [isEntry_iff.2 (h w hw)]
  split
  next w ws heq =>
    cases hfind : (w :: ws).find? fun w => !isEntry w with
    | some u =>
      constructor
      · intro h
        cases h
      · rintro ⟨hfield, hall⟩
        cases heq.symm.trans hfield
        rw [(hentries _).2 hall] at hfind
        cases hfind
    | none =>
      constructor
      · intro h
        cases h
        exact ⟨heq, (hentries _).1 hfind⟩
      · rintro ⟨hfield, -⟩
        cases heq.symm.trans hfield
        rfl
  next hother =>
    constructor
    · intro h
      cases h
    · rintro ⟨hfield, -⟩
      exact absurd hfield (hother v vs)

theorem decides_valuesOf (place : Location) (record : Fields) :
    Decides (valuesOf place record) (∃ v vs, field record .values = .list (v :: vs) ∧
      ∀ w ∈ v :: vs, IsPresent w ∧ IsSingle w) := by
  constructor
  · rintro ⟨v, vs⟩ h
    exact ⟨v, vs, valuesOf_eq_ok_iff.1 h⟩
  · rintro ⟨v, vs, h⟩
    exact .inl ⟨(v, vs), valuesOf_eq_ok_iff.2 h⟩

theorem decides_membershipOf (place : Location) {record : Fields} (hflat : IsFlat record) :
    Decides (membershipOf place record) (IsMembership record) := by
  have hparts : Decides (membershipOf place record) (IsName (field record .column) ∧
      ∃ v vs, field record .values = .list (v :: vs) ∧
        ∀ w ∈ v :: vs, IsPresent w ∧ IsSingle w) := by
    refine (decides_columnOf place record).bind ?_
    intro column _
    exact (decides_valuesOf place record).bind_pure
  refine hparts.iff ?_
  constructor
  · rintro ⟨hcolumn, v, vs, hvalues, hentries⟩
    exact ⟨v :: vs, by simp, ⟨⟨hcolumn, hflat⟩, hvalues, hentries⟩⟩
  · rintro ⟨vs, hne, h⟩
    obtain ⟨v, vs, rfl⟩ := List.exists_cons_of_ne_nil hne
    exact ⟨h.column, v, vs, h.values, h.entries⟩

/-! ## Ranges -/

theorem isTimestampText_text (s : String) :
    Conversion.isTimestampText (.text s) =
      match Iso.read (Text.strip s) with
      | .ok t => .ok t.isNaive
      | .error .pastCalendar => .error .outOfRange
      | .error _ => .ok false := by
  unfold Conversion.isTimestampText Conversion.timestampOf Conversion.timestampOfText
  dsimp only
  cases hread : Iso.read (Text.strip s) with
  | ok t =>
    simp only [bind, Except.bind]
    cases t.isNaive <;> rfl
  | error flaw => cases flaw <;> rfl

theorem isTimestampText_eq_true_iff {v : Value} :
    Conversion.isTimestampText v = .ok true ↔
      ∃ s t, v = .text s ∧ Iso.read (Text.strip s) = .ok t ∧ t.isNaive = true := by
  cases v with
  | text s =>
    rw [isTimestampText_text]
    constructor
    · intro h
      split at h
      next t hread => exact ⟨s, t, rfl, hread, Except.ok.inj h⟩
      next => cases h
      next => cases h
    · rintro ⟨_, t, heq, hread, hnaive⟩
      cases heq
      rw [hread]
      exact congrArg _ hnaive
  | _ =>
    constructor
    · intro h
      cases h
    · rintro ⟨_, _, heq, -⟩
      cases heq

/-- Only an overflow of the calendar leaves it open whether a text spells a timestamp. -/
theorem isTimestampText_error {v : Value} {f : Fault}
    (h : Conversion.isTimestampText v = .error f) : f = .outOfRange := by
  cases v with
  | text s =>
    rw [isTimestampText_text] at h
    split at h
    · cases h
    · cases h
      rfl
    · cases h
  | _ => cases h

theorem decides_boundOf (key : Key) (v : Value) : Decides (boundOf key v) (IsBound v) := by
  unfold boundOf
  cases htext : Conversion.isTimestampText v with
  | error f =>
    rw [isTimestampText_error htext]
    constructor
    · intro a ha
      cases ha
    · intro _
      exact .inr rfl
  | ok spells =>
    cases spells with
    | true => exact .ok v (.inl (isTimestampText_eq_true_iff.1 htext))
    | false =>
      dsimp only [bind, Except.bind]
      rw [if_neg Bool.false_ne_true]
      cases hnumeral : v.numeral? with
      | some n => exact .ok _ (.inr (by simp [hnumeral]))
      | none =>
        refine .error _ ?_
        rintro (hspells | hsome)
        · rw [isTimestampText_eq_true_iff.2 hspells] at htext
          cases htext
        · rw [hnumeral] at hsome
          cases hsome

theorem decides_rangeOf (place : Location) {record : Fields} (hflat : IsFlat record) :
    Decides (rangeOf place record) (IsRange record) := by
  have hparts : Decides (rangeOf place record) (IsName (field record .column) ∧
      (∃ v vs, field record .values = .list (v :: vs) ∧
        ∀ w ∈ v :: vs, IsPresent w ∧ IsSingle w) ∧
        ∃ low high, field record .values = .list [low, high] ∧ IsBound low ∧ IsBound high) := by
    refine (decides_columnOf place record).bind ?_
    intro column _
    refine (decides_valuesOf place record).bind ?_
    rintro ⟨v, vs⟩ hvalues
    obtain ⟨hfield, -⟩ := valuesOf_eq_ok_iff.1 hvalues
    rw [hfield]
    rcases vs with _ | ⟨w, _ | ⟨u, us⟩⟩
    · exact .error _ (by simp)
    · have hbounds : Decides (do
          let low ← boundOf place.key v
          let high ← boundOf place.key w
          return (⟨.text column, low, high⟩ : Range)) (IsBound v ∧ IsBound w) := by
        refine (decides_boundOf place.key v).bind ?_
        intro low _
        exact (decides_boundOf place.key w).bind_pure
      refine hbounds.iff ?_
      constructor
      · rintro ⟨hlow, hhigh⟩
        exact ⟨v, w, rfl, hlow, hhigh⟩
      · rintro ⟨low, high, heq, hlow, hhigh⟩
        cases heq
        exact ⟨hlow, hhigh⟩
    · exact .error _ (by simp)
  refine hparts.iff ?_
  constructor
  · rintro ⟨hcolumn, ⟨v, vs, hfield, hentries⟩, low, high, hvalues, hlow, hhigh⟩
    cases hfield.symm.trans hvalues
    exact ⟨_, _, ⟨⟨hcolumn, hflat⟩, hvalues, hentries⟩, hlow, hhigh⟩
  · rintro ⟨low, high, h, hlow, hhigh⟩
    exact ⟨h.column, ⟨low, [high], h.values, h.entries⟩, low, high, h.values, hlow, hhigh⟩

/-! ## Starters -/

theorem decides_starterClause (kind : StarterKind) {record : Fields} (hflat : IsFlat record) :
    Decides (starterClause kind record) (StarterRecord kind record) := by
  cases kind with
  | where_ => exact (decides_comparisonOf _ hflat).bind_pure
  | whereIn => exact (decides_membershipOf _ hflat).bind_pure
  | whereNot => exact (decides_comparisonOf _ hflat).bind_pure
  | whereNotIn => exact (decides_membershipOf _ hflat).bind_pure
  | whereBetween => exact (decides_rangeOf _ hflat).bind_pure
  | whereNotBetween => exact (decides_rangeOf _ hflat).bind_pure
  | whereLike => exact (decides_likeOf _ hflat).bind_pure

/-! ## Lists of records -/

def HoldsObjects (p : Fields → Prop) (vs : List Value) : Prop :=
  ∃ records : List Fields, vs = records.map .object ∧ ∀ record ∈ records, p record

theorem holdsObjects_nil (p : Fields → Prop) : HoldsObjects p [] :=
  ⟨[], rfl, by simp⟩

theorem holdsObjects_cons_iff {p : Fields → Prop} {v : Value} {vs : List Value} :
    HoldsObjects p (v :: vs) ↔ (∃ record, v = .object record ∧ p record) ∧ HoldsObjects p vs := by
  constructor
  · rintro ⟨_ | ⟨record, records⟩, heq, hp⟩
    · cases heq
    · cases heq
      exact ⟨⟨record, rfl, hp record (by simp)⟩, records, rfl,
        fun r hr => hp r (List.mem_cons_of_mem _ hr)⟩
  · rintro ⟨⟨record, rfl, hrecord⟩, records, rfl, hp⟩
    exact ⟨record :: records, rfl, by simpa using ⟨hrecord, hp⟩⟩

theorem recordsFrom_eq_ok {key : Key} {i : Nat} {vs : List Value} {records : List Fields}
    (h : recordsFrom key i vs = .ok records) :
    vs = records.map .object ∧ ∀ record ∈ records, IsFlat record := by
  induction vs generalizing i records with
  | nil =>
    cases h
    exact ⟨rfl, by simp⟩
  | cons v vs ih =>
    obtain ⟨record, hrecord, hrest⟩ := Outcome.bind_eq_ok_iff.1 h
    obtain ⟨rest, hrecords, hpure⟩ := Outcome.bind_eq_ok_iff.1 hrest
    cases hpure
    obtain ⟨rfl, hflat⟩ := recordOf_eq_ok hrecord
    obtain ⟨rfl, hflats⟩ := ih hrecords
    refine ⟨rfl, ?_⟩
    intro r hr
    rcases List.mem_cons.1 hr with rfl | hr
    · exact hflat
    · exact hflats r hr

theorem decides_recordsFrom (key : Key) (i : Nat) (vs : List Value) :
    Decides (recordsFrom key i vs) (HoldsObjects IsFlat vs) := by
  induction vs generalizing i with
  | nil => exact .ok [] (holdsObjects_nil _)
  | cons v vs ih =>
    rw [holdsObjects_cons_iff]
    refine (decides_recordOf ⟨key, some i⟩ v).bind ?_
    intro record _
    exact (ih (i + 1)).bind_pure

theorem recordsOf_eq_ok {key : Key} {v : Value} {records : List Fields}
    (h : recordsOf key v = .ok records) : (∀ r ∈ records, IsFlat r) ∧
      ∀ p : Fields → Prop, (∀ r ∈ records, p r) ↔ Records p v := by
  cases v with
  | object record =>
    obtain ⟨r, hrecord, hpure⟩ := Outcome.bind_eq_ok_iff.1 h
    cases hpure
    obtain ⟨heq, hflat⟩ := recordOf_eq_ok hrecord
    cases heq
    refine ⟨by simpa using hflat, ?_⟩
    intro p
    simp [Records]
  | list vs =>
    obtain ⟨rfl, hflats⟩ := recordsFrom_eq_ok h
    refine ⟨hflats, ?_⟩
    intro p
    constructor
    · intro hp
      exact .inr ⟨records, rfl, hp⟩
    · rintro (⟨r, heq, -⟩ | ⟨records', heq, hp⟩)
      · cases heq
      · have hrecords := (List.map_inj_right fun _ _ hr => Value.object.inj hr).1
          (Value.list.inj heq)
        rw [hrecords]
        exact hp
  | _ => cases h

theorem decides_recordsOf (key : Key) (v : Value) :
    Decides (recordsOf key v) (Records IsFlat v) := by
  cases v with
  | object record =>
    have hrecord : Decides (recordsOf key (.object record))
        (∃ r, Value.object record = .object r ∧ IsFlat r) :=
      (decides_recordOf ⟨key, none⟩ (.object record)).bind_pure
    refine hrecord.iff ?_
    simp [Records]
  | list vs =>
    refine (decides_recordsFrom key 0 vs).iff ?_
    simp [Records, HoldsObjects]
  | _ => exact .error _ (by simp [Records])

/-- What decides a condition of every record decides it of what a key holds. -/
theorem decides_records {p : Fields → Prop} {f : List Fields → Except Fault α}
    (hflat : ∀ r, p r → IsFlat r)
    (hf : ∀ rs, (∀ r ∈ rs, IsFlat r) → Decides (f rs) (∀ r ∈ rs, p r)) (key : Key) (v : Value) :
    Decides (recordsOf key v >>= f) (Records p v) := by
  have hparts : Decides (recordsOf key v >>= f) (Records IsFlat v ∧ Records p v) := by
    refine (decides_recordsOf key v).bind ?_
    intro records hrecords
    obtain ⟨hflats, hiff⟩ := recordsOf_eq_ok hrecords
    exact (hf records hflats).iff (hiff p)
  refine hparts.iff ?_
  constructor
  · intro h
    exact h.2
  · intro h
    refine ⟨?_, h⟩
    rcases h with ⟨r, rfl, hp⟩ | ⟨records, rfl, hp⟩
    · exact .inl ⟨r, rfl, hflat r hp⟩
    · exact .inr ⟨records, rfl, fun r hr => hflat r (hp r hr)⟩

theorem decides_comparisonsFrom (key : Key) (i : Nat) (records : List Fields)
    (hflat : ∀ r ∈ records, IsFlat r) :
    Decides (comparisonsFrom key i records).1 (∀ r ∈ records, IsComparison r) := by
  induction records generalizing i with
  | nil => exact .ok [] (by simp)
  | cons r rs ih =>
    have hstep : (comparisonsFrom key i (r :: rs)).1 =
        comparisonOf ⟨key, some i⟩ r >>= fun c =>
          (comparisonsFrom key (i + 1) rs).1.map (c :: ·) := by
      rw [comparisonsFrom]
      cases comparisonOf ⟨key, some i⟩ r with
      | error f => rfl
      | ok c => rfl
    rw [hstep, List.forall_mem_cons]
    refine (decides_comparisonOf _ (hflat r (by simp))).bind ?_
    intro c _
    exact (ih (i + 1) fun r' hr' => hflat r' (List.mem_cons_of_mem _ hr')).map

theorem decides_membershipsFrom (key : Key) (i : Nat) (records : List Fields)
    (hflat : ∀ r ∈ records, IsFlat r) :
    Decides (membershipsFrom key i records) (∀ r ∈ records, IsMembership r) := by
  induction records generalizing i with
  | nil => exact .ok [] (by simp)
  | cons r rs ih =>
    rw [List.forall_mem_cons]
    refine (decides_membershipOf _ (hflat r (by simp))).bind ?_
    intro m _
    exact (ih (i + 1) fun r' hr' => hflat r' (List.mem_cons_of_mem _ hr')).bind_pure

/-! ## Limits and orders -/

theorem decides_limitOf (v : Value) : Decides (limitOf v) (IsLimit v) := by
  unfold limitOf
  split
  next n heq =>
    obtain ⟨x, hx, hn⟩ := Option.bind_eq_some_iff.1 heq
    exact .ok n ⟨x, n, hx, hn⟩
  next hother =>
    refine .error _ ?_
    rintro ⟨x, n, hx, hn⟩
    exact hother n (by rw [hx]; exact hn)

theorem decides_orderTermOf (place : Location) (v : Value) :
    Decides (orderTermOf place v) (∃ entry, v = .object entry ∧ IsOrderRecord entry) := by
  cases v with
  | object entry =>
    have hrecord : ∀ p : Fields → Prop,
        (∃ e, Value.object entry = .object e ∧ p e) ↔ p entry := by
      intro p
      simp
    rw [hrecord]
    unfold orderTermOf
    dsimp only
    cases hcolumn : givenText? (fieldValue entry orderColumnName) with
    | none =>
      refine .error _ ?_
      rintro ⟨⟨s, hs⟩, -⟩
      have hgiven := givenText?_eq_some_iff.2 hs
      unfold fieldValue at hcolumn
      rw [hgiven] at hcolumn
      cases hcolumn
    | some column =>
      have hname : IsName ((find? entry orderColumnName).getD .null) :=
        ⟨column, givenText?_eq_some_iff.1 hcolumn⟩
      unfold fieldValue
      rcases hfind : find? entry orderDirectionName with _ | v
      · refine .error _ ?_
        rintro ⟨-, s, d, hfound, -⟩
        rw [hfind] at hfound
        cases hfound
      · have hfound : ∀ s d, find? entry orderDirectionName = some (.text s) ∧
            Text.lower s = Direction.name d →
              v = .text s ∧ Direction.ofName? (Text.lower s) = some d := by
          rintro s d ⟨hs, hd⟩
          rw [hfind] at hs
          exact ⟨Option.some.inj hs, Direction.ofName?_eq_some_iff.2 hd⟩
        cases v with
        | text s =>
          dsimp only [Option.getD_some]
          cases hdirection : Direction.ofName? (Text.lower s) with
          | some d =>
            exact .ok _ ⟨hname, s, d, hfind, Direction.ofName?_eq_some_iff.1 hdirection⟩
          | none =>
            refine .error _ ?_
            rintro ⟨-, s', d, hs⟩
            obtain ⟨heq, hd⟩ := hfound s' d hs
            cases heq
            rw [hd] at hdirection
            cases hdirection
        | _ =>
          refine .error _ ?_
          rintro ⟨-, s', d, hs⟩
          cases (hfound s' d hs).1
  | _ => exact .error _ (by simp)

theorem decides_orderTermsFrom (i : Nat) (vs : List Value) :
    Decides (orderTermsFrom i vs).1 (HoldsObjects IsOrderRecord vs) := by
  induction vs generalizing i with
  | nil => exact .ok [] (holdsObjects_nil _)
  | cons v vs ih =>
    have hstep : (orderTermsFrom i (v :: vs)).1 =
        orderTermOf ⟨.order, some i⟩ v >>= fun t => (orderTermsFrom (i + 1) vs).1.map (t :: ·) := by
      rw [orderTermsFrom]
      cases orderTermOf ⟨.order, some i⟩ v with
      | error f => rfl
      | ok t => rfl
    rw [hstep, holdsObjects_cons_iff]
    refine (decides_orderTermOf _ v).bind ?_
    intro t _
    exact (ih (i + 1)).map

end Validation

end RowAccess
