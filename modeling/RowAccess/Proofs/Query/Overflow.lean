import RowAccess.Proofs.Query.Acceptance

/-
  RowAccess/Proofs/Query/Overflow.lean
  ====================================
  **What escapes the check.**  Every check fails with a fault of validation, which is handed on as a
  failure, but one: a bound of a range may spell midnight at the end of the last day of the
  calendar, and the overflow is no fault of the pipeline.  And the words of a refusal show what is
  refused, which may be an integer of more digits than are written.  So the check of a query ends
  with a query or a validation failure, except where it comes to such a bound or has to write such an
  integer (`validate_escapes_iff`).
-/

namespace RowAccess

namespace Validation

open Keyed Acceptance
open Stateful (execute Spans)

variable {α β : Type}

/-! ## Calm checks -/

/-- Does the outcome fail with faults of validation only? -/
def Calm (x : Except Fault α) : Prop :=
  ∀ f, x = .error f → ∃ cause, f = .validation cause

namespace Calm

theorem ok (a : α) : Calm (.ok a : Except Fault α) := by
  intro f hf
  cases hf

theorem fail (cause : ValidationFault) : Calm (Validation.fail cause : Except Fault α) := by
  intro f hf
  cases hf
  exact ⟨cause, rfl⟩

theorem bind {x : Except Fault α} {g : α → Except Fault β} (h : Calm x) (hg : ∀ a, Calm (g a)) :
    Calm (x >>= g) := by
  intro f hf
  cases x with
  | error e =>
    cases hf
    exact h _ rfl
  | ok a => exact hg a f hf

theorem map {x : Except Fault α} {g : α → β} (h : Calm x) : Calm (x.map g) := by
  intro f hf
  cases x with
  | error e =>
    cases hf
    exact h _ rfl
  | ok a => cases hf

end Calm

theorem calm_recordOf (place : Location) (v : Value) : Calm (recordOf place v) := by
  cases v with
  | object record =>
    rw [recordOf]
    split
    · exact .fail _
    · exact .ok _
  | _ => exact .fail _

theorem calm_columnOf (place : Location) (record : Fields) : Calm (columnOf place record) := by
  unfold columnOf
  split
  · exact .ok _
  · exact .fail _

theorem calm_comparatorOf (place : Location) (record : Fields) :
    Calm (comparatorOf place record) := by
  unfold comparatorOf
  dsimp only
  split
  · exact .ok _
  · split
    · split
      · exact .ok _
      · exact .fail _
    · exact .fail _

theorem calm_columnAndValue (place : Location) (record : Fields) :
    Calm (columnAndValue place record) := by
  refine (calm_columnOf place record).bind fun column => ?_
  dsimp only
  split
  · exact .fail _
  · exact .ok _

theorem calm_comparisonOf (place : Location) (record : Fields) :
    Calm (comparisonOf place record) := by
  refine (calm_columnAndValue place record).bind fun parts => ?_
  exact (calm_comparatorOf place record).bind fun c => .ok _

theorem calm_valuesOf (place : Location) (record : Fields) : Calm (valuesOf place record) := by
  unfold valuesOf
  split
  · split
    · exact .fail _
    · exact .ok _
  · exact .fail _

theorem calm_membershipOf (place : Location) (record : Fields) :
    Calm (membershipOf place record) := by
  refine (calm_columnOf place record).bind fun column => ?_
  exact (calm_valuesOf place record).bind fun values => .ok _

theorem calm_recordsFrom (key : Key) (i : Nat) (vs : List Value) : Calm (recordsFrom key i vs) := by
  induction vs generalizing i with
  | nil => exact .ok _
  | cons v vs ih =>
    refine (calm_recordOf _ v).bind fun r => ?_
    exact (ih (i + 1)).bind fun rs => .ok _

theorem calm_recordsOf (key : Key) (v : Value) : Calm (recordsOf key v) := by
  cases v with
  | object record => exact (calm_recordOf _ _).bind fun r => .ok _
  | list vs => exact calm_recordsFrom key 0 vs
  | _ => exact .fail _

theorem calm_comparisonsFrom (key : Key) (i : Nat) (records : List Fields) :
    Calm (comparisonsFrom key i records).1 := by
  induction records generalizing i with
  | nil => exact .ok _
  | cons r rs ih =>
    have hone := calm_comparisonOf ⟨key, some i⟩ r
    rw [comparisonsFrom]
    cases hcomparison : comparisonOf ⟨key, some i⟩ r with
    | error f =>
      obtain ⟨cause, rfl⟩ := hone f hcomparison
      exact .fail cause
    | ok c => exact (ih (i + 1)).map

theorem calm_membershipsFrom (key : Key) (i : Nat) (records : List Fields) :
    Calm (membershipsFrom key i records) := by
  induction records generalizing i with
  | nil => exact .ok _
  | cons r rs ih =>
    refine (calm_membershipOf _ r).bind fun m => ?_
    exact (ih (i + 1)).bind fun ms => .ok _

theorem calm_limitOf (v : Value) : Calm (limitOf v) := by
  unfold limitOf
  split
  · exact .ok _
  · exact .fail _

theorem calm_orderTermOf (place : Location) (v : Value) : Calm (orderTermOf place v) := by
  cases v with
  | object entry =>
    rw [orderTermOf]
    split
    · exact .fail _
    · dsimp only
      split
      · split
        · exact .ok _
        · exact .fail _
      · exact .fail _
  | _ => exact .fail _

theorem calm_orderTermsFrom (i : Nat) (vs : List Value) : Calm (orderTermsFrom i vs).1 := by
  induction vs generalizing i with
  | nil => exact .ok _
  | cons v vs ih =>
    have hone := calm_orderTermOf ⟨.order, some i⟩ v
    rw [orderTermsFrom]
    cases hterm : orderTermOf ⟨.order, some i⟩ v with
    | error f =>
      obtain ⟨cause, rfl⟩ := hone f hterm
      exact .fail cause
    | ok t => exact (ih (i + 1)).map

/-! ## Checks of keys -/

/-- Is the check calm in every query? -/
def Quiet (act : Check α) : Prop :=
  ∀ q, Calm (execute act q).1

namespace Quiet

theorem pure (a : α) : Quiet (Pure.pure a : Check α) := fun _ => .ok a

theorem lift {x : Except Fault α} (h : Calm x) : Quiet (liftM x : Check α) := fun _ => h

theorem fail (cause : ValidationFault) :
    Quiet (liftM (Validation.fail cause : Except Fault α) : Check α) :=
  lift (.fail cause)

theorem write (key : Key) (v : Value) : Quiet (Validation.write key v) := fun _ => .ok ()

theorem lookup (key : Key) : Quiet (Validation.lookup key) := fun _ => .ok _

theorem bind {act : Check α} {next : α → Check β} (h : Quiet act) (hnext : ∀ a, Quiet (next a)) :
    Quiet (act >>= next) := by
  intro q
  have hact := h q
  rw [Stateful.execute_bind]
  rcases hrun : execute act q with ⟨f | a, q'⟩
  · rw [hrun] at hact
    obtain ⟨cause, rfl⟩ := hact f rfl
    exact .fail cause
  · exact hnext a q'

end Quiet

theorem quiet_selection (w : Value) : Quiet (match w with
    | .list columns =>
      if columns.any isMissing then liftM (fail (.select w) : Except Fault (List Value))
      else pure columns
    | _ => liftM (fail (.select w) : Except Fault (List Value)) : Check (List Value)) := by
  split
  · split
    · exact .fail _
    · exact .pure _
  · exact .fail _

theorem quiet_checkSelect : Quiet checkSelect := by
  refine (Quiet.lookup .select).bind ?_
  rintro (_ | v)
  · exact .pure _
  · dsimp only
    split
    · refine (Quiet.write .select _).bind fun _ => ?_
      exact (Quiet.pure _).bind quiet_selection
    · exact (Quiet.pure _).bind quiet_selection

theorem quiet_checkComparisons (key : Key) : Quiet (checkComparisons key) := by
  refine (Quiet.lookup key).bind ?_
  rintro (_ | v)
  · exact .pure _
  · refine (Quiet.lift (calm_recordsOf key v)).bind fun records => ?_
    exact (Quiet.write key _).bind fun _ => .lift (calm_comparisonsFrom key 0 records)

theorem quiet_checkMemberships (key : Key) : Quiet (checkMemberships key) := by
  refine (Quiet.lookup key).bind ?_
  rintro (_ | v)
  · exact .pure _
  · refine (Quiet.lift (calm_recordsOf key v)).bind fun records => ?_
    exact .lift (calm_membershipsFrom key 0 records)

theorem quiet_checkLimit : Quiet checkLimit := by
  refine (Quiet.lookup .limit).bind ?_
  rintro (_ | v)
  · exact .pure _
  · refine (Quiet.lift (calm_limitOf v)).bind fun n => ?_
    exact (Quiet.write .limit _).bind fun _ => .pure _

theorem quiet_order (w : Value) : Quiet (match w with
    | .list entries => do
      write .order (.list (orderTermsFrom 0 entries).2)
      (orderTermsFrom 0 entries).1
    | _ => liftM (fail (.orderKind w) : Except Fault (List OrderTerm)) :
      Check (List OrderTerm)) := by
  split
  · exact (Quiet.write .order _).bind fun _ => .lift (calm_orderTermsFrom 0 _)
  · exact .fail _

theorem quiet_checkOrder : Quiet checkOrder := by
  refine (Quiet.lookup .order).bind ?_
  rintro (_ | v)
  · exact .pure _
  · dsimp only
    split
    · refine (Quiet.write .order _).bind fun _ => ?_
      exact (Quiet.pure _).bind quiet_order
    · exact (Quiet.pure _).bind quiet_order

/-! ## Overflows -/

/-- A text that spells midnight at the end of the last day of the calendar. -/
def PastCalendar (v : Value) : Prop :=
  ∃ s, v = .text s ∧ Iso.read (Text.strip s) = .error .pastCalendar

/-- Does the outcome escape exactly where the condition holds, and fail with faults of validation
otherwise? -/
structure Escapes (x : Except Fault α) (p : Prop) : Prop where
  faults : ∀ f, x = .error f → f = .outOfRange ∨ ∃ cause, f = .validation cause
  overflow : x = .error .outOfRange ↔ p

namespace Escapes

variable {p q : Prop}

theorem of_calm {x : Except Fault α} (h : Calm x) (hp : ¬ p) : Escapes x p := by
  refine ⟨fun f hf => .inr (h f hf), ?_⟩
  constructor
  · intro hx
    obtain ⟨cause, hcause⟩ := h _ hx
    cases hcause
  · exact fun h => absurd h hp

theorem iff {x : Except Fault α} (h : Escapes x p) (hpq : p ↔ q) : Escapes x q :=
  ⟨h.faults, h.overflow.trans hpq⟩

theorem map {x : Except Fault α} {g : α → β} (h : Escapes x p) : Escapes (x.map g) p := by
  cases x with
  | error e =>
    refine ⟨?_, ?_⟩
    · intro f hf
      cases hf
      exact h.faults _ rfl
    · rw [← h.overflow]
      constructor
      · intro he
        cases he
        rfl
      · intro he
        cases he
        rfl
  | ok a =>
    refine ⟨?_, ?_⟩
    · intro f hf
      cases hf
    · rw [← h.overflow]
      constructor
      · intro he
        cases he
      · intro he
        cases he

/-- A sequence escapes in its first part, or after it. -/
theorem bind {p' : Prop} {x : Except Fault α} {g : α → Except Fault β} (h : Escapes x p)
    (hx : Decides x q) (hg : ∀ a, x = .ok a → Escapes (g a) p') :
    Escapes (x >>= g) (p ∨ q ∧ p') := by
  cases x with
  | error e =>
    refine ⟨?_, ?_⟩
    · intro f hf
      cases hf
      exact h.faults _ rfl
    · rw [← h.overflow]
      constructor
      · intro he
        cases he
        exact .inl rfl
      · rintro (he | ⟨hq, -⟩)
        · cases he
          rfl
        · rcases hx.complete hq with ⟨a, ha⟩ | he
          · cases ha
          · cases he
            rfl
  | ok a =>
    refine ⟨(hg a rfl).faults, (hg a rfl).overflow.trans ?_⟩
    rw [← h.overflow]
    constructor
    · exact fun hp' => .inr ⟨hx.sound a rfl, hp'⟩
    · rintro (he | ⟨-, hp'⟩)
      · cases he
      · exact hp'

/-- After a calm part a sequence escapes where the rest does. -/
theorem bind_of_calm {p' : Prop} {x : Except Fault α} {g : α → Except Fault β} (h : Calm x)
    (hx : Decides x q) (hg : ∀ a, x = .ok a → Escapes (g a) p') :
    Escapes (x >>= g) (q ∧ p') :=
  ((of_calm (p := False) h not_false).bind hx hg).iff (by rw [false_or])

end Escapes

/-! ## Ranges past the calendar -/

/-- A range record whose check comes to a bound past the end of the calendar. -/
def IsPastRange (record : Fields) : Prop :=
  ∃ low high, Lists record [low, high] ∧ (PastCalendar low ∨ IsBound low ∧ PastCalendar high)

theorem isTimestampText_eq_outOfRange_iff {v : Value} :
    Conversion.isTimestampText v = .error .outOfRange ↔ PastCalendar v := by
  cases v with
  | text s =>
    rw [isTimestampText_text]
    constructor
    · intro h
      split at h
      · cases h
      next hread => exact ⟨s, rfl, hread⟩
      · cases h
    · rintro ⟨t, heq, hread⟩
      cases heq
      rw [hread]
  | _ =>
    constructor
    · intro h
      cases h
    · rintro ⟨s, heq, -⟩
      cases heq

theorem escapes_boundOf (key : Key) (v : Value) : Escapes (boundOf key v) (PastCalendar v) := by
  rw [← isTimestampText_eq_outOfRange_iff]
  unfold boundOf
  cases htext : Conversion.isTimestampText v with
  | error f =>
    obtain rfl := isTimestampText_error htext
    refine ⟨?_, ?_⟩
    · intro f hf
      cases hf
      exact .inl rfl
    · exact ⟨fun _ => rfl, fun _ => rfl⟩
  | ok spells =>
    refine .of_calm ?_ (by simp)
    cases spells with
    | true => exact .ok _
    | false =>
      dsimp only [bind, Except.bind]
      rw [if_neg Bool.false_ne_true]
      cases v.numeral? with
      | some n => exact .ok _
      | none => exact .fail _

theorem escapes_rangeOf (place : Location) {record : Fields} (hflat : IsFlat record) :
    Escapes (rangeOf place record) (IsPastRange record) := by
  have hparts : Escapes (rangeOf place record) (IsName (field record .column) ∧
      (∃ v vs, field record .values = .list (v :: vs) ∧
        ∀ w ∈ v :: vs, IsPresent w ∧ IsSingle w) ∧
        ∃ low high, field record .values = .list [low, high] ∧
          (PastCalendar low ∨ IsBound low ∧ PastCalendar high)) := by
    refine .bind_of_calm (calm_columnOf place record) (decides_columnOf place record) ?_
    intro column _
    refine .bind_of_calm (calm_valuesOf place record) (decides_valuesOf place record) ?_
    rintro ⟨v, vs⟩ hvalues
    obtain ⟨hfield, -⟩ := valuesOf_eq_ok_iff.1 hvalues
    rw [hfield]
    rcases vs with _ | ⟨w, _ | ⟨u, us⟩⟩
    · exact .of_calm (.fail _) (by simp)
    · have hbounds : Escapes (do
          let low ← boundOf place.key v
          let high ← boundOf place.key w
          return (⟨.text column, low, high⟩ : Range))
            (PastCalendar v ∨ IsBound v ∧ PastCalendar w) := by
        refine (escapes_boundOf place.key v).bind (decides_boundOf place.key v) ?_
        intro low _
        exact (escapes_boundOf place.key w).map
      refine hbounds.iff ?_
      constructor
      · exact fun h => ⟨v, w, rfl, h⟩
      · rintro ⟨low, high, heq, h⟩
        cases heq
        exact h
    · exact .of_calm (.fail _) (by simp)
  refine hparts.iff ?_
  constructor
  · rintro ⟨hcolumn, ⟨v, vs, hfield, hentries⟩, low, high, hvalues, h⟩
    cases hfield.symm.trans hvalues
    exact ⟨_, _, ⟨⟨hcolumn, hflat⟩, hvalues, hentries⟩, h⟩
  · rintro ⟨low, high, hlists, h⟩
    exact ⟨hlists.column, ⟨low, [high], hlists.values, hlists.entries⟩, low, high, hlists.values, h⟩

/-- Does the check of the starter's record come to a bound past the end of the calendar? -/
def IsPastStarter (kind : StarterKind) (record : Fields) : Prop :=
  (kind = .whereBetween ∨ kind = .whereNotBetween) ∧ IsPastRange record

theorem escapes_starterClause (kind : StarterKind) {record : Fields} (hflat : IsFlat record) :
    Escapes (starterClause kind record) (IsPastStarter kind record) := by
  have hcomparison : Calm (comparisonOf ⟨.starter kind, none⟩ record) := calm_comparisonOf _ _
  have hmembership : Calm (membershipOf ⟨.starter kind, none⟩ record) := calm_membershipOf _ _
  cases kind with
  | where_ => exact .of_calm (hcomparison.bind fun _ => .ok _) (by simp [IsPastStarter])
  | whereNot => exact .of_calm (hcomparison.bind fun _ => .ok _) (by simp [IsPastStarter])
  | whereIn => exact .of_calm (hmembership.bind fun _ => .ok _) (by simp [IsPastStarter])
  | whereNotIn => exact .of_calm (hmembership.bind fun _ => .ok _) (by simp [IsPastStarter])
  | whereLike =>
    have hlike : Calm (likeOf ⟨.starter .whereLike, none⟩ record) :=
      (calm_columnAndValue _ record).bind fun _ => .ok _
    exact .of_calm (hlike.bind fun _ => .ok _) (by simp [IsPastStarter])
  | whereBetween => exact (escapes_rangeOf _ hflat).map.iff (by simp [IsPastStarter])
  | whereNotBetween => exact (escapes_rangeOf _ hflat).map.iff (by simp [IsPastStarter])

/-! ## Queries that overflow -/

theorem Quiet.then_escapes {act : Check α} {next : α → Check β} {query : Fields} {p q : Prop}
    (h : Quiet act) (hact : Decides (execute act query).1 q)
    (hnext : ∀ a query', execute act query = (.ok a, query') →
      Escapes (execute (next a) query').1 p) :
    Escapes (execute (act >>= next) query).1 (q ∧ p) := by
  have hcalm := h query
  rw [Stateful.execute_bind]
  rcases hrun : execute act query with ⟨f | a, query'⟩
  · rw [hrun] at hact hcalm
    obtain ⟨cause, rfl⟩ := hcalm f rfl
    refine .of_calm (.fail cause) ?_
    rintro ⟨hq, -⟩
    rcases hact.complete hq with ⟨a, ha⟩ | hf
    · cases ha
    · cases hf
  · rw [hrun] at hact
    have hq : q := hact.sound a rfl
    refine (hnext a query' hrun).iff ?_
    exact ⟨fun hp => ⟨hq, hp⟩, fun hboth => hboth.2⟩

/-- Nothing escapes after a check once the checks that follow are quiet. -/
theorem Escapes.then_quiet {act : Check α} {next : α → Check β} {query : Fields} {p : Prop}
    (h : Escapes (execute act query).1 p) (hnext : ∀ a, Quiet (next a)) :
    Escapes (execute (act >>= next) query).1 p := by
  rw [Stateful.execute_bind]
  rcases hrun : execute act query with ⟨f | a, query'⟩
  · rw [hrun] at h
    refine ⟨?_, ?_⟩
    · intro f' hf
      cases hf
      exact h.faults f rfl
    · rw [← h.overflow]
      constructor
      · intro he
        cases he
        rfl
      · intro he
        cases he
        rfl
  · rw [hrun] at h
    refine .of_calm (hnext a query') ?_
    intro hp
    cases h.overflow.2 hp

/-- Does the query have one starter, and does its check come to a bound past the end of the
calendar? -/
def StartsPast (query : Fields) : Prop :=
  ∃ kind record, find? query (StarterKind.name kind) = some (.object record) ∧
    (∀ k v, find? query (StarterKind.name k) = some v → k = kind) ∧ IsPastStarter kind record

theorem escapes_checkStarter (query : Fields) :
    Escapes (execute checkStarter query).1 (StartsPast query) := by
  unfold checkStarter
  rw [Stateful.execute_bind, show execute (get : Check Fields) query = (.ok query, query) from rfl]
  dsimp only
  have hfind : ∀ kind v, find? query (StarterKind.name kind) = some v ↔
      (kind, v) ∈ presentStarters query := fun kind v => mem_presentStarters.symm
  unfold StartsPast
  simp only [hfind]
  rcases hlist : presentStarters query with _ | ⟨⟨kind, v⟩, _ | ⟨⟨k, w⟩, rest⟩⟩
  · exact .of_calm (.ok none) (by simp)
  · have hescapes : Escapes (recordOf ⟨.starter kind, none⟩ v >>= fun record =>
        (starterClause kind record).map fun c => some (⟨kind, c.1⟩ : Starter))
          ((∃ record, v = .object record ∧ IsFlat record) ∧
            ∃ record, v = .object record ∧ IsPastStarter kind record) := by
      refine .bind_of_calm (calm_recordOf _ v) (decides_recordOf _ v) ?_
      intro record hrecord
      obtain ⟨rfl, hflat⟩ := recordOf_eq_ok hrecord
      refine (escapes_starterClause kind hflat).map.iff ?_
      simp
    rw [← execute_oneStarter kind v query] at hescapes
    refine hescapes.iff ?_
    constructor
    · rintro ⟨-, record, rfl, hpast⟩
      refine ⟨kind, record, List.mem_singleton.2 rfl, ?_, hpast⟩
      intro k w hk
      exact (Prod.mk.inj (List.mem_singleton.1 hk)).1
    · rintro ⟨k, record, hk, -, hpast⟩
      cases List.mem_singleton.1 hk
      obtain ⟨-, low, high, hlists, -⟩ := id hpast
      exact ⟨⟨record, rfl, hlists.single⟩, record, rfl, hpast⟩
  · refine .of_calm (.fail _) ?_
    rintro ⟨kind', record, -, hone, -⟩
    exact ne_of_presentStarters hlist
      ((hone kind v (by simp)).trans (hone k w (by simp)).symm)

theorem escapes_checkRows (query : Fields) : Escapes (execute checkRows query).1
    ((∀ v, find? query Key.select.name = some v → IsSelection v) ∧ StartsPast query) := by
  have hrest : ∀ select starter, Quiet (do
      let andWhere ← checkComparisons .andWhere
      let orWhere ← checkComparisons .orWhere
      let orWhereIn ← checkMemberships .orWhereIn
      let limit ← checkLimit
      let order ← checkOrder
      return { select, starter, andWhere, orWhere, orWhereIn, limit, order } : Check Query) := by
    intro select starter
    refine (quiet_checkComparisons .andWhere).bind fun andWhere => ?_
    refine (quiet_checkComparisons .orWhere).bind fun orWhere => ?_
    refine (quiet_checkMemberships .orWhereIn).bind fun orWhereIn => ?_
    refine quiet_checkLimit.bind fun limit => ?_
    exact quiet_checkOrder.bind fun order => .pure _
  have hselect : Decides (execute checkSelect query).1
      (∀ v, find? query Key.select.name = some v → IsSelection v) :=
    judges_checkSelect query fun _ _ => rfl
  refine quiet_checkSelect.then_escapes hselect ?_
  intro select query' hrun
  have hagree : ∀ k : StarterKind, find? query' k.name = find? query k.name := by
    intro k
    have hspans : AgreeBut 0 query (execute checkSelect query).2 := spans_checkSelect query
    rw [hrun] at hspans
    exact hspans (.starter k) Nat.one_ne_zero
  have hstarts : StartsPast query' ↔ StartsPast query := by
    unfold StartsPast
    simp only [hagree]
  exact ((escapes_checkStarter query').then_quiet (hrest select)).iff hstarts

theorem mem_presentAggregates {query : Fields} {f : Aggregate} {v : Value} :
    (f, v) ∈ presentAggregates query ↔ find? query f.name = some v := by
  unfold presentAggregates
  rw [List.mem_filterMap]
  constructor
  · rintro ⟨g, -, hg⟩
    obtain ⟨w, hw, heq⟩ := Option.map_eq_some_iff.1 hg
    cases heq
    exact hw
  · intro h
    exact ⟨f, by cases f <;> decide, by rw [h]; rfl⟩

/-- Does the check of the query come to a bound past the end of the calendar?  It does where nothing
ends it before: all names are keys, there is no aggregate, and the selection is one. -/
structure Overflows (query : Fields) : Prop where
  names : ∀ name ∈ keys query, Key.isName name = true
  noAggregate : ∀ f, find? query (Aggregate.name f) = none
  selection : ∀ v, find? query Key.select.name = some v → IsSelection v
  starter : StartsPast query

/-- A query with an aggregate is checked no further than the aggregate. -/
theorem calm_checkFrom (first : Aggregate × Value) (rest : List (Aggregate × Value))
    (query : Fields) : Calm (execute (checkFrom (first :: rest)) query).1 := by
  obtain ⟨f, v⟩ := first
  have hgiven : ∃ x : Except Fault AggregateRequest,
      Calm x ∧ aggregateOf ((f, v) :: rest) = x.map some := by
    cases rest with
    | nil =>
      cases hname : givenText? v with
      | some column => exact ⟨.ok ⟨f, column⟩, .ok _, by rw [aggregateOf, hname]; rfl⟩
      | none => exact ⟨fail (.aggregateColumn f), .fail _, by rw [aggregateOf, hname]; rfl⟩
    | cons e rest => exact ⟨fail .twoAggregates, .fail _, rfl⟩
  obtain ⟨x, hx, haggregate⟩ := hgiven
  unfold checkFrom
  rw [haggregate]
  cases x with
  | error e =>
    obtain ⟨cause, rfl⟩ := hx e rfl
    exact .fail cause
  | ok request => exact .ok _

theorem escapes_check (query : Fields) : Escapes (execute check query).1 (Overflows query) := by
  unfold check
  rw [Stateful.execute_bind, show execute (get : Check Fields) query = (.ok query, query) from rfl]
  dsimp only
  cases hunknown : unknownName? query with
  | some name =>
    refine .of_calm (.fail _) ?_
    intro h
    rw [unknownName?_eq_none_iff.2 h.names] at hunknown
    cases hunknown
  | none =>
    have hnames := unknownName?_eq_none_iff.1 hunknown
    show Escapes (execute (checkFrom (presentAggregates query)) query).1 _
    rcases hlist : presentAggregates query with _ | ⟨⟨f, v⟩, rest⟩
    · have hnone : ∀ f, find? query (Aggregate.name f) = none := by
        intro f
        cases hfind : find? query f.name with
        | none => rfl
        | some v =>
          have hmem := mem_presentAggregates.2 hfind
          rw [hlist] at hmem
          cases hmem
      refine (escapes_checkRows query).iff ?_
      exact ⟨fun h => ⟨hnames, hnone, h.1, h.2⟩, fun h => ⟨h.selection, h.starter⟩⟩
    · refine .of_calm (calm_checkFrom (f, v) rest query) ?_
      intro h
      have hfind := mem_presentAggregates.1 (show (f, v) ∈ presentAggregates query by simp [hlist])
      rw [h.noAggregate f] at hfind
      cases hfind

/-- Is the value refused for the cause? -/
inductive Refuses : Value → ValidationFault → Prop
  | kind {v : Value} (h : v.isObject = false) : Refuses v (.queryKind v)
  | check {query : Fields} {cause : ValidationFault}
    (h : (execute check query).1 = .error (.validation cause)) : Refuses (.object query) cause

/-- A query or a value is refused for one cause at most. -/
theorem Refuses.unique {v : Value} {cause cause' : ValidationFault} (h : Refuses v cause)
    (h' : Refuses v cause') : cause = cause' := by
  cases h with
  | kind hkind =>
    cases h' with
    | kind => rfl
    | check => cases hkind
  | check hcheck =>
    cases h' with
    | kind hkind => cases hkind
    | check hcheck' =>
      rw [hcheck] at hcheck'
      cases hcheck'
      rfl

/-- A refusal is handed on as a failure where its words can be written. -/
theorem validate_of_refuses {v : Value} {cause : ValidationFault} (h : Refuses v cause) :
    (validate v).1 =
      if (Fault.validation cause).isWritable then .ok (.error ⟨.validation, cause.message⟩)
      else .error (.badArgument .integerToWrite) := by
  have hcapture := capture_of_failure? (α := Query) (f := .validation cause) rfl
  cases h with
  | kind hkind => rwa [validate_of_not_isObject hkind]
  | @check query _ hcheck =>
    have hrun : (validate (.object query)).1 = capture (execute check query).1 := rfl
    rw [hrun, hcheck, hcapture]

/-- The check ends with a query, with a refusal, or with the overflow of the calendar. -/
theorem check_cases (v : Value) :
    ((∃ query, (validate v).1 = .ok (.ok query)) ∧ (∀ cause, ¬ Refuses v cause) ∧
        ¬ ∃ query, v = .object query ∧ Overflows query) ∨
      ((∃ cause, Refuses v cause) ∧ ¬ ∃ query, v = .object query ∧ Overflows query) ∨
        ((validate v).1 = .error .outOfRange ∧ (∀ cause, ¬ Refuses v cause) ∧
          ∃ query, v = .object query ∧ Overflows query) := by
  cases v with
  | object query =>
    have hescapes := escapes_check query
    have hrun : (validate (.object query)).1 = capture (execute check query).1 := rfl
    have hobject : (∃ q, Value.object query = .object q ∧ Overflows q) ↔ Overflows query := by
      simp
    have hrefuses : ∀ cause, Refuses (.object query) cause →
        (execute check query).1 = .error (.validation cause) := by
      intro cause h
      cases h with
      | kind hkind => cases hkind
      | check hcheck => exact hcheck
    rw [hobject, ← hescapes.overflow, hrun]
    rcases hcheck : (execute check query).1 with f | q
    · rw [hcheck] at hescapes hrefuses
      rcases hescapes.faults f rfl with rfl | ⟨cause, rfl⟩
      · refine .inr (.inr ⟨rfl, fun cause h => ?_, rfl⟩)
        cases hrefuses cause h
      · exact .inr (.inl ⟨⟨cause, .check hcheck⟩, nofun⟩)
    · rw [hcheck] at hrefuses
      refine .inl ⟨⟨q, rfl⟩, fun cause h => ?_, nofun⟩
      cases hrefuses cause h
  | _ =>
    refine .inr (.inl ⟨⟨_, .kind rfl⟩, ?_⟩)
    rintro ⟨query, heq, -⟩
    cases heq

end Validation

open Validation in
/-- **What escapes the check.**  The check of a value ends with a query or a validation failure, but
for two cases: where it comes to a bound of a range past the end of the calendar, it ends with the
overflow, and where the words of its refusal show an integer of too many digits, with the refusal to
write it.  Neither is a failure. -/
theorem validate_escapes_iff (v : Value) :
    ((∃ query, (validate v).1 = .ok (.ok query)) ∨
        (∃ detail, (validate v).1 = .ok (.error ⟨.validation, detail⟩)) ∨
          (validate v).1 = .error .outOfRange ∨
            (validate v).1 = .error (.badArgument .integerToWrite)) ∧
      ((validate v).1 = .error .outOfRange ↔ ∃ query, v = .object query ∧ Overflows query) ∧
        ((validate v).1 = .error (.badArgument .integerToWrite) ↔
          ∃ cause, Refuses v cause ∧ (Fault.validation cause).isWritable = false) := by
  rcases check_cases v with ⟨⟨query, hv⟩, hrefuses, hpast⟩ | ⟨⟨cause, hcause⟩, hpast⟩ |
    ⟨hv, hrefuses, hpast⟩
  · rw [hv]
    simp [hrefuses, hpast]
  · have hone : (∃ c, Refuses v c ∧ (Fault.validation c).isWritable = false) ↔
        (Fault.validation cause).isWritable = false :=
      ⟨fun ⟨c, hc, hlong⟩ => hc.unique hcause ▸ hlong, fun hlong => ⟨cause, hcause, hlong⟩⟩
    rw [hone, validate_of_refuses hcause]
    cases (Fault.validation cause).isWritable <;> simp [hpast]
  · rw [hv]
    simp [hrefuses, hpast]

/-- A query for rows up to the end of the calendar. -/
def lastMidnight : Value :=
  .object [("WHERE_BETWEEN", .object [("COLUMN", .text "CREATED"),
    ("VALUES", .list [.text "2020-01-01", .text "9999-12-31T24:00:00"])])]

theorem validate_lastMidnight :
    ¬ ∀ v, (∃ query, (validate v).1 = .ok (.ok query)) ∨
      ∃ detail, (validate v).1 = .ok (.error ⟨.validation, detail⟩) := by
  intro h
  have hescapes : (validate lastMidnight).1 = .error .outOfRange := rfl
  rcases h lastMidnight with ⟨query, hquery⟩ | ⟨detail, hdetail⟩
  · rw [hescapes] at hquery
    cases hquery
  · rw [hescapes] at hdetail
    cases hdetail

end RowAccess
