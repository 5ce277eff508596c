import RowAccess.Proofs.Query.Settled

/-
  RowAccess/Proofs/Query/Normal.lean
  ==================================
  **Checking is a normalization.**  The record form of a typed query holds under every key what the
  query says (`Query.under`).  Where the typed query comes from a check, each key of its record form
  is checked with the same result and left as it is, so the record form gives the query back; and
  what a check leaves of any query is settled (`validate_normalizes`).
-/

namespace RowAccess

/-- What a list of records puts under its key: nothing where it is empty. -/
def recordsIn (records : List Fields) : Option Value :=
  if records.isEmpty then none else some (.list (records.map .object))

/-- What the record form of a query holds under a key. -/
def Query.under (q : Query) : Key → Option Value
  | .select => if q.select.isEmpty then none else some (.list q.select)
  | .starter kind => q.starter.bind fun s =>
    if s.kind = kind then some (.object s.clause.toRecord) else none
  | .andWhere => recordsIn (q.andWhere.map Comparison.toRecord)
  | .orWhere => recordsIn (q.orWhere.map Comparison.toRecord)
  | .orWhereIn => recordsIn (q.orWhereIn.map Membership.toRecord)
  | .aggregate f => q.aggregate.bind fun a => if a.function = f then some (.text a.column) else none
  | .limit => q.limit.map fun n : Nat => .int n
  | .order => recordsIn (q.order.map OrderTerm.toRecord)

namespace Validation

open Keyed Acceptance
open Stateful (execute)

variable {α : Type}

/-! ## The record form -/

theorem find?_entry (k key : Key) (v : Value) :
    find? [(k.name, v)] key.name = if k = key then some v else none := by
  by_cases hk : k = key
  · subst hk
    simp [find?]
  · have hne : k.name ≠ key.name := fun hname => hk (Key.name_injective hname)
    simp [find?, hk, hne]

theorem find?_recordsUnder (k key : Key) (records : List Fields) :
    find? (Query.recordsUnder k records) key.name =
      if k = key then recordsIn records else none := by
  unfold Query.recordsUnder recordsIn
  cases records.isEmpty with
  | true => simp
  | false => exact find?_entry k key _

theorem find?_toRecord (q : Query) (key : Key) : find? q.toRecord key.name = q.under key := by
  obtain ⟨select, starter, andWhere, orWhere, orWhereIn, aggregate, limit, order⟩ := q
  have hselect : find? (if select.isEmpty then [] else [(Key.select.name, Value.list select)])
      key.name = if Key.select = key then
        (if select.isEmpty then none else some (.list select)) else none := by
    cases select.isEmpty with
    | true => simp
    | false => exact find?_entry .select key _
  have hstarter : ∀ s : Starter, find? [(s.kind.name, Value.object s.clause.toRecord)] key.name =
      if Key.starter s.kind = key then some (.object s.clause.toRecord) else none :=
    fun s => find?_entry (.starter s.kind) key _
  have haggregate : ∀ a : AggregateRequest,
      find? [(a.function.name, Value.text a.column)] key.name =
        if Key.aggregate a.function = key then some (.text a.column) else none :=
    fun a => find?_entry (.aggregate a.function) key _
  have hlimit : ∀ n : Nat, find? [(Key.limit.name, Value.int n)] key.name =
      if Key.limit = key then some (.int n) else none :=
    fun n => find?_entry .limit key _
  unfold Query.toRecord Query.under
  simp only [find?_append, hselect, find?_recordsUnder]
  cases starter <;> cases aggregate <;> cases limit <;> cases key <;>
    simp [hstarter, haggregate, hlimit]

/-- A record form stands under the names of keys. -/
theorem isName_of_mem_toRecord {q : Query} {name : String} (h : name ∈ keys q.toRecord) :
    Key.isName name = true := by
  have hkey : ∀ key : Key, Key.isName key.name = true := by
    intro key
    rw [Key.isName, Key.ofName?_name]
    rfl
  have hrecords : ∀ (key : Key) (records : List Fields),
      name ∈ keys (Query.recordsUnder key records) → Key.isName name = true := by
    intro key records hname
    unfold Query.recordsUnder at hname
    split at hname
    · cases hname
    · rw [List.mem_singleton.1 hname]
      exact hkey key
  obtain ⟨select, starter, andWhere, orWhere, orWhereIn, aggregate, limit, order⟩ := q
  rw [Query.toRecord, keys] at h
  simp only [List.map_append, List.mem_append] at h
  rcases h with ((((((h | h) | h) | h) | h) | h) | h) | h
  · cases hempty : select.isEmpty with
    | true => simp [hempty] at h
    | false =>
      simp only [hempty, Bool.false_eq_true, if_false, List.map_cons, List.map_nil,
        List.mem_singleton] at h
      rw [h]
      exact hkey .select
  · cases starter with
    | none => cases h
    | some s =>
      rw [List.mem_singleton.1 h]
      exact hkey (.starter s.kind)
  · exact hrecords _ _ h
  · exact hrecords _ _ h
  · exact hrecords _ _ h
  · cases aggregate with
    | none => cases h
    | some a =>
      rw [List.mem_singleton.1 h]
      exact hkey (.aggregate a.function)
  · cases limit with
    | none => cases h
    | some n =>
      rw [List.mem_singleton.1 h]
      exact hkey .limit
  · exact hrecords _ _ h

/-! ## Keys of the record form -/

/-- Does the check give its result again, and leave the query as it is, wherever the query holds
what was written down for the result? -/
def Renders (written : α → Fields → Prop) (act : Check α) : Prop :=
  ∀ q a left r, execute act q = (.ok a, left) → written a r → execute act r = (.ok a, r)

/-- A check of one key renders its result where the value written down for it gives the result
again. -/
theorem Reads.renders {key : Key} {absent : α} {f : Value → Except Fault α × Value}
    {act : Check α} (h : Reads key absent f act) {form : α → Option Value}
    (habsent : ∀ a, form a = none ↔ a = absent)
    (hform : ∀ v a w, (f v).1 = .ok a → form a = some w → f w = (.ok a, w)) :
    Renders (fun a r => find? r key.name = form a) act := by
  intro q a left r hact hwritten
  cases hr : form a with
  | none =>
    rw [hr] at hwritten
    rw [h.absent r hwritten, (habsent a).1 hr]
  | some w =>
    rw [hr] at hwritten
    cases hq : find? q key.name with
    | none =>
      rw [h.absent q hq] at hact
      cases hact
      rw [(habsent absent).2 rfl] at hr
      cases hr
    | some v =>
      rw [h.present q v hq] at hact
      rw [h.present r w hwritten, hform v a w (congrArg Prod.fst hact) hr, put_of_find? hwritten]

theorem recordsIn_eq_none_iff {β : Type} {g : β → Fields} {bs : List β} :
    recordsIn (bs.map g) = none ↔ bs = [] := by
  cases bs <;> simp [recordsIn]

theorem recordsIn_eq_some {records : List Fields} {w : Value}
    (h : recordsIn records = some w) : w = .list (records.map .object) := by
  unfold recordsIn at h
  split at h
  · cases h
  · exact (Option.some.inj h).symm

theorem renders_checkSelect :
    Renders (fun a r => find? r Key.select.name = if a.isEmpty then none else some (.list a))
      checkSelect := by
  refine reads_checkSelect.renders (fun a => by cases a <;> simp) ?_
  intro v a w hv hw
  have hw' : w = .list a := by
    split at hw
    · cases hw
    · exact (Option.some.inj hw).symm
  have hlist : ∀ vs : List Value,
      (if vs.any isMissing then fail (.select (.list vs)) else .ok vs) = .ok a →
        selectionOf (.list a) = (.ok a, .list a) := by
    intro vs hvs
    split at hvs
    · cases hvs
    next hany =>
      cases hvs
      simp only [selectionOf, listed]
      rw [if_neg hany]
  rw [hw']
  cases v with
  | text s => exact hlist [.text s] hv
  | list vs => exact hlist vs hv
  | _ => cases hv

theorem renders_checkComparisons (key : Key) :
    Renders (fun a r => find? r key.name = recordsIn (a.map Comparison.toRecord))
      (checkComparisons key) := by
  refine (reads_checkComparisons key).renders (fun a => recordsIn_eq_none_iff) ?_
  intro v cs w hv hw
  rw [recordsIn_eq_some hw]
  rw [comparisonsOf] at hv
  cases hrecords : recordsOf key v with
  | error f =>
    rw [hrecords] at hv
    cases hv
  | ok records =>
    rw [hrecords] at hv
    obtain ⟨hflat, hagain⟩ := comparisonsFrom_toRecord (isFlat_of_recordsOf hrecords) hv 0
    have hlist : recordsOf key (.list ((cs.map Comparison.toRecord).map .object)) =
        .ok (cs.map Comparison.toRecord) := recordsFrom_map key 0 hflat
    rw [comparisonsOf, hlist]
    dsimp only
    rw [hagain]
    rfl

theorem renders_checkMemberships (key : Key) :
    Renders (fun a r => find? r key.name = recordsIn (a.map Membership.toRecord))
      (checkMemberships key) := by
  refine (reads_checkMemberships key).renders (fun a => recordsIn_eq_none_iff) ?_
  intro v ms w hv hw
  rw [recordsIn_eq_some hw]
  obtain ⟨records, -, hms⟩ := Outcome.bind_eq_ok_iff.1 hv
  obtain ⟨hflat, hagain⟩ := membershipsFrom_toRecord hms 0
  have hlist : recordsOf key (.list ((ms.map Membership.toRecord).map .object)) =
      .ok (ms.map Membership.toRecord) := recordsFrom_map key 0 hflat
  rw [membershipsOf, hlist, Outcome.ok_bind, hagain]

theorem renders_checkLimit :
    Renders (fun a r => find? r Key.limit.name = Option.map (fun n : Nat => Value.int n) a)
      checkLimit := by
  refine reads_checkLimit.renders (fun a => Option.map_eq_none_iff) ?_
  intro v a w _ hw
  obtain ⟨n, rfl, rfl⟩ := Option.map_eq_some_iff.1 hw
  rfl

theorem renders_checkOrder :
    Renders (fun a r => find? r Key.order.name = recordsIn (a.map OrderTerm.toRecord))
      checkOrder := by
  refine reads_checkOrder.renders (fun a => recordsIn_eq_none_iff) ?_
  intro v ts w hv hw
  rw [recordsIn_eq_some hw, List.map_map]
  have hentries : ∃ vs, (orderTermsFrom 0 vs).1 = .ok ts := by
    rw [orderOf] at hv
    split at hv
    next vs _ => exact ⟨vs, hv⟩
    next => cases hv
  obtain ⟨vs, hvs⟩ := hentries
  show ((orderTermsFrom 0 (ts.map fun t => .object t.toRecord)).1,
    Value.list (orderTermsFrom 0 (ts.map fun t => .object t.toRecord)).2) = _
  rw [orderTermsFrom_toRecord hvs]
  rfl

theorem renders_checkStarter : Renders (fun a r => ∀ kind, find? r (StarterKind.name kind) =
    a.bind fun s => if s.kind = kind then some (.object s.clause.toRecord) else none)
      checkStarter := by
  intro q a left r hact hwritten
  rcases hlist : presentStarters q with _ | ⟨⟨kind, v⟩, _ | ⟨t, rest⟩⟩
  · rw [execute_checkStarter_none hlist] at hact
    cases hact
    refine execute_checkStarter_none (List.filterMap_eq_nil_iff.2 ?_)
    intro kind _
    rw [hwritten kind]
    rfl
  · rw [execute_checkStarter_one hlist] at hact
    have hstarter : (starterOf kind v).1 = .ok a := congrArg Prod.fst hact
    rw [starterOf] at hstarter
    cases hrecord : recordOf ⟨.starter kind, none⟩ v with
    | error f =>
      rw [hrecord] at hstarter
      cases hstarter
    | ok record =>
      rw [hrecord] at hstarter
      dsimp only at hstarter
      cases hclause : starterClause kind record with
      | error f =>
        rw [hclause] at hstarter
        cases hstarter
      | ok parts =>
        obtain ⟨clause, kept⟩ := parts
        rw [hclause] at hstarter
        cases hstarter
        obtain ⟨hflat, hgives⟩ :=
          (gives_of_starterClause hclause).toRecord (recordOf_eq_ok hrecord).2
        have hkind : find? r kind.name = some (.object clause.toRecord) := by
          rw [hwritten kind]
          simp
        have hone : presentStarters r = [(kind, .object clause.toRecord)] := by
          refine presentStarters_eq_singleton hkind ?_
          intro k hk
          rw [hwritten k]
          simp [Ne.symm hk]
        rw [execute_checkStarter_one hone, starterOf, recordOf_object _ hflat]
        dsimp only
        rw [hgives.starterClause]
        dsimp only
        rw [put_of_find? hkind]
  · rw [execute_checkStarter_several hlist] at hact
    cases hact

/-! ## The typed form -/

open Stateful in
/-- The record form of a query for rows gives the query and is left as it is. -/
theorem execute_checkRows_toRecord {q left : Fields} {query : Query}
    (h : execute checkRows q = (.ok query, left)) :
    query.aggregate = none ∧
      execute checkRows query.toRecord = (.ok query, query.toRecord) := by
  obtain ⟨select, q₁, hselect, h⟩ := execute_bind_eq_ok_iff.1 h
  obtain ⟨starter, q₂, hstarter, h⟩ := execute_bind_eq_ok_iff.1 h
  obtain ⟨andWhere, q₃, hand, h⟩ := execute_bind_eq_ok_iff.1 h
  obtain ⟨orWhere, q₄, hor, h⟩ := execute_bind_eq_ok_iff.1 h
  obtain ⟨orWhereIn, q₅, horIn, h⟩ := execute_bind_eq_ok_iff.1 h
  obtain ⟨limit, q₆, hlimit, h⟩ := execute_bind_eq_ok_iff.1 h
  obtain ⟨order, q₇, horder, h⟩ := execute_bind_eq_ok_iff.1 h
  cases h
  refine ⟨rfl, ?_⟩
  have hunder := find?_toRecord { select, starter, andWhere, orWhere, orWhereIn, limit, order }
  have hselect' := renders_checkSelect _ _ _ _ hselect (hunder .select)
  have hstarter' := renders_checkStarter _ _ _ _ hstarter fun kind => hunder (.starter kind)
  have hand' := renders_checkComparisons .andWhere _ _ _ _ hand (hunder .andWhere)
  have hor' := renders_checkComparisons .orWhere _ _ _ _ hor (hunder .orWhere)
  have horIn' := renders_checkMemberships .orWhereIn _ _ _ _ horIn (hunder .orWhereIn)
  have hlimit' := renders_checkLimit _ _ _ _ hlimit (hunder .limit)
  have horder' := renders_checkOrder _ _ _ _ horder (hunder .order)
  refine execute_bind_eq_ok_iff.2 ⟨_, _, hselect', ?_⟩
  refine execute_bind_eq_ok_iff.2 ⟨_, _, hstarter', ?_⟩
  refine execute_bind_eq_ok_iff.2 ⟨_, _, hand', ?_⟩
  refine execute_bind_eq_ok_iff.2 ⟨_, _, hor', ?_⟩
  refine execute_bind_eq_ok_iff.2 ⟨_, _, horIn', ?_⟩
  refine execute_bind_eq_ok_iff.2 ⟨_, _, hlimit', ?_⟩
  exact execute_bind_eq_ok_iff.2 ⟨_, _, horder', rfl⟩

/-- The record form of an aggregate asks for the aggregate. -/
theorem aggregateOf_toRecord {present : List (Aggregate × Value)} {request : AggregateRequest}
    (h : aggregateOf present = .ok (some request)) :
    aggregateOf (presentAggregates ({ aggregate := some request } : Query).toRecord) =
      .ok (some request) := by
  unfold aggregateOf at h
  split at h
  · cases h
  next f v =>
    cases hgiven : givenText? v with
    | none =>
      rw [hgiven] at h
      cases h
    | some column =>
      rw [hgiven] at h
      cases h
      have hpresent : presentAggregates ({ aggregate := some ⟨f, column⟩ } : Query).toRecord =
          [(f, .text column)] := by
        cases f <;> rfl
      have htext : givenText? (.text column) = some column :=
        givenText?_eq_some_iff.2 ⟨rfl, (givenText?_eq_some_iff.1 hgiven).2⟩
      rw [hpresent, aggregateOf, htext]
  · cases h

/-- The record form of a query that the check gives is checked with the same result and left as it
is. -/
theorem execute_check_toRecord {q left : Fields} {query : Query}
    (h : execute check q = (.ok query, left)) :
    execute check query.toRecord = (.ok query, query.toRecord) := by
  have hnames : unknownName? query.toRecord = none :=
    unknownName?_eq_none_iff.2 fun name hname => isName_of_mem_toRecord hname
  cases hgiven : unknownName? q with
  | some name =>
    rw [execute_check_unknown hgiven] at h
    cases h
  | none =>
    rw [execute_check hgiven] at h
    rcases haggregate : aggregateOf (presentAggregates q) with f | _ | request
    · rw [haggregate] at h
      cases h
    · rw [haggregate] at h
      obtain ⟨hnone, hrows⟩ := execute_checkRows_toRecord h
      have hpresent : presentAggregates query.toRecord = [] := by
        refine List.filterMap_eq_nil_iff.2 ?_
        intro f _
        rw [show find? query.toRecord f.name = _ from find?_toRecord query (.aggregate f),
          Query.under, hnone]
        rfl
      rw [execute_check hnames, hpresent]
      exact hrows
    · rw [haggregate] at h
      cases h
      rw [execute_check hnames, aggregateOf_toRecord haggregate]

end Validation

open Validation in
/-- **Checking is a normalization.**  What the check leaves of a query, also after a failure, is
checked with the same outcome and left as it is; and the record form of a typed query that the check
gives is checked with that typed query as its result. -/
theorem validate_normalizes (v : Value) :
    validate (validate v).2 = validate v ∧
      ∀ query, (validate v).1 = .ok (.ok query) →
        validate (.object query.toRecord) = (.ok (.ok query), .object query.toRecord) := by
  have hrun : ∀ q, validate (.object q) =
      (capture (Stateful.execute check q).1, .object (Stateful.execute check q).2) := fun _ => rfl
  constructor
  · cases v with
    | object q => rw [hrun q, hrun, execute_check_again]
    | _ => rfl
  · intro query hquery
    obtain ⟨q, rfl, hcheck⟩ := exists_of_validate hquery
    rw [hrun, execute_check_toRecord hcheck]
    rfl

/-- A raw query: one starter, a list of comparisons in small letters, a limit and an order as
texts. -/
def rawQuery : Value :=
  .object [("LIMIT", .text " 5 "), ("SELECT", .text "AGE"),
    ("WHERE_BETWEEN", .object [("COLUMN", .text "BORN"),
      ("VALUES", .list [.text "2020-01-01", .text "20210101"])]),
    ("AND_WHERE", .list [.object [("COLUMN", .text "AGE"), ("COMPARATOR", .text "gt"),
      ("VALUE", .text "7")], .object [("COLUMN", .text "NAME"), ("VALUE", .text "Ana")]]),
    ("ORDER", .object [("column", .text "AGE"), ("order", .text "DESC")])]

theorem validate_normalizes_rawQuery : ∃ query, (validate rawQuery).1 = .ok (.ok query) ∧
    validate (.object query.toRecord) = (.ok (.ok query), .object query.toRecord) := by
  obtain ⟨query, hquery⟩ : ∃ query, (validate rawQuery).1 = .ok (.ok query) := ⟨_, rfl⟩
  exact ⟨query, hquery, (validate_normalizes rawQuery).2 query hquery⟩

end RowAccess
