import RowAccess.Proofs.Capture
import RowAccess.Proofs.Query.Settled
import RowAccess.Query.Client

/-
  RowAccess/Proofs/Query/Parts.lean
  =================================
  **A typed query is put together from its parts**: what the check gives is a function of what stands
  under each key, because no check of one key touches another.  The first part that fails, in the
  order of the checks, is the outcome (`Validation.execute_check_eq`); a typed query goes on to its
  plan (`Validation.planOfRecord_of_ok`).
-/

namespace RowAccess

namespace Validation

open Keyed Acceptance Outcome
open Stateful (execute Spans)

variable {α β : Type}

/-! ## Parts -/

/-- What a check gives for a value that may be absent. -/
def partOf (absent : α) (f : Value → Except Fault α × Value) : Option Value → Except Fault α
  | none => .ok absent
  | some v => (f v).1

/-- What the starters that are present give: there may be one. -/
def startOf : List (StarterKind × Value) → Except Fault (Option Starter)
  | [] => .ok none
  | [(kind, v)] => (starterOf kind v).1
  | several => fail (.severalStarters (several.map (·.1)))

/-- The typed form of a query for rows, part by part. -/
def rowsOf (q : Fields) : Except Fault Query := do
  let select ← partOf [] selectionOf (find? q Key.select.name)
  let starter ← startOf (presentStarters q)
  let andWhere ← partOf [] (comparisonsOf .andWhere) (find? q Key.andWhere.name)
  let orWhere ← partOf [] (comparisonsOf .orWhere) (find? q Key.orWhere.name)
  let orWhereIn ← partOf [] (membershipsOf .orWhereIn) (find? q Key.orWhereIn.name)
  let limit ← partOf none limitIn (find? q Key.limit.name)
  let order ← partOf [] orderOf (find? q Key.order.name)
  return { select, starter, andWhere, orWhere, orWhereIn, limit, order }

/-- The typed form of a query: of an aggregate, or of a query for rows. -/
def queryOf (q : Fields) : Except Fault Query :=
  match unknownName? q with
  | some name => fail (.unknownKey name)
  | none => do
    match ← aggregateOf (presentAggregates q) with
    | some request => return { aggregate := some request }
    | none => rowsOf q

/-- A typed query for rows whose parts are those that the keys come to. -/
structure RowParts (q : Fields) (p : Query) : Prop where
  select : partOf [] selectionOf (find? q Key.select.name) = .ok p.select
  starter : startOf (presentStarters q) = .ok p.starter
  andWhere : partOf [] (comparisonsOf .andWhere) (find? q Key.andWhere.name) = .ok p.andWhere
  orWhere : partOf [] (comparisonsOf .orWhere) (find? q Key.orWhere.name) = .ok p.orWhere
  orWhereIn : partOf [] (membershipsOf .orWhereIn) (find? q Key.orWhereIn.name) = .ok p.orWhereIn
  limit : partOf none limitIn (find? q Key.limit.name) = .ok p.limit
  order : partOf [] orderOf (find? q Key.order.name) = .ok p.order
  aggregate : p.aggregate = none

/-- A query for rows has a typed form when each of its parts has one. -/
theorem rowsOf_eq_ok_iff {q : Fields} {p : Query} : rowsOf q = .ok p ↔ RowParts q p := by
  constructor
  · intro h
    obtain ⟨select, hselect, h⟩ := bind_eq_ok_iff.1 h
    obtain ⟨starter, hstarter, h⟩ := bind_eq_ok_iff.1 h
    obtain ⟨andWhere, hand, h⟩ := bind_eq_ok_iff.1 h
    obtain ⟨orWhere, hor, h⟩ := bind_eq_ok_iff.1 h
    obtain ⟨orWhereIn, hin, h⟩ := bind_eq_ok_iff.1 h
    obtain ⟨limit, hlimit, h⟩ := bind_eq_ok_iff.1 h
    obtain ⟨order, horder, h⟩ := bind_eq_ok_iff.1 h
    cases h
    exact ⟨hselect, hstarter, hand, hor, hin, hlimit, horder, rfl⟩
  · intro h
    rw [rowsOf, h.select, h.starter, h.andWhere, h.orWhere, h.orWhereIn, h.limit, h.order]
    cases p with
    | mk =>
      obtain rfl := h.aggregate
      rfl

/-- A typed form without an aggregate is that of a query for rows. -/
theorem rowsOf_of_queryOf {q : Fields} {p : Query} (h : queryOf q = .ok p)
    (haggregate : p.aggregate = none) :
    unknownName? q = none ∧ aggregateOf (presentAggregates q) = .ok none ∧ rowsOf q = .ok p := by
  unfold queryOf at h
  cases hnames : unknownName? q with
  | some name =>
    rw [hnames] at h
    cases h
  | none =>
    rw [hnames] at h
    obtain ⟨request, hrequest, h⟩ := bind_eq_ok_iff.1 h
    cases request with
    | some request =>
      cases h
      cases haggregate
    | none => exact ⟨rfl, hrequest, h⟩

/-! ## One key after another -/

variable {first : Fields} {n : Nat}

/-- Does the check give this outcome in every query that agrees with the first one on the keys from
the rank on? -/
def ComesTo (first : Fields) (n : Nat) (act : Check α) (x : Except Fault α) : Prop :=
  ∀ q, (∀ k, n ≤ rank k → find? q k.name = find? first k.name) → (execute act q).1 = x

theorem ComesTo.bind {act : Check α} {next : α → Check β} {x : Except Fault α}
    {y : α → Except Fault β} (h : ComesTo first n act x) (hframe : Spans (AgreeBut n) act)
    (hnext : ∀ a, ComesTo first (n + 1) (next a) (y a)) :
    ComesTo first n (act >>= next) (x >>= y) := by
  intro q hq
  have hact := h q hq
  have hagree := hframe q
  rw [Stateful.execute_bind]
  rcases hrun : execute act q with ⟨f | a, q'⟩
  · rw [hrun] at hact
    rw [← hact]
    rfl
  · rw [hrun] at hact hagree
    rw [← hact]
    refine hnext a q' ?_
    intro k hk
    rw [hagree k (Nat.ne_of_gt hk), hq k (Nat.le_of_succ_le hk)]

theorem ComesTo.bind_pure {act : Check α} {f : α → β} {x : Except Fault α}
    (h : ComesTo first n act x) :
    ComesTo first n (act >>= fun a => Pure.pure (f a)) (x >>= fun a => Pure.pure (f a)) := by
  intro q hq
  rw [← h q hq, Stateful.execute_bind]
  rcases execute act q with ⟨e | a, q'⟩ <;> rfl

/-- A check of one key gives the part under the key. -/
theorem Reads.comesTo {key : Key} {absent : α} {f : Value → Except Fault α × Value}
    {act : Check α} (h : Reads key absent f act) :
    ComesTo first (rank key) act (partOf absent f (find? first key.name)) := by
  intro q hq
  rw [← hq key (Nat.le_refl _)]
  cases hv : find? q key.name with
  | none => rw [h.absent q hv, partOf]
  | some v => rw [h.present q v hv, partOf]

theorem comesTo_checkStarter :
    ComesTo first 1 checkStarter (startOf (presentStarters first)) := by
  intro q hq
  have hstarters : presentStarters q = presentStarters first :=
    presentStarters_congr fun kind => hq (.starter kind) (Nat.le_refl _)
  rw [← hstarters]
  rcases hlist : presentStarters q with _ | ⟨⟨kind, v⟩, _ | ⟨t, rest⟩⟩
  · rw [execute_checkStarter_none hlist, startOf]
  · rw [execute_checkStarter_one hlist, startOf]
  · rw [execute_checkStarter_several hlist]
    rfl

theorem comesTo_checkRows (q : Fields) : ComesTo q 0 checkRows (rowsOf q) := by
  have hcomparisons : ∀ key, ComesTo q (rank key) (checkComparisons key)
      (partOf [] (comparisonsOf key) (find? q key.name)) :=
    fun key => (reads_checkComparisons key).comesTo
  refine reads_checkSelect.comesTo.bind spans_checkSelect fun select => ?_
  refine comesTo_checkStarter.bind spans_checkStarter fun starter => ?_
  refine (hcomparisons .andWhere).bind (spans_checkComparisons _) fun andWhere => ?_
  refine (hcomparisons .orWhere).bind (spans_checkComparisons _) fun orWhere => ?_
  refine (reads_checkMemberships .orWhereIn).comesTo.bind (spans_checkMemberships _)
    fun orWhereIn => ?_
  refine reads_checkLimit.comesTo.bind spans_checkLimit fun limit => ?_
  exact reads_checkOrder.comesTo.bind_pure

/-- The check gives the typed form that is put together from the parts. -/
theorem execute_check_eq (q : Fields) : (execute check q).1 = queryOf q := by
  unfold queryOf
  cases hnames : unknownName? q with
  | some name => rw [execute_check_unknown hnames]
  | none =>
    rw [execute_check hnames]
    dsimp only
    rcases aggregateOf (presentAggregates q) with f | _ | request
    · rfl
    · exact comesTo_checkRows q q fun _ _ => rfl
    · rfl

/-- An order that is put into a query for rows comes to the typed form and changes nothing else. -/
theorem queryOf_put_order {q : Fields} {v : Value} {terms : List OrderTerm}
    (habsent : find? q Key.order.name = none)
    (hrows : ∀ f : Aggregate, find? q f.name = none) (hterms : (orderOf v).1 = .ok terms) :
    queryOf (put q Key.order.name v) = (queryOf q).map fun typed => { typed with order := terms } := by
  have hother : ∀ k : Key, k ≠ .order → find? (put q Key.order.name v) k.name = find? q k.name :=
    fun k hk => find?_put_of_ne (fun e => hk (Key.name_injective e).symm) v
  have hnames : unknownName? (put q Key.order.name v) = unknownName? q := by
    have hnew := ((exact_of_lawful _).find?_eq_none_iff q).1 habsent
    have hknown : Key.isName Key.order.name = true := by decide
    rw [unknownName?, (exact_of_lawful _).put_of_not_mem hnew, keys, List.map_append,
      List.find?_append]
    simp [hknown, unknownName?, keys]
  have haggregates : ∀ r : Fields, (∀ f : Aggregate, find? r f.name = none) →
      presentAggregates r = [] := by
    intro r hr
    simp [presentAggregates, hr]
  unfold queryOf
  rw [hnames]
  cases unknownName? q with
  | some name => rfl
  | none =>
    dsimp only
    rw [haggregates q hrows, haggregates _ fun f => (hother (.aggregate f) (by simp)).trans (hrows f)]
    show rowsOf _ = (rowsOf q).map _
    have hstarters : presentStarters (put q Key.order.name v) = presentStarters q :=
      presentStarters_congr fun kind => hother (.starter kind) (by simp)
    unfold rowsOf
    rw [hother .select (by simp), hstarters, hother .andWhere (by simp), hother .orWhere (by simp),
      hother .orWhereIn (by simp), hother .limit (by simp), find?_put_self, habsent]
    rw [show partOf [] orderOf (some v) = .ok terms from hterms]
    rcases partOf [] selectionOf (find? q Key.select.name) with e | select
    · rfl
    rcases startOf (presentStarters q) with e | starter
    · rfl
    rcases partOf [] (comparisonsOf .andWhere) (find? q Key.andWhere.name) with e | andWhere
    · rfl
    rcases partOf [] (comparisonsOf .orWhere) (find? q Key.orWhere.name) with e | orWhere
    · rfl
    rcases partOf [] (membershipsOf .orWhereIn) (find? q Key.orWhereIn.name) with e | orWhereIn
    · rfl
    rcases partOf none limitIn (find? q Key.limit.name) with e | limit
    · rfl
    · rfl

theorem validate_object (q : Fields) : (validate (.object q)).1 = capture (queryOf q) := by
  rw [← execute_check_eq]
  rfl

/-! ## Plans -/

section Plans

variable {table : Value} {schema : Option TableSchema} {c : Config} {q : Fields}

/-- A query that is checked is compiled. -/
theorem planOfRecord_of_ok {p : Query} (h : queryOf q = .ok p) :
    planOfRecord table schema c q = p.plan table schema c := by
  rw [planOfRecord, validate_object, h]
  rfl

/-- The fault of the check is the outcome. -/
theorem planOfRecord_of_error {f : Fault} (h : queryOf q = .error f) :
    planOfRecord table schema c q = capture (.error f) := by
  rw [planOfRecord, validate_object, h]
  rcases capture_error_cases f with ⟨failure, -, hcaptured⟩ | ⟨-, g, hcaptured⟩
  · rw [hcaptured, hcaptured]
    rfl
  · rw [hcaptured, hcaptured]
    rfl

end Plans

end Validation

end RowAccess
