import RowAccess.Proofs.Capture
import RowAccess.Proofs.Keyed
import RowAccess.Proofs.Query.Record
import RowAccess.Proofs.Stateful

/-
  RowAccess/Proofs/Query/Acceptance.lean
  ======================================
  **The check accepts the well-formed queries and no others.**  What one check writes stands under
  its own key, so each later check meets the query as it was given.  A run of the check then decides
  one condition after another, and together they say that the query is well formed
  (`validate_succeeds_iff`).
-/

namespace RowAccess

namespace Validation

open Keyed Acceptance

variable {α β : Type}

/-! ## One key after another -/

open Stateful (execute Spans)

/-- The place of a key in the order of the checks. -/
def rank : Key → Nat
  | .select => 0
  | .starter _ => 1
  | .andWhere => 2
  | .orWhere => 3
  | .orWhereIn => 4
  | .limit => 5
  | .order => 6
  | .aggregate _ => 7

theorem name_ne_of_rank_ne {j k : Key} (h : rank j ≠ rank k) : j.name ≠ k.name :=
  fun hname => h (congrArg rank (Key.name_injective hname))

/-- Do two queries agree on all keys but those of the rank? -/
def AgreeBut (n : Nat) (q q' : Fields) : Prop :=
  ∀ k, rank k ≠ n → find? q' k.name = find? q k.name

theorem AgreeBut.refl (n : Nat) (q : Fields) : AgreeBut n q q :=
  fun _ _ => rfl

theorem AgreeBut.trans (n : Nat) (q q₁ q₂ : Fields) (h : AgreeBut n q q₁) (h' : AgreeBut n q₁ q₂) :
    AgreeBut n q q₂ :=
  fun k hk => (h' k hk).trans (h k hk)

/-- Does the check tell whether the condition holds, in every query that agrees with the first one
on the keys from the rank on? -/
def Judges (first : Fields) (n : Nat) (act : Check α) (p : Prop) : Prop :=
  ∀ q, (∀ k, n ≤ rank k → find? q k.name = find? first k.name) → Decides (execute act q).1 p

variable {first : Fields} {n : Nat} {p p' : Prop}

theorem Judges.pure (a : α) (h : p) : Judges first n (Pure.pure a : Check α) p :=
  fun _ _ => .ok a h

theorem Judges.iff {act : Check α} (h : Judges first n act p) (hpp' : p ↔ p') :
    Judges first n act p' :=
  fun q hq => (h q hq).iff hpp'

/-- A sequence decides what its parts decide, because the second part meets what it looks at as it
was given. -/
theorem Judges.bind {act : Check α} {next : α → Check β} (h : Judges first n act p)
    (hframe : Spans (AgreeBut n) act) (hnext : ∀ a, Judges first (n + 1) (next a) p') :
    Judges first n (act >>= next) (p ∧ p') := by
  intro q hq
  have hdecides := h q hq
  have hagree := hframe q
  rw [Stateful.execute_bind]
  rcases hrun : execute act q with ⟨f | a, q'⟩
  · rw [hrun] at hdecides
    constructor
    · intro b hb
      cases hb
    · intro hp
      rcases hdecides.complete hp.1 with ⟨a, ha⟩ | hf
      · cases ha
      · cases hf
        exact .inr rfl
  · rw [hrun] at hdecides hagree
    have hp : p := hdecides.sound a rfl
    have hrest : Decides (execute (next a) q').1 p' := by
      refine hnext a q' ?_
      intro k hk
      rw [hagree k (Nat.ne_of_gt hk), hq k (Nat.le_of_succ_le hk)]
    refine hrest.iff ?_
    constructor
    · intro hp'
      exact ⟨hp, hp'⟩
    · intro hboth
      exact hboth.2

theorem Judges.bind_pure {act : Check α} {f : α → β} (h : Judges first n act p) :
    Judges first n (act >>= fun a => Pure.pure (f a)) p := by
  intro q hq
  have hrun : (execute (act >>= fun a => Pure.pure (f a)) q).1 = (execute act q).1.map f := by
    rw [Stateful.execute_bind]
    rcases execute act q with ⟨e | a, q'⟩
    · rfl
    · rfl
  rw [hrun]
  exact (h q hq).map

theorem spans_write (key : Key) (hkey : rank key = n) (v : Value) :
    Spans (AgreeBut n) (write key v) := by
  intro q k hk
  have hne : key.name ≠ k.name := name_ne_of_rank_ne (by rw [hkey]; exact hk.symm)
  exact (exact_of_lawful key.name).find?_put_of_ne q v hne

theorem spans_lookup (key : Key) : Spans (AgreeBut n) (lookup key) :=
  fun q => .refl n q

/-- A check of one key decides what holds of its value, and nothing where the key is absent. -/
theorem judges_lookup {key : Key} {next : Option Value → Check α} {p : Value → Prop} {a : α}
    (hnone : next none = Pure.pure a)
    (hsome : ∀ v q, Decides (execute (next (some v)) q).1 (p v)) :
    Judges first (rank key) (lookup key >>= next) (∀ v, find? first key.name = some v → p v) := by
  intro q hq
  have hkey : find? q key.name = find? first key.name := hq key (Nat.le_refl _)
  have hlookup : execute (lookup key) q = (.ok (find? q key.name), q) := rfl
  rw [Stateful.execute_bind, hlookup, hkey]
  cases hfind : find? first key.name with
  | none =>
    dsimp only
    rw [hnone]
    exact .ok a (by simp)
  | some v =>
    refine (hsome v q).iff ?_
    simp

/-! ## The checks of the keys -/

theorem any_isMissing_eq_false_iff {vs : List Value} :
    vs.any isMissing = false ↔ ∀ v ∈ vs, IsPresent v := by
  rw [List.any_eq_false]
  constructor
  · intro h v hv
    exact isMissing_eq_false_iff.1 (Bool.eq_false_iff.2 (h v hv))
  · intro h v hv
    exact Bool.eq_false_iff.1 (isMissing_eq_false_iff.2 (h v hv))

theorem judges_checkSelect :
    Judges first 0 checkSelect (∀ v, find? first Key.select.name = some v → IsSelection v) := by
  show Judges first (rank .select) _ _
  refine judges_lookup rfl ?_
  intro v q
  have hlist : ∀ (vs : List Value) (q : Fields),
      Decides (execute (if vs.any isMissing then
          liftM (fail (.select (.list vs)) : Except Fault (List Value))
        else pure vs : Check (List Value)) q).1 (∀ w ∈ vs, IsPresent w) := by
    intro vs q
    cases hany : vs.any isMissing with
    | true =>
      refine .error _ ?_
      intro hall
      rw [any_isMissing_eq_false_iff.2 hall] at hany
      cases hany
    | false => exact .ok vs (any_isMissing_eq_false_iff.1 hany)
  cases v with
  | text s =>
    refine (hlist [.text s] _).iff ?_
    simp [IsSelection, IsName, IsPresent]
  | list vs =>
    refine (hlist vs q).iff ?_
    simp [IsSelection, IsName]
  | _ => exact .error _ (by simp [IsSelection, IsName])

/-- What is done with a selection once it is a list. -/
theorem spans_selection (w : Value) : Spans (AgreeBut 0) (match w with
    | .list columns =>
      if columns.any isMissing then liftM (fail (.select w) : Except Fault (List Value))
      else pure columns
    | _ => liftM (fail (.select w) : Except Fault (List Value)) : Check (List Value)) := by
  split
  · split
    · exact .lift (.refl 0) _
    · exact .pure (.refl 0) _
  · exact .lift (.refl 0) _

theorem spans_checkSelect : Spans (AgreeBut 0) checkSelect := by
  refine Spans.bind (.trans 0) (spans_lookup .select) ?_
  rintro (_ | v)
  · exact .pure (.refl 0) _
  · dsimp only
    split
    · refine Spans.bind (.trans 0) (spans_write .select rfl _) fun _ => ?_
      exact Spans.bind (.trans 0) (.pure (.refl 0) _) spans_selection
    · exact Spans.bind (.trans 0) (.pure (.refl 0) _) spans_selection

theorem mem_presentStarters {query : Fields} {kind : StarterKind} {v : Value} :
    (kind, v) ∈ presentStarters query ↔ find? query kind.name = some v := by
  unfold presentStarters
  rw [List.mem_filterMap]
  constructor
  · rintro ⟨k, -, hk⟩
    obtain ⟨w, hw, heq⟩ := Option.map_eq_some_iff.1 hk
    cases heq
    exact hw
  · intro h
    exact ⟨kind, by cases kind <;> decide, by rw [h]; rfl⟩

/-- Two starters that are listed as present differ. -/
theorem ne_of_presentStarters {query : Fields} {j k : StarterKind} {v w : Value}
    {rest : List (StarterKind × Value)} (h : presentStarters query = (j, v) :: (k, w) :: rest) :
    j ≠ k := by
  have hkinds : (presentStarters query).map (·.1) =
      StarterKind.all.filter fun k => (find? query k.name).isSome := by
    unfold presentStarters
    rw [List.map_filterMap, ← List.filterMap_eq_filter]
    congr 1
    funext k
    cases hfind : find? query k.name <;> simp [Option.guard, hfind]
  have hnodup : ((presentStarters query).map (·.1)).Nodup := by
    rw [hkinds]
    exact List.Nodup.sublist List.filter_sublist (by decide)
  rw [h] at hnodup
  rintro rfl
  simp at hnodup

theorem isFlat_of_starterRecord {kind : StarterKind} {record : Fields}
    (h : StarterRecord kind record) : IsFlat record := by
  have hcomparison : IsComparison record → IsFlat record := fun h => h.single
  have hlike : Compares record → IsFlat record := fun h => h.single
  have hmembership : IsMembership record → IsFlat record := fun ⟨_, _, h⟩ => h.single
  have hrange : IsRange record → IsFlat record := fun ⟨_, _, h, _⟩ => h.single
  cases kind with
  | where_ => exact hcomparison h
  | whereNot => exact hcomparison h
  | whereLike => exact hlike h
  | whereIn => exact hmembership h
  | whereNotIn => exact hmembership h
  | whereBetween => exact hrange h
  | whereNotBetween => exact hrange h

/-- The one starter is checked by its record; what is written then changes no outcome. -/
theorem execute_oneStarter (kind : StarterKind) (v : Value) (q : Fields) :
    (execute (do
      let record ← recordOf ⟨.starter kind, none⟩ v
      let (clause, left) ← starterClause kind record
      write (.starter kind) (.object left)
      return some ⟨kind, clause⟩ : Check (Option Starter)) q).1 =
      recordOf ⟨.starter kind, none⟩ v >>= fun record =>
        (starterClause kind record).map fun c => some ⟨kind, c.1⟩ := by
  cases hrecord : recordOf ⟨.starter kind, none⟩ v with
  | error f => rfl
  | ok record =>
    show (execute (do
      let (clause, left) ← starterClause kind record
      write (.starter kind) (.object left)
      return some ⟨kind, clause⟩ : Check (Option Starter)) q).1 =
        (starterClause kind record).map fun c => some ⟨kind, c.1⟩
    cases starterClause kind record with
    | error f => rfl
    | ok c => rfl

theorem judges_checkStarter : Judges first 1 checkStarter
    ((∀ j k v w, find? first (StarterKind.name j) = some v →
      find? first (StarterKind.name k) = some w → j = k) ∧
        ∀ kind v, find? first (StarterKind.name kind) = some v → Belongs (.starter kind) v) := by
  intro q hq
  have hpresent : presentStarters q = presentStarters first := by
    unfold presentStarters
    congr 1
    funext k
    have hkey : find? q k.name = find? first k.name := hq (.starter k) (Nat.le_refl 1)
    rw [hkey]
  unfold checkStarter
  rw [Stateful.execute_bind, show execute (get : Check Fields) q = (.ok q, q) from rfl]
  dsimp only
  rw [hpresent]
  have hfind : ∀ kind v, find? first (StarterKind.name kind) = some v ↔
      (kind, v) ∈ presentStarters first := fun kind v => mem_presentStarters.symm
  simp only [hfind]
  rcases hlist : presentStarters first with _ | ⟨⟨kind, v⟩, _ | ⟨⟨k, w⟩, rest⟩⟩
  · exact .ok none (by simp)
  · have hbelongs : Decides (recordOf ⟨.starter kind, none⟩ v >>= fun record =>
        (starterClause kind record).map fun c => some (⟨kind, c.1⟩ : Starter))
          ((∃ record, v = .object record ∧ IsFlat record) ∧ Belongs (.starter kind) v) := by
      refine (decides_recordOf _ v).bind ?_
      intro record hrecord
      obtain ⟨rfl, hflat⟩ := recordOf_eq_ok hrecord
      refine (decides_starterClause kind hflat).map.iff ?_
      simp [Belongs]
    rw [← execute_oneStarter kind v q] at hbelongs
    refine hbelongs.iff ?_
    constructor
    · rintro ⟨-, hv⟩
      refine ⟨?_, ?_⟩
      · intro j k w u hj hk
        rw [(Prod.mk.inj (List.mem_singleton.1 hj)).1, (Prod.mk.inj (List.mem_singleton.1 hk)).1]
      · intro j w hj
        cases List.mem_singleton.1 hj
        exact hv
    · rintro ⟨-, hall⟩
      have hv := hall kind v (List.mem_singleton.2 rfl)
      refine ⟨?_, hv⟩
      obtain ⟨record, hrecord, hp⟩ := hv
      exact ⟨record, hrecord, isFlat_of_starterRecord hp⟩
  · refine .error _ ?_
    rintro ⟨hone, -⟩
    exact ne_of_presentStarters hlist (hone kind k v w (by simp) (by simp))

theorem spans_checkStarter : Spans (AgreeBut 1) checkStarter := by
  refine Spans.bind (.trans 1) (fun q => .refl 1 q) fun query => ?_
  split
  · exact .pure (.refl 1) _
  · refine Spans.bind (.trans 1) (.lift (.refl 1) _) fun record => ?_
    refine Spans.bind (.trans 1) (.lift (.refl 1) _) fun clause => ?_
    exact Spans.bind (.trans 1) (spans_write (.starter _) rfl _) fun _ => .pure (.refl 1) _
  · exact .lift (.refl 1) _

/-- The comparisons are checked by their records; what is written then changes no outcome. -/
theorem execute_comparisons (key : Key) (v : Value) (q : Fields) :
    (execute (do
      let records ← recordsOf key v
      let (outcome, left) := comparisonsFrom key 0 records
      write key (sameForm v left)
      outcome : Check (List Comparison)) q).1 =
        recordsOf key v >>= fun records => (comparisonsFrom key 0 records).1 := by
  cases recordsOf key v with
  | error f => rfl
  | ok records => rfl

theorem judges_checkComparisons (key : Key) : Judges first (rank key) (checkComparisons key)
    (∀ v, find? first key.name = some v → Records IsComparison v) := by
  refine judges_lookup rfl ?_
  intro v q
  have hdecides := decides_records (p := IsComparison) (fun r h => h.single)
    (fun records hflat => decides_comparisonsFrom key 0 records hflat) key v
  rw [← execute_comparisons key v q] at hdecides
  exact hdecides

theorem spans_checkComparisons (key : Key) :
    Spans (AgreeBut (rank key)) (checkComparisons key) := by
  refine Spans.bind (.trans _) (spans_lookup key) ?_
  rintro (_ | v)
  · exact .pure (.refl _) _
  · refine Spans.bind (.trans _) (.lift (.refl _) _) fun records => ?_
    exact Spans.bind (.trans _) (spans_write key rfl _) fun _ => .lift (.refl _) _

theorem judges_checkMemberships (key : Key) : Judges first (rank key) (checkMemberships key)
    (∀ v, find? first key.name = some v → Records IsMembership v) := by
  refine judges_lookup rfl ?_
  intro v q
  have hrun : (execute (do
      let records ← recordsOf key v
      membershipsFrom key 0 records : Check (List Membership)) q).1 =
        recordsOf key v >>= fun records => membershipsFrom key 0 records := by
    cases recordsOf key v with
    | error f => rfl
    | ok records => rfl
  have hdecides := decides_records (p := IsMembership) (fun r ⟨_, _, h⟩ => h.single)
    (fun records hflat => decides_membershipsFrom key 0 records hflat) key v
  rw [← hrun] at hdecides
  exact hdecides

theorem spans_checkMemberships (key : Key) :
    Spans (AgreeBut (rank key)) (checkMemberships key) := by
  refine Spans.bind (.trans _) (spans_lookup key) ?_
  rintro (_ | v)
  · exact .pure (.refl _) _
  · exact Spans.bind (.trans _) (.lift (.refl _) _) fun records => .lift (.refl _) _

theorem judges_checkLimit :
    Judges first 5 checkLimit (∀ v, find? first Key.limit.name = some v → IsLimit v) := by
  show Judges first (rank .limit) _ _
  refine judges_lookup rfl ?_
  intro v q
  have hrun : (execute (do
      let n ← limitOf v
      write .limit (.int n)
      return some n : Check (Option Nat)) q).1 = (limitOf v).map some := by
    cases limitOf v with
    | error f => rfl
    | ok n => rfl
  have hdecides : Decides ((limitOf v).map some) (IsLimit v) := (decides_limitOf v).map
  rw [← hrun] at hdecides
  exact hdecides

theorem spans_checkLimit : Spans (AgreeBut 5) checkLimit := by
  refine Spans.bind (.trans 5) (spans_lookup .limit) ?_
  rintro (_ | v)
  · exact .pure (.refl 5) _
  · refine Spans.bind (.trans 5) (.lift (.refl 5) _) fun n => ?_
    exact Spans.bind (.trans 5) (spans_write .limit rfl _) fun _ => .pure (.refl 5) _

theorem judges_checkOrder : Judges first 6 checkOrder
    (∀ v, find? first Key.order.name = some v → Records IsOrderRecord v) := by
  show Judges first (rank .order) _ _
  refine judges_lookup rfl ?_
  intro v q
  cases v with
  | object entry =>
    refine (decides_orderTermsFrom 0 [.object entry]).iff ?_
    rw [holdsObjects_cons_iff]
    simp [Records, holdsObjects_nil]
  | list vs =>
    refine (decides_orderTermsFrom 0 vs).iff ?_
    simp [Records, HoldsObjects]
  | _ => exact .error _ (by simp [Records])

/-! ## Queries -/

theorem judges_checkRows : Judges first 0 checkRows
    ((∀ j k v w, find? first (StarterKind.name j) = some v →
      find? first (StarterKind.name k) = some w → j = k) ∧
        ∀ key v, (∀ f, key ≠ .aggregate f) → find? first (Key.name key) = some v →
          Belongs key v) := by
  have hparts : Judges first 0 checkRows
      ((∀ v, find? first Key.select.name = some v → IsSelection v) ∧
        ((∀ j k v w, find? first (StarterKind.name j) = some v →
          find? first (StarterKind.name k) = some w → j = k) ∧
            ∀ kind v, find? first (StarterKind.name kind) = some v → Belongs (.starter kind) v) ∧
        (∀ v, find? first Key.andWhere.name = some v → Records IsComparison v) ∧
        (∀ v, find? first Key.orWhere.name = some v → Records IsComparison v) ∧
        (∀ v, find? first Key.orWhereIn.name = some v → Records IsMembership v) ∧
        (∀ v, find? first Key.limit.name = some v → IsLimit v) ∧
        ∀ v, find? first Key.order.name = some v → Records IsOrderRecord v) := by
    refine judges_checkSelect.bind spans_checkSelect fun select => ?_
    refine judges_checkStarter.bind spans_checkStarter fun starter => ?_
    refine (judges_checkComparisons .andWhere).bind (spans_checkComparisons _) fun andWhere => ?_
    refine (judges_checkComparisons .orWhere).bind (spans_checkComparisons _) fun orWhere => ?_
    refine (judges_checkMemberships .orWhereIn).bind (spans_checkMemberships _) fun orWhereIn => ?_
    refine judges_checkLimit.bind spans_checkLimit fun limit => ?_
    exact judges_checkOrder.bind_pure
  refine hparts.iff ?_
  constructor
  · rintro ⟨hselect, ⟨hone, hstarter⟩, hand, hor, horIn, hlimit, horder⟩
    refine ⟨hone, ?_⟩
    intro key v hkey hv
    cases key with
    | select => exact hselect v hv
    | starter kind => exact hstarter kind v hv
    | andWhere => exact hand v hv
    | orWhere => exact hor v hv
    | orWhereIn => exact horIn v hv
    | aggregate f => exact absurd rfl (hkey f)
    | limit => exact hlimit v hv
    | order => exact horder v hv
  · rintro ⟨hone, hall⟩
    refine ⟨?_, ⟨hone, ?_⟩, ?_, ?_, ?_, ?_, ?_⟩
    · exact fun v hv => hall .select v (by simp) hv
    · exact fun kind v hv => hall (.starter kind) v (by simp) hv
    · exact fun v hv => hall .andWhere v (by simp) hv
    · exact fun v hv => hall .orWhere v (by simp) hv
    · exact fun v hv => hall .orWhereIn v (by simp) hv
    · exact fun v hv => hall .limit v (by simp) hv
    · exact fun v hv => hall .order v (by simp) hv

theorem unknownName?_eq_none_iff {query : Fields} :
    unknownName? query = none ↔ ∀ name ∈ keys query, Key.isName name = true := by
  unfold unknownName?
  rw [List.find?_eq_none]
  constructor
  · intro h name hname
    simpa using h name hname
  · intro h name hname
    simp [h name hname]

/-- The check of the aggregates that are present, and of all else where there are none. -/
def checkFrom (present : List (Aggregate × Value)) : Check Query := do
  match ← aggregateOf present with
  | some request => return { aggregate := some request }
  | none => checkRows

/-- With one aggregate alone, its column decides. -/
theorem decides_aggregate {query : Fields} {f : Aggregate} {v : Value}
    (hf : find? query f.name = some v) (hother : ∀ g, g ≠ f → find? query g.name = none) :
    Decides (execute (checkFrom [(f, v)]) query).1
      (IsAggregateQuery query) := by
  have hiff : IsName v ↔ IsAggregateQuery query := by
    constructor
    · intro hname
      exact ⟨f, v, hf, hname, hother⟩
    · rintro ⟨g, w, hg, hname, -⟩
      by_cases hgf : g = f
      · subst hgf
        rw [hf] at hg
        cases hg
        exact hname
      · rw [hother g hgf] at hg
        cases hg
  refine Decides.iff ?_ hiff
  unfold checkFrom aggregateOf
  dsimp only
  cases hgiven : givenText? v with
  | some s => exact .ok _ ⟨s, givenText?_eq_some_iff.1 hgiven⟩
  | none =>
    refine .error _ ?_
    rintro ⟨s, hs⟩
    rw [givenText?_eq_some_iff.2 hs] at hgiven
    cases hgiven

theorem not_isRowQuery {query : Fields} {f : Aggregate} {v : Value}
    (hf : find? query f.name = some v) : ¬ IsRowQuery query := by
  intro h
  rw [h.noAggregate f] at hf
  cases hf

theorem decides_checkRows {query : Fields} (hnone : ∀ f, find? query (Aggregate.name f) = none) :
    Decides (execute checkRows query).1 (IsRowQuery query) := by
  refine (judges_checkRows query fun _ _ => rfl).iff ?_
  constructor
  · rintro ⟨hone, hall⟩
    refine ⟨hnone, hone, ?_⟩
    intro key v hv
    refine hall key v ?_ hv
    rintro f rfl
    rw [show find? query (Key.aggregate f).name = none from hnone f] at hv
    cases hv
  · intro h
    exact ⟨h.oneStarter, fun key v _ hv => h.belongs key v hv⟩

theorem decides_check (query : Fields) : Decides (execute check query).1
    ((∀ name ∈ keys query, Key.isName name = true) ∧
      (IsAggregateQuery query ∨ IsRowQuery query)) := by
  unfold check
  rw [Stateful.execute_bind, show execute (get : Check Fields) query = (.ok query, query) from rfl]
  dsimp only
  cases hunknown : unknownName? query with
  | some name =>
    refine .error _ ?_
    rintro ⟨hnames, -⟩
    rw [unknownName?_eq_none_iff.2 hnames] at hunknown
    cases hunknown
  | none =>
    have hnames := unknownName?_eq_none_iff.1 hunknown
    have hiff : ∀ {p : Prop}, p ↔ (∀ name ∈ keys query, Key.isName name = true) ∧ p :=
      fun {p} => ⟨fun hp => ⟨hnames, hp⟩, fun h => h.2⟩
    refine Decides.iff ?_ hiff
    show Decides (execute (checkFrom (presentAggregates query)) query).1 _
    unfold presentAggregates
    cases hmin : find? query Aggregate.min.name with
    | none =>
      cases hmax : find? query Aggregate.max.name with
      | none =>
        have hnone : ∀ f, find? query (Aggregate.name f) = none := by
          intro f
          cases f with
          | min => exact hmin
          | max => exact hmax
        simp only [List.filterMap_cons, hmin, hmax, Option.map_none, List.filterMap_nil]
        refine (decides_checkRows hnone).iff ?_
        constructor
        · exact .inr
        · rintro (⟨f, v, hf, -⟩ | hrows)
          · rw [hnone f] at hf
            cases hf
          · exact hrows
      | some v =>
        simp only [List.filterMap_cons, hmin, hmax, Option.map_none, Option.map_some,
          List.filterMap_nil]
        have hother : ∀ g, g ≠ Aggregate.max → find? query g.name = none := by
          intro g hg
          cases g with
          | min => exact hmin
          | max => exact absurd rfl hg
        refine (decides_aggregate hmax hother).iff ?_
        simp [not_isRowQuery hmax]
    | some v =>
      cases hmax : find? query Aggregate.max.name with
      | none =>
        simp only [List.filterMap_cons, hmin, hmax, Option.map_none, Option.map_some,
          List.filterMap_nil]
        have hother : ∀ g, g ≠ Aggregate.min → find? query g.name = none := by
          intro g hg
          cases g with
          | min => exact absurd rfl hg
          | max => exact hmax
        refine (decides_aggregate hmin hother).iff ?_
        simp [not_isRowQuery hmin]
      | some w =>
        simp only [List.filterMap_cons, hmin, hmax, Option.map_some, List.filterMap_nil]
        refine .error _ ?_
        rintro (⟨f, u, -, -, hother⟩ | hrows)
        · cases f with
          | min =>
            rw [hother .max (by decide)] at hmax
            cases hmax
          | max =>
            rw [hother .min (by decide)] at hmin
            cases hmin
        · exact not_isRowQuery hmin hrows

/-- What is checked with success is an object whose fields the check accepts. -/
theorem exists_of_validate {v : Value} {q : Query} (h : (validate v).1 = .ok (.ok q)) :
    ∃ query, v = .object query ∧ execute check query = (.ok q, (execute check query).2) := by
  cases v with
  | object query => exact ⟨query, rfl, Prod.ext (capture_eq_ok_iff.1 h) rfl⟩
  | _ =>
    rw [validate_of_not_isObject rfl] at h
    dsimp only at h
    exact absurd h (capture_error_ne_ok _ q)

end Validation

open Validation in
/-- **The check accepts the well-formed queries and no others.** -/
theorem validate_succeeds_iff (v : Value) (hcalendar : (validate v).1 ≠ .error .outOfRange) :
    (∃ query left, validate v = (.ok (.ok query), left)) ↔ Acceptable v := by
  cases v with
  | object query =>
    have hrun : validate (.object query) =
        (capture (Stateful.execute check query).1, .object (Stateful.execute check query).2) := rfl
    have hdecides := decides_check query
    have hacceptable : Acceptable (.object query) ↔
        (∀ name ∈ Keyed.keys query, Key.isName name = true) ∧
          (Acceptance.IsAggregateQuery query ∨ Acceptance.IsRowQuery query) := by
      simp [Acceptable]
    rw [hrun] at hcalendar
    rw [hrun, hacceptable]
    rcases hcheck : Stateful.execute check query with ⟨f | q, left⟩
    · rw [hcheck] at hdecides hcalendar
      constructor
      · rintro ⟨q, left', h⟩
        exact absurd (Prod.mk.inj h).1 (capture_error_ne_ok f q)
      · intro hp
        rcases hdecides.complete hp with ⟨q, hq⟩ | hf
        · cases hq
        · cases hf
          exact absurd rfl hcalendar
    · rw [hcheck] at hdecides
      constructor
      · intro _
        exact hdecides.sound q rfl
      · intro _
        exact ⟨q, _, rfl⟩
  | _ =>
    constructor
    · rintro ⟨q, left, h⟩
      obtain ⟨query, hquery, -⟩ := exists_of_validate (congrArg Prod.fst h)
      cases hquery
    · rintro ⟨query, heq, -⟩
      cases heq

/-- A query for rows with a date for a bound. -/
def rangedQuery : Value :=
  .object [("WHERE_NOT_BETWEEN", .object [("COLUMN", .text "BORN"),
    ("VALUES", .list [.text "2020-01-01", .int 20210101])]), ("LIMIT", .text " 5 "),
    ("AND_WHERE", .list [.object [("COLUMN", .text "AGE"), ("COMPARATOR", .text "gt"),
      ("VALUE", .bool false)]])]

theorem validate_succeeds_iff_rangedQuery :
    (validate rangedQuery).1 ≠ .error .outOfRange ∧ Acceptable rangedQuery := by
  obtain ⟨query, left, hrun⟩ : ∃ query left, validate rangedQuery = (.ok (.ok query), left) :=
    ⟨_, _, rfl⟩
  have hcalendar : (validate rangedQuery).1 ≠ .error .outOfRange := by
    rw [hrun]
    intro h
    cases h
  exact ⟨hcalendar, (validate_succeeds_iff rangedQuery hcalendar).1 ⟨query, left, hrun⟩⟩

end RowAccess
