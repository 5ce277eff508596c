import RowAccess.Proofs.Query.Acceptance
import RowAccess.Proofs.Query.Checked

/-
  RowAccess/Proofs/Query/Settled.lean
  ===================================
  **What the check leaves of a query is checked with the same outcome and left as it is**, also
  where the check stops half-way: each key is checked by itself, what its check leaves settles it,
  and no later check touches it (`Validation.Settles`).
-/

namespace RowAccess

namespace Validation

open Keyed Acceptance
open Stateful (execute)

variable {α β : Type}

/-! ## What a check settles -/

/-- Does the check settle what stands under its keys?  It changes nothing else and no name, and
wherever its keys stand as it left them it ends as before and changes nothing. -/
structure Settles (p : Key → Prop) (act : Check α) : Prop where
  frame : ∀ q k, ¬ p k → find? (execute act q).2 k.name = find? q k.name
  names : ∀ q, keys (execute act q).2 = keys q
  again : ∀ q r, (∀ k, p k → find? r k.name = find? (execute act q).2 k.name) →
    execute act r = ((execute act q).1, r)

namespace Settles

variable {p p' : Key → Prop}

theorem pure (a : α) : Settles p (Pure.pure a : Check α) :=
  ⟨fun _ _ _ => rfl, fun _ => rfl, fun _ _ _ => rfl⟩

/-- Checks of different keys settle one after another: the second leaves the keys of the first as
the first left them. -/
theorem bind {act : Check α} {next : α → Check β} (h : Settles p act)
    (hnext : ∀ a, Settles p' (next a)) (hapart : ∀ k, p k → ¬ p' k) :
    Settles (fun k => p k ∨ p' k) (act >>= next) := by
  have hrun : ∀ q, (∃ f q₁, execute act q = (.error f, q₁) ∧
      execute (act >>= next) q = (.error f, q₁)) ∨
        ∃ a q₁, execute act q = (.ok a, q₁) ∧
          execute (act >>= next) q = execute (next a) q₁ := by
    intro q
    rw [Stateful.execute_bind]
    rcases execute act q with ⟨f | a, q₁⟩
    · exact .inl ⟨f, q₁, rfl, rfl⟩
    · exact .inr ⟨a, q₁, rfl, rfl⟩
  constructor
  · intro q k hk
    obtain ⟨hp, hp'⟩ := not_or.1 hk
    have hframe := h.frame q k hp
    rcases hrun q with ⟨f, q₁, hact, hboth⟩ | ⟨a, q₁, hact, hboth⟩
    · rw [hact] at hframe
      rw [hboth, hframe]
    · rw [hact] at hframe
      rw [hboth, (hnext a).frame q₁ k hp', hframe]
  · intro q
    have hnames := h.names q
    rcases hrun q with ⟨f, q₁, hact, hboth⟩ | ⟨a, q₁, hact, hboth⟩
    · rw [hact] at hnames
      rw [hboth, hnames]
    · rw [hact] at hnames
      rw [hboth, (hnext a).names q₁, hnames]
  · intro q r hr
    have hagain := h.again q r
    rw [Stateful.execute_bind]
    rcases hrun q with ⟨f, q₁, hact, hboth⟩ | ⟨a, q₁, hact, hboth⟩
    · rw [hact] at hagain
      rw [hboth] at hr ⊢
      rw [hagain fun k hk => hr k (.inl hk)]
    · rw [hact] at hagain
      rw [hboth] at hr ⊢
      rw [hagain fun k hk => (hr k (.inl hk)).trans ((hnext a).frame q₁ k (hapart k hk))]
      exact (hnext a).again q₁ r fun k hk => hr k (.inr hk)

theorem bind_pure {act : Check α} {f : α → β} (h : Settles p act) :
    Settles p (act >>= fun a => Pure.pure (f a)) := by
  have hrun : ∀ q, execute (act >>= fun a => Pure.pure (f a)) q =
      ((execute act q).1.map f, (execute act q).2) := by
    intro q
    rw [Stateful.execute_bind]
    rcases execute act q with ⟨e | a, q'⟩ <;> rfl
  refine ⟨?_, ?_, ?_⟩
  · intro q k hk
    rw [hrun, h.frame q k hk]
  · intro q
    rw [hrun, h.names q]
  · intro q r hr
    rw [hrun q] at hr
    rw [hrun r, hrun q, h.again q r hr]

end Settles

/-! ## Checks of one key -/

/-- Is the check one of the value under a key alone?  It gives `absent` where there is none, and
else what `f` makes of the value, which it puts back as `f` leaves it. -/
structure Reads (key : Key) (absent : α) (f : Value → Except Fault α × Value) (act : Check α) :
    Prop where
  absent : ∀ q, find? q key.name = none → execute act q = (.ok absent, q)
  present : ∀ q v, find? q key.name = some v →
    execute act q = ((f v).1, put q key.name (f v).2)

namespace Reads

variable {key : Key} {absent : α} {f : Value → Except Fault α × Value} {act : Check α}

theorem of_lookup {next : Option Value → Check α} (hnone : next none = Pure.pure absent)
    (hsome : ∀ q v, find? q key.name = some v →
      execute (next (some v)) q = ((f v).1, put q key.name (f v).2)) :
    Reads key absent f (lookup key >>= next) := by
  have hlookup : ∀ q, execute (lookup key >>= next) q =
      execute (next (find? q key.name)) q := by
    intro q
    rw [Stateful.execute_bind]
    rfl
  constructor
  · intro q hq
    rw [hlookup, hq, hnone]
    rfl
  · intro q v hq
    rw [hlookup, hq, hsome q v hq]

/-- The check settles its key when what is put back is put back again. -/
theorem settles (h : Reads key absent f act) (hf : ∀ v, f (f v).2 = f v) :
    Settles (· = key) act := by
  have hexact := exact_of_lawful key.name
  constructor
  · intro q k hk
    cases hq : find? q key.name with
    | none => rw [h.absent q hq]
    | some v =>
      rw [h.present q v hq]
      have hne : key.name ≠ k.name := by
        intro hname
        rw [Key.name_injective hname] at hk
        exact hk rfl
      exact find?_put_of_ne hne _
  · intro q
    cases hq : find? q key.name with
    | none => rw [h.absent q hq]
    | some v =>
      rw [h.present q v hq]
      exact hexact.keys_put_of_mem (hexact.mem_keys_of_find? hq) _
  · intro q r hr
    have hkey := hr key rfl
    cases hq : find? q key.name with
    | none =>
      rw [h.absent q hq] at hkey ⊢
      exact h.absent r (hkey.trans hq)
    | some v =>
      rw [h.present q v hq] at hkey ⊢
      have hput := hkey.trans (find?_put_self q key.name (f v).2)
      rw [h.present r _ hput, hf v, put_of_find? hput]

end Reads

/-! ## The values under the keys -/

/-- A single column name in a list. -/
def listed : Value → Value
  | .text s => .list [.text s]
  | v => v

/-- The columns that a value selects, and the value as the check leaves it. -/
def selectionOf (v : Value) : Except Fault (List Value) × Value :=
  (match listed v with
    | .list columns =>
      if columns.any isMissing then fail (.select (.list columns)) else .ok columns
    | w => fail (.select w), listed v)

theorem reads_checkSelect : Reads .select [] selectionOf checkSelect := by
  refine .of_lookup rfl ?_
  intro q v hq
  have hput := put_of_find? hq
  have hlist : ∀ (vs : List Value) (q : Fields),
      execute (if vs.any isMissing then
          liftM (fail (.select (.list vs)) : Except Fault (List Value))
        else pure vs : Check (List Value)) q =
          (if vs.any isMissing then fail (.select (.list vs)) else .ok vs, q) := by
    intro vs q
    split <;> rfl
  cases v with
  | text s => exact hlist [.text s] (put q Key.select.name (.list [.text s]))
  | list vs =>
    rw [show (selectionOf (.list vs)).2 = .list vs from rfl, hput]
    exact hlist vs q
  | _ =>
    simp only [selectionOf, listed, hput]
    rfl

theorem selectionOf_again (v : Value) : selectionOf (selectionOf v).2 = selectionOf v := by
  cases v <;> rfl

/-- The starter that a value under its key gives, and the value as the check leaves it. -/
def starterOf (kind : StarterKind) (v : Value) : Except Fault (Option Starter) × Value :=
  match recordOf ⟨.starter kind, none⟩ v with
  | .error f => (.error f, v)
  | .ok record =>
    match starterClause kind record with
    | .error f => (.error f, v)
    | .ok (clause, left) => (.ok (some ⟨kind, clause⟩), .object left)

theorem starterOf_again (kind : StarterKind) (v : Value) :
    starterOf kind (starterOf kind v).2 = starterOf kind v := by
  cases hrecord : recordOf ⟨.starter kind, none⟩ v with
  | error f => simp [starterOf, hrecord]
  | ok record =>
    cases hclause : starterClause kind record with
    | error f => simp [starterOf, hrecord, hclause]
    | ok parts =>
      obtain ⟨clause, left⟩ := parts
      obtain ⟨hflat, hgives⟩ :=
        (gives_of_starterClause hclause).left (recordOf_eq_ok hrecord).2
      simp [starterOf, hrecord, hclause, recordOf_object _ hflat, hgives.starterClause]

/-- The comparisons that a value gives, and the value as the check leaves it. -/
def comparisonsOf (key : Key) (v : Value) : Except Fault (List Comparison) × Value :=
  match recordsOf key v with
  | .error f => (.error f, v)
  | .ok records =>
    ((comparisonsFrom key 0 records).1, sameForm v (comparisonsFrom key 0 records).2)

theorem reads_checkComparisons (key : Key) :
    Reads key [] (comparisonsOf key) (checkComparisons key) := by
  refine .of_lookup rfl ?_
  intro q v hq
  cases hrecords : recordsOf key v with
  | error f =>
    simp only [comparisonsOf, hrecords, put_of_find? hq]
    rfl
  | ok records =>
    simp only [comparisonsOf, hrecords]
    rfl

theorem comparisonsOf_again (key : Key) (v : Value) :
    comparisonsOf key (comparisonsOf key v).2 = comparisonsOf key v := by
  cases hrecords : recordsOf key v with
  | error f => simp [comparisonsOf, hrecords]
  | ok records =>
    obtain ⟨hlength, hflats, hagain⟩ :=
      comparisonsFrom_left key 0 (isFlat_of_recordsOf hrecords)
    obtain ⟨hleft, hform⟩ := recordsOf_sameForm hrecords hlength hflats
    simp only [comparisonsOf, hrecords, hleft, hagain, hform]

/-- The memberships that a value gives; it stays as it is. -/
def membershipsOf (key : Key) (v : Value) : Except Fault (List Membership) × Value :=
  (recordsOf key v >>= membershipsFrom key 0, v)

theorem reads_checkMemberships (key : Key) :
    Reads key [] (membershipsOf key) (checkMemberships key) := by
  refine .of_lookup rfl ?_
  intro q v hq
  rw [membershipsOf, put_of_find? hq]
  dsimp only
  cases recordsOf key v <;> rfl

/-- The limit that a value gives, and the value as the check leaves it. -/
def limitIn (v : Value) : Except Fault (Option Nat) × Value :=
  match limitOf v with
  | .error f => (.error f, v)
  | .ok n => (.ok (some n), .int n)

theorem reads_checkLimit : Reads .limit none limitIn checkLimit := by
  refine .of_lookup rfl ?_
  intro q v hq
  cases hlimit : limitOf v with
  | error f =>
    simp only [limitIn, hlimit, put_of_find? hq]
    rfl
  | ok n =>
    simp only [limitIn, hlimit]
    rfl

theorem limitOf_int (n : Nat) : limitOf (.int n) = .ok n := rfl

theorem limitIn_again (v : Value) : limitIn (limitIn v).2 = limitIn v := by
  cases hlimit : limitOf v with
  | error f => simp [limitIn, hlimit]
  | ok n => simp [limitIn, hlimit, limitOf_int]

/-- A single order entry in a list. -/
def entered : Value → Value
  | .object entry => .list [.object entry]
  | v => v

/-- The order terms that a value gives, and the value as the check leaves it. -/
def orderOf (v : Value) : Except Fault (List OrderTerm) × Value :=
  match entered v with
  | .list entries => ((orderTermsFrom 0 entries).1, .list (orderTermsFrom 0 entries).2)
  | w => (fail (.orderKind w), w)

theorem reads_checkOrder : Reads .order [] orderOf checkOrder := by
  refine .of_lookup rfl ?_
  intro q v hq
  cases v with
  | object entry =>
    have hrun : ∀ q : Fields, execute (do
        write .order (.list (orderTermsFrom 0 [.object entry]).2)
        (orderTermsFrom 0 [.object entry]).1 : Check (List OrderTerm)) q =
          ((orderTermsFrom 0 [.object entry]).1,
            put q Key.order.name (.list (orderTermsFrom 0 [.object entry]).2)) := fun q => rfl
    refine (hrun (put q Key.order.name (.list [.object entry]))).trans ?_
    rw [put_put]
    rfl
  | list vs => rfl
  | _ =>
    simp only [orderOf, entered, put_of_find? hq]
    rfl

theorem orderOf_again (v : Value) : orderOf (orderOf v).2 = orderOf v := by
  have hlist : ∀ vs, orderOf (orderOf (.list vs)).2 = orderOf (.list vs) := by
    intro vs
    show ((orderTermsFrom 0 (orderTermsFrom 0 vs).2).1,
      Value.list (orderTermsFrom 0 (orderTermsFrom 0 vs).2).2) = _
    rw [orderTermsFrom_left]
    rfl
  cases v with
  | object entry => exact hlist [.object entry]
  | list vs => exact hlist vs
  | _ => rfl

/-! ## The starter -/

/-- The starters of a query stand under their own keys. -/
theorem presentStarters_congr {q r : Fields}
    (h : ∀ kind, find? r (StarterKind.name kind) = find? q (StarterKind.name kind)) :
    presentStarters r = presentStarters q := by
  unfold presentStarters
  congr 1
  funext kind
  rw [h kind]

theorem presentStarters_eq_singleton {q : Fields} {kind : StarterKind} {v : Value}
    (hkind : find? q kind.name = some v)
    (hother : ∀ k, k ≠ kind → find? q (StarterKind.name k) = none) :
    presentStarters q = [(kind, v)] := by
  cases kind <;> simp [presentStarters, StarterKind.all, hkind, hother]

theorem find?_of_presentStarters {q : Fields} {kind : StarterKind} {v : Value}
    (h : presentStarters q = [(kind, v)]) : find? q kind.name = some v ∧
      ∀ k, k ≠ kind → find? q (StarterKind.name k) = none := by
  refine ⟨mem_presentStarters.1 (by simp [h]), ?_⟩
  intro k hk
  cases hfind : find? q k.name with
  | none => rfl
  | some w =>
    have hmem := mem_presentStarters.2 hfind
    rw [h, List.mem_singleton] at hmem
    exact absurd (Prod.mk.inj hmem).1 hk

/-- With one starter alone its value is checked. -/
theorem execute_checkStarter_one {q : Fields} {kind : StarterKind} {v : Value}
    (h : presentStarters q = [(kind, v)]) :
    execute checkStarter q = ((starterOf kind v).1, put q kind.name (starterOf kind v).2) := by
  have hput := put_of_find? (find?_of_presentStarters h).1
  unfold checkStarter
  rw [Stateful.execute_bind, show execute (get : Check Fields) q = (.ok q, q) from rfl]
  dsimp only
  rw [h]
  dsimp only
  rw [Stateful.execute_bind, Stateful.execute_lift]
  cases hrecord : recordOf ⟨.starter kind, none⟩ v with
  | error f => simp only [starterOf, hrecord, hput]
  | ok record =>
    dsimp only
    rw [Stateful.execute_bind, Stateful.execute_lift]
    cases hclause : starterClause kind record with
    | error f => simp only [starterOf, hrecord, hclause, hput]
    | ok parts =>
      simp only [starterOf, hrecord, hclause]
      rfl

theorem execute_checkStarter_none {q : Fields} (h : presentStarters q = []) :
    execute checkStarter q = (.ok none, q) := by
  unfold checkStarter
  rw [Stateful.execute_bind, show execute (get : Check Fields) q = (.ok q, q) from rfl]
  dsimp only
  rw [h]
  rfl

theorem execute_checkStarter_several {q : Fields} {s t : StarterKind × Value}
    {rest : List (StarterKind × Value)} (h : presentStarters q = s :: t :: rest) :
    execute checkStarter q = (fail (.severalStarters ((s :: t :: rest).map (·.1))), q) := by
  unfold checkStarter
  rw [Stateful.execute_bind, show execute (get : Check Fields) q = (.ok q, q) from rfl]
  dsimp only
  rw [h]
  rfl

theorem settles_checkStarter : Settles (fun k => ∃ kind, k = .starter kind) checkStarter := by
  constructor
  · intro q k hk
    rcases hlist : presentStarters q with _ | ⟨⟨kind, v⟩, _ | ⟨t, rest⟩⟩
    · rw [execute_checkStarter_none hlist]
    · rw [execute_checkStarter_one hlist]
      have hne : (Key.starter kind).name ≠ k.name := by
        intro hname
        exact hk ⟨kind, (Key.name_injective hname).symm⟩
      exact find?_put_of_ne hne _
    · rw [execute_checkStarter_several hlist]
  · intro q
    rcases hlist : presentStarters q with _ | ⟨⟨kind, v⟩, _ | ⟨t, rest⟩⟩
    · rw [execute_checkStarter_none hlist]
    · have hexact := exact_of_lawful kind.name
      have hfind := (find?_of_presentStarters hlist).1
      rw [execute_checkStarter_one hlist]
      exact hexact.keys_put_of_mem (hexact.mem_keys_of_find? hfind) _
    · rw [execute_checkStarter_several hlist]
  · intro q r hr
    have hstarters : presentStarters r = presentStarters (execute checkStarter q).2 :=
      presentStarters_congr fun kind => hr (.starter kind) ⟨kind, rfl⟩
    rcases hlist : presentStarters q with _ | ⟨⟨kind, v⟩, _ | ⟨t, rest⟩⟩
    · rw [execute_checkStarter_none hlist] at hstarters ⊢
      exact execute_checkStarter_none (hstarters.trans hlist)
    · rw [execute_checkStarter_one hlist] at hstarters ⊢
      obtain ⟨-, hother⟩ := find?_of_presentStarters hlist
      have hone : presentStarters (put q kind.name (starterOf kind v).2) =
          [(kind, (starterOf kind v).2)] := by
        refine presentStarters_eq_singleton (find?_put_self q kind.name _) ?_
        intro k hk
        have hne : kind.name ≠ k.name := by
          intro hname
          have hkey : Key.starter kind = Key.starter k := Key.name_injective hname
          cases hkey
          exact hk rfl
        rw [find?_put_of_ne hne, hother k hk]
      have hr' := hstarters.trans hone
      rw [execute_checkStarter_one hr', starterOf_again,
        put_of_find? (find?_of_presentStarters hr').1]
    · rw [execute_checkStarter_several hlist] at hstarters ⊢
      exact execute_checkStarter_several (hstarters.trans hlist)

/-! ## A second check -/

theorem settles_checkRows : Settles (fun k => k = .select ∨ (∃ kind, k = .starter kind) ∨
    k = .andWhere ∨ k = .orWhere ∨ k = .orWhereIn ∨ k = .limit ∨ k = .order) checkRows := by
  have hcomparisons : ∀ key, Settles (· = key) (checkComparisons key) :=
    fun key => (reads_checkComparisons key).settles (comparisonsOf_again key)
  have hmemberships : ∀ key, Settles (· = key) (checkMemberships key) :=
    fun key => (reads_checkMemberships key).settles fun _ => rfl
  refine (reads_checkSelect.settles selectionOf_again).bind (fun select => ?_) (by simp)
  refine settles_checkStarter.bind (fun starter => ?_) (by simp)
  refine (hcomparisons .andWhere).bind (fun andWhere => ?_) (by simp)
  refine (hcomparisons .orWhere).bind (fun orWhere => ?_) (by simp)
  refine (hmemberships .orWhereIn).bind (fun orWhereIn => ?_) (by simp)
  refine (reads_checkLimit.settles limitIn_again).bind (fun limit => ?_) (by simp)
  exact (reads_checkOrder.settles orderOf_again).bind_pure

theorem presentAggregates_congr {q r : Fields}
    (h : ∀ f, find? r (Aggregate.name f) = find? q (Aggregate.name f)) :
    presentAggregates r = presentAggregates q := by
  unfold presentAggregates
  congr 1
  funext f
  rw [h f]

/-- A query under the names of keys is checked for an aggregate, and for rows without one. -/
theorem execute_check {q : Fields} (hnames : unknownName? q = none) :
    execute check q =
      match aggregateOf (presentAggregates q) with
      | .error f => (.error f, q)
      | .ok (some request) => (.ok { aggregate := some request }, q)
      | .ok none => execute checkRows q := by
  unfold check
  rw [Stateful.execute_bind, show execute (get : Check Fields) q = (.ok q, q) from rfl]
  dsimp only
  rw [hnames]
  dsimp only
  rw [Stateful.execute_bind, show execute (get : Check Fields) q = (.ok q, q) from rfl]
  dsimp only
  rw [Stateful.execute_bind, Stateful.execute_lift]
  rcases aggregateOf (presentAggregates q) with f | _ | request <;> rfl

theorem execute_check_unknown {q : Fields} {name : String} (h : unknownName? q = some name) :
    execute check q = (fail (.unknownKey name), q) := by
  unfold check
  rw [Stateful.execute_bind, show execute (get : Check Fields) q = (.ok q, q) from rfl]
  dsimp only
  rw [h]
  rfl

/-- What the check leaves of a query has the same outcome and is left as it is. -/
theorem execute_check_again (q : Fields) :
    execute check (execute check q).2 = execute check q := by
  cases hnames : unknownName? q with
  | some name =>
    have hrun := execute_check_unknown hnames
    rw [hrun]
    exact hrun
  | none =>
    have hrun := execute_check hnames
    rcases haggregate : aggregateOf (presentAggregates q) with f | _ | request
    · rw [haggregate] at hrun
      rw [hrun]
      exact hrun
    · rw [haggregate] at hrun
      have hleft := settles_checkRows.names q
      have hframe := settles_checkRows.frame q
      have hagain := settles_checkRows.again q (execute checkRows q).2 fun _ _ => rfl
      rw [hrun]
      generalize execute checkRows q = checked at hleft hframe hagain
      have hnames' : unknownName? checked.2 = none := by
        rw [unknownName?, hleft]
        exact hnames
      have haggregates : presentAggregates checked.2 = presentAggregates q :=
        presentAggregates_congr fun f => hframe (.aggregate f) (by simp)
      rw [execute_check hnames', haggregates, haggregate]
      exact hagain
    · rw [haggregate] at hrun
      rw [hrun]
      exact hrun

end Validation

end RowAccess
