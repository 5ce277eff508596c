import RowAccess.Proofs.Operation.Neutral

/-
  RowAccess/Proofs/Operation/Compiled.lean
  ========================================
  **Compiling loses and reorders nothing.**  What a rewriting fails with is known from the values
  that its clause compares, whatever comes of those that fit (`Query.error?_steps`).  A clause that
  is rewritten keeps all but its values (`Clause.Rewritten`), and the steps of a query are those of
  its parts in the order of a chain (`Query.CompilesTo`).  So a query is refused for a value that is
  no date, or all of it stands in the plan (`plan_keeps_query`).
-/

namespace RowAccess

open Outcome

namespace Outcome

variable {ε α β : Type}

theorem error?_eq_none_iff {x : Except ε α} : error? x = none ↔ ∃ a, x = .ok a := by
  cases x <;> simp [error?]

theorem error?_eq_some_iff {x : Except ε α} {e : ε} : error? x = some e ↔ x = .error e := by
  cases x <;> simp [error?]

/-- A sequence fails with the error of its first part, or else with the one that its second part has
for every value of the first. -/
theorem error?_bind {x : Except ε α} {f : α → Except ε β} {o : Option ε}
    (h : ∀ a, error? (f a) = o) : error? (x >>= f) = (error? x).or o := by
  cases x with
  | error e => rfl
  | ok a => exact h a

theorem error?_bind_pure (x : Except ε α) (f : α → β) :
    error? (x >>= fun a => pure (f a)) = error? x := by
  cases x <;> rfl

theorem error?_map (x : Except ε α) (f : α → β) : error? (x.map f) = error? x := by
  cases x <;> rfl

theorem error?_mapM (f : α → Except ε β) (xs : List α) :
    error? (xs.mapM f) = xs.findSome? fun x => error? (f x) := by
  induction xs with
  | nil => rfl
  | cons x xs ih =>
    rw [List.mapM_cons, findSome?_cons_eq_or, ← ih]
    exact error?_bind fun y => error?_bind_pure _ _

end Outcome

/-! ## What is kept -/

section Definitions

variable (schema : Option TableSchema) (c : Config)

/-- Is the value one that the comparison of dates refuses, in a column of timestamps? -/
def Storage.Refuses (e : Value × Value) : Prop :=
  categoryIn? schema e.1 = .ok (some .timestamp) ∧
    ∃ cause, Conversion.comparisonDate c e.2 = .error (.coercion cause)

/-- The clause with its values in the form for the category of its column, and with all else as it
was. -/
inductive Clause.Rewritten : Clause → Clause → Prop
  | like (l : Like) : Rewritten (.like l) (.like l)
  | unknown (clause : Clause) (h : Storage.categoryIn? schema clause.column = .ok none) :
    Rewritten clause clause
  | comparison {column : Value} {k : Category} (comparator : Comparator) {v w : Value}
      (hk : Storage.categoryIn? schema column = .ok (some k))
      (h : Storage.value c k v = .ok w) :
    Rewritten (.comparison ⟨column, comparator, v⟩) (.comparison ⟨column, comparator, w⟩)
  | membership {column : Value} {k : Category} {v w : Value} {vs ws : List Value}
      (hk : Storage.categoryIn? schema column = .ok (some k)) (h : Storage.value c k v = .ok w)
      (hs : List.Forall₂ (fun v w => Storage.value c k v = .ok w) vs ws) :
    Rewritten (.membership ⟨column, v, vs⟩) (.membership ⟨column, w, ws⟩)
  | range {column : Value} {k : Category} {low low' high high' : Value}
      (hk : Storage.categoryIn? schema column = .ok (some k))
      (hlow : Storage.value c k low = .ok low') (hhigh : Storage.value c k high = .ok high') :
    Rewritten (.range ⟨column, low, high⟩) (.range ⟨column, low', high'⟩)

/-- The steps of a query: the selected columns if there are any, the starter, a step for each clause
in the order of the three lists, the limit if there is one, and the order terms if there are any. -/
inductive Query.CompilesTo (q : Query) : List Step → Prop
  | mk {starter : Option Starter} {ands ors ins : List Clause}
      (hstarter : Option.Rel
        (fun s t => t.kind = s.kind ∧ Clause.Rewritten schema c s.clause t.clause)
        q.starter starter)
      (hand : List.Forall₂ (Clause.Rewritten schema c) (q.andWhere.map .comparison) ands)
      (hor : List.Forall₂ (Clause.Rewritten schema c) (q.orWhere.map .comparison) ors)
      (hin : List.Forall₂ (Clause.Rewritten schema c) (q.orWhereIn.map .membership) ins) :
    CompilesTo q
      ((if q.select.isEmpty then [] else [.select q.select]) ++ starter.toList.map .starter ++
        ands.map .andWhere ++ ors.map .orWhere ++ ins.map .orWhereIn ++
        (q.limit.toList.map fun n => .limit (.int n)) ++
        (if q.order.isEmpty then [] else [.order q.order]))

end Definitions

/-! ## Faults -/

namespace Storage

variable (schema : Option TableSchema) (c : Config)

theorem error?_value (k : Category) (v : Value) : error? (value c k v) = faultIn? k v := by
  cases k with
  | timestamp => rw [value, error?_map, Conversion.comparisonDate, error?_map, faultIn?]
  | _ => rfl

/-- What is converted for its column fails with the first fault that the values of it meet. -/
theorem error?_onColumn {α : Type} {f : Category → α → Except Fault α} {vs : List Value}
    (column : Value) {a : α} (h : ∀ k, error? (f k a) = vs.findSome? (faultIn? k)) :
    error? (onColumn schema column f a) = columnFault? schema column vs := by
  unfold columnFault? onColumn
  rcases categoryIn? schema column with e | _ | k
  · rfl
  · rfl
  · exact h k

variable {schema c}

theorem fault?_of_refuses {e : Value × Value} (h : Refuses schema c e) :
    ∃ cause, fault? schema e = some (.coercion cause) := by
  obtain ⟨hk, cause, hcause⟩ := h
  refine ⟨cause, ?_⟩
  have hvalue : error? (value c .timestamp e.2) = some (.coercion cause) := by
    rw [value, error?_map, hcause]
    rfl
  unfold fault?
  rw [hk, ← hvalue, error?_value]

theorem refuses_of_fault? {e : Value × Value} {cause : CoercionFault}
    (h : fault? schema e = some (.coercion cause)) :
    categoryIn? schema e.1 = .ok (some .timestamp) ∧
      Conversion.comparisonDate c e.2 = .error (.coercion cause) := by
  unfold fault? at h
  rcases hk : categoryIn? schema e.1 with f | _ | k
  · rw [hk] at h
    cases h
    cases schema with
    | none => cases hk
    | some t => cases TableSchema.lookup_eq_error hk
  · rw [hk] at h
    cases h
  · rw [hk] at h
    cases k with
    | timestamp =>
      refine ⟨rfl, error?_eq_some_iff.1 ?_⟩
      rw [Conversion.comparisonDate, error?_map]
      exact h
    | _ => cases h

end Storage

section Clauses

open Storage

variable (schema : Option TableSchema) (c : Config)

theorem Comparison.error?_forStorage (clause : Comparison) :
    error? (clause.forStorage schema c) =
      (Clause.comparison clause).compared.findSome? (fault? schema) := by
  have hfault : (Clause.comparison clause).compared.findSome? (fault? schema) =
      columnFault? schema clause.column [clause.value] :=
    findSome?_fault? schema clause.column clause.value []
  rw [hfault]
  refine error?_onColumn schema clause.column fun k => ?_
  rw [List.findSome?_singleton, ← error?_value c]
  exact error?_bind_pure _ _

theorem Membership.error?_forStorage (clause : Membership) :
    error? (clause.forStorage schema c) =
      (Clause.membership clause).compared.findSome? (fault? schema) := by
  have hfault : (Clause.membership clause).compared.findSome? (fault? schema) =
      columnFault? schema clause.column clause.values :=
    findSome?_fault? schema clause.column clause.first clause.rest
  rw [hfault]
  refine error?_onColumn schema clause.column fun k => ?_
  have hrest : error? (clause.rest.mapM (value c k)) = clause.rest.findSome? (faultIn? k) := by
    rw [error?_mapM]
    simp only [error?_value]
  rw [Membership.values, findSome?_cons_eq_or, ← error?_value c, ← hrest]
  exact error?_bind fun first => error?_bind_pure _ _

theorem Range.error?_forStorage (clause : Range) :
    error? (clause.forStorage schema c) =
      (Clause.range clause).compared.findSome? (fault? schema) := by
  have hfault : (Clause.range clause).compared.findSome? (fault? schema) =
      columnFault? schema clause.column [clause.low, clause.high] :=
    findSome?_fault? schema clause.column clause.low [clause.high]
  rw [hfault]
  refine error?_onColumn schema clause.column fun k => ?_
  rw [findSome?_cons_eq_or, List.findSome?_singleton, ← error?_value c, ← error?_value c]
  exact error?_bind fun low => error?_bind_pure _ _

theorem Clause.error?_forStorage (clause : Clause) :
    error? (clause.forStorage schema c) = clause.compared.findSome? (fault? schema) := by
  cases clause with
  | comparison clause =>
    rw [Clause.forStorage, error?_map]
    exact clause.error?_forStorage schema c
  | like l => rfl
  | membership clause =>
    rw [Clause.forStorage, error?_map]
    exact clause.error?_forStorage schema c
  | range clause =>
    rw [Clause.forStorage, error?_map]
    exact clause.error?_forStorage schema c

/-- The rewriting of a query fails with the first fault that a value of it meets. -/
theorem Query.error?_steps (q : Query) : error? (q.steps schema c) = q.fault? schema := by
  have hstarter : error? (q.starter.mapM fun s => do
      return Starter.mk s.kind (← s.clause.forStorage schema c)) =
        q.starter.bind fun s => s.clause.compared.findSome? (Storage.fault? schema) := by
    cases q.starter with
    | none => rfl
    | some s =>
      rw [Option.bind_some, ← s.clause.error?_forStorage schema c]
      exact (error?_map _ _).trans (error?_bind_pure _ _)
  have hcomparisons : ∀ clauses : List Comparison,
      error? (clauses.mapM (Comparison.forStorage schema c)) = clauses.findSome? fun a =>
        (Clause.comparison a).compared.findSome? (Storage.fault? schema) := by
    intro clauses
    rw [error?_mapM]
    simp only [Comparison.error?_forStorage]
  have hmemberships : error? (q.orWhereIn.mapM (Membership.forStorage schema c)) =
      q.orWhereIn.findSome? fun m =>
        (Clause.membership m).compared.findSome? (Storage.fault? schema) := by
    rw [error?_mapM]
    simp only [Membership.error?_forStorage]
  rw [Query.fault?_eq, ← hstarter, ← hcomparisons, ← hcomparisons, ← hmemberships]
  exact error?_bind fun starter => error?_bind fun ands => error?_bind fun ors =>
    error?_bind_pure _ _

/-! ## Rewritten clauses -/

/-- What is converted for a column is converted for its category, or left as it is. -/
theorem Storage.onColumn_eq_ok {α : Type} {column : Value} {convert : Category → α → Except Fault α}
    {a b : α} (h : onColumn schema column convert a = .ok b) :
    categoryIn? schema column = .ok none ∧ b = a ∨
      ∃ k, categoryIn? schema column = .ok (some k) ∧ convert k a = .ok b := by
  obtain ⟨category, hcategory, h⟩ := bind_eq_ok_iff.1 h
  cases category with
  | none =>
    cases h
    exact .inl ⟨hcategory, rfl⟩
  | some k => exact .inr ⟨k, hcategory, h⟩

variable {schema c}

theorem Comparison.rewritten {a b : Comparison} (h : a.forStorage schema c = .ok b) :
    Clause.Rewritten schema c (.comparison a) (.comparison b) := by
  rcases onColumn_eq_ok schema h with ⟨hk, rfl⟩ | ⟨k, hk, h⟩
  · exact .unknown _ hk
  · obtain ⟨v, hv, h⟩ := bind_eq_ok_iff.1 h
    cases h
    exact .comparison _ hk hv

theorem Membership.rewritten {a b : Membership} (h : a.forStorage schema c = .ok b) :
    Clause.Rewritten schema c (.membership a) (.membership b) := by
  rcases onColumn_eq_ok schema h with ⟨hk, rfl⟩ | ⟨k, hk, h⟩
  · exact .unknown _ hk
  · obtain ⟨v, hv, h⟩ := bind_eq_ok_iff.1 h
    obtain ⟨vs, hvs, h⟩ := bind_eq_ok_iff.1 h
    cases h
    exact .membership hk hv (forall₂_of_mapM hvs)

theorem Range.rewritten {a b : Range} (h : a.forStorage schema c = .ok b) :
    Clause.Rewritten schema c (.range a) (.range b) := by
  rcases onColumn_eq_ok schema h with ⟨hk, rfl⟩ | ⟨k, hk, h⟩
  · exact .unknown _ hk
  · obtain ⟨low, hlow, h⟩ := bind_eq_ok_iff.1 h
    obtain ⟨high, hhigh, h⟩ := bind_eq_ok_iff.1 h
    cases h
    exact .range hk hlow hhigh

theorem Clause.rewritten {a b : Clause} (h : a.forStorage schema c = .ok b) :
    Clause.Rewritten schema c a b := by
  cases a with
  | like l =>
    cases h
    exact .like l
  | comparison a =>
    obtain ⟨b, hb, rfl⟩ := map_eq_ok_iff.1 h
    exact Comparison.rewritten hb
  | membership a =>
    obtain ⟨b, hb, rfl⟩ := map_eq_ok_iff.1 h
    exact Membership.rewritten hb
  | range a =>
    obtain ⟨b, hb, rfl⟩ := map_eq_ok_iff.1 h
    exact Range.rewritten hb

/-- Clauses of one constructor, rewritten one by one. -/
theorem Clause.forall₂_rewritten {α : Type} {f : α → Except Fault α} {g : α → Clause}
    (hf : ∀ a b, f a = .ok b → Clause.Rewritten schema c (g a) (g b)) {as bs : List α}
    (h : as.mapM f = .ok bs) :
    List.Forall₂ (Clause.Rewritten schema c) (as.map g) (bs.map g) := by
  rw [List.forall₂_map_left_iff, List.forall₂_map_right_iff]
  exact (forall₂_of_mapM h).imp hf

theorem Query.compilesTo_of_steps {q : Query} {steps : List Step}
    (h : q.steps schema c = .ok steps) : q.CompilesTo schema c steps := by
  obtain ⟨starter, hstarter, h⟩ := bind_eq_ok_iff.1 h
  obtain ⟨ands, hand, h⟩ := bind_eq_ok_iff.1 h
  obtain ⟨ors, hor, h⟩ := bind_eq_ok_iff.1 h
  obtain ⟨ins, hin, h⟩ := bind_eq_ok_iff.1 h
  have hrel : Option.Rel
      (fun s t => t.kind = s.kind ∧ Clause.Rewritten schema c s.clause t.clause)
      q.starter starter := by
    cases hs : q.starter with
    | none =>
      rw [hs] at hstarter
      cases hstarter
      exact .none
    | some s =>
      rw [hs] at hstarter
      obtain ⟨t, ht, rfl⟩ := map_eq_ok_iff.1 hstarter
      obtain ⟨d, hd, ht⟩ := bind_eq_ok_iff.1 ht
      cases ht
      exact .some ⟨rfl, Clause.rewritten hd⟩
  have hmk := Query.CompilesTo.mk (q := q) hrel
    (Clause.forall₂_rewritten (fun _ _ => Comparison.rewritten) hand)
    (Clause.forall₂_rewritten (fun _ _ => Comparison.rewritten) hor)
    (Clause.forall₂_rewritten (fun _ _ => Membership.rewritten) hin)
  have hform : steps = Chain.form (if q.select.isEmpty then none else some q.select) starter
      (ands.map .comparison) (ors.map .comparison) (ins.map .membership)
      (q.limit.map fun n => .int n) (if q.order.isEmpty then none else some q.order) :=
    (Except.ok.inj h).symm
  have htoList : ∀ {α : Type} (b : Bool) (a : α) (f : α → Step),
      (if b then none else some a : Option α).toList.map f = if b then [] else [f a] := by
    intro α b a f
    cases b <;> rfl
  have hlimit : (q.limit.map fun n => Value.int n).toList.map Step.limit =
      q.limit.toList.map fun n => .limit (.int n) := by
    cases q.limit <;> rfl
  rw [Chain.form, htoList, htoList, hlimit] at hform
  rw [hform]
  exact hmk

end Clauses

/-! ## Plans -/

/-- **Compiling loses and reorders nothing.**  No check on the way is breached.  Unless the first
value that does not fit its column is one that escapes, either some value of a clause that is no
pattern is refused as a date, and the plan is the failure of the first one that is, or there is no
such value and the steps of the plan are those of the query, with all that it holds in its order. -/
theorem plan_keeps_query (table : Value) (schema : Option TableSchema) (c : Config) (q : Query)
    (hq : q.aggregate = none) :
    (∀ b, q.plan table schema c ≠ .error (.breach b)) ∧
      (¬ q.Escapes schema →
        (∃ before e after cause, q.compared = before ++ e :: after ∧
            (∀ e' ∈ before, ¬ Storage.Refuses schema c e') ∧
            Storage.categoryIn? schema e.1 = .ok (some .timestamp) ∧
            Conversion.comparisonDate c e.2 = .error (.coercion cause) ∧
            q.plan table schema c = .ok (.error ⟨.coercion, cause.message⟩)) ∨
          (∀ e ∈ q.compared, ¬ Storage.Refuses schema c e) ∧
            ∃ steps, q.plan table schema c = .ok (.ok (.scan table steps)) ∧
              q.CompilesTo schema c steps) := by
  have hfits : ∀ e, Storage.fault? schema e = none → ¬ Storage.Refuses schema c e := by
    intro e he hrefuses
    obtain ⟨cause, hcause⟩ := Storage.fault?_of_refuses hrefuses
    rw [he] at hcause
    cases hcause
  cases hfault : q.fault? schema with
  | none =>
    obtain ⟨steps, hsteps⟩ := error?_eq_none_iff.1 ((q.error?_steps schema c).trans hfault)
    have hplan : q.plan table schema c = .ok (.ok (.scan table steps)) :=
      Query.plan_of_steps hq hsteps
    refine ⟨fun b hb => ?_, fun _ => .inr ⟨?_, steps, hplan, Query.compilesTo_of_steps hsteps⟩⟩
    · rw [hplan] at hb
      cases hb
    · intro e he
      exact hfits e (List.findSome?_eq_none_iff.1 hfault e he)
  | some f =>
    have hplan : q.plan table schema c = capture (.error f) :=
      Query.plan_of_fault hq (error?_eq_some_iff.1 ((q.error?_steps schema c).trans hfault))
    rcases Query.fault?_cases hfault with ⟨⟨cause, rfl⟩, hwritable⟩ | hescape
    · rw [capture_of_failure? rfl, if_pos hwritable] at hplan
      refine ⟨fun b hb => ?_, fun _ => .inl ?_⟩
      · rw [hplan] at hb
        cases hb
      · obtain ⟨before, e, after, hcompared, he, hbefore⟩ := Query.fault?_eq_some_iff.1 hfault
        obtain ⟨hk, hcause⟩ := Storage.refuses_of_fault? (c := c) he
        refine ⟨before, e, after, cause, hcompared, fun e' he' => ?_, hk, hcause, hplan⟩
        exact hfits e' (Storage.fault?_eq_none_iff.2 (hbefore e' he'))
    · obtain ⟨g, hg, hbreach⟩ := hescape.capture_error (α := Plan)
      refine ⟨fun b hb => ?_, fun hnot => ?_⟩
      · rw [hplan, hg] at hb
        exact hbreach b (Except.error.inj hb)
      · exact absurd ((Query.escapes_iff hq).2 ⟨f, hfault, hescape⟩) hnot

/-- A query with a clause of each kind that a query can hold, and with a limit of no rows. -/
def fullQuery : Query where
  select := [.text "ID"]
  starter := some ⟨.whereBetween, .range ⟨.text "created", .text "2020-01-01", .text "2020-12-31"⟩⟩
  andWhere := [⟨.text "ID", .gt, .text "7"⟩]
  orWhere := [⟨.text "NAME", .eq, .bool true⟩]
  orWhereIn := [⟨.text "CREATED", .text " 2021-01-01", [.text "2021-02-28T12:00"]⟩]
  limit := some 0
  order := [⟨.text "ID", .descending⟩]

/-- Everything that the query holds stands in its plan. -/
theorem plan_keeps_query_full : ∃ q : Query, q.aggregate = none ∧
    ¬ q.Escapes (some createdItems) ∧
      ∃ steps, q.plan (.text "ITEMS") (some createdItems) formattingConfig =
        .ok (.ok (.scan (.text "ITEMS") steps)) ∧
          q.CompilesTo (some createdItems) formattingConfig steps := by
  have hfault : fullQuery.fault? (some createdItems) = none := rfl
  have hnot : ¬ fullQuery.Escapes (some createdItems) := by
    rw [Query.escapes_iff rfl, hfault]
    simp
  refine ⟨fullQuery, rfl, hnot, ?_⟩
  obtain ⟨p, hp⟩ : ∃ p, fullQuery.plan (.text "ITEMS") (some createdItems) formattingConfig =
    .ok (.ok p) := ⟨_, rfl⟩
  rcases (plan_keeps_query (.text "ITEMS") (some createdItems) formattingConfig fullQuery rfl).2
    hnot with ⟨before, e, after, cause, -, -, -, -, hfailure⟩ | ⟨-, hplan⟩
  · rw [hp] at hfailure
    cases hfailure
  · exact hplan

/-- A table one of whose columns is named by a number. -/
def numberedItems : TableSchema :=
  ⟨.text "ITEMS", .null, none, { timestamp := [.text "A", .int 5] }, by decide⟩

/-- Among names without a case, the look-up of a column that is not there ends in no failure; and
neither does an integer that is too long to write, where it is compared as a timestamp. -/
theorem plan_fails_otherwise :
    (¬ ∀ (table : Value) (schema : Option TableSchema) (c : Config) (q : Query),
      q.aggregate = none →
        (∀ e ∈ q.compared, Conversion.comparisonDate c e.2 ≠ .error .outOfRange) →
          (∃ failure, q.plan table schema c = .ok (.error failure)) ∨
            ∃ steps, q.plan table schema c = .ok (.ok (.scan table steps))) ∧
      ∃ q : Query, q.aggregate = none ∧
        q.compared = [(.text "CREATED", .int Number.leastUnwritten)] ∧
          q.plan (.text "ITEMS") (some createdItems) formattingConfig =
            .error (.badArgument .integerToWrite) := by
  constructor
  · intro h
    let q : Query := { starter := some ⟨.where_, .comparison ⟨.text "B", .eq, .int 1⟩⟩ }
    have hplan : q.plan (.text "ITEMS") (some numberedItems) formattingConfig =
      .error .noSuchOperation := rfl
    have hdates : ∀ e ∈ q.compared,
        Conversion.comparisonDate formattingConfig e.2 ≠ .error .outOfRange := by
      intro e he
      obtain rfl : e = (.text "B", .int 1) := List.mem_singleton.1 he
      exact fun hdate => by cases hdate
    rcases h (.text "ITEMS") (some numberedItems) formattingConfig q rfl hdates with
      ⟨failure, hfailure⟩ | ⟨steps, hsteps⟩
    · rw [hplan] at hfailure
      cases hfailure
    · rw [hplan] at hsteps
      cases hsteps
  · have hlong : ∀ n, Number.isWritten n = false → ∃ q : Query, q.aggregate = none ∧
        q.compared = [(.text "CREATED", .int n)] ∧
          q.plan (.text "ITEMS") (some createdItems) formattingConfig =
            .error (.badArgument .integerToWrite) := by
      intro n hn
      let q : Query := { starter := some ⟨.where_, .comparison ⟨.text "CREATED", .eq, .int n⟩⟩ }
      have hsteps : q.steps (some createdItems) formattingConfig =
        .error (.coercion (.timestampKind (.int n))) := rfl
      have hwritable : (Fault.coercion (.timestampKind (.int n))).isWritable = false :=
        (Fault.isWritable_of_mentioned (v := .int n) rfl).trans hn
      refine ⟨q, rfl, rfl, ?_⟩
      rw [Query.plan_of_fault rfl hsteps, capture_of_failure? rfl, hwritable]
      rfl
    exact hlong _ Number.isWritten_leastUnwritten

end RowAccess
