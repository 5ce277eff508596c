import RowAccess.Operation.Compile
import RowAccess.Proofs.Query.Parts
import RowAccess.Proofs.Query.Spelling

/-
  RowAccess/Proofs/Query/Respelled.lean
  =====================================
  **Queries that differ in how numbers are spelled.**  An integer may be spelled by a text as the
  limit and among the values of a clause on a column of numbers.  Every check goes alike on both
  spellings: it fails with a fault of the same class, or it gives clauses that have the same form in
  storage (`Validation.alike_queryOf`), and queries of such clauses compile to the same plan
  (`Query.SameStored.plan_eq`).
-/

namespace RowAccess

open Acceptance Keyed Outcome Storage

/-! ## Entries -/

/-- The same entry, or entries under one name whose values are related as the name says. -/
inductive EntryRelated {κ : Type} (name : κ → String) (R : κ → Value → Value → Prop) :
    String × Value → String × Value → Prop
  | same (e : String × Value) : EntryRelated name R e e
  | under (key : κ) {v w : Value} (h : R key v w) :
    EntryRelated name R (name key, v) (name key, w)

section Entries

variable {κ : Type} {name : κ → String} {R : κ → Value → Value → Prop}

theorem EntryRelated.name_eq {e f : String × Value} (h : EntryRelated name R e f) : e.1 = f.1 := by
  cases h with
  | same => rfl
  | under => rfl

theorem EntryRelated.value (hname : Function.Injective name) (hrefl : ∀ key v, R key v v) {key : κ}
    {v w : Value} (h : EntryRelated name R (name key, v) (name key, w)) : R key v w := by
  generalize he : (name key, v) = e at h
  generalize hf : (name key, w) = f at h
  cases h with
  | same =>
    obtain ⟨-, rfl⟩ := Prod.mk.inj (he.trans hf.symm)
    exact hrefl key v
  | under key' h =>
    obtain ⟨hkey, rfl⟩ := Prod.mk.inj he
    obtain ⟨-, rfl⟩ := Prod.mk.inj hf
    obtain rfl := hname hkey
    exact h

/-- What is found under a name is related as the name says. -/
theorem find?_entryRelated {m n : Fields} (hname : Function.Injective name)
    (hrefl : ∀ key v, R key v v) (h : List.Forall₂ (EntryRelated name R) m n) (key : κ) :
    Option.Rel (R key) (find? m (name key)) (find? n (name key)) := by
  have hfound := find?_forall₂ h (fun e f => EntryRelated.name_eq) (name key)
  generalize find? m (name key) = o at hfound ⊢
  generalize find? n (name key) = o' at hfound ⊢
  cases hfound with
  | none => exact .none
  | some hvalue => exact .some (hvalue.value hname hrefl)

end Entries

/-! ## Queries -/

/-- The same value, or lists in which integers may be spelled. -/
inductive Value.ListRespelled : Value → Value → Prop
  | same (v : Value) : ListRespelled v v
  | list {vs ws : List Value} (h : List.Forall₂ Value.Respelled vs ws) :
    ListRespelled (.list vs) (.list ws)

/-- What a field of a record on a column of numbers may hold instead. -/
def ClauseField.Respelled : ClauseField → Value → Value → Prop
  | .value => Value.Respelled
  | .values => Value.ListRespelled
  | .column | .comparator => Eq

section Definitions

variable (schema : Option TableSchema)

/-- The same value, or records on a column of numbers in which integers may be spelled. -/
inductive RecordRespelled : Value → Value → Prop
  | same (v : Value) : RecordRespelled v v
  | onNumbers {r s : Fields} (hcolumn : categoryIn? schema (field r .column) = .ok (some .number))
      (h : List.Forall₂ (EntryRelated ClauseField.name ClauseField.Respelled) r s) :
    RecordRespelled (.object r) (.object s)

/-- One such record, or a list of them. -/
inductive RecordsRespelled : Value → Value → Prop
  | one {v w : Value} (h : RecordRespelled schema v w) : RecordsRespelled v w
  | several {vs ws : List Value} (h : List.Forall₂ (RecordRespelled schema) vs ws) :
    RecordsRespelled (.list vs) (.list ws)

/-- What a key may hold instead: a limit that is spelled, or records of clauses that are no
patterns. -/
def Key.Respelled : Key → Value → Value → Prop
  | .limit => Value.Respelled
  | .starter .whereLike => Eq
  | .starter _ => RecordRespelled schema
  | .andWhere | .orWhere | .orWhereIn => RecordsRespelled schema
  | .select | .aggregate _ | .order => Eq

/-- Does the second query differ from the first one in the spelling of integers alone? -/
def QueryRespelled (q r : Fields) : Prop :=
  List.Forall₂ (EntryRelated Key.name (Key.Respelled schema)) q r

/-- Typed queries whose clauses have the same form in storage, and that agree otherwise. -/
structure Query.SameStored (c : Config) (p q : Query) : Prop where
  select : p.select = q.select
  starter : Option.Rel
    (fun s t => s.kind = t.kind ∧ s.clause.forStorage schema c = t.clause.forStorage schema c)
    p.starter q.starter
  andWhere : List.Forall₂ (fun a b => a.forStorage schema c = b.forStorage schema c)
    p.andWhere q.andWhere
  orWhere : List.Forall₂ (fun a b => a.forStorage schema c = b.forStorage schema c)
    p.orWhere q.orWhere
  orWhereIn : List.Forall₂ (fun a b => a.forStorage schema c = b.forStorage schema c)
    p.orWhereIn q.orWhereIn
  aggregate : p.aggregate = q.aggregate
  limit : p.limit = q.limit
  order : p.order = q.order

end Definitions

/-! ## Storage -/

section Storage

variable {schema : Option TableSchema} {c : Config}

theorem Query.SameStored.plan_eq {p q : Query} (h : p.SameStored schema c q) (table : Value) :
    p.plan table schema c = q.plan table schema c := by
  have hstarter : (p.starter.mapM fun s => do
        return Starter.mk s.kind (← s.clause.forStorage schema c)) =
      q.starter.mapM fun s => do return Starter.mk s.kind (← s.clause.forStorage schema c) := by
    have hrel := h.starter
    generalize p.starter = o at hrel ⊢
    generalize q.starter = o' at hrel ⊢
    cases hrel with
    | none => rfl
    | some hst => rw [Option.mapM_some, Option.mapM_some, hst.1, hst.2]
  have hsteps : p.steps schema c = q.steps schema c := by
    unfold Query.steps
    rw [hstarter, mapM_eq_of_forall₂ h.andWhere, mapM_eq_of_forall₂ h.orWhere,
      mapM_eq_of_forall₂ h.orWhereIn, h.select, h.limit, h.order]
  unfold Query.plan
  rw [h.aggregate, hsteps]

/-- On a column of numbers a comparison is stored with the number of its value. -/
theorem Comparison.forStorage_number {a : Comparison}
    (hk : categoryIn? schema a.column = .ok (some .number)) :
    a.forStorage schema c = .ok { a with value := numberValue a.value } := by
  rw [Comparison.forStorage, onColumn, hk]
  rfl

theorem Membership.forStorage_number {a : Membership}
    (hk : categoryIn? schema a.column = .ok (some .number)) :
    a.forStorage schema c =
      .ok { a with first := numberValue a.first, rest := a.rest.map numberValue } := by
  have hrest : a.rest.mapM (Storage.value c .number) = .ok (a.rest.map numberValue) :=
    mapM_eq_ok fun v _ => rfl
  rw [Membership.forStorage, onColumn, hk]
  simp only [ok_bind, Storage.membership, hrest]
  rfl

theorem Range.forStorage_number {a : Range}
    (hk : categoryIn? schema a.column = .ok (some .number)) :
    a.forStorage schema c =
      .ok { a with low := numberValue a.low, high := numberValue a.high } := by
  rw [Range.forStorage, onColumn, hk]
  rfl

end Storage

/-! ## Records -/

theorem ClauseField.Respelled.refl (f : ClauseField) (v : Value) : f.Respelled v v := by
  cases f with
  | value => exact Value.Respelled.same v
  | values => exact Value.ListRespelled.same v
  | _ => rfl

theorem ClauseField.Respelled.isWritable_eq {f : ClauseField} {v w : Value}
    (h : f.Respelled v w) : v.isWritable = w.isWritable := by
  cases f with
  | column | comparator =>
    cases h
    rfl
  | value => exact Value.Respelled.isWritable_eq h
  | values =>
    cases h with
    | same => rfl
    | list h =>
      rw [Bool.eq_iff_iff, Value.isWritable_list_iff, Value.isWritable_list_iff,
        ← List.all_eq_true, ← List.all_eq_true, Value.Respelled.all_isWritable_eq h]

theorem ClauseField.Respelled.isNested_eq {f : ClauseField} {v w : Value} (h : f.Respelled v w) :
    (v.isList || v.isObject) = (w.isList || w.isObject) := by
  cases f with
  | column | comparator =>
    cases h
    rfl
  | value => exact Value.Respelled.isNested_eq h
  | values => cases h <;> rfl

/-- The values of a field are related as the field says. -/
theorem field_respelled {r s : Fields}
    (h : List.Forall₂ (EntryRelated ClauseField.name ClauseField.Respelled) r s) (f : ClauseField) :
    f.Respelled (field r f) (field s f) := by
  have hfound := find?_entryRelated (fun _ _ => ClauseField.name_injective)
    ClauseField.Respelled.refl h f
  unfold field
  generalize find? r f.name = o at hfound ⊢
  generalize find? s f.name = o' at hfound ⊢
  cases hfound with
  | none => exact .refl f .null
  | some hvalue => exact hvalue

namespace Validation

/-- Two checks that are refused fail alike, if the words of both can be written or of neither. -/
theorem alike_fail {α β : Type} {R : α → β → Prop} {a b : ValidationFault}
    (h : a.mentioned.all Value.isWritable = b.mentioned.all Value.isWritable) :
    Alike Fault.SameClass R (fail a) (fail b) :=
  .error (.kind rfl rfl h)

/-- A check of one value goes like itself. -/
theorem alike_self {α : Type} {R : α → α → Prop} (hR : ∀ a, R a a) (x : Except Fault α) :
    Alike Fault.SameClass R x x :=
  .refl .same hR x

/-- A check of one value goes like itself under every view of what it gives. -/
theorem alike_view {α β : Type} (g : α → β) (x : Except Fault α) :
    Alike Fault.SameClass (fun a b => g a = g b) x x := by
  apply alike_self
  intro a
  rfl

section Records

variable {schema : Option TableSchema} (c : Config) {r s : Fields}

theorem alike_recordOf (place : Location) {v w : Value} (h : RecordRespelled schema v w) :
    Alike Fault.SameClass (fun r s => RecordRespelled schema (.object r) (.object s))
      (recordOf place v) (recordOf place w) := by
  cases h with
  | same v => exact alike_self (fun r => .same _) _
  | @onNumbers r s hcolumn h =>
    have hnested : nestedField? r = nestedField? s := by
      unfold nestedField?
      congr 1
      funext f
      exact (field_respelled h f).isNested_eq
    rw [recordOf, recordOf, hnested]
    cases nestedField? s with
    | some f =>
      refine alike_fail ?_
      simp only [ValidationFault.mentioned, fieldValue_name, List.all_cons,
        (field_respelled h f).isWritable_eq]
    | none => exact .ok (.onNumbers hcolumn h)

/-- The first value that is no entry stands at the same place. -/
theorem find?_isEntry_related {vs ws : List Value} (h : List.Forall₂ Value.Respelled vs ws) :
    Option.Rel Value.Respelled (vs.find? fun v => !isEntry v) (ws.find? fun w => !isEntry w) := by
  induction h with
  | nil => exact .none
  | @cons v w vs ws hvw _ ih =>
    rw [List.find?_cons, List.find?_cons, hvw.isEntry_eq]
    cases isEntry w with
    | false => exact .some hvw
    | true => exact ih

theorem map_numberValue_eq {vs ws : List Value} (h : List.Forall₂ Value.Respelled vs ws) :
    vs.map numberValue = ws.map numberValue := by
  induction h with
  | nil => rfl
  | cons hvw _ ih => rw [List.map_cons, List.map_cons, hvw.numberValue_eq, ih]

/-- Value lists are refused alike, or their entries are spelled in pairs. -/
theorem alike_valuesOf
    (h : List.Forall₂ (EntryRelated ClauseField.name ClauseField.Respelled) r s)
    (place : Location) :
    Alike Fault.SameClass (fun a b => a.1.Respelled b.1 ∧ List.Forall₂ Value.Respelled a.2 b.2)
      (valuesOf place r) (valuesOf place s) := by
  have hvalues : (field r .values).ListRespelled (field s .values) := field_respelled h .values
  rw [valuesOf, valuesOf, fieldValue_name, fieldValue_name]
  generalize field r .values = a at hvalues ⊢
  generalize field s .values = b at hvalues ⊢
  cases hvalues with
  | same a =>
    exact alike_self (fun p => ⟨.same _, List.forall₂_same.2 fun v _ => .same v⟩) _
  | list h =>
    have hentries := find?_isEntry_related h
    cases h with
    | nil => exact alike_fail rfl
    | @cons v w vs ws hvw hs =>
      dsimp only
      generalize (v :: vs).find? (fun v => !isEntry v) = o at hentries ⊢
      generalize (w :: ws).find? (fun w => !isEntry w) = o' at hentries ⊢
      cases hentries with
      | some hentry => exact alike_fail (Value.Respelled.all_isWritable_eq (.cons hentry .nil))
      | none => exact .ok ⟨hvw, hs⟩

section OnNumbers

variable (hcolumn : categoryIn? schema (field r .column) = .ok (some .number))
  (h : List.Forall₂ (EntryRelated ClauseField.name ClauseField.Respelled) r s) (place : Location)

include hcolumn h

/-- Both records name the one column, which is of numbers. -/
theorem alike_columnOf : Alike Fault.SameClass
    (fun a b => a = b ∧ categoryIn? schema (.text a) = .ok (some .number))
    (columnOf place r) (columnOf place s) := by
  have hsame : field r .column = field s .column := field_respelled h .column
  rw [columnOf, columnOf, fieldValue_name, fieldValue_name, ← hsame]
  cases hgiven : givenText? (field r .column) with
  | none => exact alike_fail rfl
  | some a =>
    rw [(givenText?_eq_some_iff.1 hgiven).1] at hcolumn
    exact .ok ⟨rfl, hcolumn⟩

theorem alike_columnAndValue : Alike Fault.SameClass
    (fun a b => a.1 = b.1 ∧ categoryIn? schema (.text a.1) = .ok (some .number) ∧
      a.2.Respelled b.2)
    (columnAndValue place r) (columnAndValue place s) := by
  refine (alike_columnOf hcolumn h place).bind fun a b hab => ?_
  have hvalue : (field r .value).Respelled (field s .value) := field_respelled h .value
  rw [fieldValue_name, fieldValue_name]
  dsimp only
  rw [hvalue.isMissing_eq]
  split
  · exact alike_fail rfl
  · exact .ok ⟨hab.1, hab.2, hvalue⟩

theorem comparisonOf_onNumbers : Alike Fault.SameClass
    (fun a b => a.forStorage schema c = b.forStorage schema c)
    (comparisonOf place r) (comparisonOf place s) := by
  refine (alike_columnAndValue hcolumn h place).bind fun ⟨a, v⟩ ⟨b, w⟩ ⟨hab, hk, hvw⟩ => ?_
  obtain rfl : a = b := hab
  have hcomparator : comparatorOf place r = comparatorOf place s := by
    rw [comparatorOf, comparatorOf, fieldValue_name, fieldValue_name,
      show field r .comparator = field s .comparator from field_respelled h .comparator]
  rw [hcomparator]
  refine (alike_self (fun _ => rfl) (comparatorOf place s)).bind_pure fun p q hpq => ?_
  obtain rfl : p = q := hpq
  rw [Comparison.forStorage_number hk, Comparison.forStorage_number hk]
  simp only [hvw.numberValue_eq]

theorem membershipOf_onNumbers : Alike Fault.SameClass
    (fun a b => a.forStorage schema c = b.forStorage schema c)
    (membershipOf place r) (membershipOf place s) := by
  refine (alike_columnOf hcolumn h place).bind fun a b ⟨hab, hk⟩ => ?_
  obtain rfl : a = b := hab
  refine (alike_valuesOf h place).bind_pure fun ⟨v, vs⟩ ⟨w, ws⟩ ⟨hvw, hs⟩ => ?_
  rw [Membership.forStorage_number hk, Membership.forStorage_number hk]
  simp only [hvw.numberValue_eq, map_numberValue_eq hs]

theorem rangeOf_onNumbers : Alike Fault.SameClass
    (fun a b => a.forStorage schema c = b.forStorage schema c)
    (rangeOf place r) (rangeOf place s) := by
  refine (alike_columnOf hcolumn h place).bind fun a b ⟨hab, hk⟩ => ?_
  obtain rfl : a = b := hab
  refine (alike_valuesOf h place).bind fun ⟨v, vs⟩ ⟨w, ws⟩ ⟨hvw, hs⟩ => ?_
  have hwritable := Value.Respelled.all_isWritable_eq (.cons hvw hs)
  cases hs with
  | nil => exact alike_fail hwritable
  | cons hvw' hs =>
    cases hs with
    | cons _ _ => exact alike_fail hwritable
    | nil =>
      refine (hvw.alike_boundOf _).bind fun low low' hlow => ?_
      refine (hvw'.alike_boundOf _).bind_pure fun high high' hhigh => ?_
      rw [Range.forStorage_number hk, Range.forStorage_number hk]
      simp only [hlow, hhigh]

end OnNumbers

variable (h : RecordRespelled schema (.object r) (.object s))

include h

theorem alike_comparisonOf (place : Location) : Alike Fault.SameClass
    (fun a b => a.forStorage schema c = b.forStorage schema c)
    (comparisonOf place r) (comparisonOf place s) := by
  cases h with
  | same => exact alike_view _ _
  | onNumbers hcolumn h => exact comparisonOf_onNumbers c hcolumn h place

theorem alike_membershipOf (place : Location) : Alike Fault.SameClass
    (fun a b => a.forStorage schema c = b.forStorage schema c)
    (membershipOf place r) (membershipOf place s) := by
  cases h with
  | same => exact alike_view _ _
  | onNumbers hcolumn h => exact membershipOf_onNumbers c hcolumn h place

theorem alike_starterClause {kind : StarterKind} (hkind : kind ≠ .whereLike) :
    Alike Fault.SameClass (fun a b => a.1.forStorage schema c = b.1.forStorage schema c)
      (starterClause kind r) (starterClause kind s) := by
  cases h with
  | same => exact alike_view _ _
  | onNumbers hcolumn h =>
    cases kind with
    | whereLike => exact absurd rfl hkind
    | where_ | whereNot =>
      refine (comparisonOf_onNumbers c hcolumn h _).bind_pure fun a b hab => ?_
      exact congrArg (Except.map Clause.comparison) hab
    | whereIn | whereNotIn =>
      refine (membershipOf_onNumbers c hcolumn h _).bind_pure fun a b hab => ?_
      exact congrArg (Except.map Clause.membership) hab
    | whereBetween | whereNotBetween =>
      refine (rangeOf_onNumbers c hcolumn h _).bind_pure fun a b hab => ?_
      exact congrArg (Except.map Clause.range) hab

end Records

/-! ## Keys -/

section Keys

variable {schema : Option TableSchema} (c : Config) {v w : Value}

theorem starterOf_fst (kind : StarterKind) (v : Value) :
    (starterOf kind v).1 = recordOf ⟨.starter kind, none⟩ v >>= fun record =>
      starterClause kind record >>= fun parts => pure (some ⟨kind, parts.1⟩) := by
  unfold starterOf
  cases recordOf ⟨.starter kind, none⟩ v with
  | error f => rfl
  | ok record =>
    rw [ok_bind]
    dsimp only
    cases starterClause kind record <;> rfl

theorem alike_starterOf (kind : StarterKind) (h : (Key.starter kind).Respelled schema v w) :
    Alike Fault.SameClass
      (Option.Rel fun s t =>
        s.kind = t.kind ∧ s.clause.forStorage schema c = t.clause.forStorage schema c)
      (starterOf kind v).1 (starterOf kind w).1 := by
  by_cases hkind : kind = .whereLike
  · subst hkind
    obtain rfl : v = w := h
    refine alike_self (fun o => ?_) _
    cases o with
    | none => exact .none
    | some s => exact .some ⟨rfl, rfl⟩
  · have hrecord : RecordRespelled schema v w := by
      cases kind with
      | whereLike => exact absurd rfl hkind
      | _ => exact h
    rw [starterOf_fst, starterOf_fst]
    refine (alike_recordOf _ hrecord).bind fun r s hrs => ?_
    exact (alike_starterClause c hrs hkind).bind_pure fun a b hab => .some ⟨rfl, hab⟩

theorem alike_recordsFrom (key : Key) (i : Nat) {vs ws : List Value}
    (h : List.Forall₂ (RecordRespelled schema) vs ws) :
    Alike Fault.SameClass
      (List.Forall₂ fun r s => RecordRespelled schema (.object r) (.object s))
      (recordsFrom key i vs) (recordsFrom key i ws) := by
  induction h generalizing i with
  | nil => exact .ok .nil
  | cons hvw _ ih =>
    rw [recordsFrom, recordsFrom]
    refine (alike_recordOf _ hvw).bind fun r s hrs => ?_
    exact (ih (i + 1)).bind_pure fun rs ss hs => .cons hrs hs

theorem alike_recordsOf (key : Key) (h : RecordsRespelled schema v w) :
    Alike Fault.SameClass
      (List.Forall₂ fun r s => RecordRespelled schema (.object r) (.object s))
      (recordsOf key v) (recordsOf key w) := by
  cases h with
  | several h => exact alike_recordsFrom key 0 h
  | one h =>
    cases h with
    | same => exact alike_self (fun rs => List.forall₂_same.2 fun r _ => .same _) _
    | onNumbers hcolumn h =>
      refine (alike_recordOf _ (.onNumbers hcolumn h)).bind_pure fun r s hrs => ?_
      exact .cons hrs .nil

theorem comparisonsFrom_fst_cons (key : Key) (i : Nat) (r : Fields) (rs : List Fields) :
    (comparisonsFrom key i (r :: rs)).1 = comparisonOf ⟨key, some i⟩ r >>= fun a =>
      (comparisonsFrom key (i + 1) rs).1 >>= fun as => pure (a :: as) := by
  rw [comparisonsFrom]
  cases comparisonOf ⟨key, some i⟩ r with
  | error f => rfl
  | ok a => exact (bind_pure_eq_map _ _).symm

theorem comparisonsOf_fst (key : Key) (v : Value) :
    (comparisonsOf key v).1 = recordsOf key v >>= fun rs => (comparisonsFrom key 0 rs).1 := by
  unfold comparisonsOf
  cases recordsOf key v <;> rfl

theorem alike_comparisonsOf (key : Key) (h : RecordsRespelled schema v w) :
    Alike Fault.SameClass
      (List.Forall₂ fun a b => a.forStorage schema c = b.forStorage schema c)
      (comparisonsOf key v).1 (comparisonsOf key w).1 := by
  rw [comparisonsOf_fst, comparisonsOf_fst]
  refine (alike_recordsOf key h).bind fun rs ss hs => ?_
  generalize 0 = i
  induction hs generalizing i with
  | nil => exact .ok .nil
  | cons hrs _ ih =>
    rw [comparisonsFrom_fst_cons, comparisonsFrom_fst_cons]
    refine (alike_comparisonOf c hrs _).bind fun a b hab => ?_
    exact (ih (i + 1)).bind_pure fun as bs hs => .cons hab hs

theorem alike_membershipsOf (key : Key) (h : RecordsRespelled schema v w) :
    Alike Fault.SameClass
      (List.Forall₂ fun a b => a.forStorage schema c = b.forStorage schema c)
      (membershipsOf key v).1 (membershipsOf key w).1 := by
  refine (alike_recordsOf key h).bind fun rs ss hs => ?_
  generalize 0 = i
  induction hs generalizing i with
  | nil => exact .ok .nil
  | cons hrs _ ih =>
    rw [membershipsFrom, membershipsFrom]
    refine (alike_membershipOf c hrs _).bind fun a b hab => ?_
    exact (ih (i + 1)).bind_pure fun as bs hs => .cons hab hs

theorem alike_limitIn (h : v.Respelled w) :
    Alike Fault.SameClass (fun m n => m = n) (limitIn v).1 (limitIn w).1 := by
  have hfst : ∀ v, (limitIn v).1 = (limitOf v).map some := by
    intro v
    unfold limitIn
    cases limitOf v <;> rfl
  rw [hfst, hfst]
  exact h.alike_limitOf.map fun m n hmn => congrArg some hmn

end Keys

/-! ## Parts -/

/-- A part goes alike when the check of a value does. -/
theorem alike_partOf {α : Type} {R : α → α → Prop} {S : Value → Value → Prop} {absent : α}
    {f : Value → Except Fault α × Value} {o o' : Option Value} (h : Option.Rel S o o')
    (habsent : R absent absent) (hf : ∀ v w, S v w → Alike Fault.SameClass R (f v).1 (f w).1) :
    Alike Fault.SameClass R (partOf absent f o) (partOf absent f o') := by
  cases h with
  | none => exact .ok habsent
  | some h => exact hf _ _ h

end Validation

theorem Key.Respelled.refl (schema : Option TableSchema) (key : Key) (v : Value) :
    key.Respelled schema v v := by
  cases key with
  | limit => exact Value.Respelled.same v
  | starter kind =>
    cases kind with
    | whereLike => rfl
    | _ => exact RecordRespelled.same v
  | andWhere | orWhere | orWhereIn => exact RecordsRespelled.one (.same v)
  | select | aggregate | order => rfl

namespace QueryRespelled

open Validation

variable {schema : Option TableSchema} {q r : Fields} (h : QueryRespelled schema q r)

include h

theorem under (key : Key) :
    Option.Rel (key.Respelled schema) (find? q key.name) (find? r key.name) :=
  find?_entryRelated (fun _ _ => Key.name_injective) (Key.Respelled.refl schema) h key

theorem unknownName?_eq : unknownName? q = unknownName? r := by
  rw [unknownName?, unknownName?, keys_eq_of_forall₂ h fun _ _ => EntryRelated.name_eq]

/-- A key at which nothing may be spelled holds the same. -/
theorem find?_eq (key : Key) (hkey : key.Respelled schema = Eq) :
    find? q key.name = find? r key.name := by
  have hunder := h.under key
  rw [hkey] at hunder
  generalize find? q key.name = o at hunder ⊢
  generalize find? r key.name = o' at hunder ⊢
  cases hunder with
  | none => rfl
  | some hvalue => rw [hvalue]

theorem presentStarters_related :
    List.Forall₂ (fun e f => e.1 = f.1 ∧ (Key.starter e.1).Respelled schema e.2 f.2)
      (presentStarters q) (presentStarters r) := by
  unfold presentStarters
  induction StarterKind.all with
  | nil => exact .nil
  | cons kind kinds ih =>
    have hunder := h.under (.starter kind)
    have hname : (Key.starter kind).name = kind.name := rfl
    rw [hname] at hunder
    rw [List.filterMap_cons, List.filterMap_cons]
    generalize find? q kind.name = o at hunder ⊢
    generalize find? r kind.name = o' at hunder ⊢
    cases hunder with
    | none => exact ih
    | some hvalue => exact .cons ⟨rfl, hvalue⟩ ih

theorem alike_startOf (c : Config) :
    Alike Fault.SameClass
      (Option.Rel fun s t =>
        s.kind = t.kind ∧ s.clause.forStorage schema c = t.clause.forStorage schema c)
      (startOf (presentStarters q)) (startOf (presentStarters r)) := by
  have hrelated := h.presentStarters_related
  generalize presentStarters q = es at hrelated ⊢
  generalize presentStarters r = fs at hrelated ⊢
  cases hrelated with
  | nil => exact .ok .none
  | @cons e f es fs hef hs =>
    obtain ⟨kind, v⟩ := e
    obtain ⟨kind', w⟩ := f
    obtain ⟨rfl, hvalue⟩ : kind = kind' ∧ (Key.starter kind).Respelled schema v w := hef
    cases hs with
    | nil => exact alike_starterOf c kind hvalue
    | @cons e f es fs hef hs =>
      exact alike_fail rfl

theorem alike_rowsOf (c : Config) :
    Alike Fault.SameClass (Query.SameStored schema c) (rowsOf q) (rowsOf r) := by
  unfold rowsOf
  rw [h.find?_eq .select rfl, h.find?_eq .order rfl]
  refine (alike_view id (partOf [] selectionOf (find? r Key.select.name))).bind
    fun select _ hselect => ?_
  refine (h.alike_startOf c).bind fun starter _ hstarter => ?_
  refine (alike_partOf (h.under .andWhere) .nil fun _ _ => alike_comparisonsOf c .andWhere).bind
    fun andWhere _ hand => ?_
  refine (alike_partOf (h.under .orWhere) .nil fun _ _ => alike_comparisonsOf c .orWhere).bind
    fun orWhere _ hor => ?_
  refine (alike_partOf (h.under .orWhereIn) .nil fun _ _ => alike_membershipsOf c .orWhereIn).bind
    fun orWhereIn _ hin => ?_
  refine (alike_partOf (h.under .limit) rfl fun _ _ => alike_limitIn).bind fun limit _ hlimit => ?_
  refine (alike_view id (partOf [] orderOf (find? r Key.order.name))).bind_pure
    fun order _ horder => ?_
  exact ⟨hselect, hstarter, hand, hor, hin, rfl, hlimit, horder⟩

/-- Queries that differ in the spelling of integers alone are checked alike. -/
theorem alike_queryOf (c : Config) :
    Alike Fault.SameClass (Query.SameStored schema c) (queryOf q) (queryOf r) := by
  have haggregates : presentAggregates q = presentAggregates r :=
    presentAggregates_congr fun f => h.find?_eq (.aggregate f) rfl
  unfold queryOf
  rw [h.unknownName?_eq, haggregates]
  cases unknownName? r with
  | some name => exact alike_fail rfl
  | none =>
    dsimp only
    rcases aggregateOf (presentAggregates r) with f | _ | request
    · exact .error (.same f)
    · exact h.alike_rowsOf c
    · exact .ok ⟨rfl, .none, .nil, .nil, .nil, rfl, rfl, rfl⟩

/-- And they are compiled alike. -/
theorem sameOutcome_planOfRecord (table : Value) (c : Config) :
    SameOutcome (planOfRecord table schema c q) (planOfRecord table schema c r) := by
  rcases (h.alike_queryOf c).cases with ⟨p, p', hq, hr, hp⟩ | ⟨f, g, hq, hr, hfg⟩
  · rw [planOfRecord_of_ok hq, planOfRecord_of_ok hr, hp.plan_eq table]
    exact .same _
  · rw [planOfRecord_of_error hq, planOfRecord_of_error hr]
    exact hfg.capture_error

end QueryRespelled

end RowAccess
