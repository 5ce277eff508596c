import RowAccess.Facade
import RowAccess.Proofs.Capture
import RowAccess.Proofs.Outcome

/-
  RowAccess/Proofs/Operation/ConversionFault.lean
  ===============================================
  **What conversions fail with.**  A value that does not fit its column is a fault of coercion, and a
  date past the end of the calendar an overflow; there is nothing else that a conversion of a value
  fails with.  So compiling a query ends in no failure but one of coercion
  (`kind_of_plan`).
-/

namespace RowAccess

open Outcome

/-! ## Values -/

/-- Is the fault one of coercion, or an overflow of the calendar? -/
def Fault.IsOfConversion (f : Fault) : Prop :=
  (∃ cause, f = .coercion cause) ∨ f = .outOfRange

namespace Conversion

variable (c : Config)

theorem only_coercion {α : Type} (cause : CoercionFault) :
    Only Fault.IsOfConversion (.error (.coercion cause) : Except Fault α) :=
  .error (.inl ⟨cause, rfl⟩)

theorem only_timestampOfText (s : String) : Only Fault.IsOfConversion (timestampOfText s) := by
  unfold timestampOfText
  split
  · exact .ok _
  · exact .error (.inr rfl)
  · exact only_coercion _

theorem only_timestampOf (v : Value) : Only Fault.IsOfConversion (timestampOf v) := by
  have hzone : ∀ t : Timestamp, Only Fault.IsOfConversion
      (if t.isNaive then return t else throw (.coercion (.zoned v))) := by
    intro t
    split
    · exact .ok _
    · exact only_coercion _
  unfold timestampOf
  cases v with
  | timestamp t => exact hzone t
  | date d => exact hzone (Timestamp.midnight d)
  | text s => exact (only_timestampOfText s).bind hzone
  | _ => exact (only_coercion _).bind hzone

/-- What is refused as a timestamp is shown by the refusal, unless it is a text that spells none. -/
theorem isWritable_of_timestampOf {v : Value} {cause : CoercionFault}
    (h : timestampOf v = .error (.coercion cause)) :
    (Fault.coercion cause).isWritable = v.isWritable := by
  have hzone : ∀ t : Timestamp,
      (if t.isNaive then return t else throw (.coercion (.zoned v)) : Except Fault Timestamp) =
        .error (.coercion cause) → (Fault.coercion cause).isWritable = v.isWritable := by
    intro t hzone
    split at hzone
    · cases hzone
    · cases hzone
      exact Fault.isWritable_of_mentioned rfl
  unfold timestampOf at h
  cases v with
  | timestamp t => exact hzone t h
  | date d => exact hzone (Timestamp.midnight d) h
  | text s =>
    rcases bind_eq_error_iff.1 h with htext | ⟨t, -, hnaive⟩
    · unfold timestampOfText at htext
      split at htext
      · cases htext
      · cases htext
      · cases htext
        rfl
    · exact hzone t hnaive
  | _ =>
    cases h
    exact Fault.isWritable_of_mentioned rfl

theorem isWritable_of_timestampOf_eq_ok {v : Value} {t : Timestamp}
    (h : timestampOf v = .ok t) : v.isWritable = true := by
  cases v with
  | timestamp t => rfl
  | date d => rfl
  | text s => rfl
  | _ => cases h

theorem only_timestampIn (v : Value) : Only Fault.IsOfConversion (timestampIn c v) := by
  unfold timestampIn
  split
  · exact .ok _
  · exact (only_timestampOf _).map

theorem only_comparisonDate (v : Value) : Only Fault.IsOfConversion (comparisonDate c v) :=
  (only_timestampOf v).map

theorem only_bytesOfWrapper (fields : Fields) :
    Only Fault.IsOfConversion (bytesOfWrapper fields) := by
  unfold bytesOfWrapper
  split
  · split
    · exact .ok _
    · exact only_coercion _
  · exact only_coercion _
  · exact only_coercion _

theorem only_bufferIn (v : Value) : Only Fault.IsOfConversion (bufferIn v) := by
  fun_induction bufferIn v with
  | case1 => exact .ok _
  | case2 fields => exact only_bytesOfWrapper fields
  | case3 => exact only_coercion _
  | case4 v vs ih => exact ih
  | case5 => exact only_coercion _

end Conversion

theorem Facade.only_valueIn (c : Config) (category : Option Category) (v : Value) :
    Only Fault.IsOfConversion (valueIn c category v) := by
  unfold valueIn
  split
  · exact .ok _
  · exact .ok _
  · exact (Conversion.only_timestampIn c _).map
  · exact (Conversion.only_bufferIn _).map
  · exact .ok _

theorem Storage.only_value (c : Config) (category : Category) (v : Value) :
    Only Fault.IsOfConversion (value c category v) := by
  unfold value
  split
  · exact (Conversion.only_comparisonDate c v).map
  · exact .ok _
  · exact .ok _
  · exact .ok _

/-! ## Queries -/

/-- Is every failure of the fault one of coercion?  A fault that is no failure has none. -/
def Fault.IsOfCompiling (f : Fault) : Prop :=
  ∀ failure, f.failure? = some failure → failure.kind = .coercion

theorem Fault.IsOfConversion.isOfCompiling {f : Fault} (h : f.IsOfConversion) :
    f.IsOfCompiling := by
  rcases h with ⟨cause, rfl⟩ | rfl
  · intro failure hf
    cases hf
    rfl
  · intro failure hf
    cases hf

theorem Fault.isOfCompiling_of_none {f : Fault} (h : f.failure? = none) : f.IsOfCompiling := by
  intro failure hf
  cases h.symm.trans hf

namespace TableSchema

theorem only_caselessCategory (lowered : Value) (entries : List (Value × Category)) :
    Only Fault.IsOfCompiling (caselessCategory? lowered entries) := by
  induction entries with
  | nil => exact .ok _
  | cons e r ih =>
    rw [caselessCategory?]
    split
    · exact .error (Fault.isOfCompiling_of_none rfl)
    · split
      · exact .ok _
      · exact ih

theorem only_lookup (schema : TableSchema) (column : Value) :
    Only Fault.IsOfCompiling (schema.lookup column) := by
  unfold lookup
  split
  · exact .ok _
  · split
    · exact only_caselessCategory _ _
    · exact .error (Fault.isOfCompiling_of_none rfl)

end TableSchema

namespace Storage

variable {α : Type} (c : Config) (schema : Option TableSchema)

theorem only_storedValue (category : Category) (v : Value) :
    Only Fault.IsOfCompiling (value c category v) :=
  (only_value c category v).mono fun _ => Fault.IsOfConversion.isOfCompiling

theorem only_onColumn (column : Value) {convert : Category → α → Except Fault α}
    (h : ∀ k a, Only Fault.IsOfCompiling (convert k a)) (a : α) :
    Only Fault.IsOfCompiling (onColumn schema column convert a) := by
  have hcategory : Only Fault.IsOfCompiling (categoryIn? schema column) := by
    cases schema with
    | none => exact .ok _
    | some t => exact t.only_lookup column
  refine hcategory.bind fun category => ?_
  cases category with
  | none => exact .ok _
  | some k => exact h k a

end Storage

section Clauses

open Storage

variable (schema : Option TableSchema) (c : Config)

theorem Comparison.only_forStorage (clause : Comparison) :
    Only Fault.IsOfCompiling (clause.forStorage schema c) := by
  refine only_onColumn schema clause.column (fun k a => ?_) clause
  exact (only_storedValue c k a.value).bind fun _ => .ok _

theorem Membership.only_forStorage (clause : Membership) :
    Only Fault.IsOfCompiling (clause.forStorage schema c) := by
  refine only_onColumn schema clause.column (fun k a => ?_) clause
  refine (only_storedValue c k a.first).bind fun first => ?_
  exact (Only.mapM (only_storedValue c k) a.rest).bind fun rest => .ok _

theorem Range.only_forStorage (clause : Range) :
    Only Fault.IsOfCompiling (clause.forStorage schema c) := by
  refine only_onColumn schema clause.column (fun k a => ?_) clause
  refine (only_storedValue c k a.low).bind fun low => ?_
  exact (only_storedValue c k a.high).bind fun high => .ok _

theorem Clause.only_forStorage (clause : Clause) :
    Only Fault.IsOfCompiling (clause.forStorage schema c) := by
  cases clause with
  | comparison clause => exact (clause.only_forStorage schema c).map
  | like clause => exact .ok _
  | membership clause => exact (clause.only_forStorage schema c).map
  | range clause => exact (clause.only_forStorage schema c).map

theorem Query.only_steps (q : Query) : Only Fault.IsOfCompiling (q.steps schema c) := by
  have hstarter : Only Fault.IsOfCompiling (q.starter.mapM fun s => do
      return Starter.mk s.kind (← s.clause.forStorage schema c)) := by
    cases q.starter with
    | none => exact .ok _
    | some s => exact ((s.clause.only_forStorage schema c).bind fun _ => .ok _).map
  refine hstarter.bind fun starter => ?_
  refine (Only.mapM (Comparison.only_forStorage schema c) q.andWhere).bind fun andWhere => ?_
  refine (Only.mapM (Comparison.only_forStorage schema c) q.orWhere).bind fun orWhere => ?_
  exact (Only.mapM (Membership.only_forStorage schema c) q.orWhereIn).bind fun _ => .ok _

end Clauses

namespace Chain

theorem only_add (chain : Chain) (s : Step) : Only Fault.IsOfCompiling (chain.add s) := by
  have hbreach : ∀ b, (Fault.breach b).raised.IsOfCompiling := fun b =>
    Fault.isOfCompiling_of_none (Fault.failure?_raised_of_none rfl)
  unfold add
  split
  · exact .error (hbreach _)
  · split
    · exact .error (hbreach _)
    · split
      · split
        · exact .error (hbreach _)
        · exact .ok _
      · exact .ok _

theorem only_build (chain : Chain) : Only Fault.IsOfCompiling chain.build := by
  unfold build
  split
  · exact .error (Fault.isOfCompiling_of_none rfl)
  · exact .ok _

end Chain

/-- Compiling a checked query ends in no failure but one of coercion. -/
theorem kind_of_plan {table : Value} {schema : Option TableSchema} {c : Config} {q : Query}
    {failure : Failure} (h : q.plan table schema c = .ok (.error failure)) :
    failure.kind = .coercion := by
  unfold Query.plan at h
  split at h
  · cases h
  · obtain ⟨f, hf, -, hfailure⟩ := capture_eq_failure_iff.1 h
    have honly : Only Fault.IsOfCompiling (do
        let chain ← (← q.steps schema c).foldlM Chain.add Chain.empty
        let built ← chain.build
        return Plan.scan table built.steps) := by
      refine (q.only_steps schema c).bind fun steps => ?_
      refine (Only.foldlM Chain.only_add steps Chain.empty).bind fun chain => ?_
      exact chain.only_build.bind fun built => .ok _
    exact honly f hf failure hfailure

end RowAccess
