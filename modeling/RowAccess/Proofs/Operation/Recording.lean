import RowAccess.Proofs.Capture
import RowAccess.Proofs.Operation.Action
import RowAccess.Proofs.Outcome
import RowAccess.Run

/-
  RowAccess/Proofs/Operation/Recording.lean
  =========================================
  **What a plan runs.**  A backend that keeps a record shows which operations were run and what came
  of each.  A plan that ends in a reply has run its read, or its aggregate and perhaps the lookup of
  the value found; a fault of the backend ends the run and is the reply (`ran_run`).
-/

namespace RowAccess

open Outcome

variable {σ : Type}

/-! ## Records -/

/-- An operation that was run, and what came of it. -/
structure Ran where
  operation : Operation
  outcome : Except Fault Value

namespace Site

/-- What was run so far. -/
def ran (s : Site (σ × List Ran)) : List Ran := s.outside.2

/-- The site that the backend behind the record knows. -/
def unrecorded (s : Site (σ × List Ran)) : Site σ :=
  ⟨s.folder, s.memories, s.outside.1⟩

end Site

/-- A backend that keeps a record of what it runs. -/
def recording (backend : Backend σ) : Backend (σ × List Ran) := fun operation =>
  ExceptT.mk fun s =>
    let (outcome, after) := (backend operation).execute s.unrecorded
    (outcome, ⟨after.folder, after.memories, after.outside, s.ran ++ [⟨operation, outcome⟩]⟩)

/-- A recording backend records each operation once, with what came of it. -/
theorem ran_recording (backend : Backend σ) (operation : Operation) (s : Site (σ × List Ran)) :
    ((recording backend operation).execute s).2.ran =
      s.ran ++ [⟨operation, ((recording backend operation).execute s).1⟩] := rfl

/-- The record changes neither what comes of an operation nor the site behind it. -/
theorem execute_recording (backend : Backend σ) (operation : Operation)
    (s : Site (σ × List Ran)) :
    (((recording backend operation).execute s).1,
      ((recording backend operation).execute s).2.unrecorded) =
        (backend operation).execute s.unrecorded := rfl

/-! ## Plans -/

/-- Is the fault one of the backend, with this text? -/
def Fault.IsOfBackend (f : Fault) (detail : String) : Prop :=
  f.failure? = some ⟨.backend, detail⟩

/-- What a plan has run when it ends in a reply.  An aggregate whose value is missing is not
followed by a lookup. -/
inductive PlanRan : Plan → List Ran → Reply Value → Prop
  | scan {table : Value} {steps : List Step} {rows : Value} :
    PlanRan (.scan table steps) [⟨.filteredScan table steps, .ok rows⟩] (.ok rows)
  | scanFault {table : Value} {steps : List Step} {f : Fault} {detail : String}
    (hf : f.IsOfBackend detail) :
    PlanRan (.scan table steps) [⟨.filteredScan table steps, .error f⟩]
      (.error ⟨.backend, detail⟩)
  | missing {q : AggregateQuery} {rows first : Value} (hfirst : firstOf rows = .ok first)
    (hvalue : aggregateValue first = .ok .null) :
    PlanRan (.aggregate q) [⟨.aggregate q, .ok rows⟩] (.ok (.list []))
  | aggregateFault {q : AggregateQuery} {f : Fault} {detail : String}
    (hf : f.IsOfBackend detail) :
    PlanRan (.aggregate q) [⟨.aggregate q, .error f⟩] (.error ⟨.backend, detail⟩)
  | lookup {q : AggregateQuery} {rows first v found : Value} (hfirst : firstOf rows = .ok first)
    (hvalue : aggregateValue first = .ok v) (hv : v.isNull = false) :
    PlanRan (.aggregate q) [⟨.aggregate q, .ok rows⟩, ⟨lookupOf q v, .ok found⟩] (.ok found)
  | lookupFault {q : AggregateQuery} {rows first v : Value} {f : Fault} {detail : String}
    (hfirst : firstOf rows = .ok first) (hvalue : aggregateValue first = .ok v)
    (hv : v.isNull = false) (hf : f.IsOfBackend detail) :
    PlanRan (.aggregate q) [⟨.aggregate q, .ok rows⟩, ⟨lookupOf q v, .error f⟩]
      (.error ⟨.backend, detail⟩)

namespace PlanRan

variable {plan : Plan} {runs : List Ran} {reply : Reply Value}

/-- The operations of a plan: its read, or its aggregate and at most one lookup. -/
theorem operations (h : PlanRan plan runs reply) :
    match plan with
    | .scan table steps => runs.map Ran.operation = [.filteredScan table steps]
    | .aggregate q => runs.map Ran.operation = [.aggregate q] ∨
      ∃ v, runs.map Ran.operation = [.aggregate q, lookupOf q v] := by
  cases h with
  | scan => rfl
  | scanFault hf => rfl
  | missing hfirst hvalue => exact .inl rfl
  | aggregateFault hf => exact .inl rfl
  | lookup hfirst hvalue hv => exact .inr ⟨_, rfl⟩
  | lookupFault hfirst hvalue hv hf => exact .inr ⟨_, rfl⟩

/-- A fault of the backend at any operation is the reply. -/
theorem fault (h : PlanRan plan runs reply) {ran : Ran} (hran : ran ∈ runs) {f : Fault}
    {detail : String} (houtcome : ran.outcome = .error f) (hf : f.IsOfBackend detail) :
    reply = .error ⟨.backend, detail⟩ := by
  have hone {f' : Fault} {detail' : String} (hf' : f'.IsOfBackend detail')
      (hsame : (Except.error f' : Except Fault Value) = .error f) :
      (Except.error ⟨.backend, detail'⟩ : Reply Value) = .error ⟨.backend, detail⟩ := by
    cases hsame
    cases hf'.symm.trans hf
    rfl
  cases h with
  | scan | missing hfirst hvalue =>
    rw [List.mem_singleton.1 hran] at houtcome
    cases houtcome
  | scanFault hf' | aggregateFault hf' =>
    rw [List.mem_singleton.1 hran] at houtcome
    exact hone hf' houtcome
  | lookup hfirst hvalue hv =>
    rcases List.mem_cons.1 hran with rfl | hran
    · cases houtcome
    · rw [List.mem_singleton.1 hran] at houtcome
      cases houtcome
  | lookupFault hfirst hvalue hv hf' =>
    rcases List.mem_cons.1 hran with rfl | hran
    · cases houtcome
    · rw [List.mem_singleton.1 hran] at houtcome
      exact hone hf' houtcome

/-- A plan ends in no failure but one of the backend. -/
theorem kind (h : PlanRan plan runs reply) {failure : Failure} (hreply : reply = .error failure) :
    failure.kind = .backend := by
  cases h with
  | scan | missing hfirst hvalue | lookup hfirst hvalue hv => cases hreply
  | scanFault hf | aggregateFault hf | lookupFault hfirst hvalue hv hf =>
    cases hreply
    rfl

end PlanRan

/-- What the reply to an outcome is: the rows, or the failure of a fault of the backend. -/
inductive Answers : Except Fault Value → Reply Value → Prop
  | ok (rows : Value) : Answers (.ok rows) (.ok rows)
  | fault {f : Fault} {detail : String} (hf : f.IsOfBackend detail) :
    Answers (.error f) (.error ⟨.backend, detail⟩)

theorem answers_of_runCapturing {act : Action σ Value} {s s' : Site σ} {reply : Reply Value}
    (h : (runCapturing act).execute s = (.ok reply, s')) :
    ∃ outcome, act.execute s = (outcome, s') ∧ Answers outcome reply := by
  obtain ⟨outcome, s₁, houtcome, h⟩ := Action.execute_bind_eq_ok_iff.1 h
  rcases hact : act.execute s with ⟨f | rows, s₂⟩
  · rw [Action.execute_outcome, hact] at houtcome
    cases houtcome
    dsimp only at h
    split at h
    next hf =>
      cases h
      exact ⟨_, rfl, .fault hf⟩
    next => cases (Prod.mk.inj h).1
  · rw [Action.execute_outcome, hact] at houtcome
    cases houtcome
    cases h
    exact ⟨_, rfl, .ok rows⟩

theorem isOfBackend_firstOf {rows : Value} {f : Fault} {detail : String}
    (h : firstOf rows = .error f) : ¬ f.IsOfBackend detail := by
  unfold firstOf membersOf at h
  split at h
  · cases h
  · cases h
    intro hf
    cases hf

theorem isOfBackend_aggregateValue {v : Value} {f : Fault} {detail : String}
    (h : aggregateValue v = .error f) : ¬ f.IsOfBackend detail := by
  unfold aggregateValue at h
  split at h
  · cases h
  · cases h
  · cases h
    intro hf
    cases hf

/-- What one operation adds to the record. -/
theorem exists_ran {backend : Backend σ} {operation : Operation} {s s' : Site (σ × List Ran)}
    {outcome : Except Fault Value}
    (h : (recording backend operation).execute s = (outcome, s')) :
    s'.ran = s.ran ++ [⟨operation, outcome⟩] := by
  have hran := ran_recording backend operation s
  rwa [h] at hran

/-- An aggregate that ends in a reply has run the aggregate, and a lookup of its value unless that is
missing. -/
theorem ran_runAggregate {backend : Backend σ} {q : AggregateQuery} {s s' : Site (σ × List Ran)}
    {outcome : Except Fault Value} {reply : Reply Value}
    (h : (runAggregate (recording backend) q).execute s = (outcome, s'))
    (hanswers : Answers outcome reply) :
    ∃ runs, s'.ran = s.ran ++ runs ∧ PlanRan (.aggregate q) runs reply := by
  unfold runAggregate at h
  rw [Action.execute_bind] at h
  rcases hrows : (recording backend (.aggregate q)).execute s with ⟨f | rows, s₁⟩
  · rw [hrows] at h
    cases h
    cases hanswers with
    | fault hf => exact ⟨_, exists_ran hrows, .aggregateFault hf⟩
  rw [hrows] at h
  dsimp only at h
  rw [Action.execute_bind, Action.execute_lift] at h
  rcases hfirst : firstOf rows with f | first
  · rw [hfirst] at h
    cases h
    cases hanswers with
    | fault hf => exact absurd hf (isOfBackend_firstOf hfirst)
  rw [hfirst] at h
  dsimp only at h
  rw [Action.execute_bind, Action.execute_lift] at h
  rcases hvalue : aggregateValue first with f | v
  · rw [hvalue] at h
    cases h
    cases hanswers with
    | fault hf => exact absurd hf (isOfBackend_aggregateValue hvalue)
  rw [hvalue] at h
  dsimp only at h
  split at h
  · cases h
    cases hanswers with
    | ok => exact ⟨_, exists_ran hrows, .missing hfirst hvalue⟩
  next hv =>
    have hgiven : v.isNull = false := by
      cases v with
      | null => exact (hv rfl).elim
      | _ => rfl
    have hran : s'.ran = s.ran ++ [⟨.aggregate q, .ok rows⟩, ⟨lookupOf q v, outcome⟩] := by
      rw [exists_ran h, exists_ran hrows, List.append_assoc]
      rfl
    cases hanswers with
    | ok => exact ⟨_, hran, .lookup hfirst hvalue hgiven⟩
    | fault hf => exact ⟨_, hran, .lookupFault hfirst hvalue hgiven hf⟩

/-- **What a plan runs.** -/
theorem ran_run {backend : Backend σ} {plan : Plan} {s s' : Site (σ × List Ran)}
    {reply : Reply Value} (h : (run (recording backend) plan).execute s = (.ok reply, s')) :
    ∃ runs, s'.ran = s.ran ++ runs ∧ PlanRan plan runs reply := by
  obtain ⟨outcome, hplan, hanswers⟩ := answers_of_runCapturing h
  cases plan with
  | scan table steps =>
    refine ⟨_, exists_ran hplan, ?_⟩
    cases hanswers with
    | ok => exact .scan
    | fault hf => exact .scanFault hf
  | aggregate q => exact ran_runAggregate hplan hanswers

end RowAccess
