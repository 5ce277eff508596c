import RowAccess.Fault
import RowAccess.Proofs.Outcome

/-
  RowAccess/Proofs/Capture.lean
  =============================
  **Faults raised and handed on.**  A fault is raised as it is unless its message cannot be written.
  A captured outcome is a value exactly where the outcome is that value, and a failure exactly where
  the outcome is a pipeline fault with that failure whose message can be written.  Faults of one class
  are handed on as failures of one kind, or as the one fault that they are.
-/

namespace RowAccess

variable {α : Type} {x : Except Fault α}

/-! ## Faults raised -/

namespace Fault

variable {f : Fault}

/-- The message of a fault that shows one value can be written where the value can. -/
theorem isWritable_of_mentioned {v : Value} (h : f.mentioned = [v]) :
    f.isWritable = v.isWritable := by
  rw [isWritable, h, List.all_cons, List.all_nil, Bool.and_true]

theorem raised_of_isWritable (h : f.isWritable = true) : f.raised = f :=
  if_pos h

theorem raised_of_not_isWritable (h : f.isWritable = false) :
    f.raised = .badArgument .integerToWrite := by
  rw [raised, h]
  rfl

/-- A fault is raised as one of the pipeline where it is one and can be written. -/
theorem failure?_raised_eq_some_iff {failure : Failure} :
    f.raised.failure? = some failure ↔ f.isWritable = true ∧ f.failure? = some failure := by
  cases h : f.isWritable with
  | true => simp [raised_of_isWritable h]
  | false => simp [raised_of_not_isWritable h, failure?]

theorem failure?_raised_of_none (h : f.failure? = none) : f.raised.failure? = none := by
  cases hw : f.isWritable with
  | true => rwa [raised_of_isWritable hw]
  | false =>
    rw [raised_of_not_isWritable hw]
    rfl

/-- What is raised in place of a fault is the fault itself or the refusal to write an integer. -/
theorem raised_eq_or (f : Fault) : f.raised = f ∨ f.raised = .badArgument .integerToWrite := by
  cases h : f.isWritable with
  | true => exact .inl (raised_of_isWritable h)
  | false => exact .inr (raised_of_not_isWritable h)

end Fault

theorem written_ok (a : α) : written (.ok a : Except Fault α) = .ok a := rfl

theorem written_error (f : Fault) : written (.error f : Except Fault α) = .error f.raised := rfl

theorem written_eq_ok_iff {a : α} : written x = .ok a ↔ x = .ok a := by
  cases x with
  | ok b => rfl
  | error f => simp [written_error]

theorem written_eq_error_iff {g : Fault} :
    written x = .error g ↔ ∃ f, x = .error f ∧ f.raised = g := by
  cases x with
  | ok b => simp [written_ok]
  | error f => simp [written_error]

/-- The text of a value that can be written. -/
theorem Value.told_of_isWritable {v : Value} (h : v.isWritable = true) : v.told = .ok v.plain :=
  if_pos h

/-! ## Captured outcomes -/

theorem capture_ok (a : α) : capture (.ok a) = .ok (.ok a) := rfl

/-- A pipeline fault becomes a failure, unless its message cannot be written. -/
theorem capture_of_failure? {f : Fault} {failure : Failure} (hf : f.failure? = some failure) :
    capture (.error f : Except Fault α) =
      if f.isWritable then .ok (.error failure) else .error (.badArgument .integerToWrite) := by
  unfold capture
  dsimp only
  cases hw : f.isWritable with
  | true =>
    rw [Fault.raised_of_isWritable hw, hf]
    rfl
  | false =>
    rw [Fault.raised_of_not_isWritable hw]
    cases f with
    | unclassified text => cases hf
    | _ => rfl

theorem capture_eq_failure_iff {failure : Failure} :
    capture x = .ok (.error failure) ↔
      ∃ f, x = .error f ∧ f.isWritable = true ∧ f.failure? = some failure := by
  constructor
  · intro h
    cases x with
    | ok b => cases h
    | error f =>
      unfold capture at h
      dsimp only at h
      split at h
      next hf =>
        cases h
        exact ⟨f, rfl, Fault.failure?_raised_eq_some_iff.1 hf⟩
      · split at h <;> cases h
  · rintro ⟨f, rfl, hf⟩
    unfold capture
    dsimp only
    rw [Fault.failure?_raised_eq_some_iff.2 hf]

/-- What comes of a fault that is captured does not depend on the value that was expected. -/
theorem capture_error_cases (f : Fault) :
    (∃ failure, f.raised.failure? = some failure ∧
      ∀ α : Type, capture (.error f : Except Fault α) = .ok (.error failure)) ∨
      f.raised.failure? = none ∧ ∃ g, ∀ α : Type, capture (.error f : Except Fault α) = .error g := by
  unfold capture
  dsimp only
  cases hf : f.raised.failure? with
  | some failure => exact .inl ⟨failure, rfl, fun _ => rfl⟩
  | none =>
    refine .inr ⟨rfl, ?_⟩
    cases f with
    | unclassified text => exact ⟨_, fun _ => rfl⟩
    | _ => exact ⟨_, fun _ => rfl⟩

theorem capture_eq_ok_iff {a : α} : capture x = .ok (.ok a) ↔ x = .ok a := by
  cases x with
  | ok b => simp [capture_ok]
  | error f =>
    obtain ⟨failure, -, hf⟩ | ⟨-, g, hf⟩ := capture_error_cases f <;> simp [hf α]

theorem capture_error_ne_ok (f : Fault) (a : α) :
    capture (.error f : Except Fault α) ≠ .ok (.ok a) := by
  intro h
  cases capture_eq_ok_iff.1 h

theorem capture_map {β : Type} (x : Except Fault α) (f : α → β) :
    capture (x.map f) = (capture x).map (Except.map f) := by
  cases x with
  | ok a => rfl
  | error e =>
    show capture (.error e : Except Fault β) = _
    obtain ⟨failure, -, he⟩ | ⟨-, g, he⟩ := capture_error_cases e
    · rw [he β, he α]
      rfl
    · rw [he β, he α]
      rfl

/-! ## Faults of one class -/

/-- Two faults of one class: the same fault, or two faults of the pipeline of one kind, both with a
message that can be written or neither. -/
inductive Fault.SameClass : Fault → Fault → Prop
  | same (f : Fault) : SameClass f f
  | kind {f g : Fault} {k : FailureKind} (hf : f.kind? = some k) (hg : g.kind? = some k)
    (hfg : f.isWritable = g.isWritable) : SameClass f g

/-- The same outcome, or two failures of one kind. -/
inductive SameOutcome : Except Fault (Reply α) → Except Fault (Reply α) → Prop
  | same (x : Except Fault (Reply α)) : SameOutcome x x
  | failure {f g : Failure} (h : f.kind = g.kind) : SameOutcome (.ok (.error f)) (.ok (.error g))

/-- Faults of one class are handed on alike. -/
theorem Fault.SameClass.capture_error {f g : Fault} (h : f.SameClass g) :
    SameOutcome (capture (.error f : Except Fault α)) (capture (.error g)) := by
  cases h with
  | same => exact .same _
  | kind hf hg hfg =>
    obtain ⟨failure, hfailure, hkind⟩ := Option.map_eq_some_iff.1 hf
    obtain ⟨failure', hfailure', hkind'⟩ := Option.map_eq_some_iff.1 hg
    rw [capture_of_failure? hfailure, capture_of_failure? hfailure', ← hfg]
    split
    · exact .failure (hkind.trans hkind'.symm)
    · exact .same _

end RowAccess
