import RowAccess.Operation.Backend
import RowAccess.Proofs.Stateful

/-
  RowAccess/Proofs/Operation/Action.lean
  ======================================
  **Actions step by step.**  An action takes a site to an outcome and the site after it
  (`Action.execute`).  Taking the outcome of an action, and putting another fault in place of one of
  the backend, change no site beyond what the action does.
-/

namespace RowAccess.Action

variable {σ α β : Type}

/-- The outcome of an action at a site, and the site after it. -/
def execute (act : Action σ α) (s : Site σ) : Except Fault α × Site σ :=
  Stateful.execute act s

theorem execute_pure (a : α) (s : Site σ) : (pure a : Action σ α).execute s = (.ok a, s) := rfl

theorem execute_bind (act : Action σ α) (next : α → Action σ β) (s : Site σ) :
    (act >>= next).execute s =
      match act.execute s with
      | (.ok a, s') => (next a).execute s'
      | (.error f, s') => (.error f, s') := by
  unfold execute
  rw [Stateful.execute_bind]
  rcases Stateful.execute act s with ⟨f | a, s'⟩
  · rfl
  · rfl

theorem execute_bind_eq_ok_iff {act : Action σ α} {next : α → Action σ β} {s s' : Site σ} {b : β} :
    (act >>= next).execute s = (.ok b, s') ↔
      ∃ a s₁, act.execute s = (.ok a, s₁) ∧ (next a).execute s₁ = (.ok b, s') :=
  Stateful.execute_bind_eq_ok_iff

theorem execute_outcome (act : Action σ α) (s : Site σ) :
    act.outcome.execute s = (.ok (act.execute s).1, (act.execute s).2) := rfl

theorem execute_lift (x : Except Fault α) (s : Site σ) :
    (liftM x : Action σ α).execute s = (x, s) := rfl

open Stateful (Spans)

variable {R : Site σ → Site σ → Prop}

theorem rel_bind (htrans : ∀ s s₁ s₂, R s s₁ → R s₁ s₂ → R s s₂) {act : Action σ α}
    {next : α → Action σ β} {s : Site σ} (h : R s (act.execute s).2)
    (hnext : ∀ a s₁, act.execute s = (.ok a, s₁) → R s₁ ((next a).execute s₁).2) :
    R s ((act >>= next).execute s).2 :=
  Stateful.rel_bind htrans h hnext

theorem rel_of_spans {act : Action σ α} (h : Spans R act) {s s' : Site σ} {r : Except Fault α}
    (hact : act.execute s = (r, s')) : R s s' := by
  have hrel : R s (act.execute s).2 := h s
  rwa [hact] at hrel

theorem spans_outcome {act : Action σ α} (h : Spans R act) : Spans R act.outcome :=
  fun s => h s

theorem spans_onBackendFault (hrefl : ∀ s, R s s) (htrans : ∀ s s₁ s₂, R s s₁ → R s₁ s₂ → R s s₂)
    {act : Action σ α} (h : Spans R act) (other : String → Fault) :
    Spans R (act.onBackendFault other) := by
  refine Spans.bind htrans (spans_outcome h) ?_
  intro r
  cases r with
  | ok a => exact Spans.pure hrefl a
  | error f =>
    dsimp only
    split
    · exact Spans.throw hrefl _
    · exact Spans.throw hrefl _

end RowAccess.Action
