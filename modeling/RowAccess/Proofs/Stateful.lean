/-
  RowAccess/Proofs/Stateful.lean
  ==============================
  **Computations that may fail and change a state.**  A sequence executes its second part in the
  state after the first, unless the first fails.  A reflexive and transitive relation between states
  that holds over the parts of a computation holds over the whole of it (`Stateful.Spans`), and over
  its failures where its last part, which may change more, does not fail (`Stateful.FailsWithin`).
-/

namespace RowAccess.Stateful

variable {ε τ α β : Type}

/-- The outcome of a computation in a state, and the state after it. -/
def execute (act : ExceptT ε (StateM τ) α) (s : τ) : Except ε α × τ :=
  act.run.run s

theorem execute_bind (act : ExceptT ε (StateM τ) α) (next : α → ExceptT ε (StateM τ) β) (s : τ) :
    execute (act >>= next) s =
      match execute act s with
      | (.ok a, s') => execute (next a) s'
      | (.error f, s') => (.error f, s') := by
  unfold execute ExceptT.run StateT.run
  simp only [bind, ExceptT.bind, ExceptT.mk, StateT.bind]
  cases act s with
  | mk result s' => cases result <;> rfl

theorem execute_lift (x : Except ε α) (s : τ) :
    execute (liftM x : ExceptT ε (StateM τ) α) s = (x, s) := rfl

theorem execute_get_bind (next : τ → ExceptT ε (StateM τ) β) (s : τ) :
    execute (get >>= next) s = execute (next s) s := rfl

/-- A sequence succeeds when its first part does and the second does in the state after it. -/
theorem execute_bind_eq_ok_iff {act : ExceptT ε (StateM τ) α}
    {next : α → ExceptT ε (StateM τ) β} {s s' : τ} {b : β} :
    execute (act >>= next) s = (.ok b, s') ↔
      ∃ a s₁, execute act s = (.ok a, s₁) ∧ execute (next a) s₁ = (.ok b, s') := by
  rw [execute_bind]
  rcases execute act s with ⟨f | a, s₁⟩
  · simp
  · constructor
    · intro h
      exact ⟨a, s₁, rfl, h⟩
    · rintro ⟨_, _, heq, h⟩
      cases heq
      exact h

/-! ## Relations over executions -/

variable {R : τ → τ → Prop}

/-- A relation over the parts of a sequence is one over the sequence. -/
theorem rel_bind (htrans : ∀ s s₁ s₂, R s s₁ → R s₁ s₂ → R s s₂)
    {act : ExceptT ε (StateM τ) α} {next : α → ExceptT ε (StateM τ) β} {s : τ}
    (h : R s (execute act s).2)
    (hnext : ∀ a s₁, execute act s = (.ok a, s₁) → R s₁ (execute (next a) s₁).2) :
    R s (execute (act >>= next) s).2 := by
  rw [execute_bind]
  rcases hact : execute act s with ⟨f | a, s₁⟩
  · rw [hact] at h
    exact h
  · rw [hact] at h
    exact htrans s s₁ _ h (hnext a s₁ hact)

/-- Does the relation hold over every execution of the computation? -/
def Spans (R : τ → τ → Prop) (act : ExceptT ε (StateM τ) α) : Prop :=
  ∀ s, R s (execute act s).2

namespace Spans

theorem pure (hrefl : ∀ s, R s s) (a : α) :
    Spans R (Pure.pure a : ExceptT ε (StateM τ) α) :=
  fun s => hrefl s

theorem throw (hrefl : ∀ s, R s s) (f : ε) :
    Spans R (MonadExcept.throw f : ExceptT ε (StateM τ) α) :=
  fun s => hrefl s

theorem lift (hrefl : ∀ s, R s s) (x : Except ε α) :
    Spans R (liftM x : ExceptT ε (StateM τ) α) :=
  fun s => hrefl s

theorem bind (htrans : ∀ s s₁ s₂, R s s₁ → R s₁ s₂ → R s s₂) {act : ExceptT ε (StateM τ) α}
    {next : α → ExceptT ε (StateM τ) β} (h : Spans R act) (hnext : ∀ a, Spans R (next a)) :
    Spans R (act >>= next) :=
  fun s => rel_bind htrans (h s) fun a s₁ _ => hnext a s₁

end Spans

/-! ## Relations over failures -/

/-- Does the relation hold over every execution of the computation that fails? -/
def FailsWithin (R : τ → τ → Prop) (act : ExceptT ε (StateM τ) α) : Prop :=
  ∀ s f s', execute act s = (.error f, s') → R s s'

namespace FailsWithin

/-- What precedes a computation may change no more than its failures do. -/
theorem bind (htrans : ∀ s s₁ s₂, R s s₁ → R s₁ s₂ → R s s₂) {act : ExceptT ε (StateM τ) α}
    {next : α → ExceptT ε (StateM τ) β} (h : Spans R act) (hnext : ∀ a, FailsWithin R (next a)) :
    FailsWithin R (act >>= next) := by
  intro s f s' hact
  have hrel := h s
  rw [execute_bind] at hact
  rcases hfirst : execute act s with ⟨g | a, s₁⟩
  · rw [hfirst] at hact hrel
    obtain ⟨-, rfl⟩ := Prod.mk.inj hact
    exact hrel
  · rw [hfirst] at hact hrel
    exact htrans s s₁ s' hrel (hnext a s₁ f s' hact)

/-- After the part that may change more, nothing fails. -/
theorem bind_ok {act : ExceptT ε (StateM τ) α} {next : α → ExceptT ε (StateM τ) β}
    (h : FailsWithin R act) (hnext : ∀ a s, ∃ b s', execute (next a) s = (.ok b, s')) :
    FailsWithin R (act >>= next) := by
  intro s f s' hact
  rw [execute_bind] at hact
  rcases hfirst : execute act s with ⟨g | a, s₁⟩
  · rw [hfirst] at hact
    obtain ⟨-, rfl⟩ := Prod.mk.inj hact
    exact h s g s₁ hfirst
  · rw [hfirst] at hact
    obtain ⟨b, s₂, hok⟩ := hnext a s₁
    dsimp only at hact
    rw [hok] at hact
    cases hact

end FailsWithin

end RowAccess.Stateful
