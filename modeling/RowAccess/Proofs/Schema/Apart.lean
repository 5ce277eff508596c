import RowAccess.Proofs.Schema.Cache
import RowAccess.Schema.Register

/-
  RowAccess/Proofs/Schema/Apart.lean
  ==================================
  **Actions that work outside.**  An action is apart if neither the folder nor the memory of a cache
  bears on it, and it changes neither.  What is built from actions that are apart is apart, so with
  a backend of this kind the discovery of a table is, and the listing of the tables
  (`Cache.Outward.discover`, `Cache.Outward.enumerated`).
-/

namespace RowAccess

namespace Action

variable {σ α β : Type}

/-- What an action does where there is no folder and no cache is in use. -/
def outer (act : Action σ α) (o : σ) : Except Fault α × σ :=
  ((act.execute ⟨none, [], o⟩).1, (act.execute ⟨none, [], o⟩).2.outside)

/-- Does an action go by what is outside only, and change nothing else? -/
def Apart (act : Action σ α) : Prop :=
  ∀ s, act.execute s = ((act.outer s.outside).1, { s with outside := (act.outer s.outside).2 })

theorem exists_execute_of_outer {act : Action σ α} {o : σ} {a : α} (h : (act.outer o).1 = .ok a) :
    ∃ s', act.execute ⟨none, [], o⟩ = (.ok a, s') :=
  ⟨_, Prod.ext h rfl⟩

theorem outer_bind {act : Action σ α} {next : α → Action σ β} (h : act.Apart) (o : σ) :
    (act >>= next).outer o =
      match act.outer o with
      | (.ok a, o') => (next a).outer o'
      | (.error f, o') => (.error f, o') := by
  have hact := h ⟨none, [], o⟩
  dsimp only at hact
  unfold outer at hact ⊢
  rw [execute_bind]
  rcases hrun : act.execute ⟨none, [], o⟩ with ⟨f | a, s⟩
  · rfl
  · rw [hrun] at hact
    obtain ⟨-, hs⟩ := Prod.mk.inj hact
    rw [hs]

namespace Apart

theorem pure (a : α) : Apart (Pure.pure a : Action σ α) := fun _ => rfl

theorem throw (f : Fault) : Apart (MonadExcept.throw f : Action σ α) := fun _ => rfl

theorem lift (x : Except Fault α) : Apart (liftM x : Action σ α) := fun _ => rfl

theorem bind {act : Action σ α} {next : α → Action σ β} (h : act.Apart)
    (hnext : ∀ a, (next a).Apart) : Apart (act >>= next) := by
  intro s
  rw [outer_bind h, execute_bind, h s]
  rcases act.outer s.outside with ⟨f | a, o⟩
  · rfl
  · exact hnext a { s with outside := o }

theorem onBackendFault {act : Action σ α} (h : act.Apart) (other : String → Fault) :
    Apart (act.onBackendFault other) := by
  have houtcome : act.outcome.Apart := by
    intro s
    rw [execute_outcome, h s]
    rfl
  refine houtcome.bind ?_
  intro r
  cases r with
  | ok a => exact .pure a
  | error f =>
    dsimp only
    split
    · exact .throw _
    · exact .throw _

end Apart

end Action

namespace Cache

variable {σ : Type}

/-- Does the backend work outside only? -/
def Outward (c : Cache σ) : Prop :=
  ∀ operation, (c.backend operation).Apart

namespace Outward

variable {c : Cache σ}

theorem introspect (h : c.Outward) (table : Value) (operation : Operation) :
    (c.introspect table operation).Apart :=
  (h operation).onBackendFault _

theorem primaryKey (h : c.Outward) (table : Value) : (c.primaryKey table).Apart := by
  refine (h.introspect _ _).bind fun rows => ?_
  refine Action.Apart.bind (.lift _) fun row => ?_
  split
  · exact .pure _
  · exact .lift _

theorem discover (h : c.Outward) (table : Value) : (c.discover table).Apart := by
  refine (h.introspect _ _).bind fun rows => ?_
  have hrest : Action.Apart (do
      let idColumn ← c.primaryKey table
      let samples ← c.introspect table (.tableScan table [] (.int 1))
      let sample ← firstOf samples
      TableSchema.ofColumns table (← categories c.config sample (← membersOf rows)) idColumn) := by
    refine (h.primaryKey table).bind fun idColumn => ?_
    refine (h.introspect _ _).bind fun samples => ?_
    refine Action.Apart.bind (.lift _) fun sample => ?_
    refine Action.Apart.bind (.lift _) fun members => ?_
    refine Action.Apart.bind (.lift _) fun entries => ?_
    exact .lift _
  dsimp only
  split
  · exact Action.Apart.bind (.throw _) fun _ => hrest
  · exact hrest

theorem reported (h : c.Outward) (text : String) : (c.reported text).Apart := by
  refine ((h _).onBackendFault _).bind fun rows => ?_
  exact Action.Apart.bind (.lift _) fun members => .lift _

theorem enumerated (h : c.Outward) : c.enumerated.Apart := by
  refine (h.reported _).bind fun tables => ?_
  split
  · exact (h.reported _).bind fun views => .pure _
  · exact .pure _

theorem discoverAll (h : c.Outward) (tables : List Value) : (c.discoverAll tables).Apart := by
  induction tables with
  | nil => exact .pure _
  | cons table rest ih => exact (h.discover table).bind fun t => ih.bind fun found => .pure _

end Outward

end Cache

end RowAccess
