import RowAccess.Schema.Folder

/-
  RowAccess/Operation/Backend.lean
  ================================
  **What operations run in.**  An action may fail and changes a site: the folder of the catalog, the
  memories of the caches that share it, and all that a backend keeps.  A backend runs one operation
  and may do anything meanwhile, so what a caller sees of the site before and after an operation
  need not agree.
-/

namespace RowAccess

/-- What a cache remembers: the tables under discovery, the next generation, and the generations of
the schemas it has persisted. -/
structure Memory where
  held : List Value := []
  next : Nat := 0
  persisted : Keyed Value Nat := []
  deriving Repr

/-- All that actions change. -/
structure Site (σ : Type) where
  folder : Folder
  memories : Keyed Nat Memory
  outside : σ

abbrev Action (σ α : Type) := ExceptT Fault (StateM (Site σ)) α

abbrev Backend (σ : Type) := Operation → Action σ Value

namespace Action

variable {σ α : Type}

/-- The outcome of an action, whose changes stay whether it failed or not. -/
def outcome (act : Action σ α) : Action σ (Except Fault α) :=
  ExceptT.lift act.run

/-- Hands a pipeline fault of an action on as a failure. -/
def captured (act : Action σ α) : Action σ (Reply α) := do
  capture (← act.outcome)

/-- The value of a reply, or the fault that reports its failure. -/
def unwrapped (attempt : String) (r : Reply α) : Action σ α :=
  unwrap attempt r

/-- Runs an action and puts another fault in place of one of the backend. -/
def onBackendFault (act : Action σ α) (other : String → Fault) : Action σ α := do
  match ← act.outcome with
  | .ok a => return a
  | .error f =>
    match f.failure? with
    | some ⟨.backend, detail⟩ => throw (other detail)
    | _ => throw f

end Action

/-- The first member of a value, null where there is none. -/
def firstOf (v : Value) : Except Fault Value := do
  return (← membersOf v).head?.getD .null

end RowAccess
