import RowAccess.Operation.Chain

/-
  RowAccess/Operation/Builder.lean
  ================================
  **A chain that is changed in place.**  Two calls change a builder: one adds a step, the other ends
  the chain and gives the read that it describes.  A refusal does not end the life of a builder, which
  goes on as the refused call left it.
-/

namespace RowAccess

/-- What changes a chain in place and may fail on the way; a failure keeps what was changed before
it. -/
abbrev Builder (α : Type) := ExceptT Fault (StateM Chain) α

namespace Builder

/-- Adds a step: first the checks, then the state, the rank and the step itself. -/
def add (s : Step) : Builder Unit := do
  if (← get).state = .terminal then
    throw (Fault.raised (.breach (.addedAfterBuild s)))
  if (← get).isLate s then
    throw (Fault.raised (.breach (.outOfOrder s (← get).steps)))
  if s.isStarter then
    if (← get).state ≠ .empty then
      throw (Fault.raised (.breach (.starterOnOpened s (← get).state.shown)))
    modify fun c => { c with state := .started }
  else if s.isExtension then
    modify fun c => { c with state := .extended }
  modify fun c => { c with lastRank := some s.rank }
  modify fun c => { c with steps := c.steps ++ [s] }

/-- Ends the chain; the result is the read of a table that it describes. -/
def build (table : Value) : Builder Operation := do
  if (← get).state = .terminal then
    throw (.breach .builtTwice)
  modify fun c => { c with state := .terminal }
  return .filteredScan table (← get).steps

/-! ## Calls -/

inductive Call where
  | add (s : Step)
  | build

/-- A call with what came of it: the read of a chain that was built, and nothing else of a call that
was not refused. -/
structure Made where
  call : Call
  outcome : Except Fault (Option Operation)

namespace Call

variable (table : Value)

def act : Call → Builder (Option Operation)
  | .add s => do
    Builder.add s
    return none
  | .build => some <$> Builder.build table

/-- Makes a call, whether it is refused or not. -/
def make (call : Call) (c : Chain) : Made × Chain :=
  let (outcome, after) := (call.act table).run.run c
  (⟨call, outcome⟩, after)

end Call

/-! ## What was accepted -/

namespace Made

/-- The step that a call added. -/
def step? (m : Made) : Option Step :=
  match m.call, m.outcome with
  | .add s, .ok _ => some s
  | _, _ => none

/-- The read that a call gave. -/
def read? (m : Made) : Option Operation :=
  match m.outcome with
  | .ok o => o
  | .error _ => none

end Made

/-- The steps that calls added, in their order. -/
def accepted (made : List Made) : List Step :=
  made.filterMap Made.step?

/-- The reads that calls gave. -/
def reads (made : List Made) : List Operation :=
  made.filterMap Made.read?

/-- The state that the accepted steps ask for, once the chain is built or before. -/
def stateOf (isBuilt : Bool) (steps : List Step) : ChainState :=
  if isBuilt then .terminal
  else if steps.any Step.isExtension then .extended
  else if steps.any Step.isStarter then .started
  else .empty

end Builder

end RowAccess
