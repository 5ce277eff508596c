import RowAccess.Fault

/-
  RowAccess/Operation/Chain.lean
  ==============================
  **Chains of steps under construction.**  The steps of a filtered read come in a fixed order of
  kinds; the extensions of the condition may repeat, all other kinds come once.  A step that is out
  of order, or comes after the chain was built, is refused and leaves the chain as it was.
-/

namespace RowAccess

inductive ChainState where
  | empty
  | started
  | extended
  | terminal
  deriving DecidableEq, Repr

namespace ChainState

def name : ChainState → String
  | .empty => "empty"
  | .started => "started"
  | .extended => "extended"
  | .terminal => "terminal"

def shown : ChainState → String
  | .empty => "ChainState.EMPTY"
  | .started => "ChainState.STARTED"
  | .extended => "ChainState.EXTENDED"
  | .terminal => "ChainState.TERMINAL"

end ChainState

namespace Step

/-- The place of a step's kind in a chain. -/
def rank : Step → Nat
  | .select _ => 0
  | .starter _ => 1
  | .andWhere _ => 2
  | .orWhere _ => 3
  | .orWhereIn _ => 4
  | .limit _ => 5
  | .order _ => 6

/-- Does the step extend the condition?  These steps may repeat. -/
def isExtension : Step → Bool
  | .andWhere _ | .orWhere _ | .orWhereIn _ => true
  | _ => false

/-- Does the step open the condition? -/
def isStarter : Step → Bool
  | .starter _ => true
  | _ => false

end Step

structure Chain where
  state : ChainState
  steps : List Step
  lastRank : Option Nat
  deriving Repr

namespace Chain

def empty : Chain := ⟨.empty, [], none⟩

/-- Does a step of this kind come too late in the chain? -/
def isLate (c : Chain) (s : Step) : Bool :=
  match c.lastRank with
  | none => false
  | some r => s.rank < r || (s.rank == r && !s.isExtension)

def add (c : Chain) (s : Step) : Except Fault Chain :=
  if c.state = .terminal then .error (Fault.raised (.breach (.addedAfterBuild s)))
  else if c.isLate s then .error (Fault.raised (.breach (.outOfOrder s c.steps)))
  else if s.isStarter then
    if c.state ≠ .empty then
      .error (Fault.raised (.breach (.starterOnOpened s c.state.shown)))
    else .ok ⟨.started, c.steps ++ [s], some s.rank⟩
  else
    .ok ⟨if s.isExtension then .extended else c.state, c.steps ++ [s], some s.rank⟩

def build (c : Chain) : Except Fault Chain :=
  if c.state = .terminal then .error (.breach .builtTwice)
  else .ok { c with state := .terminal }

/-! ## The form of a chain -/

def form (select : Option (List Value)) (starter : Option Starter) (andWhere : List Clause)
    (orWhere : List Clause) (orWhereIn : List Clause) (limit : Option Value)
    (order : Option (List OrderTerm)) : List Step :=
  select.toList.map .select ++ starter.toList.map .starter ++ andWhere.map .andWhere ++
    orWhere.map .orWhere ++ orWhereIn.map .orWhereIn ++ limit.toList.map .limit ++
    order.toList.map .order

def IsForm (steps : List Step) : Prop :=
  ∃ select starter andWhere orWhere orWhereIn limit order,
    steps = form select starter andWhere orWhere orWhereIn limit order

/-- An accepted step stands at the end. -/
theorem steps_add {c d : Chain} {s : Step} (h : c.add s = .ok d) : d.steps = c.steps ++ [s] := by
  unfold add at h
  split at h
  · cases h
  · split at h
    · cases h
    · split at h
      · split at h
        · cases h
        · cases h
          rfl
      · cases h
        rfl

end Chain

end RowAccess
