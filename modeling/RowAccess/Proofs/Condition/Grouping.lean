import Mathlib.Data.List.Basic
import RowAccess.Proofs.Chain.Form
import RowAccess.Proofs.Condition.Reading
import RowAccess.Sql.Statement

/-
  RowAccess/Proofs/Condition/Grouping.lean
  ========================================
  **How the steps of a chain are grouped.**  The starter, negated where its kind says so, and the
  clauses behind AND make up one conjunction; this conjunction and the clauses behind OR are the
  alternatives of a disjunction.  The condition is built by joining one test after another from the
  left, and it is written almost without parentheses, yet its words are read with the truth of that
  grouping (`condition_reads_grouped`): no conjunct can come after an alternative in a chain.
-/

namespace RowAccess

namespace Step

def starter? : Step → Option Starter
  | .starter s => some s
  | _ => none

def andWhere? : Step → Option Clause
  | .andWhere c => some c
  | _ => none

def orWhere? : Step → Option Clause
  | .orWhere c => some c
  | _ => none

/-- The membership that a step joins by OR. -/
def orWhereIn? : Step → Option Clause
  | .orWhereIn c => some c
  | _ => none

/-- Does the step give a test to the condition? -/
def isFilter (s : Step) : Bool :=
  s.isStarter || s.isExtension

end Step

namespace Sql

/-! ## Truths of clauses -/

/-- A truth for every test.  The opposite of a test has the opposite truth. -/
structure Assignment where
  truth : Predicate → Truth
  negate : ∀ p, truth p.negate = (truth p).not

namespace Assignment

/-- The truths that the tests have for a row. -/
def ofItem (i : Item) : Assignment :=
  ⟨Predicate.truth i, Predicate.truth_negate i⟩

variable (a : Assignment)

/-- The truth of a clause; a clause without a test has none, and counts as unknown. -/
def clause (c : Clause) : Truth :=
  match Predicate.ofClause c with
  | .ok p => a.truth p
  | .error _ => .unknown

/-- The truth of a starter: the opposite of its clause's where its kind is negated. -/
def starter (s : Starter) : Truth :=
  if s.kind.isNegated then (a.clause s.clause).not else a.clause s.clause

/-- The truths that are joined by AND: of the starter and of the clauses behind AND. -/
def conjuncts (steps : List Step) : List Truth :=
  (steps.filterMap Step.starter?).map a.starter ++
    (steps.filterMap Step.andWhere?).map a.clause

def conjunction? (steps : List Step) : Option Truth :=
  if (a.conjuncts steps).isEmpty then none else some (Truth.all (a.conjuncts steps))

/-- The truths of the clauses and memberships behind OR. -/
def alternatives (steps : List Step) : List Truth :=
  (steps.filterMap Step.orWhere?).map a.clause ++
    (steps.filterMap Step.orWhereIn?).map a.clause

/-- The truth of all steps together: of the conjunction or any of the alternatives. -/
def grouped (steps : List Step) : Truth :=
  Truth.any ((a.conjunction? steps).toList ++ a.alternatives steps)

/-! ## From the left -/

/-- Joins a truth to the one that stands before it, if any does. -/
def join (combine : Truth → Truth → Truth) : Option Truth → Truth → Option Truth
  | none, t => some t
  | some u, t => some (combine u t)

def afterStep (before : Option Truth) : Step → Option Truth
  | .starter s => some (a.starter s)
  | .andWhere c => join .and before (a.clause c)
  | .orWhere c | .orWhereIn c => join .or before (a.clause c)
  | _ => before

end Assignment

def Condition.truth? (a : Assignment) (c : Option Condition) : Option Truth :=
  c.map fun c => c.truthBy a.truth

theorem Condition.truth?_afterStep (a : Assignment) {before after : Option Condition} {s : Step}
    (h : afterStep before s = .ok after) : truth? a after = a.afterStep (truth? a before) s := by
  cases s with
  | starter s =>
    cases hp : Predicate.ofClause s.clause with
    | error u => simp [afterStep, hp, bind, Except.bind] at h
    | ok p =>
      simp only [afterStep, hp, bind, Except.bind, pure, Except.pure, Except.ok.injEq] at h
      subst h
      by_cases hn : s.kind.isNegated = true
      · simp [truth?, truthBy, Assignment.afterStep, Assignment.starter, Assignment.clause, hp, hn,
          a.negate]
      · simp [truth?, truthBy, Assignment.afterStep, Assignment.starter, Assignment.clause, hp, hn]
  | andWhere c | orWhere c | orWhereIn c =>
    cases hp : Predicate.ofClause c with
    | error u => simp [afterStep, hp, bind, Except.bind] at h
    | ok p =>
      simp only [afterStep, hp, bind, Except.bind, pure, Except.pure, Except.ok.injEq] at h
      subst h
      cases before <;>
        simp [truth?, truthBy, Condition.join, Assignment.afterStep, Assignment.join,
          Assignment.clause, hp]
  | select _ | limit _ | order _ =>
    cases h
    rfl

theorem Condition.truth?_foldlM (a : Assignment) {before after : Option Condition}
    {steps : List Step} (h : steps.foldlM afterStep before = .ok after) :
    truth? a after = steps.foldl a.afterStep (truth? a before) := by
  refine Outcome.foldlM_induction
    (fun done after => truth? a after = done.foldl a.afterStep (truth? a before)) rfl ?_ h
  intro done s x t hs ht
  rw [List.foldl_append, ← hs, truth?_afterStep a ht]
  rfl

namespace Truth

/-- A conjunction from the left is the one of the list. -/
theorem foldl_and (t : Truth) (ts : List Truth) : ts.foldl and t = t.and (all ts) := by
  induction ts generalizing t with
  | nil => simp [all]
  | cons u us ih =>
    rw [List.foldl_cons, ih, and_assoc]
    rfl

/-- A disjunction from the left is the one of the list. -/
theorem foldl_or (t : Truth) (ts : List Truth) : ts.foldl or t = t.or (any ts) := by
  induction ts generalizing t with
  | nil => simp [any]
  | cons u us ih =>
    rw [List.foldl_cons, ih, or_assoc]
    rfl

end Truth

namespace Assignment

variable (a : Assignment)

theorem join_nothing (combine : Truth → Truth → Truth) (t : Truth) :
    join combine none t = some t := rfl

theorem foldl_join (combine : Truth → Truth → Truth) (t : Truth) (ts : List Truth) :
    ts.foldl (join combine) (some t) = some (ts.foldl combine t) := by
  induction ts generalizing t with
  | nil => rfl
  | cons u us ih => exact ih (combine t u)

/-- Joining by AND, from nothing on, gives the conjunction of what is joined. -/
theorem foldl_join_and (ts : List Truth) :
    ts.foldl (join .and) none = if ts.isEmpty then none else some (Truth.all ts) := by
  cases ts with
  | nil => rfl
  | cons t ts =>
    rw [List.foldl_cons, join, foldl_join, Truth.foldl_and]
    rfl

/-- Joining by OR gives the disjunction of what was there and of what is joined. -/
theorem foldl_join_or (before : Option Truth) (ts : List Truth) :
    ts.foldl (join .or) before =
      if (before.toList ++ ts).isEmpty then none else some (Truth.any (before.toList ++ ts)) := by
  cases before with
  | none =>
    cases ts with
    | nil => rfl
    | cons t ts =>
      rw [List.foldl_cons, join, foldl_join, Truth.foldl_or]
      rfl
  | some u =>
    rw [foldl_join, Truth.foldl_or]
    rfl

section Form

variable (select : Option (List Value)) (starter : Option Starter)
  (andWhere orWhere orWhereIn : List Clause) (limit : Option Value)
  (order : Option (List OrderTerm))

theorem conjuncts_form :
    a.conjuncts (Chain.form select starter andWhere orWhere orWhereIn limit order) =
      starter.toList.map a.starter ++ andWhere.map a.clause := by
  simp [conjuncts, Chain.form, List.filterMap_append, List.filterMap_map, Function.comp_def,
    Step.starter?, Step.andWhere?, List.filterMap_none]

theorem alternatives_form :
    a.alternatives (Chain.form select starter andWhere orWhere orWhereIn limit order) =
      orWhere.map a.clause ++ orWhereIn.map a.clause := by
  simp [alternatives, Chain.form, List.filterMap_append, List.filterMap_map, Function.comp_def,
    Step.orWhere?, Step.orWhereIn?, List.filterMap_none]

/-- Along the form of a chain all joining by AND comes before all joining by OR. -/
theorem foldl_afterStep_form :
    (Chain.form select starter andWhere orWhere orWhereIn limit order).foldl a.afterStep none =
      (orWhere.map a.clause ++ orWhereIn.map a.clause).foldl (join .or)
        ((starter.toList.map a.starter ++ andWhere.map a.clause).foldl (join .and) none) := by
  cases select <;> cases starter <;> cases limit <;> cases order <;>
    simp [Chain.form, List.foldl_append, List.foldl_map, afterStep, join_nothing]

end Form

/-- In the form of a chain the truth after all steps is that of the grouping, and there is none
where no step gives a test. -/
theorem foldl_afterStep {steps : List Step} (h : Chain.IsForm steps) :
    steps.foldl a.afterStep none =
      if ((a.conjunction? steps).toList ++ a.alternatives steps).isEmpty then none
      else some (a.grouped steps) := by
  obtain ⟨select, starter, andWhere, orWhere, orWhereIn, limit, order, rfl⟩ := h
  rw [foldl_afterStep_form, foldl_join_and, foldl_join_or]
  simp only [grouped, conjunction?, conjuncts_form, alternatives_form]

/-- There is nothing to group exactly when no step gives a test. -/
theorem grouping_isEmpty_iff (steps : List Step) :
    ((a.conjunction? steps).toList ++ a.alternatives steps).isEmpty = true ↔
      ∀ s ∈ steps, s.isFilter = false := by
  have conjunction : (a.conjunction? steps).toList = [] ↔ a.conjuncts steps = [] := by
    simp [conjunction?]
  have part (s : Step) : s.isFilter = false ↔
      (s.starter? = none ∧ s.andWhere? = none) ∧ s.orWhere? = none ∧ s.orWhereIn? = none := by
    cases s <;> simp [Step.isFilter, Step.isStarter, Step.isExtension, Step.starter?,
      Step.andWhere?, Step.orWhere?, Step.orWhereIn?]
  rw [List.isEmpty_iff, List.append_eq_nil_iff, conjunction]
  simp only [conjuncts, alternatives, List.append_eq_nil_iff, List.map_eq_nil_iff,
    List.filterMap_eq_nil_iff, part, ← forall_and]

end Assignment

theorem Statement.built_filteredScan {schema : Option String} {table : Value} {steps : List Step}
    {s : Statement} (h : Statement.built schema (.filteredScan table steps) = .ok s) :
    ∃ selection, s = .select selection ∧ Condition.ofSteps steps = .ok selection.condition := by
  simp only [built, ofOperation, selectionOf, Outcome.bind_eq_ok_iff] at h
  obtain ⟨t, ⟨selection, ⟨condition, hcondition, limit, hlimit, -, hnames, hselection⟩, ht⟩, h⟩ := h
  cases ht
  refine ⟨selection, ?_, ?_⟩
  · split at h
    · cases h
    · cases h
      rfl
  · cases hselection
    exact hcondition

/-- The words of the condition that a chain of steps gives are read with the truth of the grouping,
and with no other, whatever the truths of the tests; there is no condition exactly when no step
gives a test. -/
theorem condition_reads_grouped (schema : Option String) (table : Value) (steps : List Step)
    (chain : Chain) (s : Statement)
    (accepted : steps.foldlM Chain.add Chain.empty >>= Chain.build = .ok chain)
    (built : Statement.built schema (.filteredScan table chain.steps) = .ok s) :
    ∃ selection, s = .select selection ∧ chain.steps = steps ∧
      (selection.condition = none ↔ ∀ step ∈ steps, step.isFilter = false) ∧
      ∀ c, selection.condition = some c → ∀ (a : Assignment) (t : Truth),
        Reads a.truth .disjunction c.words t ↔ t = a.grouped steps := by
  obtain ⟨run, hrun, hbuild⟩ := Outcome.bind_eq_ok_iff.1 accepted
  have hsteps : chain.steps = steps := by
    have hrunSteps := Chain.steps_run hrun
    unfold Chain.build at hbuild
    split at hbuild
    · cases hbuild
    · cases hbuild
      simpa [Chain.empty] using hrunSteps
  have isForm : Chain.IsForm steps := by
    have := (Chain.sound_empty.run hrun).isForm
    rwa [Chain.steps_run hrun] at this
  rw [hsteps] at built
  obtain ⟨selection, rfl, hcondition⟩ := Statement.built_filteredScan built
  have truth (a : Assignment) := (Condition.truth?_foldlM a hcondition).trans
    (a.foldl_afterStep isForm)
  refine ⟨selection, rfl, hsteps, ?_, ?_⟩
  · let unknown : Assignment := ⟨fun _ => .unknown, fun _ => rfl⟩
    have absent : Condition.truth? unknown selection.condition = none ↔
        selection.condition = none := by
      simp [Condition.truth?]
    rw [← absent, truth unknown, ← unknown.grouping_isEmpty_iff]
    simp
  · intro c hc a t
    have h := truth a
    rw [hc] at h
    split at h
    · cases h
    · have htruth : c.truthBy a.truth = a.grouped steps := Option.some.inj h
      rw [Condition.reads_words_iff, htruth]

/-- A chain with a negated starter and every kind of extension. -/
def negatedChain : List Step :=
  [.select [.text "ID"],
    .starter ⟨.whereNot, .comparison ⟨.text "NAME", .eq, .text "Ana"⟩⟩,
    .andWhere (.comparison ⟨.text "NUMBER", .gt, .int 8⟩),
    .orWhere (.comparison ⟨.text "ACTIVE", .eq, .null⟩),
    .orWhereIn (.membership ⟨.text "ID", .int 4, [.int 5]⟩),
    .limit (.int 3)]

theorem condition_reads_grouped_negatedChain :
    ∃ chain s, negatedChain.foldlM Chain.add Chain.empty >>= Chain.build = .ok chain ∧
      Statement.built none (.filteredScan (.text "ITEMS") chain.steps) = .ok s ∧
      ∃ selection, s = .select selection ∧ chain.steps = negatedChain ∧
        (selection.condition = none ↔ ∀ step ∈ negatedChain, step.isFilter = false) ∧
        ∀ c, selection.condition = some c → ∀ (a : Assignment) (t : Truth),
          Reads a.truth .disjunction c.words t ↔ t = a.grouped negatedChain :=
  ⟨_, _, rfl, rfl, condition_reads_grouped none (.text "ITEMS") negatedChain _ _ rfl rfl⟩

end Sql

end RowAccess
