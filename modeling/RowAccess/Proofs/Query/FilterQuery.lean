import RowAccess.Proofs.Keyed
import RowAccess.Query.Filter

/-
  RowAccess/Proofs/Query/FilterQuery.lean
  =======================================
  **The query of a filter is what its parts write, one after another.**  Every condition writes
  clauses under their keys, so the conditions together put a list of clauses into the query
  (`Filter.putConditions_eq`); the order comes last, and it alone can have no record form.
-/

namespace RowAccess

open Keyed

namespace Filter

/-! ## What conditions write -/

/-- The clause that an operator on a column asks for, under its key. -/
def operatorWrite? (column operator : String) (value : Value) : Option (String × Value) :=
  (operatorClause? column operator value).map fun (kind, record) => (kind.name, record)

/-- The clauses that the value under a name of the conditions writes. -/
def writes (name : String) (v : Value) : Fields :=
  if name == "and" then [(Key.andWhere.name, .list (junction v))]
  else if name == "or" then [(Key.orWhere.name, .list (junction v))]
  else match v with
    | .object operators => operators.filterMap fun (operator, w) => operatorWrite? name operator w
    | _ => [(StarterKind.where_.name, comparisonRecord name .eq v)]

/-- The clauses that conditions write, in their order. -/
def allWrites (conditions : Fields) : Fields :=
  conditions.flatMap fun (name, v) => writes name v

theorem putOperators_eq (column : String) (operators query : Fields) :
    putOperators column operators query =
      putAll query (operators.filterMap fun (operator, w) => operatorWrite? column operator w) := by
  induction operators generalizing query with
  | nil => rfl
  | cons e operators ih =>
    obtain ⟨operator, w⟩ := e
    refine (ih _).trans ?_
    cases h : operatorClause? column operator w with
    | none => simp [operatorWrite?, h]
    | some clause =>
      simp only [List.filterMap_cons, operatorWrite?, h, Option.map_some]
      rfl

theorem putCondition_eq (query : Fields) (name : String) (v : Value) :
    putCondition query name v = putAll query (writes name v) := by
  unfold putCondition writes
  split
  · rfl
  split
  · rfl
  cases v with
  | object operators => exact putOperators_eq name operators query
  | _ => rfl

theorem putConditions_eq (conditions query : Fields) :
    putConditions conditions query = putAll query (allWrites conditions) := by
  induction conditions generalizing query with
  | nil => rfl
  | cons e conditions ih =>
    obtain ⟨name, v⟩ := e
    show putConditions conditions (putCondition query name v) = _
    rw [ih, putCondition_eq, putAll_putAll]
    rfl

/-- The keys of the clauses that conditions write. -/
def clauseKeys : List Key :=
  [.starter .where_, .starter .whereBetween, .starter .whereIn, .starter .whereNotIn, .andWhere,
    .orWhere]

theorem exists_key_of_operatorWrite? {column operator : String} {v : Value} {e : String × Value}
    (h : operatorWrite? column operator v = some e) : ∃ key ∈ clauseKeys, Key.name key = e.1 := by
  obtain ⟨⟨kind, record⟩, hclause, rfl⟩ := Option.map_eq_some_iff.1 h
  refine ⟨.starter kind, ?_, rfl⟩
  unfold operatorClause? at hclause
  split at hclause
  · cases hclause
    decide
  · split at hclause
    · cases hclause
      decide
    split at hclause
    · cases hclause
      decide
    split at hclause
    · cases hclause
      decide
    · cases hclause

theorem exists_key_of_writes {name : String} {v : Value} {e : String × Value}
    (h : e ∈ writes name v) : ∃ key ∈ clauseKeys, Key.name key = e.1 := by
  unfold writes at h
  split at h
  · rw [List.mem_singleton.1 h]
    exact ⟨.andWhere, by decide, rfl⟩
  split at h
  · rw [List.mem_singleton.1 h]
    exact ⟨.orWhere, by decide, rfl⟩
  split at h
  · obtain ⟨f, -, hf⟩ := List.mem_filterMap.1 h
    exact exists_key_of_operatorWrite? hf
  · rw [List.mem_singleton.1 h]
    exact ⟨.starter .where_, by decide, rfl⟩

/-! ## The parts of a query -/

/-- What the fields and the conditions of a filter write. -/
def selection (filter : Fields) : Fields :=
  let selected := ((find? filter "fields").map selectedFields).getD []
  if selected.isEmpty then [] else [(Key.select.name, .list selected)]

def conditionWrites (filter : Fields) : Fields :=
  match find? filter "where" with
  | some (.object conditions) => allWrites conditions
  | _ => []

def limitWrites (filter : Fields) : Fields :=
  match find? filter "limit" with
  | some limit => [(Key.limit.name, limit)]
  | none => []

/-- The query of a filter without its order. -/
def unordered (filter : Fields) : Fields :=
  putAll (selection filter) (conditionWrites filter ++ limitWrites filter)

/-- The order comes last. -/
theorem toQuery_eq (filter : Fields) :
    toQuery filter =
      match find? filter "order" with
      | none => .ok (unordered filter)
      | some order => do
        let terms ← (← orderEntries order).mapM orderTerm
        return put (unordered filter) Key.order.name (.list (terms.map fun t => .object t.toRecord)) := by
  have hparts : ∀ q : Fields, (match find? filter "limit" with
      | some limit => put (match find? filter "where" with
        | some (.object conditions) => putConditions conditions q
        | _ => q) Key.limit.name limit
      | none => match find? filter "where" with
        | some (.object conditions) => putConditions conditions q
        | _ => q) = putAll q (conditionWrites filter ++ limitWrites filter) := by
    intro q
    have hconditions : (match find? filter "where" with
        | some (.object conditions) => putConditions conditions q
        | _ => q) = putAll q (conditionWrites filter) := by
      unfold conditionWrites
      split
      · exact putConditions_eq _ q
      · rfl
    rw [hconditions, ← putAll_putAll, limitWrites]
    cases find? filter "limit" <;> rfl
  unfold toQuery unordered
  rw [← hparts]
  rfl

theorem exists_key_of_unordered {filter : Fields} {name : String}
    (h : name ∈ keys (unordered filter)) :
    ∃ key ∈ .select :: .limit :: clauseKeys, Key.name key = name := by
  rw [unordered, mem_keys_putAll, mem_keys_append] at h
  rcases h with h | h | h
  · unfold selection at h
    extract_lets selected at h
    split at h
    · cases h
    · rw [keys, List.map_singleton, List.mem_singleton] at h
      exact ⟨.select, by simp, h.symm⟩
  · unfold conditionWrites at h
    split at h
    · obtain ⟨e, he, rfl⟩ := List.mem_map.1 h
      obtain ⟨⟨name, v⟩, -, he⟩ := List.mem_flatMap.1 he
      obtain ⟨key, hkey, hname⟩ := exists_key_of_writes he
      exact ⟨key, by simp [hkey], hname⟩
    · cases h
  · unfold limitWrites at h
    split at h
    · rw [keys, List.map_singleton, List.mem_singleton] at h
      exact ⟨.limit, by simp, h.symm⟩
    · cases h

/-- A key that no part of a filter writes is not in its query. -/
theorem find?_unordered_eq_none {filter : Fields} {key : Key}
    (h : key ∉ Key.select :: .limit :: clauseKeys) : find? (unordered filter) key.name = none := by
  rw [(exact_of_lawful key.name).find?_eq_none_iff]
  intro hmem
  obtain ⟨other, hother, hname⟩ := exists_key_of_unordered hmem
  rw [Key.name_injective hname] at hother
  exact h hother

end Filter

end RowAccess
