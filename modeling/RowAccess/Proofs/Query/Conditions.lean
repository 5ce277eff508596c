import RowAccess.Proofs.Query.OrderEntry

/-
  RowAccess/Proofs/Query/Conditions.lean
  ======================================
  **What becomes of the conditions of a filter.**  The conditions stand in the order of the document.
  Of those outside the junctions the last of each kind is kept, whichever columns they are on; of
  those inside a junction all comparisons are kept, one after another
  (`Filter.conditions_are_translated`).
-/

namespace RowAccess

open Keyed Outcome

namespace Filter

/-! ## Conditions in document order -/

/-- A condition on a column: the name of its operator and the operand. -/
structure Condition where
  column : String
  operator : String
  operand : Value

/-- The conditions of the value under a column: an object holds operators, all else is a scalar
that the column is to equal. -/
def conditionsOf (column : String) : Value → List Condition
  | .object operators => operators.map fun (operator, operand) => ⟨column, operator, operand⟩
  | scalar => [⟨column, "eq", scalar⟩]

def conditionsIn (fields : Fields) : List Condition :=
  fields.flatMap fun (column, v) => conditionsOf column v

/-- Is the name that of a junction? -/
def isJunction (name : String) : Bool :=
  name == "and" || name == "or"

/-- The conditions outside the junctions. -/
def plainConditions (conditions : Fields) : List Condition :=
  conditionsIn (conditions.filter fun e => !isJunction e.1)

/-- The conditions of a junction are those of the objects in its list. -/
def junctionConditions : Value → List Condition
  | .list entries => (entries.filterMap Value.fields?).flatMap conditionsIn
  | _ => []

/-! ## Records -/

/-- The operators that compare, and the names of their comparators. -/
def comparatorNames : List (String × String) :=
  [("eq", "EQ"), ("gt", "GT"), ("lt", "LT")]

namespace Condition

/-- The record of a condition that compares. -/
def comparison? (c : Condition) : Option Value :=
  (find? comparatorNames c.operator).map fun comparator =>
    .object [("COLUMN", .text c.column), ("COMPARATOR", .text comparator), ("VALUE", c.operand)]

/-- The record of a condition under an operator that takes a list. -/
def listing? (operator : String) (c : Condition) : Option Value :=
  if c.operator = operator then some (.object [("COLUMN", .text c.column), ("VALUES", c.operand)])
  else none

end Condition

/-- The records of a value: one, or the objects in a list. -/
def recordsIn : Value → List Fields
  | .object record => [record]
  | .list vs => vs.filterMap Value.fields?
  | _ => []

/-- Is a comparator of the record one of the three? -/
def NamesComparator (record : Fields) : Prop :=
  ∀ v, find? record "COMPARATOR" = some v → v = .text "EQ" ∨ v = .text "GT" ∨ v = .text "LT"

/-- Is the query what the conditions ask for? -/
structure Translated (conditions query : Fields) : Prop where
  comparison : find? query "WHERE" =
    ((plainConditions conditions).filterMap Condition.comparison?).getLast?
  between : find? query "WHERE_BETWEEN" =
    ((plainConditions conditions).filterMap (Condition.listing? "between")).getLast?
  isIn : find? query "WHERE_IN" =
    ((plainConditions conditions).filterMap (Condition.listing? "inq")).getLast?
  isNotIn : find? query "WHERE_NOT_IN" =
    ((plainConditions conditions).filterMap (Condition.listing? "nin")).getLast?
  andWhere : find? query "AND_WHERE" = (find? conditions "and").map fun v =>
    .list ((junctionConditions v).filterMap Condition.comparison?)
  orWhere : find? query "OR_WHERE" = (find? conditions "or").map fun v =>
    .list ((junctionConditions v).filterMap Condition.comparison?)
  names : ∀ name ∈ keys query, name ∈ ["SELECT", "WHERE", "WHERE_BETWEEN", "WHERE_IN",
    "WHERE_NOT_IN", "AND_WHERE", "OR_WHERE", "LIMIT", "ORDER"]
  comparators : ∀ name ∈ ["WHERE", "WHERE_BETWEEN", "WHERE_IN", "WHERE_NOT_IN", "AND_WHERE",
    "OR_WHERE"], ∀ v, find? query name = some v → ∀ record ∈ recordsIn v, NamesComparator record

/-! ## What is written under one key -/

theorem comparison?_eq (column operator : String) (v : Value) :
    Condition.comparison? ⟨column, operator, v⟩ =
      (comparator? operator).map fun c => comparisonRecord column c v := by
  unfold Condition.comparison? comparator? comparatorNames
  by_cases heq : operator = "eq"
  · subst heq
    rfl
  by_cases hgt : operator = "gt"
  · subst hgt
    rfl
  by_cases hlt : operator = "lt"
  · subst hlt
    rfl
  simp [find?, heq, hgt, hlt, Ne.symm heq, Ne.symm hgt, Ne.symm hlt]

theorem writes_of_isJunction {name : String} (h : isJunction name = true) (v : Value) :
    writes name v = [("AND_WHERE", .list (junction v))] ∨
      writes name v = [("OR_WHERE", .list (junction v))] := by
  rcases Bool.or_eq_true_iff.1 h with hand | hor
  · rw [beq_iff_eq.1 hand]
    exact .inl rfl
  · rw [beq_iff_eq.1 hor]
    exact .inr rfl

theorem writes_of_not_isJunction {name : String} (h : ¬isJunction name = true) (v : Value) :
    writes name v = match v with
      | .object operators =>
        operators.filterMap fun (operator, w) => operatorWrite? name operator w
      | _ => [("WHERE", comparisonRecord name .eq v)] := by
  simp only [isJunction, Bool.or_eq_true, not_or] at h
  unfold writes
  rw [if_neg h.1, if_neg h.2]
  rfl

/-- The keys under which one record of the conditions outside the junctions is kept, each with the
records that it is chosen from. -/
inductive Keeps : String → (Condition → Option Value) → Prop where
  | comparison : Keeps "WHERE" Condition.comparison?
  | between : Keeps "WHERE_BETWEEN" (Condition.listing? "between")
  | isIn : Keeps "WHERE_IN" (Condition.listing? "inq")
  | isNotIn : Keeps "WHERE_NOT_IN" (Condition.listing? "nin")

namespace Keeps

variable {key : String} {pick : Condition → Option Value}

theorem valuesUnder_operatorWrite? (h : Keeps key pick) (column operator : String) (v : Value) :
    valuesUnder (operatorWrite? column operator v).toList key =
      (pick ⟨column, operator, v⟩).toList := by
  have hcompared := comparison?_eq column operator v
  unfold operatorWrite? operatorClause?
  by_cases hcomparator : comparator? operator = none
  · rw [hcomparator] at hcompared ⊢
    by_cases hbetween : operator = "between"
    · subst hbetween
      cases h <;> rfl
    by_cases hin : operator = "inq"
    · subst hin
      cases h <;> rfl
    by_cases hnot : operator = "nin"
    · subst hnot
      cases h <;> rfl
    have hpick : pick ⟨column, operator, v⟩ = none := by
      cases h with
      | comparison => exact hcompared
      | between => exact if_neg hbetween
      | isIn => exact if_neg hin
      | isNotIn => exact if_neg hnot
    rw [hpick]
    simp [hbetween, hin, hnot, valuesUnder]
  · obtain ⟨c, hc⟩ := Option.ne_none_iff_exists'.1 hcomparator
    have hother : operator ≠ "between" ∧ operator ≠ "inq" ∧ operator ≠ "nin" := by
      refine ⟨?_, ?_, ?_⟩ <;> rintro rfl <;> cases hc
    rw [hc] at hcompared ⊢
    cases h with
    | comparison =>
      rw [hcompared]
      rfl
    | between => simp [Condition.listing?, hother.1, valuesUnder, StarterKind.name]
    | isIn => simp [Condition.listing?, hother.2.1, valuesUnder, StarterKind.name]
    | isNotIn => simp [Condition.listing?, hother.2.2, valuesUnder, StarterKind.name]

/-- What stands under the key is chosen from the conditions of the field. -/
theorem valuesUnder_writes (h : Keeps key pick) (name : String) (v : Value) :
    valuesUnder (writes name v) key =
      if isJunction name then [] else (conditionsOf name v).filterMap pick := by
  have hkey : "AND_WHERE" ≠ key ∧ "OR_WHERE" ≠ key := by cases h <;> decide
  by_cases hjunction : isJunction name = true
  · rw [if_pos hjunction]
    rcases writes_of_isJunction hjunction v with hwrites | hwrites
    · simp [hwrites, valuesUnder, hkey.1]
    · simp [hwrites, valuesUnder, hkey.2]
  · rw [if_neg hjunction, writes_of_not_isJunction hjunction]
    cases v with
    | object operators =>
      simp only [conditionsOf, List.filterMap_eq_flatMap_toList, List.flatMap_map,
        valuesUnder_flatMap, h.valuesUnder_operatorWrite?]
    | _ => cases h <;> rfl

theorem valuesUnder_allWrites (h : Keeps key pick) (conditions : Fields) :
    valuesUnder (allWrites conditions) key = (plainConditions conditions).filterMap pick := by
  rw [allWrites, valuesUnder_flatMap]
  induction conditions with
  | nil => rfl
  | cons e conditions ih =>
    rw [List.flatMap_cons, ih, h.valuesUnder_writes]
    by_cases hjunction : isJunction e.1 = true
    · simp [plainConditions, hjunction]
    · simp [plainConditions, conditionsIn, hjunction]

end Keeps

/-! ## Junctions -/

theorem junctionField_eq (column : String) (v : Value) :
    junctionField column v = (conditionsOf column v).filterMap Condition.comparison? := by
  cases v with
  | object operators =>
    simp only [junctionField, conditionsOf, List.filterMap_map, Function.comp_def, comparison?_eq]
  | _ => rfl

/-- The comparisons of a junction are those of its conditions. -/
theorem junction_eq (v : Value) :
    junction v = (junctionConditions v).filterMap Condition.comparison? := by
  have hobject : ∀ fields : Fields,
      junctionEntry (.object fields) = (conditionsIn fields).filterMap Condition.comparison? := by
    intro fields
    rw [conditionsIn, List.filterMap_flatMap, junctionEntry]
    exact List.flatMap_congr fun e _ => junctionField_eq e.1 e.2
  cases v with
  | list entries =>
    rw [junction, junctionConditions]
    induction entries with
    | nil => rfl
    | cons entry entries ih =>
      rw [List.flatMap_cons, ih]
      cases entry with
      | object fields => simp [hobject, Value.fields?]
      | _ => rfl
  | _ => rfl

/-- The keys of the junctions' comparisons, each with the name of its junction. -/
inductive Joins : String → String → Prop where
  | all : Joins "AND_WHERE" "and"
  | any : Joins "OR_WHERE" "or"

namespace Joins

variable {key name : String}

theorem valuesUnder_operatorWrite? (h : Joins key name) (column operator : String) (v : Value) :
    valuesUnder (operatorWrite? column operator v).toList key = [] := by
  have hkey : ∀ kind, StarterKind.name kind ≠ key := by
    intro kind
    cases h <;> cases kind <;> decide
  unfold operatorWrite?
  cases operatorClause? column operator v with
  | none => rfl
  | some clause => simp [valuesUnder, hkey]

theorem valuesUnder_writes (h : Joins key name) (other : String) (v : Value) :
    valuesUnder (writes other v) key = if other == name then [.list (junction v)] else [] := by
  by_cases hname : other = name
  · subst hname
    cases h <;> simp [writes, valuesUnder, Key.name]
  rw [if_neg (by simpa using hname)]
  by_cases hjunction : isJunction other = true
  · have hother : other = "and" ∨ other = "or" := by simpa [isJunction] using hjunction
    rcases hother with rfl | rfl
    · cases h with
      | all => exact absurd rfl hname
      | any => rfl
    · cases h with
      | all => rfl
      | any => exact absurd rfl hname
  · rw [writes_of_not_isJunction hjunction]
    cases v with
    | object operators =>
      simp only [List.filterMap_eq_flatMap_toList, valuesUnder_flatMap,
        h.valuesUnder_operatorWrite?]
      exact List.flatMap_eq_nil_iff.2 fun _ _ => rfl
    | _ => cases h <;> rfl

theorem valuesUnder_allWrites (h : Joins key name) (conditions : Fields) :
    valuesUnder (allWrites conditions) key =
      (valuesUnder conditions name).map fun v => .list (junction v) := by
  rw [allWrites, valuesUnder_flatMap]
  induction conditions with
  | nil => rfl
  | cons e conditions ih =>
    rw [List.flatMap_cons, ih, h.valuesUnder_writes]
    by_cases hname : (e.1 == name) = true
    · simp [valuesUnder, hname]
    · simp [valuesUnder, hname]

end Joins

/-! ## The query -/

/-- Is the value an order: one entry, or a list of entries? -/
inductive IsOrder : Value → Prop where
  | entry {s : String} : IsEntryText s → IsOrder (.text s)
  | entries {ss : List String} : (∀ s ∈ ss, IsEntryText s) → IsOrder (.list (ss.map .text))

theorem IsOrder.exists_toQuery {filter : Fields} {order : Value} (h : IsOrder order)
    (horder : find? filter "order" = some order) : ∃ query, toQuery filter = .ok query := by
  have hread : ∀ ss : List String, (∀ s ∈ ss, IsEntryText s) →
      ∃ terms, (ss.map Value.text).mapM orderTerm = .ok terms := by
    intro ss hss
    induction ss with
    | nil => exact ⟨[], rfl⟩
    | cons s ss ih =>
      obtain ⟨p, hp, hs⟩ := hss s List.mem_cons_self
      obtain ⟨terms, hterms⟩ := ih fun s' hs' => hss s' (List.mem_cons_of_mem _ hs')
      refine ⟨p.term :: terms, ?_⟩
      rw [List.map_cons, List.mapM_cons, orderTerm_text_eq_ok_iff.2 ⟨p, hp, hs, rfl⟩, hterms]
      rfl
  obtain ⟨vs, terms, hvs, hterms⟩ : ∃ vs terms, orderEntries order = .ok vs ∧
      vs.mapM orderTerm = .ok terms := by
    cases h with
    | @entry s hs =>
      obtain ⟨terms, hterms⟩ := hread [s] (by simpa using hs)
      exact ⟨_, terms, rfl, hterms⟩
    | entries hss =>
      obtain ⟨terms, hterms⟩ := hread _ hss
      exact ⟨_, terms, rfl, hterms⟩
  rw [toQuery_eq, horder]
  dsimp only
  rw [hvs, ok_bind, hterms]
  exact ⟨_, rfl⟩

/-- The keys of conditions stand in the query as the conditions wrote them. -/
theorem find?_query {filter query conditions : Fields} (h : toQuery filter = .ok query)
    (hwhere : find? filter "where" = some (.object conditions)) (key : Key)
    (hkey : key ∈ clauseKeys) :
    find? query key.name = (valuesUnder (allWrites conditions) key.name).getLast? := by
  have hother : ∀ k : Key, k ∉ clauseKeys → k.name ≠ key.name := by
    intro k hk heq
    rw [Key.name_injective heq] at hk
    exact hk hkey
  have hselection : find? (selection filter) key.name = none := by
    unfold selection
    extract_lets selected
    split
    · rfl
    · simp [find?, hother .select (by decide)]
  have hlimit : valuesUnder (limitWrites filter) key.name = [] := by
    unfold limitWrites
    split
    · simp [valuesUnder, hother .limit (by decide)]
    · rfl
  have hunordered : find? (unordered filter) key.name =
      (valuesUnder (allWrites conditions) key.name).getLast? := by
    rw [unordered, find?_putAll_eq, valuesUnder_append, hlimit, List.append_nil, hselection,
      Option.or_none, conditionWrites, hwhere]
  rw [← hunordered]
  rw [toQuery_eq] at h
  split at h
  · cases h
    rfl
  · obtain ⟨entries, -, h⟩ := bind_eq_ok_iff.1 h
    obtain ⟨terms, -, h⟩ := bind_eq_ok_iff.1 h
    cases h
    exact find?_put_of_ne (hother .order (by decide)) _

theorem exists_key_of_query {filter query : Fields} (h : toQuery filter = .ok query) {name : String}
    (hname : name ∈ keys query) : ∃ key ∈ .select :: .limit :: .order :: clauseKeys,
      Key.name key = name := by
  have hunordered : name ∈ keys (unordered filter) → ∃ key ∈ .select :: .limit :: .order :: clauseKeys,
      Key.name key = name := by
    intro hmem
    obtain ⟨key, hkey, hname⟩ := exists_key_of_unordered hmem
    refine ⟨key, ?_, hname⟩
    simp only [List.mem_cons] at hkey ⊢
    tauto
  rw [toQuery_eq] at h
  split at h
  · cases h
    exact hunordered hname
  · obtain ⟨entries, -, h⟩ := bind_eq_ok_iff.1 h
    obtain ⟨terms, -, h⟩ := bind_eq_ok_iff.1 h
    cases h
    rcases ((exact_of_lawful _).mem_keys_put _ _).1 hname with hmem | rfl
    · exact hunordered hmem
    · exact ⟨.order, by simp, rfl⟩

theorem namesComparator_of_comparison? {c : Condition} {v : Value} (h : c.comparison? = some v) :
    ∀ record ∈ recordsIn v, NamesComparator record := by
  obtain ⟨comparator, hcomparator, rfl⟩ := Option.map_eq_some_iff.1 h
  intro record hrecord w hw
  obtain rfl := List.mem_singleton.1 hrecord
  obtain rfl : .text comparator = w := Option.some.inj hw
  have hmem := (exact_of_lawful c.operator).mem_of_find? hcomparator
  have hname : comparator ∈ comparatorNames.map Prod.snd := List.mem_map_of_mem hmem
  simpa [comparatorNames] using hname

theorem Keeps.namesComparator {key : String} {pick : Condition → Option Value} (h : Keeps key pick)
    {c : Condition} {v : Value} (hpick : pick c = some v) :
    ∀ record ∈ recordsIn v, NamesComparator record := by
  have hlisting : ∀ operator, c.listing? operator = some v →
      ∀ record ∈ recordsIn v, NamesComparator record := by
    intro operator h record hrecord w hw
    unfold Condition.listing? at h
    split at h
    · cases h
      obtain rfl := List.mem_singleton.1 hrecord
      cases hw
    · cases h
  cases h with
  | comparison => exact namesComparator_of_comparison? hpick
  | between | isIn | isNotIn => exact hlisting _ hpick

theorem namesComparator_of_list {cs : List Condition} :
    ∀ record ∈ recordsIn (.list (cs.filterMap Condition.comparison?)), NamesComparator record := by
  intro record hrecord
  rw [recordsIn] at hrecord
  obtain ⟨w, hw, hfields⟩ := List.mem_filterMap.1 hrecord
  obtain ⟨c, -, hc⟩ := List.mem_filterMap.1 hw
  cases w with
  | object fields =>
    cases hfields
    exact namesComparator_of_comparison? hc record List.mem_cons_self
  | _ => cases hfields

/-- The conditions of a filter come into its query each as the kind of clause that it asks for: the
last one of each kind outside the junctions, and every comparison of a junction. -/
theorem conditions_are_translated {filter conditions : Fields}
    (hwhere : find? filter "where" = some (.object conditions)) (hnames : (keys conditions).Nodup) :
    ((∀ order, find? filter "order" = some order → IsOrder order) →
      ∃ query, toQuery filter = .ok query) ∧
    ∀ query, toQuery filter = .ok query → Translated conditions query := by
  constructor
  · intro horder
    cases hfind : find? filter "order" with
    | none =>
      rw [toQuery_eq, hfind]
      exact ⟨_, rfl⟩
    | some order => exact (horder order hfind).exists_toQuery hfind
  · intro query hquery
    have hkept : ∀ {pick} (key : Key), key ∈ clauseKeys → Keeps key.name pick →
        find? query key.name = ((plainConditions conditions).filterMap pick).getLast? := by
      intro pick key hkey h
      rw [find?_query hquery hwhere key hkey, h.valuesUnder_allWrites]
    have hjoined : ∀ {name} (key : Key), key ∈ clauseKeys → Joins key.name name →
        find? query key.name = (find? conditions name).map fun v =>
          .list ((junctionConditions v).filterMap Condition.comparison?) := by
      intro name key hkey h
      rw [find?_query hquery hwhere key hkey, h.valuesUnder_allWrites,
        valuesUnder_eq_toList hnames]
      simp only [junction_eq]
      cases find? conditions name <;> rfl
    have hpicked : ∀ {key pick} (cs : List Condition), Keeps key pick → ∀ v,
        (cs.filterMap pick).getLast? = some v → ∀ record ∈ recordsIn v, NamesComparator record := by
      intro key pick cs h v hv
      obtain ⟨c, -, hc⟩ := List.mem_filterMap.1 (List.mem_of_getLast? hv)
      exact h.namesComparator hc
    have hcomparison := hkept (.starter .where_) (by decide) .comparison
    have hbetween := hkept (.starter .whereBetween) (by decide) .between
    have hisIn := hkept (.starter .whereIn) (by decide) .isIn
    have hisNotIn := hkept (.starter .whereNotIn) (by decide) .isNotIn
    have handWhere := hjoined .andWhere (by decide) .all
    have horWhere := hjoined .orWhere (by decide) .any
    have hallowed : ∀ key ∈ Key.select :: .limit :: .order :: clauseKeys, Key.name key ∈
        ["SELECT", "WHERE", "WHERE_BETWEEN", "WHERE_IN", "WHERE_NOT_IN", "AND_WHERE", "OR_WHERE",
          "LIMIT", "ORDER"] := by decide
    refine ⟨hcomparison, hbetween, hisIn, hisNotIn, handWhere, horWhere, ?_, ?_⟩
    · intro name hname
      obtain ⟨key, hkey, rfl⟩ := exists_key_of_query hquery hname
      exact hallowed key hkey
    · intro name hname v hv
      simp only [List.mem_cons, List.not_mem_nil, or_false] at hname
      rcases hname with rfl | rfl | rfl | rfl | rfl | rfl
      · exact hpicked _ .comparison v (hcomparison.symm.trans hv)
      · exact hpicked _ .between v (hbetween.symm.trans hv)
      · exact hpicked _ .isIn v (hisIn.symm.trans hv)
      · exact hpicked _ .isNotIn v (hisNotIn.symm.trans hv)
      · obtain ⟨w, -, rfl⟩ := Option.map_eq_some_iff.1 (handWhere.symm.trans hv)
        exact namesComparator_of_list
      · obtain ⟨w, -, rfl⟩ := Option.map_eq_some_iff.1 (horWhere.symm.trans hv)
        exact namesComparator_of_list

/-- Conditions of every kind, two of each. -/
def mixedConditions : Fields :=
  [("NAME", .text "Ana"), ("ID", .object [("gt", .int 2), ("like", .text "1%"), ("nin", .list [.int 4])]),
    ("or", .list [.object [("NAME", .text "Ivo"), ("ID", .object [("lt", .int 3), ("inq", .list [])])],
      .text "NAME"]),
    ("AGE", .object [("between", .list [.int 1, .int 2]), ("nin", .list [.int 5])])]

theorem conditions_are_translated_mixedConditions :
    ∃ query, toQuery [("where", .object mixedConditions), ("order", .text "ID ASC")] = .ok query ∧
      Translated mixedConditions query := by
  obtain ⟨hexists, htranslated⟩ := @conditions_are_translated
    [("where", .object mixedConditions), ("order", .text "ID ASC")] mixedConditions rfl (by decide)
  obtain ⟨query, hquery⟩ := hexists fun order horder => by
    cases horder
    exact .entry ⟨⟨[], "ID".toList, [' '], .ascending, []⟩,
      ⟨by decide, by decide, by decide, by decide, by decide⟩, by decide⟩
  exact ⟨query, hquery, htranslated query hquery⟩

end Filter

end RowAccess
