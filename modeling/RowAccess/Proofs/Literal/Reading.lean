import RowAccess.Proofs.Capture
import RowAccess.Proofs.Json.Document
import RowAccess.Proofs.Keyed
import RowAccess.Query.Bracket

/-
  RowAccess/Proofs/Literal/Reading.lean
  =====================================
  **Date literals are not read.**  A date literal is written by the conversions to storage only: no
  document, no query string and no filter spells one.  So the record form of a client's query holds
  none where the client's value held none (`literalFree_clientQuery`).
-/

namespace RowAccess

open Keyed Outcome

/-! ## Literals of values -/

namespace Value

mutual

/-- The date literals in a value, at every depth. -/
def literals : Value → List DateLiteral
  | .dateLiteral l => [l]
  | .list xs => literalsIn xs
  | .object fields => literalsUnder fields
  | _ => []

def literalsIn : List Value → List DateLiteral
  | [] => []
  | x :: xs => literals x ++ literalsIn xs

def literalsUnder : List (String × Value) → List DateLiteral
  | [] => []
  | (_, v) :: r => literals v ++ literalsUnder r

end

theorem literalsIn_eq (xs : List Value) : literalsIn xs = xs.flatMap literals := by
  induction xs with
  | nil => rfl
  | cons x xs ih => rw [literalsIn, ih, List.flatMap_cons]

theorem literalsUnder_eq (fields : Fields) :
    literalsUnder fields = fields.flatMap fun e => e.2.literals := by
  induction fields with
  | nil => rfl
  | cons e r ih => rw [literalsUnder, ih, List.flatMap_cons]

def LiteralFree (v : Value) : Prop := v.literals = []

@[simp] theorem literalFree_null : LiteralFree .null := rfl

@[simp] theorem literalFree_bool (b : Bool) : LiteralFree (.bool b) := rfl

@[simp] theorem literalFree_int (n : Int) : LiteralFree (.int n) := rfl

@[simp] theorem literalFree_float (x : Binary64) : LiteralFree (.float x) := rfl

@[simp] theorem literalFree_text (s : String) : LiteralFree (.text s) := rfl

@[simp] theorem literalFree_bytes (bs : List UInt8) : LiteralFree (.bytes bs) := rfl

@[simp] theorem not_literalFree_dateLiteral (l : DateLiteral) : ¬ LiteralFree (.dateLiteral l) :=
  List.cons_ne_nil l []

@[simp] theorem literalFree_list {xs : List Value} :
    LiteralFree (.list xs) ↔ ∀ x ∈ xs, LiteralFree x := by
  rw [LiteralFree, literals, literalsIn_eq, List.flatMap_eq_nil_iff]
  rfl

@[simp] theorem literalFree_object {fields : Fields} :
    LiteralFree (.object fields) ↔ ∀ e ∈ fields, LiteralFree e.2 := by
  rw [LiteralFree, literals, literalsUnder_eq, List.flatMap_eq_nil_iff]
  rfl

namespace LiteralFree

variable {fields more : Fields} {key : String} {v : Value}

theorem find (h : LiteralFree (.object fields)) (hfind : find? fields key = some v) :
    LiteralFree v :=
  literalFree_object.1 h _ ((exact_of_lawful key).mem_of_find? hfind)

theorem put (h : LiteralFree (.object fields)) (hv : LiteralFree v) :
    LiteralFree (.object (Keyed.put fields key v)) := by
  rw [literalFree_object] at h ⊢
  intro e he
  rcases value_of_mem_put he with rfl | he
  · exact hv
  · exact h e he

theorem drop (h : LiteralFree (.object fields)) (key : String) :
    LiteralFree (.object (Keyed.drop fields key)) := by
  rw [literalFree_object] at h ⊢
  exact fun e he => h e (List.mem_filter.1 he).1

theorem putAll (h : LiteralFree (.object fields)) (hmore : LiteralFree (.object more)) :
    LiteralFree (.object (Keyed.putAll fields more)) := by
  induction more generalizing fields with
  | nil => exact h
  | cons e more ih =>
    rw [literalFree_object, List.forall_mem_cons] at hmore
    exact ih (h.put hmore.1) (literalFree_object.2 hmore.2)

end LiteralFree

end Value

open Value

/-! ## Documents -/

theorem Json.IsDocument.literalFree {v : Value} (h : Json.IsDocument v) : v.LiteralFree := by
  induction h with
  | list _ ih => exact literalFree_list.2 ih
  | object _ ih => exact literalFree_object.2 ih
  | _ => rfl

/-! ## Filters -/

namespace Filter

theorem literalFree_comparisonRecord {column : String} {comparator : Comparator} {v : Value}
    (h : v.LiteralFree) : (comparisonRecord column comparator v).LiteralFree := by
  simpa [comparisonRecord, Comparison.toRecord] using h

theorem literalFree_valuesRecord {column : String} {v : Value} (h : v.LiteralFree) :
    (valuesRecord column v).LiteralFree := by
  simpa [valuesRecord] using h

theorem literalFree_operatorClause {column operator : String} {v record : Value}
    {kind : StarterKind} (h : v.LiteralFree)
    (hclause : operatorClause? column operator v = some (kind, record)) : record.LiteralFree := by
  unfold operatorClause? at hclause
  split at hclause
  · cases hclause
    exact literalFree_comparisonRecord h
  · split at hclause
    · cases hclause
      exact literalFree_valuesRecord h
    · split at hclause
      · cases hclause
        exact literalFree_valuesRecord h
      · split at hclause
        · cases hclause
          exact literalFree_valuesRecord h
        · cases hclause

theorem literalFree_putOperators {column : String} {operators query : Fields}
    (hoperators : LiteralFree (.object operators)) (h : LiteralFree (.object query)) :
    LiteralFree (.object (putOperators column operators query)) := by
  induction operators generalizing query with
  | nil => exact h
  | cons e operators ih =>
    obtain ⟨operator, v⟩ := e
    rw [literalFree_object, List.forall_mem_cons] at hoperators
    refine ih (literalFree_object.2 hoperators.2) ?_
    dsimp only
    split
    next hclause => exact h.put (literalFree_operatorClause hoperators.1 hclause)
    next => exact h

theorem literalFree_junctionField {column : String} {v : Value} (h : v.LiteralFree) :
    ∀ record ∈ junctionField column v, record.LiteralFree := by
  intro record hrecord
  unfold junctionField at hrecord
  split at hrecord
  · obtain ⟨⟨operator, operand⟩, hmem, hoperand⟩ := List.mem_filterMap.1 hrecord
    obtain ⟨c, -, rfl⟩ := Option.map_eq_some_iff.1 hoperand
    exact literalFree_comparisonRecord (literalFree_object.1 h _ hmem)
  · rw [List.mem_singleton.1 hrecord]
    exact literalFree_comparisonRecord h

theorem literalFree_junction {v : Value} (h : v.LiteralFree) :
    LiteralFree (.list (junction v)) := by
  rw [literalFree_list]
  intro record hrecord
  unfold junction at hrecord
  split at hrecord
  · obtain ⟨entry, hentry, hrecord⟩ := List.mem_flatMap.1 hrecord
    have hfree := literalFree_list.1 h entry hentry
    unfold junctionEntry at hrecord
    split at hrecord
    · obtain ⟨⟨column, w⟩, hw, hrecord⟩ := List.mem_flatMap.1 hrecord
      exact literalFree_junctionField (literalFree_object.1 hfree _ hw) record hrecord
    · cases hrecord
  · cases hrecord

theorem literalFree_putCondition {query : Fields} {name : String} {v : Value}
    (h : LiteralFree (.object query)) (hv : v.LiteralFree) :
    LiteralFree (.object (putCondition query name v)) := by
  unfold putCondition
  split
  · exact h.put (literalFree_junction hv)
  · split
    · exact h.put (literalFree_junction hv)
    · split
      · exact literalFree_putOperators hv h
      · exact h.put (literalFree_comparisonRecord hv)

theorem literalFree_putConditions {conditions query : Fields}
    (hconditions : LiteralFree (.object conditions)) (h : LiteralFree (.object query)) :
    LiteralFree (.object (putConditions conditions query)) := by
  induction conditions generalizing query with
  | nil => exact h
  | cons e conditions ih =>
    rw [literalFree_object, List.forall_mem_cons] at hconditions
    exact ih (literalFree_object.2 hconditions.2) (literalFree_putCondition h hconditions.1)

theorem literalFree_selectedFields {v : Value} (h : v.LiteralFree) :
    LiteralFree (.list (selectedFields v)) := by
  rw [literalFree_list]
  intro x hx
  unfold selectedFields at hx
  split at hx
  · obtain ⟨e, -, rfl⟩ := List.mem_map.1 hx
    rfl
  · exact literalFree_list.1 h x (List.mem_filter.1 hx).1
  · cases hx

theorem literalFree_orderTerm {v : Value} {t : OrderTerm} (h : orderTerm v = .ok t) :
    LiteralFree (.object t.toRecord) := by
  have hcolumn : t.column.LiteralFree := by
    unfold orderTerm at h
    split at h
    · split at h
      next hterm =>
        cases h
        unfold orderTerm? at hterm
        split at hterm
        · cases hterm
        · extract_lets column at hterm
          split at hterm
          · cases hterm
          · cases hterm
            rfl
      next => cases h
    · cases h
  simpa [OrderTerm.toRecord] using hcolumn

theorem literalFree_toQuery {filter query : Fields} (hfilter : LiteralFree (.object filter))
    (h : toQuery filter = .ok query) : LiteralFree (.object query) := by
  unfold toQuery at h
  extract_lets selected chosen conditioned limited at h
  have hselected : LiteralFree (.list selected) := by
    cases hfields : find? filter "fields" with
    | none => simp [selected, hfields]
    | some v =>
      simpa [selected, hfields] using literalFree_selectedFields (hfilter.find hfields)
  have hchosen : LiteralFree (.object chosen) := by
    unfold chosen
    split
    · simp
    · simpa using hselected
  have hconditioned : LiteralFree (.object conditioned) := by
    unfold conditioned
    split
    next conditions hwhere => exact literalFree_putConditions (hfilter.find hwhere) hchosen
    next => exact hchosen
  have hlimited : LiteralFree (.object limited) := by
    unfold limited
    split
    next limit hlimit => exact hconditioned.put (hfilter.find hlimit)
    next => exact hconditioned
  split at h
  · rwa [← Except.ok.inj h]
  · obtain ⟨entries, -, h⟩ := bind_eq_ok_iff.1 h
    obtain ⟨terms, hterms, h⟩ := bind_eq_ok_iff.1 h
    rw [← Except.ok.inj h]
    refine hlimited.put ?_
    rw [literalFree_list]
    intro record hrecord
    obtain ⟨t, ht, rfl⟩ := List.mem_map.1 hrecord
    obtain ⟨entry, -, hentry⟩ := exists_of_mem_mapM hterms ht
    exact literalFree_orderTerm hentry

theorem literalFree_ofParameter {v : Value} {query : Fields} (hv : v.LiteralFree)
    (h : ofParameter v = .ok query) : LiteralFree (.object query) := by
  unfold ofParameter at h
  split at h
  · obtain ⟨fields, hjson, h⟩ := bind_eq_ok_iff.1 h
    unfold ofJson at hjson
    split at hjson
    · cases hjson
    next hread =>
      cases hjson
      exact literalFree_toQuery ((Json.isDocument_read hread).literalFree) h
    · cases hjson
  · exact literalFree_toQuery hv h
  · cases h

end Filter

/-! ## Query strings -/

namespace Bracket

theorem literalFree_fieldsUnder {fields : Fields} (h : LiteralFree (.object fields))
    (name : String) : LiteralFree (.object (fieldsUnder fields name)) := by
  unfold fieldsUnder
  split
  next inner hfind => exact h.find hfind
  next => simp

theorem literalFree_insertAt {path : List String} {v : Value} {fields : Fields}
    (hv : v.LiteralFree) (h : LiteralFree (.object fields)) :
    LiteralFree (.object (insertAt path v fields)) := by
  induction path generalizing fields with
  | nil => exact h
  | cons segment rest ih =>
    cases rest with
    | nil => exact h.put hv
    | cons next rest =>
      rw [insertAt]
      · exact h.put (ih (literalFree_fieldsUnder h _))
      · simp

theorem literalFree_nest (parameters : List (String × String)) :
    LiteralFree (.object (nest parameters)) := by
  suffices general : ∀ fields, LiteralFree (.object fields) → LiteralFree (.object
      (parameters.foldl (fun fields e => insertAt (keyPath e.1) (.text e.2) fields) fields)) from general [] (by simp)
  induction parameters with
  | nil => exact fun fields h => h
  | cons e parameters ih => exact fun fields h => ih _ (literalFree_insertAt rfl h)

theorem literalFree_inIndexOrder {fields : Fields} {vs : List Value}
    (hfields : LiteralFree (.object fields)) (h : inIndexOrder fields = .ok vs) :
    LiteralFree (.list vs) := by
  unfold inIndexOrder at h
  obtain ⟨numbered, hnumbered, h⟩ := bind_eq_ok_iff.1 h
  cases h
  rw [literalFree_list]
  intro v hv
  obtain ⟨e, he, rfl⟩ := List.mem_map.1 hv
  obtain ⟨⟨k, w⟩, hmem, hentry⟩ := exists_of_mem_mapM hnumbered (List.mem_mergeSort.1 he)
  obtain ⟨n, -, hentry⟩ := bind_eq_ok_iff.1 hentry
  cases hentry
  exact literalFree_object.1 hfields _ hmem

mutual

theorem literalFree_listed {v w : Value} (hv : v.LiteralFree) (h : listed v = .ok w) :
    w.LiteralFree := by
  cases v with
  | object fs =>
    rw [listed] at h
    obtain ⟨fields, hfields, h⟩ := bind_eq_ok_iff.1 h
    have hfree := literalFree_listedFields hv hfields
    split at h
    · obtain ⟨vs, hvs, h⟩ := bind_eq_ok_iff.1 h
      cases h
      exact literalFree_inIndexOrder hfree hvs
    · cases h
      exact hfree
  | _ =>
    cases h
    exact hv

theorem literalFree_listedFields {fields done : List (String × Value)}
    (hfields : LiteralFree (.object fields)) (h : listedFields fields = .ok done) :
    LiteralFree (.object done) := by
  cases fields with
  | nil =>
    cases h
    exact hfields
  | cons e r =>
    obtain ⟨k, v⟩ := e
    rw [listedFields] at h
    obtain ⟨w, hw, h⟩ := bind_eq_ok_iff.1 h
    obtain ⟨rest, hrest, h⟩ := bind_eq_ok_iff.1 h
    cases h
    rw [literalFree_object, List.forall_mem_cons] at hfields ⊢
    exact ⟨literalFree_listed hfields.1 hw,
      literalFree_object.1 (literalFree_listedFields (literalFree_object.2 hfields.2) hrest)⟩

end

theorem literalFree_splitValues {v : Value} (h : v.LiteralFree) : (splitValues v).LiteralFree := by
  unfold splitValues
  split
  · rw [literalFree_list]
    intro x hx
    obtain ⟨cs, -, rfl⟩ := List.mem_map.1 hx
    rfl
  · exact h

theorem literalFree_splitRecord {fields : Fields} (h : LiteralFree (.object fields)) :
    LiteralFree (.object (splitRecord fields)) := by
  unfold splitRecord
  split
  next v hfind => exact h.put (literalFree_splitValues (h.find hfind))
  next => exact h

theorem literalFree_expandRecord {name : String} {v : Value} (h : v.LiteralFree) :
    (expandRecord name v).LiteralFree := by
  unfold expandRecord
  split
  next column w =>
    have hw : w.LiteralFree := literalFree_object.1 h (column, w) List.mem_cons_self
    split
    · exact literalFree_splitRecord h
    · split
      · simpa using literalFree_splitValues hw
      · simpa using hw
      · exact h
  next => exact literalFree_splitRecord h
  next => exact h

theorem literalFree_normalize {fields : Fields} (h : LiteralFree (.object fields)) :
    LiteralFree (.object (normalize fields)) := by
  rw [literalFree_object] at h ⊢
  intro e he
  obtain ⟨⟨k, v⟩, hmem, rfl⟩ := List.mem_map.1 he
  have hv : v.LiteralFree := h (k, v) hmem
  show (normalizeValue k v).LiteralFree
  unfold normalizeValue
  split
  · exact literalFree_splitValues hv
  · split
    · rw [literalFree_list]
      intro x hx
      obtain ⟨w, hw, rfl⟩ := List.mem_map.1 hx
      exact literalFree_expandRecord (literalFree_list.1 hv w hw)
    · exact literalFree_expandRecord hv

theorem literalFree_parse {s : String} {query : Fields} (h : parse s = .ok query) :
    LiteralFree (.object query) := by
  unfold parse at h
  obtain ⟨v, hv, h⟩ := bind_eq_ok_iff.1 h
  have hfree : v.LiteralFree := literalFree_listed (literalFree_nest _) hv
  split at h
  next fields =>
    have hquery := literalFree_normalize (hfree.drop filterName)
    dsimp only at h
    split at h
    · cases h
      exact hquery
    next filter hfind =>
      obtain ⟨more, hmore, h⟩ := bind_eq_ok_iff.1 h
      cases h
      exact hquery.putAll (Filter.literalFree_ofParameter (hfree.find hfind) hmore)
  next => cases h

end Bracket

/-- **Date literals are not read.**  The record form of a client's query holds none where the
client's value held none. -/
theorem literalFree_clientQuery {v : Value} {query : Fields} (hv : v.LiteralFree)
    (h : clientQuery v = .ok query) : LiteralFree (.object query) := by
  have h := written_eq_ok_iff.1 h
  unfold readQuery at h
  split at h
  · cases h
    simp
  · exact Bracket.literalFree_parse h
  · split at h
    next filter hfind =>
      obtain ⟨more, hmore, h⟩ := bind_eq_ok_iff.1 h
      cases h
      exact (hv.drop _).putAll (Filter.literalFree_ofParameter (hv.find hfind) hmore)
    next =>
      split at h
      · exact Filter.literalFree_toQuery hv h
      · cases h
        exact hv
  · cases h

end RowAccess
