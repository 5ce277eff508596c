import RowAccess.Proofs.Capture
import RowAccess.Proofs.Literal.Reading
import RowAccess.Proofs.Stateful
import RowAccess.Query.Typed
import RowAccess.Query.Validation

/-
  RowAccess/Proofs/Literal/Check.lean
  ===================================
  **The check writes no date literals.**  What a check takes from a query and what it applies to it
  are parts of the query, numbers and names.  So the typed form of a query without date literals
  holds none (`literalFree_validate`).
-/

namespace RowAccess

open Keyed Outcome Value

/-! ## Literals of clauses -/

def Comparison.literals (c : Comparison) : List DateLiteral :=
  c.column.literals ++ c.value.literals

def Like.literals (l : Like) : List DateLiteral :=
  l.column.literals ++ l.pattern.literals

def Membership.literals (m : Membership) : List DateLiteral :=
  m.column.literals ++ m.values.flatMap Value.literals

def Range.literals (r : Range) : List DateLiteral :=
  r.column.literals ++ (r.low.literals ++ r.high.literals)

/-- The date literals in a clause: in its column and in its values. -/
def Clause.literals : Clause → List DateLiteral
  | .comparison c => c.literals
  | .like l => l.literals
  | .membership m => m.literals
  | .range r => r.literals

/-- Does a typed query hold no date literals? -/
structure Query.LiteralFree (q : Query) : Prop where
  select : ∀ v ∈ q.select, v.LiteralFree
  starter : ∀ s ∈ q.starter, s.clause.literals = []
  andWhere : ∀ c ∈ q.andWhere, c.literals = []
  orWhere : ∀ c ∈ q.orWhere, c.literals = []
  orWhereIn : ∀ m ∈ q.orWhereIn, m.literals = []
  order : ∀ t ∈ q.order, t.column.LiteralFree

theorem Comparison.literals_eq_nil {column : String} {comparator : Comparator} {v : Value}
    (h : v.LiteralFree) : (⟨.text column, comparator, v⟩ : Comparison).literals = [] :=
  h

theorem Membership.literals_eq_nil {column : String} {v : Value} {vs : List Value}
    (h : ∀ w ∈ v :: vs, w.LiteralFree) :
    (⟨.text column, v, vs⟩ : Membership).literals = [] :=
  List.flatMap_eq_nil_iff.2 h

/-! ## Checks -/

namespace Validation

open Stateful (execute)

variable {α β : Type}

theorem literalFree_fieldValue {record : Fields} (h : LiteralFree (.object record))
    (name : String) : (fieldValue record name).LiteralFree := by
  unfold fieldValue
  cases hfind : find? record name with
  | none => exact literalFree_null
  | some v => exact h.find hfind

theorem literalFree_columnAndValue {place : Location} {record : Fields} {column : String}
    {v : Value} (hrecord : LiteralFree (.object record))
    (h : columnAndValue place record = .ok (column, v)) : v.LiteralFree := by
  obtain ⟨c, -, h⟩ := bind_eq_ok_iff.1 h
  dsimp only at h
  split at h
  · cases h
  · cases h
    exact literalFree_fieldValue hrecord _

theorem literalFree_comparisonOf {place : Location} {record : Fields} {c : Comparison}
    (hrecord : LiteralFree (.object record)) (h : comparisonOf place record = .ok c) :
    c.literals = [] := by
  obtain ⟨⟨column, v⟩, hparts, h⟩ := bind_eq_ok_iff.1 h
  obtain ⟨comparator, -, h⟩ := bind_eq_ok_iff.1 h
  cases h
  exact Comparison.literals_eq_nil (literalFree_columnAndValue hrecord hparts)

theorem literalFree_likeOf {place : Location} {record : Fields} {l : Like}
    (hrecord : LiteralFree (.object record)) (h : likeOf place record = .ok l) :
    l.literals = [] := by
  obtain ⟨⟨column, v⟩, hparts, h⟩ := bind_eq_ok_iff.1 h
  cases h
  exact literalFree_columnAndValue hrecord hparts

theorem literalFree_valuesOf {place : Location} {record : Fields} {v : Value} {vs : List Value}
    (hrecord : LiteralFree (.object record)) (h : valuesOf place record = .ok (v, vs)) :
    ∀ w ∈ v :: vs, w.LiteralFree := by
  have hfield := literalFree_fieldValue hrecord ClauseField.values.name
  unfold valuesOf at h
  split at h
  next heq =>
    split at h
    · cases h
    · cases h
      rw [heq] at hfield
      exact literalFree_list.1 hfield
  next => cases h

theorem literalFree_membershipOf {place : Location} {record : Fields} {m : Membership}
    (hrecord : LiteralFree (.object record)) (h : membershipOf place record = .ok m) :
    m.literals = [] := by
  obtain ⟨column, -, h⟩ := bind_eq_ok_iff.1 h
  obtain ⟨⟨v, vs⟩, hvalues, h⟩ := bind_eq_ok_iff.1 h
  cases h
  exact Membership.literals_eq_nil (literalFree_valuesOf hrecord hvalues)

theorem literalFree_toValue (n : Numeral) : n.toValue.LiteralFree := by
  cases n <;> rfl

theorem literalFree_boundOf {key : Key} {v w : Value} (hv : v.LiteralFree)
    (h : boundOf key v = .ok w) : w.LiteralFree := by
  obtain ⟨spells, -, h⟩ := bind_eq_ok_iff.1 h
  split at h
  · cases h
    exact hv
  · split at h
    · cases h
      exact literalFree_toValue _
    · cases h

theorem literalFree_rangeOf {place : Location} {record : Fields} {r : Range}
    (hrecord : LiteralFree (.object record)) (h : rangeOf place record = .ok r) :
    r.column.LiteralFree ∧ r.low.LiteralFree ∧ r.high.LiteralFree := by
  obtain ⟨column, -, h⟩ := bind_eq_ok_iff.1 h
  obtain ⟨⟨v, vs⟩, hvalues, h⟩ := bind_eq_ok_iff.1 h
  have hfree := literalFree_valuesOf hrecord hvalues
  dsimp only at h
  split at h
  next w =>
    obtain ⟨low, hlow, h⟩ := bind_eq_ok_iff.1 h
    obtain ⟨high, hhigh, h⟩ := bind_eq_ok_iff.1 h
    cases h
    exact ⟨rfl, literalFree_boundOf (hfree v (by simp)) hlow,
      literalFree_boundOf (hfree w (by simp)) hhigh⟩
  next => cases h

theorem literalFree_withBounds {record : Fields} {r : Range}
    (hrecord : LiteralFree (.object record)) (h : r.low.LiteralFree ∧ r.high.LiteralFree) :
    LiteralFree (.object (withBounds r record)) :=
  hrecord.put (by simpa using h)

theorem literalFree_starterClause {kind : StarterKind} {record left : Fields} {clause : Clause}
    (hrecord : LiteralFree (.object record))
    (h : starterClause kind record = .ok (clause, left)) :
    clause.literals = [] ∧ LiteralFree (.object left) := by
  have hcomparison {c : Comparison} (hc : comparisonOf ⟨.starter kind, none⟩ record = .ok c) :
      (Clause.comparison c).literals = [] ∧ LiteralFree (.object (withComparator c record)) :=
    ⟨literalFree_comparisonOf hrecord hc, hrecord.put (literalFree_text _)⟩
  have hrange {r : Range} (hr : rangeOf ⟨.starter kind, none⟩ record = .ok r) :
      (Clause.range r).literals = [] ∧ LiteralFree (.object (withBounds r record)) := by
    obtain ⟨hcolumn, hbounds⟩ := literalFree_rangeOf hrecord hr
    refine ⟨?_, literalFree_withBounds hrecord hbounds⟩
    rw [Clause.literals, Range.literals, hcolumn, hbounds.1, hbounds.2]
    rfl
  cases kind with
  | where_ | whereNot =>
    obtain ⟨c, hc, h⟩ := bind_eq_ok_iff.1 h
    cases h
    exact hcomparison hc
  | whereIn | whereNotIn =>
    obtain ⟨m, hm, h⟩ := bind_eq_ok_iff.1 h
    cases h
    exact ⟨literalFree_membershipOf hrecord hm, hrecord⟩
  | whereBetween | whereNotBetween =>
    obtain ⟨r, hr, h⟩ := bind_eq_ok_iff.1 h
    cases h
    exact hrange hr
  | whereLike =>
    obtain ⟨l, hl, h⟩ := bind_eq_ok_iff.1 h
    cases h
    exact ⟨literalFree_likeOf hrecord hl, hrecord⟩

/-! ## Records -/

theorem literalFree_recordOf {place : Location} {v : Value} {record : Fields} (hv : v.LiteralFree)
    (h : recordOf place v = .ok record) : LiteralFree (.object record) := by
  unfold recordOf at h
  split at h
  · split at h
    · cases h
    · cases h
      exact hv
  · cases h

theorem literalFree_recordsFrom {key : Key} {i : Nat} {vs : List Value} {records : List Fields}
    (hvs : ∀ v ∈ vs, v.LiteralFree) (h : recordsFrom key i vs = .ok records) :
    ∀ r ∈ records, LiteralFree (.object r) := by
  induction vs generalizing i records with
  | nil =>
    cases h
    simp
  | cons v vs ih =>
    rw [recordsFrom] at h
    obtain ⟨r, hr, h⟩ := bind_eq_ok_iff.1 h
    obtain ⟨rs, hrs, h⟩ := bind_eq_ok_iff.1 h
    cases h
    rw [List.forall_mem_cons] at hvs ⊢
    exact ⟨literalFree_recordOf hvs.1 hr, ih hvs.2 hrs⟩

theorem literalFree_recordsOf {key : Key} {v : Value} {records : List Fields}
    (hv : v.LiteralFree) (h : recordsOf key v = .ok records) :
    ∀ r ∈ records, LiteralFree (.object r) := by
  unfold recordsOf at h
  split at h
  · obtain ⟨r, hr, h⟩ := bind_eq_ok_iff.1 h
    cases h
    simpa using literalFree_recordOf hv hr
  · exact literalFree_recordsFrom (literalFree_list.1 hv) h
  · cases h

theorem literalFree_comparisonsFrom (key : Key) {records : List Fields}
    (hrecords : ∀ r ∈ records, LiteralFree (.object r)) (i : Nat) :
    (∀ cs, (comparisonsFrom key i records).1 = .ok cs → ∀ c ∈ cs, c.literals = []) ∧
      ∀ r ∈ (comparisonsFrom key i records).2, LiteralFree (.object r) := by
  induction records generalizing i with
  | nil =>
    refine ⟨?_, by simp [comparisonsFrom]⟩
    intro cs h
    cases h
    simp
  | cons r rs ih =>
    rw [List.forall_mem_cons] at hrecords
    obtain ⟨houtcome, hleft⟩ := ih hrecords.2 (i + 1)
    rw [comparisonsFrom]
    split
    · refine ⟨?_, by simpa using hrecords⟩
      intro cs h
      cases h
    next c hc =>
      refine ⟨?_, ?_⟩
      · intro cs h
        obtain ⟨rest, hrest, rfl⟩ := map_eq_ok_iff.1 h
        rw [List.forall_mem_cons]
        exact ⟨literalFree_comparisonOf hrecords.1 hc, houtcome rest hrest⟩
      · rw [List.forall_mem_cons]
        exact ⟨hrecords.1.put (literalFree_text _), hleft⟩

theorem literalFree_membershipsFrom {key : Key} {i : Nat} {records : List Fields}
    {ms : List Membership} (hrecords : ∀ r ∈ records, LiteralFree (.object r))
    (h : membershipsFrom key i records = .ok ms) : ∀ m ∈ ms, m.literals = [] := by
  induction records generalizing i ms with
  | nil =>
    cases h
    simp
  | cons r rs ih =>
    rw [membershipsFrom] at h
    obtain ⟨m, hm, h⟩ := bind_eq_ok_iff.1 h
    obtain ⟨rest, hrest, h⟩ := bind_eq_ok_iff.1 h
    cases h
    rw [List.forall_mem_cons] at hrecords ⊢
    exact ⟨literalFree_membershipOf hrecords.1 hm, ih hrecords.2 hrest⟩

theorem literalFree_sameForm (v : Value) {records : List Fields}
    (h : ∀ r ∈ records, LiteralFree (.object r)) : (sameForm v records).LiteralFree := by
  unfold sameForm
  split
  · exact h _ List.mem_cons_self
  · rw [literalFree_list]
    intro x hx
    obtain ⟨r, hr, rfl⟩ := List.mem_map.1 hx
    exact h r hr

theorem literalFree_orderTermOf {place : Location} {v : Value} {t : OrderTerm}
    (h : orderTermOf place v = .ok t) : t.column.LiteralFree := by
  unfold orderTermOf at h
  split at h
  · split at h
    · cases h
    · dsimp only at h
      split at h
      · split at h
        · cases h
          rfl
        · cases h
      · cases h
  · cases h

theorem literalFree_withDirection (t : OrderTerm) {v : Value} (h : v.LiteralFree) :
    (withDirection t v).LiteralFree := by
  unfold withDirection
  split
  · exact h.put (literalFree_text _)
  · exact h

theorem literalFree_orderTermsFrom {vs : List Value} (hvs : ∀ v ∈ vs, v.LiteralFree) (i : Nat) :
    (∀ ts, (orderTermsFrom i vs).1 = .ok ts → ∀ t ∈ ts, t.column.LiteralFree) ∧
      ∀ v ∈ (orderTermsFrom i vs).2, v.LiteralFree := by
  induction vs generalizing i with
  | nil =>
    refine ⟨?_, by simp [orderTermsFrom]⟩
    intro ts h
    cases h
    simp
  | cons v vs ih =>
    rw [List.forall_mem_cons] at hvs
    obtain ⟨houtcome, hleft⟩ := ih hvs.2 (i + 1)
    rw [orderTermsFrom]
    split
    · refine ⟨?_, by simpa using hvs⟩
      intro ts h
      cases h
    next t ht =>
      refine ⟨?_, ?_⟩
      · intro ts h
        obtain ⟨rest, hrest, rfl⟩ := map_eq_ok_iff.1 h
        rw [List.forall_mem_cons]
        exact ⟨literalFree_orderTermOf ht, houtcome rest hrest⟩
      · rw [List.forall_mem_cons]
        exact ⟨literalFree_withDirection t hvs.1, hleft⟩

/-! ## Checks of keys -/

/-- Does the check keep queries free of literals, and answer only what satisfies the condition? -/
def Yields (p : α → Prop) (act : Check α) : Prop :=
  ∀ q, LiteralFree (.object q) →
    LiteralFree (.object (execute act q).2) ∧ ∀ a, (execute act q).1 = .ok a → p a

namespace Yields

variable {p : α → Prop} {r : β → Prop}

theorem pure {a : α} (h : p a) : Yields p (Pure.pure a : Check α) := by
  intro q hq
  refine ⟨hq, ?_⟩
  intro a' ha'
  cases ha'
  exact h

theorem lift {x : Except Fault α} (h : ∀ a, x = .ok a → p a) : Yields p (liftM x : Check α) :=
  fun _ hq => ⟨hq, h⟩

theorem fail (cause : ValidationFault) :
    Yields p (liftM (Validation.fail cause : Except Fault α) : Check α) :=
  lift fun _ h => nomatch h

theorem bind {act : Check α} {next : α → Check β} (h : Yields p act)
    (hnext : ∀ a, p a → Yields r (next a)) : Yields r (act >>= next) := by
  intro q hq
  have hact := h q hq
  rw [Stateful.execute_bind]
  rcases hrun : execute act q with ⟨f | a, q'⟩
  · rw [hrun] at hact
    exact ⟨hact.1, fun a ha => nomatch ha⟩
  · rw [hrun] at hact
    exact hnext a (hact.2 a rfl) q' hact.1

theorem write (key : Key) {v : Value} (h : v.LiteralFree) :
    Yields (fun _ => True) (Validation.write key v) :=
  fun _ hq => ⟨hq.put h, fun _ _ => trivial⟩

theorem query : Yields (fun q => LiteralFree (.object q)) (get : Check Fields) := by
  intro q hq
  refine ⟨hq, ?_⟩
  intro a ha
  cases ha
  exact hq

/-- The check of a key's value yields what it yields for every value without literals, and for
none. -/
theorem lookup {key : Key} {next : Option Value → Check β} (hnone : Yields r (next none))
    (hsome : ∀ v, v.LiteralFree → Yields r (next (some v))) :
    Yields r (Validation.lookup key >>= next) := by
  have hfound : Yields (fun o => ∀ v, o = some v → v.LiteralFree) (Validation.lookup key) := by
    intro q hq
    refine ⟨hq, ?_⟩
    intro o ho v hv
    subst hv
    exact hq.find (Except.ok.inj ho)
  refine hfound.bind ?_
  rintro (_ | v) hv
  · exact hnone
  · exact hsome v (hv v rfl)

end Yields

theorem yields_selection (w : Value) : w.LiteralFree →
    Yields (fun vs => ∀ v ∈ vs, v.LiteralFree) (match w with
      | .list columns =>
        if columns.any isMissing then liftM (fail (.select w) : Except Fault (List Value))
        else pure columns
      | _ => liftM (fail (.select w) : Except Fault (List Value)) : Check (List Value)) := by
  intro hw
  split
  · split
    · exact .fail _
    · exact .pure (literalFree_list.1 hw)
  · exact .fail _

theorem yields_checkSelect : Yields (fun vs => ∀ v ∈ vs, v.LiteralFree) checkSelect := by
  refine Yields.lookup (.pure (by simp)) ?_
  intro v hv
  dsimp only
  split
  next s =>
    have hlist : LiteralFree (.list [.text s]) := by simp
    refine (Yields.write .select hlist).bind fun _ _ => ?_
    exact (Yields.pure (p := LiteralFree) hlist).bind yields_selection
  next => exact (Yields.pure (p := LiteralFree) hv).bind yields_selection

theorem yields_checkStarter : Yields (fun o => ∀ s ∈ o, s.clause.literals = []) checkStarter := by
  refine Yields.query.bind fun query hquery => ?_
  split
  · exact .pure (by simp)
  next kind v hpresent =>
    have hv : v.LiteralFree := by
      have hmem : (kind, v) ∈ presentStarters query := by simp [hpresent]
      obtain ⟨k, -, hk⟩ := List.mem_filterMap.1 hmem
      obtain ⟨w, hw, heq⟩ := Option.map_eq_some_iff.1 hk
      cases heq
      exact hquery.find hw
    refine (Yields.lift (p := fun record => LiteralFree (.object record))
      fun record hrecord => literalFree_recordOf hv hrecord).bind fun record hrecord => ?_
    refine (Yields.lift (p := fun parts => parts.1.literals = [] ∧ LiteralFree (.object parts.2))
      fun parts hparts => literalFree_starterClause hrecord hparts).bind ?_
    rintro ⟨clause, left⟩ ⟨hclause, hleft⟩
    refine (Yields.write (.starter kind) hleft).bind fun _ _ => ?_
    exact .pure (by simpa using hclause)
  · exact .fail _

theorem yields_checkComparisons (key : Key) :
    Yields (fun cs => ∀ c ∈ cs, c.literals = []) (checkComparisons key) := by
  refine Yields.lookup (.pure (by simp)) ?_
  intro v hv
  refine (Yields.lift (p := fun records => ∀ r ∈ records, LiteralFree (.object r))
    fun records hrecords => literalFree_recordsOf hv hrecords).bind fun records hrecords => ?_
  obtain ⟨houtcome, hleft⟩ := literalFree_comparisonsFrom key hrecords 0
  refine (Yields.write key (literalFree_sameForm v hleft)).bind fun _ _ => ?_
  exact .lift houtcome

theorem yields_checkMemberships (key : Key) :
    Yields (fun ms => ∀ m ∈ ms, m.literals = []) (checkMemberships key) := by
  refine Yields.lookup (.pure (by simp)) ?_
  intro v hv
  refine (Yields.lift (p := fun records => ∀ r ∈ records, LiteralFree (.object r))
    fun records hrecords => literalFree_recordsOf hv hrecords).bind fun records hrecords => ?_
  exact .lift fun ms hms => literalFree_membershipsFrom hrecords hms

theorem yields_checkLimit : Yields (fun _ => True) checkLimit := by
  refine Yields.lookup (.pure trivial) ?_
  intro v _
  refine (Yields.lift (p := fun _ => True) fun _ _ => trivial).bind fun n _ => ?_
  exact (Yields.write .limit (literalFree_int n)).bind fun _ _ => .pure trivial

theorem yields_order (w : Value) : w.LiteralFree →
    Yields (fun ts => ∀ t ∈ ts, t.column.LiteralFree) (match w with
      | .list entries => do
        write .order (.list (orderTermsFrom 0 entries).2)
        (orderTermsFrom 0 entries).1
      | _ => liftM (fail (.orderKind w) : Except Fault (List OrderTerm)) :
        Check (List OrderTerm)) := by
  intro hw
  split
  · obtain ⟨houtcome, hleft⟩ := literalFree_orderTermsFrom (literalFree_list.1 hw) 0
    refine (Yields.write .order (literalFree_list.2 hleft)).bind fun _ _ => ?_
    exact .lift houtcome
  · exact .fail _

theorem yields_checkOrder : Yields (fun ts => ∀ t ∈ ts, t.column.LiteralFree) checkOrder := by
  refine Yields.lookup (.pure (by simp)) ?_
  intro v hv
  dsimp only
  split
  next entry =>
    have hlist : LiteralFree (.list [.object entry]) := by simpa using hv
    refine (Yields.write .order hlist).bind fun _ _ => ?_
    exact (Yields.pure (p := LiteralFree) hlist).bind yields_order
  next => exact (Yields.pure (p := LiteralFree) hv).bind yields_order

theorem yields_checkRows : Yields Query.LiteralFree checkRows := by
  refine yields_checkSelect.bind fun select hselect => ?_
  refine yields_checkStarter.bind fun starter hstarter => ?_
  refine (yields_checkComparisons .andWhere).bind fun andWhere handWhere => ?_
  refine (yields_checkComparisons .orWhere).bind fun orWhere horWhere => ?_
  refine (yields_checkMemberships .orWhereIn).bind fun orWhereIn horWhereIn => ?_
  refine yields_checkLimit.bind fun limit _ => ?_
  refine yields_checkOrder.bind fun order horder => ?_
  exact .pure ⟨hselect, hstarter, handWhere, horWhere, horWhereIn, horder⟩

theorem yields_check : Yields Query.LiteralFree check := by
  refine Yields.query.bind fun query _ => ?_
  split
  · exact .fail _
  · refine Yields.query.bind fun query _ => ?_
    refine (Yields.lift (p := fun _ => True) fun _ _ => trivial).bind fun request _ => ?_
    split
    · exact .pure ⟨by simp, by simp, by simp, by simp, by simp, by simp⟩
    · exact yields_checkRows

end Validation

/-- What the check makes of a query without date literals holds none. -/
theorem literalFree_validate {query : Fields} {q : Query} (hquery : LiteralFree (.object query))
    (h : (validate (.object query)).1 = .ok (.ok q)) : q.LiteralFree :=
  (Validation.yields_check query hquery).2 q (capture_eq_ok_iff.1 h)

end RowAccess
