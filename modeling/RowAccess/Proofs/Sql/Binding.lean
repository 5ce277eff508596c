import RowAccess.Proofs.Sql.Database
import RowAccess.Proofs.Sql.Shape

/-
  RowAccess/Proofs/Sql/Binding.lean
  =================================
  **Values travel beside the statement and never in it.**  Operations that differ in texts, numbers and
  bytes only are sent as one text, whatever they name and whatever is sent beside it.  Where every
  marker is read as the slot that put it down and no list changes its values, what is sent beside the
  text are the operation's own values, in the order of their placeholders (`text_of_sameShape`).
-/

namespace RowAccess

open Sql

/-! ## Own values -/

/-- What a value leaves beside a statement that tests a column: a raw date literal stands in the
statement, any other one is its text, points in time are texts as well and truth values numbers. -/
def Value.tested : Value → List Value
  | .dateLiteral l => if l.raw then [] else [.text l.text]
  | .bool b => [.int (Value.ofBool b)]
  | .timestamp t => [.text t.fullText]
  | .date d => [.text d.text]
  | v => [v]

/-- What a value leaves beside a statement that stores it. -/
def Value.kept : Value → List Value
  | .dateLiteral l => if l.raw then [] else [.text l.text]
  | v => [v]

/-- The own values of a clause.  Null and truth values that a column is compared with stand in the
statement. -/
def Clause.tested : Clause → List Value
  | .comparison c =>
    match c.value with
    | .null | .bool _ => []
    | v => v.tested
  | .like l =>
    match l.pattern with
    | .dateLiteral d => [.dateLiteral d]
    | v => v.tested
  | .membership m => m.values.flatMap Value.tested
  | .range r => r.low.tested ++ r.high.tested

/-- The own values of a chain after one more step; a starter drops all that stands before. -/
def Step.valuesAfter (before : List Value) : Step → List Value
  | .starter s => s.clause.tested
  | .andWhere c | .orWhere c | .orWhereIn c => before ++ c.tested
  | _ => before

/-- The number of rows that is asked for, and how many are left out before them. -/
def limitValues (limit : Value) : List Value :=
  match countOfValue limit with
  | .ok (some n) => [.int n, .int 0]
  | _ => []

/-- The own values of a record.  An entry without a name has no placeholder. -/
def recordValues (record : Fields) : List Value :=
  (record.filter fun e => !e.1.isEmpty).flatMap fun e => e.2.kept

/-- The own values of an operation, in the order in which its statement names the columns. -/
def Operation.ownValues : Operation → List Value
  | .filteredScan _ steps => steps.foldl Step.valuesAfter [] ++ limitValues (stepLimit steps)
  | .insert _ record _ => recordValues record
  | .update _ c record => recordValues record ++ c.tested
  | .delete _ c => c.tested
  | _ => []

/-- Is every value of a list sent as it would be by itself?  The values of a list are prepared for the
kind of the first one, unless one of them stands in the statement. -/
def Clause.IsUniform : Clause → Prop
  | .membership m => m.values.any Predicate.isVerbatim = false →
    Piece.isRows m.values = false ∧ ∀ v ∈ m.values,
      (Preparation.of (Predicate.bindable m.first)).apply (Predicate.bindable v) =
        (Preparation.of (Predicate.bindable v)).apply (Predicate.bindable v)
  | _ => True

def Step.IsUniform : Step → Prop
  | .starter s => s.clause.IsUniform
  | .andWhere c | .orWhere c | .orWhereIn c => c.IsUniform
  | _ => True

def Operation.IsUniform : Operation → Prop
  | .filteredScan _ steps => ∀ step ∈ steps, step.IsUniform
  | .update _ c _ | .delete _ c => c.IsUniform
  | _ => True

/-- A list of scalars is sent as its values are where it begins with a text or an integer, or all of
them are of one kind. -/
theorem Clause.isUniform_of_scalars {m : Membership} (hscalar : ∀ v ∈ m.values, v.isScalar = true)
    (h : Preparation.of m.first = .plain ∨
      ∀ v ∈ m.values, Preparation.of v = Preparation.of m.first) :
    (Clause.membership m).IsUniform := by
  have hbindable {v : Value} (hv : v.isScalar = true) : Predicate.bindable v = v := by
    cases v <;> first | rfl | cases hv
  have hown {v : Value} (hv : v.isScalar = true) : (Preparation.of v).apply v = .ok v := by
    cases v <;> first | rfl | cases hv
  have hfirst := hscalar m.first List.mem_cons_self
  intro _
  constructor
  · show Piece.isRows (m.first :: m.rest) = false
    cases hm : m.first <;> first | rfl | (rw [hm] at hfirst; cases hfirst)
  · intro v hv
    rw [hbindable hfirst, hbindable (hscalar v hv)]
    rcases h with h | h
    · rw [h, hown (hscalar v hv)]
      rfl
    · rw [h v hv]

end RowAccess

namespace RowAccess.Sql

open Outcome

/-! ## Values of drafts -/

/-- Is it the label of the slot of a test, and not of an entry? -/
def Label.IsNumbered : Label → Prop
  | .numbered _ => True
  | .entry _ => False

theorem Label.isNumbered_ofColumn (column : String) : (Label.ofColumn column).IsNumbered := trivial

namespace Draft

theorem values_words (s : String) : values [.words s] = .ok [] := rfl

/-- Words around pieces have no values. -/
theorem values_framed (s t : String) (d : Draft) :
    values (.words s :: (d ++ [.words t])) = d.values := by
  unfold values
  rw [List.mapM_cons, List.mapM_append]
  cases d.mapM Piece.values with
  | error u => rfl
  | ok pairs =>
    show ([] :: (pairs ++ [[]])).flatten.mapM _ = pairs.flatten.mapM _
    rw [List.flatten_cons, List.nil_append, List.flatten_concat, List.append_nil]

theorem values_singleton {p : Piece} {pairs : List (Preparation × Value)}
    (h : p.values = .ok pairs) : values [p] = pairs.mapM fun x => x.1.apply x.2 := by
  unfold values
  rw [List.mapM_cons, h]
  show ([pairs].flatten.mapM fun x => x.1.apply x.2 : Except Unprepared (List Value)) = _
  rw [List.flatten_singleton]

theorem values_append {d e : Draft} {vs ws : List Value} (hd : d.values = .ok vs)
    (he : e.values = .ok ws) : values (d ++ e) = .ok (vs ++ ws) := by
  obtain ⟨pairs, hpairs, hvs⟩ := bind_eq_ok_iff.1 hd
  obtain ⟨pairs', hpairs', hws⟩ := bind_eq_ok_iff.1 he
  unfold values
  rw [List.mapM_append, hpairs, hpairs']
  show ((pairs ++ pairs').flatten.mapM _) = _
  rw [List.flatten_append, List.mapM_append, hvs, hws]
  rfl

end Draft

theorem Operand.values_ofValue {l : Label} (hl : l.IsNumbered) (v : Value) :
    Draft.values [(Operand.ofValue v).piece l] = .ok v.tested := by
  cases l with
  | entry c => cases hl
  | numbered stem =>
    cases v with
    | dateLiteral d =>
      by_cases hraw : d.raw = true
      · simp only [ofValue, Value.tested, hraw, if_true]
        rfl
      · simp only [ofValue, Value.tested, hraw]
        rfl
    | _ => rfl

namespace Predicate

/-! ## Values of predicates -/

theorem tested_bindable (v : Value) : (bindable v).tested = v.tested := by
  cases v with
  | dateLiteral d =>
    by_cases hraw : d.raw = true
    · simp only [bindable, hraw, if_true]
    · simp only [bindable, Value.tested, hraw]
      rfl
  | _ => rfl

theorem isVerbatim_bindable (v : Value) : isVerbatim (bindable v) = isVerbatim v := by
  cases v with
  | dateLiteral d =>
    by_cases hraw : d.raw = true
    · simp only [bindable, hraw, if_true]
    · simp only [bindable, isVerbatim, hraw]
      rfl
  | _ => rfl

/-- A value that does not stand in the statement is prepared for its own kind. -/
theorem exists_tested {v : Value} (hv : isVerbatim v = false) :
    ∃ w, (Preparation.of (bindable v)).apply (bindable v) = .ok w ∧ v.tested = [w] := by
  cases v with
  | bool b =>
    refine ⟨.int (Value.ofBool b), ?_, rfl⟩
    cases b <;> rfl
  | dateLiteral d =>
    have hraw : d.raw = false := hv
    refine ⟨.text d.text, ?_, ?_⟩
    · simp only [bindable, hraw]
      rfl
    · simp only [Value.tested, hraw]
      rfl
  | _ => exact ⟨_, rfl, rfl⟩

theorem values_listPieces {l : Label} (hl : l.IsNumbered) (vs : List Value) :
    Draft.values (listPieces l (vs.map .ofValue)) = .ok (vs.flatMap Value.tested) := by
  induction vs with
  | nil => rfl
  | cons v vs ih =>
    cases vs with
    | nil =>
      rw [List.flatMap_cons, List.flatMap_nil, List.append_nil]
      exact Operand.values_ofValue hl v
    | cons v' vs =>
      have hrest := Draft.values_append (Draft.values_words ", ") ih
      exact Draft.values_append (Operand.values_ofValue hl v) hrest

theorem values_spread {l : Label} {m : Membership}
    (hflat : Piece.isRows m.values = false) (hverbatim : m.values.any isVerbatim = false)
    (huniform : ∀ v ∈ m.values, (Preparation.of (bindable m.first)).apply (bindable v) =
      (Preparation.of (bindable v)).apply (bindable v)) :
    Draft.values [.spread l (.of (bindable m.first)) (m.values.map bindable)] =
      .ok (m.values.flatMap Value.tested) := by
  have hrows : Piece.isRows (m.values.map bindable) = false :=
    (isRows_bindable m.first m.rest).trans hflat
  have hlist : Piece.listValues (m.values.map bindable) = .ok (m.values.map bindable) := by
    unfold Piece.listValues
    rw [hrows]
    rfl
  have hpiece : Piece.values (.spread l (.of (bindable m.first)) (m.values.map bindable)) =
      .ok (m.values.map fun v => (Preparation.of (bindable m.first), bindable v)) := by
    rw [Piece.values, hlist]
    simp only [Except.map, List.map_map]
    rfl
  rw [Draft.values_singleton hpiece]
  generalize m.first = first at huniform ⊢
  generalize m.values = vs at hverbatim huniform ⊢
  clear hflat hrows hlist hpiece
  induction vs with
  | nil => rfl
  | cons v vs ih =>
    rw [List.any_cons, Bool.or_eq_false_iff] at hverbatim
    obtain ⟨w, hw, htested⟩ := exists_tested hverbatim.1
    have hfirst := (huniform v List.mem_cons_self).trans hw
    have hrest := ih hverbatim.2 fun v' hv' => huniform v' (List.mem_cons_of_mem _ hv')
    rw [List.map_cons, List.mapM_cons, hrest]
    dsimp only
    rw [hfirst, List.flatMap_cons, htested]
    rfl

theorem values_ofMembership {m : Membership} {p : Predicate} (h : ofMembership m = .ok p)
    (huniform : (Clause.membership m).IsUniform) :
    Draft.values p.pieces = .ok (m.values.flatMap Value.tested) := by
  have hany : (m.values.map bindable).any isVerbatim = m.values.any isVerbatim := by
    rw [List.any_map]
    simp only [Function.comp_def, isVerbatim_bindable]
  unfold ofMembership at h
  simp only [hany] at h
  cases hverbatim : m.values.any isVerbatim with
  | false =>
    simp only [hverbatim, Bool.false_eq_true, if_false] at h
    obtain ⟨⟨⟩, -, h⟩ := bind_eq_ok_iff.1 h
    cases h
    obtain ⟨hflat, huniform⟩ := huniform hverbatim
    exact (Draft.values_framed _ _ _).trans (values_spread hflat hverbatim huniform)
  | true =>
    simp only [hverbatim, if_true] at h
    split at h
    · cases h
    · obtain ⟨⟨⟩, -, h⟩ := bind_eq_ok_iff.1 h
      cases h
      have hvalues := values_listPieces (Label.isNumbered_ofColumn (nameOf m.column))
        (m.values.map bindable)
      rw [List.flatMap_map] at hvalues
      simp only [tested_bindable] at hvalues
      exact (Draft.values_framed _ _ _).trans hvalues

theorem values_ofComparison {c : Comparison} {p : Predicate} (h : ofComparison c = .ok p) :
    Draft.values p.pieces = .ok (Clause.comparison c).tested := by
  obtain ⟨column, comparator, v⟩ := c
  have hlabel := Label.isNumbered_ofColumn (nameOf column)
  cases v with
  | null =>
    cases comparator with
    | eq =>
      cases h
      rfl
    | _ => cases h
  | bool b =>
    cases comparator with
    | eq =>
      cases h
      cases b <;> rfl
    | _ => cases h
  | _ =>
    cases comparator <;>
    · obtain ⟨⟨⟩, -, h⟩ := bind_eq_ok_iff.1 h
      cases h
      exact Draft.values_append (Draft.values_words _) (Operand.values_ofValue hlabel _)

theorem values_ofLike {l : Like} {p : Predicate} (h : ofLike l = .ok p) :
    Draft.values p.pieces = .ok (Clause.like l).tested := by
  obtain ⟨column, v⟩ := l
  cases v with
  | null => cases h
  | bool b => cases h
  | dateLiteral d =>
    obtain ⟨⟨⟩, -, h⟩ := bind_eq_ok_iff.1 h
    cases h
    rfl
  | _ =>
    obtain ⟨⟨⟩, -, h⟩ := bind_eq_ok_iff.1 h
    cases h
    rfl

theorem values_ofRange {r : Range} {p : Predicate} (h : ofRange r = .ok p) :
    Draft.values p.pieces = .ok (Clause.range r).tested := by
  have hlabel := Label.isNumbered_ofColumn (nameOf r.column)
  obtain ⟨⟨⟩, -, h⟩ := bind_eq_ok_iff.1 h
  cases h
  have hbound (s : String) (v : Value) := Draft.values_append (Draft.values_words s)
    (Operand.values_ofValue hlabel v)
  exact Draft.values_append (hbound _ r.low) (hbound _ r.high)

/-- The values of a clause are its own, in order. -/
theorem values_ofClause {c : Clause} {p : Predicate} (h : ofClause c = .ok p)
    (huniform : c.IsUniform) : Draft.values p.pieces = .ok c.tested := by
  cases c with
  | comparison c => exact values_ofComparison h
  | like l => exact values_ofLike h
  | membership m => exact values_ofMembership h huniform
  | range r => exact values_ofRange h

theorem values_negate (p : Predicate) : Draft.values p.negate.pieces = Draft.values p.pieces := by
  cases p with
  | oneOf n c choices =>
    exact (Draft.values_framed _ _ _).trans (Draft.values_framed _ _ _).symm
  | _ => rfl

end Predicate

/-! ## Values of conditions -/

namespace Condition

/-- The pieces of a condition inside a conjunction. -/
def innerPieces (c : Condition) : Draft :=
  if c.isEither then .words "(" :: (c.pieces ++ [.words ")"]) else c.pieces

theorem pieces_both (c d : Condition) :
    (both c d).pieces = c.innerPieces ++ .words " AND " :: d.innerPieces := by
  unfold pieces innerPieces words
  cases c.isEither <;> cases d.isEither <;> simp [pieces, Word.pieces]

theorem pieces_either (c d : Condition) :
    (either c d).pieces = c.pieces ++ .words " OR " :: d.pieces := by
  simp [pieces, words, Word.pieces]

theorem values_innerPieces (c : Condition) : Draft.values c.innerPieces = Draft.values c.pieces := by
  unfold innerPieces
  split
  · exact Draft.values_framed _ _ _
  · rfl

variable {c d : Condition} {vs ws : List Value}

theorem values_both (hc : Draft.values c.pieces = .ok vs) (hd : Draft.values d.pieces = .ok ws) :
    Draft.values (both c d).pieces = .ok (vs ++ ws) := by
  rw [← values_innerPieces] at hc hd
  rw [pieces_both]
  exact Draft.values_append hc (Draft.values_append (Draft.values_words " AND ") hd)

theorem values_either (hc : Draft.values c.pieces = .ok vs) (hd : Draft.values d.pieces = .ok ws) :
    Draft.values (either c d).pieces = .ok (vs ++ ws) := by
  rw [pieces_either]
  exact Draft.values_append hc (Draft.values_append (Draft.values_words " OR ") hd)

theorem pieces_atom (p : Predicate) : (atom p).pieces = p.pieces :=
  List.append_nil p.pieces

/-- Has the condition so far, if there is one, these values? -/
def HasValues (c : Option Condition) (vs : List Value) : Prop :=
  match c with
  | none => vs = []
  | some c => Draft.values c.pieces = .ok vs

theorem hasValues_join {combine : Condition → Condition → Condition}
    (hcombine : ∀ {c d : Condition} {vs ws : List Value}, Draft.values c.pieces = .ok vs →
      Draft.values d.pieces = .ok ws → Draft.values (combine c d).pieces = .ok (vs ++ ws))
    {before : Option Condition} {p : Predicate} (hbefore : HasValues before vs)
    (hp : Draft.values p.pieces = .ok ws) : HasValues (some (join combine before p)) (vs ++ ws) := by
  have hatom : Draft.values (atom p).pieces = .ok ws := by rw [pieces_atom, hp]
  cases before with
  | none =>
    obtain rfl : vs = [] := hbefore
    exact hatom
  | some c => exact hcombine hbefore hatom

theorem hasValues_afterStep {before after : Option Condition} {step : Step}
    (hbefore : HasValues before vs) (huniform : step.IsUniform)
    (h : afterStep before step = .ok after) :
    HasValues after (step.valuesAfter vs) := by
  cases step with
  | starter s =>
    obtain ⟨p, hp, h⟩ := bind_eq_ok_iff.1 h
    cases h
    show Draft.values (atom _).pieces = _
    rw [pieces_atom]
    split
    · rw [Predicate.values_negate]
      exact Predicate.values_ofClause hp huniform
    · exact Predicate.values_ofClause hp huniform
  | andWhere c =>
    obtain ⟨p, hp, h⟩ := bind_eq_ok_iff.1 h
    cases h
    exact hasValues_join values_both hbefore (Predicate.values_ofClause hp huniform)
  | orWhere c | orWhereIn c =>
    obtain ⟨p, hp, h⟩ := bind_eq_ok_iff.1 h
    cases h
    exact hasValues_join values_either hbefore (Predicate.values_ofClause hp huniform)
  | _ =>
    cases h
    exact hbefore

/-- The values of the condition of a chain are those of its clauses, in order. -/
theorem hasValues_ofSteps {steps : List Step} {condition : Option Condition}
    (huniform : ∀ step ∈ steps, step.IsUniform) (h : ofSteps steps = .ok condition) :
    HasValues condition (steps.foldl Step.valuesAfter []) := by
  have hrun : ∀ (before after : Option Condition) (vs : List Value), HasValues before vs →
      steps.foldlM afterStep before = .ok after →
        HasValues after (steps.foldl Step.valuesAfter vs) := by
    clear h
    induction steps with
    | nil =>
      intro before after vs hbefore h
      cases h
      exact hbefore
    | cons step steps ih =>
      intro before after vs hbefore h
      rw [List.foldlM_cons] at h
      obtain ⟨next, hnext, h⟩ := bind_eq_ok_iff.1 h
      obtain ⟨hstep, hsteps⟩ := List.forall_mem_cons.1 huniform
      exact ih hsteps next after _ (hasValues_afterStep hbefore hstep hnext) h
  exact hrun none condition [] rfl h

end Condition

/-! ## Values of statements -/

theorem recordValues_cons (e : String × Value) (record : Fields) :
    recordValues (e :: record) = recordValues [e] ++ recordValues record := by
  unfold recordValues
  rw [List.filter_cons]
  split <;> simp [*]

theorem values_entry (c : String) (v : Value) :
    Draft.values [(Operand.stored v).piece (.entry c)] = .ok (recordValues [(c, v)]) := by
  have hbound (w : Value) : Draft.values [.single (.entry c) .plain w] =
      .ok (if c.isEmpty then [] else [w]) := by
    by_cases hc : c = ""
    · subst hc
      rfl
    · have hpiece : Piece.values (.single (.entry c) .plain w) = .ok [(.plain, w)] := by
        unfold Piece.values
        simp [hc]
      rw [Draft.values_singleton hpiece]
      simp [hc]
      rfl
  have hvalues : recordValues [(c, v)] = if c.isEmpty then [] else v.kept := by
    unfold recordValues
    rw [List.filter_cons]
    split <;> simp_all
  rw [hvalues]
  cases v with
  | dateLiteral d =>
    by_cases hraw : d.raw = true
    · simp only [Operand.stored, Value.kept, hraw, if_true, ite_self]
      rfl
    · simp only [Operand.stored, Value.kept, hraw]
      exact hbound _
  | _ => exact hbound _

/-- The values of the entries of a record are its own, in order. -/
theorem values_entryPieces (before : String → String) (record : Fields) :
    Draft.values (entryPieces before (entriesOf record)) = .ok (recordValues record) := by
  induction record with
  | nil => rfl
  | cons e record ih =>
    have hentry := Draft.values_append (Draft.values_words (before e.1)) (values_entry e.1 e.2)
    rw [recordValues_cons]
    cases record with
    | nil => exact (List.append_nil _).symm ▸ hentry
    | cons e' record =>
      exact Draft.values_append hentry (Draft.values_append (Draft.values_words ", ") ih)

/-- The pieces of a selection behind its table: its test, and its limit. -/
def Selection.conditionPieces : Option Condition → Draft
  | none => []
  | some c => .words " \nWHERE " :: c.pieces

def Selection.limitPieces : Option Int → Draft
  | none => []
  | some n =>
    [.words "\n LIMIT ", .single .ofLimit .plain (.int n), .words " OFFSET ",
      .single .ofLimit .plain (.int 0)]

theorem Selection.values_draft {s : Selection} {vs : List Value}
    (h : Condition.HasValues s.condition vs) :
    Draft.values s.draft = .ok (vs ++ (s.limit.map fun n => [.int n, .int 0]).getD []) := by
  have hfront : Draft.values (.words ("SELECT " ++ s.columns.text ++ " \nFROM " ++ s.table.text) ::
      conditionPieces s.condition) = .ok vs := by
    cases hcondition : s.condition with
    | none =>
      rw [hcondition] at h
      cases h
      rfl
    | some c =>
      rw [hcondition] at h
      exact Draft.values_append (d := [.words _, .words _]) rfl h
  have horder : Draft.values (if s.order.isEmpty then []
      else [.words (" ORDER BY " ++ ", ".intercalate (s.order.map SortColumn.text))]) =
        .ok [] := by
    split <;> rfl
  have hlimit : Draft.values (limitPieces s.limit) =
      .ok ((s.limit.map fun n => [.int n, .int 0]).getD []) := by
    cases s.limit <;> rfl
  have hvalues := Draft.values_append (Draft.values_append hfront horder) hlimit
  rwa [List.append_nil] at hvalues

theorem limitValues_of_limitOf {v : Value} {limit : Option Int} (h : limitOf v = .ok limit) :
    limitValues v = (limit.map fun n => [.int n, .int 0]).getD [] := by
  unfold limitOf at h
  unfold limitValues
  split at h
  · next n hn =>
    cases h
    rw [hn]
    cases limit <;> rfl
  · cases h

theorem Statement.values_insert (table : TableName) (record : Fields) (returning : Option String) :
    (insert table (entriesOf record) returning).draft.values = .ok (recordValues record) := by
  have hreturning : Draft.values (endPieces returning) = .ok [] := by
    cases returning <;> rfl
  have hentries (front behind : String) : Draft.values (if (entriesOf record).isEmpty
      then [.words front]
      else .words behind :: entryPieces (fun _ => "") (entriesOf record) ++ [.words ")"]) =
        .ok (recordValues record) := by
    split
    · next hempty =>
      cases record with
      | nil => rfl
      | cons e record => cases hempty
    · exact (Draft.values_framed _ _ _).trans (values_entryPieces _ record)
  refine (Draft.values_append (hentries _ _) hreturning).trans ?_
  rw [List.append_nil]

/-- Where every list is sent as its values are, the values of the statement of an operation are the
operation's own, in order. -/
theorem Statement.values_of_built {schema : Option String} {o o' : Operation} {s : Statement}
    (hshape : o.SameShape o') (huniform : o.IsUniform) (h : built schema o = .ok s) :
    s.draft.values = .ok o.ownValues := by
  have hs := ofOperation_of_built h
  cases hshape with
  | @filteredScan table steps steps' =>
    obtain ⟨selection, hselection, hs⟩ := bind_eq_ok_iff.1 hs
    cases hs
    obtain ⟨condition, hcondition, hselection⟩ := bind_eq_ok_iff.1 hselection
    obtain ⟨limit, hlimit, hselection⟩ := bind_eq_ok_iff.1 hselection
    obtain ⟨⟨⟩, -, hselection⟩ := bind_eq_ok_iff.1 hselection
    cases hselection
    have hvalues := Condition.hasValues_ofSteps huniform hcondition
    refine (Selection.values_draft hvalues).trans ?_
    rw [← limitValues_of_limitOf hlimit]
    rfl
  | @insert table idColumn record record' =>
    obtain ⟨⟨⟩, -, hs⟩ := bind_eq_ok_iff.1 hs
    obtain ⟨⟨⟩, -, hs⟩ := bind_eq_ok_iff.1 hs
    cases hs
    exact values_insert _ record _
  | @update table c c' record record' =>
    obtain ⟨p, hp, hs⟩ := bind_eq_ok_iff.1 hs
    obtain ⟨⟨⟩, -, hs⟩ := bind_eq_ok_iff.1 hs
    obtain ⟨⟨⟩, -, hs⟩ := bind_eq_ok_iff.1 hs
    cases hs
    have hentries := Draft.values_append
      (values_entryPieces (fun c => Identifier.text c ++ "=") record)
      (Draft.values_append (Draft.values_words " WHERE ") (Predicate.values_ofClause hp huniform))
    have hvalues := Draft.values_append
      (Draft.values_words ("UPDATE " ++ (tableName schema table).text ++ " SET ")) hentries
    exact hvalues
  | @delete table c c' =>
    obtain ⟨p, hp, hs⟩ := bind_eq_ok_iff.1 hs
    obtain ⟨⟨⟩, -, hs⟩ := bind_eq_ok_iff.1 hs
    cases hs
    exact Draft.values_append (Draft.values_words _)
      (Draft.values_append (Draft.values_words " WHERE ") (Predicate.values_ofClause hp huniform))

/-! ## Statements that are sent -/

/-- Does a run of the operation send this statement, and nothing else? -/
def Database.Emits (d : Database) (schema : Option String) (o : Operation) (p : Prepared) : Prop :=
  (d.run schema o).2.sent = d.sent ++ [p]

theorem Database.emits_iff {d : Database} {schema : Option String} {o : Operation} {p : Prepared} :
    d.Emits schema o p ↔ ∃ s, Statement.built schema o = .ok s ∧ s.prepared = .ok p := by
  unfold Emits run
  split
  · next u hbuilt => simp [hbuilt]
  · next s hbuilt =>
    split
    · next u hprepared => simp [hbuilt, hprepared]
    · next q hprepared =>
      dsimp only
      split <;> simp [hbuilt, hprepared]

/-- Is every marker in the statement of the operation read as the slot that put it down?  Nothing else
in the statement is read as a marker, and no two slots have one name there. -/
def AreMarkersOwn (schema : Option String) (o : Operation) : Prop :=
  ∀ s, Statement.built schema o = .ok s → s.draft.isPlain = true

/-- A statement that is drafted is sent as its draft. -/
theorem Statement.prepared_of_sameShape {schema : Option String} {o o' : Operation} {s : Statement}
    (h : o.SameShape o') (hs : built schema o = .ok s) : s.prepared = s.draft.prepared := by
  have hs := ofOperation_of_built hs
  cases h with
  | filteredScan =>
    obtain ⟨selection, -, hs⟩ := bind_eq_ok_iff.1 hs
    cases hs
    rfl
  | insert =>
    obtain ⟨⟨⟩, -, hs⟩ := bind_eq_ok_iff.1 hs
    obtain ⟨⟨⟩, -, hs⟩ := bind_eq_ok_iff.1 hs
    cases hs
    rfl
  | update =>
    obtain ⟨p, -, hs⟩ := bind_eq_ok_iff.1 hs
    obtain ⟨⟨⟩, -, hs⟩ := bind_eq_ok_iff.1 hs
    obtain ⟨⟨⟩, -, hs⟩ := bind_eq_ok_iff.1 hs
    cases hs
    rfl
  | delete =>
    obtain ⟨p, -, hs⟩ := bind_eq_ok_iff.1 hs
    obtain ⟨⟨⟩, -, hs⟩ := bind_eq_ok_iff.1 hs
    cases hs
    rfl

section SameShape

variable {schema : Option String} {o o' : Operation} (h : o.SameShape o')

include h

/-- An operation whose markers are its own is sent with its own values, if every list is sent as its
values are. -/
theorem emits_ownValues {s : Statement} (hs : Statement.built schema o = .ok s)
    (hplain : s.draft.isPlain = true) (huniform : o.IsUniform) (d : Database) :
    d.Emits schema o ⟨s.draft.text, o.ownValues⟩ := by
  refine Database.emits_iff.2 ⟨s, hs, ?_⟩
  rw [Statement.prepared_of_sameShape h hs]
  exact (Draft.prepared_eq_ok_iff hplain).2 ⟨rfl, Statement.values_of_built h huniform hs⟩

/-- What two operations of one shape are sent as is one text, whatever they name. -/
theorem text_eq_of_emits {d d' : Database} {p p' : Prepared} (hp : d.Emits schema o p)
    (hp' : d'.Emits schema o' p') : p.text = p'.text := by
  obtain ⟨s, hs, hp⟩ := Database.emits_iff.1 hp
  obtain ⟨s', hs', hp'⟩ := Database.emits_iff.1 hp'
  rw [Statement.prepared_of_sameShape h hs] at hp
  rw [Statement.prepared_of_sameShape h.symm hs'] at hp'
  have hform := Statement.form_built schema h
  rw [hs, hs'] at hform
  exact Draft.text_of_prepared_form (Except.ok.inj hform) hp hp'

end SameShape

/-- **Values never influence the text of a statement.**  Operations of one shape that are sent are
sent as one text.  Where every marker is read as the slot that put it down and no list changes its
values, both are refused for one reason, or both are sent, each beside its own values in the order of
the placeholders. -/
theorem text_of_sameShape (schema : Option String) {o o' : Operation} (h : o.SameShape o')
    (d d' : Database) :
    (∀ p p', d.Emits schema o p → d'.Emits schema o' p' → p.text = p'.text) ∧
      (AreMarkersOwn schema o → o.IsUniform → o'.IsUniform →
        (∃ u : Unbuildable, d.run schema o = (.error (u.fault o), d) ∧
          d'.run schema o' = (.error (u.fault o'), d')) ∨
        ∃ text, d.Emits schema o ⟨text, o.ownValues⟩ ∧
          d'.Emits schema o' ⟨text, o'.ownValues⟩) := by
  constructor
  · intro p p' hp hp'
    exact text_eq_of_emits h hp hp'
  · intro hnames huniform huniform'
    have hform := Statement.form_built schema h
    cases hs : Statement.built schema o with
    | error u =>
      rw [hs] at hform
      have hs' : Statement.built schema o' = .error u := by
        cases hs' : Statement.built schema o' with
        | error u' =>
          rw [hs'] at hform
          cases hform
          rfl
        | ok s' =>
          rw [hs'] at hform
          cases hform
      left
      exact ⟨u, by rw [Database.run, hs], by rw [Database.run, hs']⟩
    | ok s =>
      rw [hs] at hform
      cases hs' : Statement.built schema o' with
      | error u' =>
        rw [hs'] at hform
        cases hform
      | ok s' =>
        rw [hs'] at hform
        have hform : s.draft.form = s'.draft.form := Except.ok.inj hform
        have hplain := hnames s hs
        have hplain' : s'.draft.isPlain = true := by
          rw [← Draft.isPlain_form, ← hform, Draft.isPlain_form, hplain]
        have hemits := emits_ownValues h hs hplain huniform d
        have hemits' := emits_ownValues h.symm hs' hplain' huniform' d'
        right
        refine ⟨s.draft.text, hemits, ?_⟩
        have htext : s.draft.text = s'.draft.text := text_eq_of_emits h hemits hemits'
        rwa [htext]

/-- A read of a page of rows whose column is in a list and another one is greater than a value. -/
def page (first second low : Value) (limit : Int) : Operation :=
  .filteredScan (.text "ITEMS")
    [.starter ⟨.whereIn, .membership ⟨.text "NAME", first, [second]⟩⟩,
      .andWhere (.comparison ⟨.text "NUMBER", .gt, low⟩), .limit (.int limit)]

theorem isUniform_page {first second low : Value} {limit : Int}
    (h : (Clause.membership ⟨.text "NAME", first, [second]⟩).IsUniform) :
    (page first second low limit).IsUniform := by
  refine List.forall_mem_cons.2 ⟨h, ?_⟩
  intro step hstep
  rcases List.mem_cons.1 hstep with rfl | hstep
  · trivial
  · obtain rfl := List.mem_singleton.1 hstep
    trivial

theorem text_of_sameShape_page :
    ∃ text, Database.Emits ⟨.empty, []⟩ none (page (.text "Ana") (.text "Ivo") (.int 6) 10)
        ⟨text, [.text "Ana", .text "Ivo", .int 6, .int 10, .int 0]⟩ ∧
      Database.Emits ⟨.empty, []⟩ none (page (.text "' OR 1=1") (.int 2) (.text "?") 1)
        ⟨text, [.text "' OR 1=1", .int 2, .text "?", .int 1, .int 0]⟩ := by
  have hlist : Clause.SameShape (.membership ⟨.text "NAME", .text "Ana", [.text "Ivo"]⟩)
      (.membership ⟨.text "NAME", .text "' OR 1=1", [.int 2]⟩) :=
    .membership _ (.scalars rfl rfl) (.cons (.scalars rfl rfl) .nil) rfl
  have hshape : (page (.text "Ana") (.text "Ivo") (.int 6) 10).SameShape
      (page (.text "' OR 1=1") (.int 2) (.text "?") 1) := by
    refine .filteredScan _ (.cons (.starter _ hlist) (.cons (.andWhere ?_) (.cons ?_ .nil)))
    · exact .comparison _ _ (.scalars rfl rfl)
    · exact .limit rfl rfl
  have hplain : ((Statement.built none (page (.text "Ana") (.text "Ivo") (.int 6) 10)).toOption.all
      fun s => s.draft.isPlain) = true := by decide +kernel
  have hnames : AreMarkersOwn none (page (.text "Ana") (.text "Ivo") (.int 6) 10) := by
    intro s hs
    rw [hs] at hplain
    exact hplain
  have huniform : (page (.text "Ana") (.text "Ivo") (.int 6) 10).IsUniform :=
    isUniform_page (Clause.isUniform_of_scalars (by decide) (.inl rfl))
  have huniform' : (page (.text "' OR 1=1") (.int 2) (.text "?") 1).IsUniform :=
    isUniform_page (Clause.isUniform_of_scalars (by decide) (.inl rfl))
  have hsent : (Database.run none (page (.text "Ana") (.text "Ivo") (.int 6) 10)
      ⟨.empty, []⟩).1.isOk = true := by decide +kernel
  rcases (text_of_sameShape none hshape ⟨.empty, []⟩ ⟨.empty, []⟩).2 hnames huniform huniform' with
    ⟨u, hrefused, -⟩ | hemits
  · rw [hrefused] at hsent
    cases hsent
  · exact hemits

/-- A look-up in a list that begins with a number in binary and goes on with another value. -/
def mixedScan (second : Value) : Operation :=
  .filteredScan (.text "ITEMS") [.starter ⟨.whereIn, .membership
    ⟨.text "NUMBER", .float (.finite false 3 (-1)), [second]⟩⟩]

/-- A read that shows a column whose name is the marker of the slot of its test. -/
def markedScan (id : Value) : Operation :=
  .filteredScan (.text "ITEMS") [.select [.text "%(ID_1)s"],
    .starter ⟨.where_, .comparison ⟨.text "ID", .eq, id⟩⟩]

/-- Tests of two columns whose slots have one name in the template. -/
def collidingScan (first second : Value) : Operation :=
  .filteredScan (.text "ITEMS") [.starter ⟨.where_, .comparison ⟨.text "A_B", .eq, first⟩⟩,
    .andWhere (.comparison ⟨.text "A.B", .eq, second⟩)]

/-- An operation whose statement is not sent, or is sent beside values that fail a test, is not sent
beside values that pass it. -/
theorem not_emits_of_test (o : Operation) {values : List Value} (test : List Value → Bool)
    (hvalues : test values = true)
    (h : ((Statement.built none o).toOption.any fun s =>
      !s.prepared.toOption.any fun p => test p.values) = true) (d : Database) :
    (∀ u, Statement.built none o ≠ .error u) ∧ ∀ text, ¬ d.Emits none o ⟨text, values⟩ := by
  constructor
  · intro u hu
    rw [hu] at h
    cases h
  · intro text hemits
    obtain ⟨s, hs, hp⟩ := Database.emits_iff.1 hemits
    rw [hs] at h
    change (!s.prepared.toOption.any _) = true at h
    rw [hp] at h
    change (!test values) = true at h
    rw [hvalues] at h
    cases h

/-- A list that begins with a number in binary is not sent with a text that is no number.  Where a name
is the marker of a slot the value of the slot is sent once more, and where two slots have one name in
the template the value of one is sent for the other, too. -/
theorem ownValues_mixedScan_markedScan :
    (¬ ∀ (d : Database) (o o' : Operation), o.SameShape o' → AreMarkersOwn none o →
      (∃ u, Statement.built none o = .error u ∧ Statement.built none o' = .error u) ∨
        ∃ text, d.Emits none o ⟨text, o.ownValues⟩ ∧ d.Emits none o' ⟨text, o'.ownValues⟩) ∧
    ∀ o ∈ [markedScan (.int 1), collidingScan (.int 1) (.int 2)],
      o.SameShape o ∧ o.IsUniform ∧ ∀ d : Database,
        (∀ u, Statement.built none o ≠ .error u) ∧ ∀ text, ¬ d.Emits none o ⟨text, o.ownValues⟩ := by
  constructor
  · intro h
    have hshape : (mixedScan (.text "x")).SameShape (mixedScan (.int 2)) := by
      refine .filteredScan _ (.cons (.starter _ ?_) .nil)
      exact .membership _ (.same _) (.cons (.scalars rfl rfl) .nil) rfl
    have hplain : ((Statement.built none (mixedScan (.text "x"))).toOption.all
        fun s => s.draft.isPlain) = true := by decide +kernel
    have hmarkers : AreMarkersOwn none (mixedScan (.text "x")) := by
      intro s hs
      rw [hs] at hplain
      exact hplain
    obtain ⟨hbuilt, hunsent⟩ := not_emits_of_test (mixedScan (.text "x")) (fun _ => true)
      (rfl : _ = true) (by decide +kernel) ⟨.empty, []⟩
    rcases h ⟨.empty, []⟩ _ _ hshape hmarkers with ⟨u, hu, -⟩ | ⟨text, hemits, -⟩
    · exact hbuilt u hu
    · exact hunsent text hemits
  · refine List.forall_mem_cons.2 ⟨⟨?_, ?_, ?_⟩, List.forall_mem_singleton.2 ⟨?_, ?_, ?_⟩⟩
    · exact .filteredScan _ (.cons (.same _) (.cons (.same _) .nil))
    · exact List.forall_mem_cons.2 ⟨trivial, List.forall_mem_singleton.2 trivial⟩
    · exact not_emits_of_test _ (fun vs => vs.length == 1) rfl (by decide +kernel)
    · exact .filteredScan _ (.cons (.same _) (.cons (.same _) .nil))
    · exact List.forall_mem_cons.2 ⟨trivial, List.forall_mem_singleton.2 trivial⟩
    · exact not_emits_of_test _ (fun vs => vs.head? == some (.int 1)) rfl (by decide +kernel)

end RowAccess.Sql
