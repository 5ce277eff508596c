import RowAccess.Proofs.Condition.Grouping
import RowAccess.Proofs.Sql.Lookup
import RowAccess.Proofs.Sql.Mention
import RowAccess.Proofs.Sql.Query

/-
  RowAccess/Proofs/Sql/FilteredScan.lean
  ======================================
  **What a chain of steps reads from a table.**  A chain in the form that a builder gives has each kind
  of step but the extensions once, so that its columns, its limit and its order are the ones that are
  named there (`last_of_isForm`).  Where every value travels beside the statement the condition is
  read as it is meant, and a row passes it where the row fits the steps as they are grouped
  (`passes_eq_fits`).  What is shown is the page of these rows (`run_chain`).
-/

namespace RowAccess

open Outcome Sql

namespace Step

/-- The columns that a step selects. -/
def columns? : Step → Option (List Value)
  | .select columns => some columns
  | _ => none

/-- The number of rows that a step asks for. -/
def count? : Step → Option Value
  | .limit v => some v
  | _ => none

/-- The terms that a step orders by. -/
def terms? : Step → Option (List OrderTerm)
  | .order terms => some terms
  | _ => none

end Step

/-! ## Clauses whose values are carried -/

/-- Does every value of the clause travel beside the statement by itself?  No value is a raw literal,
and no list of values begins with a list. -/
def Clause.IsCarried : Clause → Prop
  | .comparison c => Predicate.isVerbatim c.value = false
  | .like _ => True
  | .membership m =>
    (∀ v ∈ m.values, Predicate.isVerbatim v = false) ∧ Piece.isRows m.values = false
  | .range r => Predicate.isVerbatim r.low = false ∧ Predicate.isVerbatim r.high = false

def Step.IsCarried : Step → Prop
  | .starter s => s.clause.IsCarried
  | .andWhere c | .orWhere c | .orWhereIn c => c.IsCarried
  | _ => True

section Carried

variable {c : Clause} {p : Predicate}

theorem isDirect_ofValue {v : Value} (hv : Predicate.isVerbatim v = false) :
    Choices.isDirect (.apart [.ofValue v]) = true := by
  rw [ofValue_eq_bound hv]
  rfl

theorem bindable_of_isVerbatim {v : Value} (hv : Predicate.isVerbatim v = false) :
    Predicate.isVerbatim (Predicate.bindable v) = false ∧
      ∀ us vs, Piece.isRows (Predicate.bindable v :: us) = Piece.isRows (v :: vs) := by
  cases v with
  | dateLiteral l =>
    have hraw : l.raw = false := hv
    simp only [Predicate.bindable, hraw, Bool.false_eq_true, if_false]
    exact ⟨rfl, fun us vs => rfl⟩
  | _ => exact ⟨rfl, fun us vs => rfl⟩

/-- A clause whose values are carried has no part that is read as a text. -/
theorem Clause.IsCarried.isDirect (hc : c.IsCarried) (h : Predicate.ofClause c = .ok p) :
    p.isDirect = true := by
  cases c with
  | comparison c =>
    change Predicate.ofComparison c = .ok p at h
    unfold Predicate.ofComparison at h
    split at h
    · cases h
      rfl
    · cases h
      rfl
    · cases h
    · cases h
    · obtain ⟨⟨⟩, -, h⟩ := bind_eq_ok_iff.1 h
      cases h
      exact isDirect_ofValue hc
  | like l =>
    change Predicate.ofLike l = .ok p at h
    unfold Predicate.ofLike at h
    split at h
    · cases h
    · cases h
    · obtain ⟨⟨⟩, -, h⟩ := bind_eq_ok_iff.1 h
      cases h
      rfl
  | membership m =>
    obtain ⟨hvalues, hrows⟩ := hc
    have hverbatim : (m.values.map Predicate.bindable).any Predicate.isVerbatim = false := by
      rw [List.any_map, List.any_eq_false]
      intro v hv
      rw [Function.comp_apply, (bindable_of_isVerbatim (hvalues v hv)).1]
      exact Bool.false_ne_true
    have hlist : Piece.isRows (m.values.map Predicate.bindable) = false := by
      have hfirst := (bindable_of_isVerbatim (hvalues _ List.mem_cons_self)).2
      exact (hfirst _ m.rest).trans hrows
    change Predicate.ofMembership m = .ok p at h
    unfold Predicate.ofMembership at h
    simp only [hverbatim, Bool.false_eq_true, if_false] at h
    obtain ⟨⟨⟩, -, h⟩ := bind_eq_ok_iff.1 h
    cases h
    show (!Piece.isRows _) = true
    rw [hlist]
    rfl
  | range r =>
    obtain ⟨⟨⟩, -, h⟩ := bind_eq_ok_iff.1 h
    cases h
    show Choices.isDirect (.apart [.ofValue r.low, .ofValue r.high]) = true
    rw [ofValue_eq_bound hc.1, ofValue_eq_bound hc.2]
    rfl

end Carried

namespace Sql

/-! ## Conditions that are read as they are meant -/

theorem Predicate.isDirect_negate (p : Predicate) : p.negate.isDirect = p.isDirect := by
  cases p <;> rfl

namespace Condition

/-- Does an optional condition consist of predicates without a part that is read as a text? -/
def IsDirect (condition : Option Condition) : Prop :=
  ∀ p ∈ (condition.map predicates).getD [], p.isDirect = true

theorem isDirect_none : IsDirect none :=
  fun _ hp => absurd hp List.not_mem_nil

theorem isDirect_afterStep {before after : Option Condition} {s : Step} (hbefore : IsDirect before)
    (hs : s.IsCarried) (h : afterStep before s = .ok after) : IsDirect after := by
  have hatom {p : Predicate} (hp : p.isDirect = true) : IsDirect (some (.atom p)) := by
    intro q hq
    rwa [List.mem_singleton.1 hq]
  have hjoin {combine : Condition → Condition → Condition} {p : Predicate}
      (hcombine : ∀ c d, (combine c d).predicates = c.predicates ++ d.predicates)
      (hp : p.isDirect = true) : IsDirect (some (join combine before p)) := by
    cases before with
    | none => exact hatom hp
    | some c =>
      intro q hq
      have hmem : q ∈ (combine c (.atom p)).predicates := hq
      rw [hcombine] at hmem
      rcases List.mem_append.1 hmem with hq | hq
      · exact hbefore q hq
      · exact hatom hp q hq
  cases s with
  | starter s =>
    obtain ⟨p, hp, h⟩ := bind_eq_ok_iff.1 h
    cases h
    refine hatom ?_
    split
    · rw [Predicate.isDirect_negate]
      exact hs.isDirect hp
    · exact hs.isDirect hp
  | andWhere c =>
    obtain ⟨p, hp, h⟩ := bind_eq_ok_iff.1 h
    cases h
    exact hjoin (fun _ _ => rfl) (hs.isDirect hp)
  | orWhere c | orWhereIn c =>
    obtain ⟨p, hp, h⟩ := bind_eq_ok_iff.1 h
    cases h
    exact hjoin (fun _ _ => rfl) (hs.isDirect hp)
  | _ =>
    cases h
    exact hbefore

theorem isDirect_foldlM {steps : List Step} {before after : Option Condition}
    (hbefore : IsDirect before) (hsteps : ∀ s ∈ steps, s.IsCarried)
    (h : steps.foldlM afterStep before = .ok after) : IsDirect after := by
  induction steps generalizing before with
  | nil =>
    cases h
    exact hbefore
  | cons s steps ih =>
    rw [List.foldlM_cons] at h
    obtain ⟨next, hnext, h⟩ := bind_eq_ok_iff.1 h
    obtain ⟨hs, hsteps⟩ := List.forall_mem_cons.1 hsteps
    exact ih (isDirect_afterStep hbefore hs hnext) hsteps h

end Condition

/-! ## Chains -/

section Chain

variable {steps : List Step} {backendSchema : Option String} {table : Value}

/-- In the form of a chain every kind of step but the extensions comes once. -/
theorem last_of_isForm (h : Chain.IsForm steps) :
    stepColumns steps = steps.findSome? Step.columns? ∧
      stepLimit steps = (steps.findSome? Step.count?).getD .null ∧
      stepOrder steps = (steps.findSome? Step.terms?).getD [] := by
  obtain ⟨select, starter, andWhere, orWhere, orWhereIn, limit, order, rfl⟩ := h
  have hnone {β : Type} (cs : List Clause) : cs.findSome? (fun _ => (none : Option β)) = none :=
    List.findSome?_eq_none_iff.2 fun _ _ => rfl
  cases select <;> cases starter <;> cases limit <;> cases order <;>
    simp [Chain.form, stepColumns, stepLimit, stepOrder, List.foldl_append, List.foldl_map,
      List.findSome?_append, List.findSome?_map, List.findSome?_cons, Function.comp_def, hnone,
      Step.columns?, Step.count?, Step.terms?]

/-- Does a row fit the steps of a chain?  Every row does where no step gives a test. -/
def Item.fits (steps : List Step) (i : Item) : Bool :=
  (steps.all fun s => !s.isFilter) || ((Assignment.ofItem i).grouped steps).isYes

theorem passes_eq_fits {condition : Option Condition} (hform : Chain.IsForm steps)
    (h : Condition.ofSteps steps = .ok condition) (i : Item) :
    passes (condition.map Condition.expr) i = i.fits steps := by
  have htruth := (Condition.truth?_foldlM (Assignment.ofItem i) h).trans
    ((Assignment.ofItem i).foldl_afterStep hform)
  have hempty := (Assignment.ofItem i).grouping_isEmpty_iff steps
  cases condition with
  | none =>
    have hnothing : ∀ s ∈ steps, s.isFilter = false := by
      refine hempty.1 ?_
      by_contra hsome
      rw [if_neg hsome] at htruth
      cases htruth
    have hall : (steps.all fun s => !s.isFilter) = true := by
      simpa using hnothing
    rw [Item.fits, hall, Bool.true_or]
    rfl
  | some c =>
    split at htruth
    · cases htruth
    · next hsome =>
      have hall : (steps.all fun s => !s.isFilter) = false := by
        rw [Bool.eq_false_iff]
        exact fun hall => hsome (hempty.2 (by simpa using hall))
      have hgrouped : c.truth i = (Assignment.ofItem i).grouped steps := Option.some.inj htruth
      rw [Item.fits, hall, Bool.false_or, ← hgrouped, ← Condition.truth_expr]
      rfl

/-- Is the value the page of a table that a chain of steps asks for? -/
def IsPageOf (steps : List Step) (table : List Item) (v : Value) : Prop :=
  ∃ count rows, countOfValue ((steps.findSome? Step.count?).getD .null) = .ok count ∧
    IsPage (rowOrder Cell.order ((steps.findSome? Step.terms?).getD [])) count
      (table.filter (Item.fits steps)) rows ∧
    v = .list (rows.map fun i => .object (i.shown (steps.findSome? Step.columns?)))

/-- The selection of a chain whose values are carried is read as it is meant, unless it selects
nothing. -/
theorem selectionOf_eq_ok {s : Selection} (hform : Chain.IsForm steps)
    (h : selectionOf backendSchema table steps = .ok s) :
    Condition.ofSteps steps = .ok s.condition ∧
      countOfValue ((steps.findSome? Step.count?).getD .null) = .ok s.limit ∧
      s.order = ((steps.findSome? Step.terms?).getD []).map (fun t =>
        ⟨Predicate.nameOf t.column, t.direction⟩) ∧
      s.columns = ((steps.findSome? Step.columns?).map columnNames).getD .all := by
  obtain ⟨hcolumns, hlimit, horder⟩ := last_of_isForm hform
  obtain ⟨condition, hcondition, h⟩ := bind_eq_ok_iff.1 h
  obtain ⟨limit, hcount, h⟩ := bind_eq_ok_iff.1 h
  obtain ⟨⟨⟩, -, h⟩ := bind_eq_ok_iff.1 h
  cases h
  refine ⟨hcondition, ?_, ?_, ?_⟩
  · rw [← hlimit]
    unfold limitOf at hcount
    split at hcount
    · next n hn =>
      cases hcount
      exact hn
    · cases hcount
  · rw [← horder]
  · rw [← hcolumns]

/-- **A chain shows the page that it asks for.**  The rows that fit the steps are sorted by the terms
before the limit cuts them, whatever the order of the steps, and the table stays as it is. -/
theorem run_chain {d d' : Database} {v : Value} (hform : Chain.IsForm steps)
    (hcarried : ∀ s ∈ steps, s.IsCarried)
    (hmarkers : AreMarkersOwn backendSchema (.filteredScan table steps))
    (hstored : ∀ i ∈ d.items.rows, i.IsStored)
    (h : d.run backendSchema (.filteredScan table steps) = (.ok v, d')) :
    d'.items = d.items ∧ IsPageOf steps d.items.rows v := by
  obtain ⟨s, sent, answer, hbuilt, hprepared, hrun, hanswer⟩ := Database.run_eq_ok h
  have hplain := hmarkers s hbuilt
  obtain ⟨selection, hselection, hs⟩ := bind_eq_ok_iff.1 (Statement.ofOperation_of_built hbuilt)
  cases hs
  obtain ⟨hcondition, hcount, horder, hcolumns⟩ := selectionOf_eq_ok hform hselection
  obtain ⟨htext, -⟩ := (Draft.prepared_eq_ok_iff hplain).1 hprepared
  obtain ⟨text, values⟩ := sent
  obtain rfl : text = _ := htext
  have hnull := toNat_ne_zero_of_runStatement hrun
  have hrun := runStatement_eq_ok rfl hrun
  have hdirect := Condition.isDirect_foldlM Condition.isDirect_none hcarried hcondition
  by_cases hnothing : selection.columns = .named []
  · have hform : (Statement.select selection).isDirect = false := by
      rw [Statement.isDirect, Statement.hasForm, hnothing]
      rfl
    rw [hform, if_neg Bool.false_ne_true] at hrun
    exact absurd hrun (runText_select_nothing hnothing)
  · have hcommand : (Command.select (Statement.query selection)).run values d.items =
        .ok (d'.items, answer) := by
      split at hrun
      · exact hrun
      · next hindirect =>
        refine absurd ?_ hindirect
        rw [Statement.isDirect, Statement.hasForm, List.all_eq_true.2 hdirect, hplain,
          isReadable_names hnothing (List.all_eq_true.2 hdirect) hnull hrun,
          bne_iff_ne.2 hnothing]
        rfl
    obtain ⟨hitems, rfl⟩ := run_query hcommand
    refine ⟨hitems, selection.limit, (Statement.query selection).rows selection.limit 0 d.items,
      hcount, ?_, ?_⟩
    · have hfits : Item.fits steps = passes (selection.condition.map Condition.expr) :=
        funext fun i => (passes_eq_fits hform hcondition i).symm
      rw [hfits]
      exact isPage_rows horder hstored
    · rw [rowsValue_eq_ok hanswer, List.map_map]
      exact congrArg Value.list (List.map_congr_left fun i _ =>
        congrArg Value.object (shown_eq hcolumns i))

end Chain

/-! ### The best rows -/

/-- Rows with a score, one of them without. -/
def scoredItems : Items :=
  ⟨[⟨1, .text "Ana", .int 7, .null, .null, .null⟩, ⟨2, .text "Ivo", .null, .null, .null, .null⟩,
    ⟨3, .text "Eva", .int 9, .null, .null, .null⟩, ⟨4, .text "Ada", .int 9, .null, .null, .null⟩],
    by simp [Ascending]⟩

/-- The two best rows but one, by their scores and then by their names. -/
def bestChain : List Step :=
  [.select [.text "NAME", .text "NUMBER"],
    .starter ⟨.whereNot, .comparison ⟨.text "NAME", .eq, .text "Ana"⟩⟩, .limit (.int 2),
    .order [⟨.text "NUMBER", .descending⟩, ⟨.text "NAME", .ascending⟩]]

/-- The selection of `bestChain`. -/
def bestSelection : Selection :=
  ⟨.named ["NAME", "NUMBER"], ⟨none, "ITEMS"⟩,
    some (.atom (.compare "NAME" .ne (.bound .plain (.text "Ana")))),
    [⟨"NUMBER", .descending⟩, ⟨"NAME", .ascending⟩], some 2⟩

theorem built_bestChain : Statement.built none (.filteredScan (.text "ITEMS") bestChain) =
    .ok (.select bestSelection) := rfl

theorem isDirect_bestSelection : (Statement.select bestSelection).isDirect = true := by
  decide +kernel

theorem run_chain_bestChain :
    ∃ v d', Database.run none (.filteredScan (.text "ITEMS") bestChain) ⟨scoredItems, []⟩ =
        (.ok v, d') ∧
      d'.items = scoredItems ∧ IsPageOf bestChain scoredItems.rows v := by
  have hform : Chain.IsForm bestChain := ⟨some _, some _, [], [], [], some _, some _, rfl⟩
  have hcarried : ∀ s ∈ bestChain, s.IsCarried := by
    simp [bestChain, Step.IsCarried, Clause.IsCarried, Predicate.isVerbatim]
  have hplain := (Bool.and_eq_true_iff.1 isDirect_bestSelection).2
  have hmarkers : AreMarkersOwn none (.filteredScan (.text "ITEMS") bestChain) := by
    intro s hs
    cases built_bestChain.symm.trans hs
    exact hplain
  have hstored : ∀ i ∈ scoredItems.rows, i.IsStored := by
    simp only [scoredItems, List.mem_cons, List.not_mem_nil, or_false]
    rintro i (rfl | rfl | rfl | rfl) column t <;> cases column <;> rintro ⟨⟩
  obtain ⟨rows, hanswer⟩ : ∃ rows : List (List Cell),
      (Database.run none (.filteredScan (.text "ITEMS") bestChain) ⟨scoredItems, []⟩).1 =
        rowsValue (.filteredScan (.text "ITEMS") bestChain) ["NAME", "NUMBER"] rows := by
    rw [Database.run_of_isPlain built_bestChain rfl hplain rfl,
      runStatement_of_isDirect rfl isDirect_bestSelection (by decide +kernel)]
    exact ⟨_, rfl⟩
  rw [rowsValue_of_distinct _ (by decide)] at hanswer
  have hrun := Prod.mk.eta.symm.trans (congrArg (fun v => (v,
    (Database.run none (.filteredScan (.text "ITEMS") bestChain) ⟨scoredItems, []⟩).2)) hanswer)
  exact ⟨_, _, hrun, run_chain hform hcarried hmarkers hstored hrun⟩

/-! ### Chains without a page -/

/-- A table of one row. -/
def oneItem : Items :=
  ⟨[⟨1, .text "Ana", .int 7, .null, .null, .null⟩], List.pairwise_singleton _ _⟩

/-- The rows that a chain shows of a table, where it shows any. -/
def answered (steps : List Step) (t : Items) : Option (List Value) :=
  match (Database.run none (.filteredScan (.text "ITEMS") steps) ⟨t, []⟩).1 with
  | .ok (.list rows) => some rows
  | _ => none

/-- A raw literal that opens a comment, which takes in the order. -/
def commentChain : List Step :=
  [.starter ⟨.where_, .comparison ⟨.text "ID", .gt, .dateLiteral ⟨"0 -- ", true⟩⟩⟩,
    .order [⟨.text "ID", .descending⟩]]

/-- The selection of `commentChain`. -/
def commentSelection : Selection :=
  ⟨.all, ⟨none, "ITEMS"⟩, some (.atom (.compare "ID" .gt (.verbatim "0 -- "))),
    [⟨"ID", .descending⟩], none⟩

/-- The selection that a reader finds in the text of `commentChain`. -/
def commentQuery : Query :=
  ⟨none, [⟨none, "ITEMS"⟩], some (.compare .gt (.name ⟨"ID", true⟩) (.literal (.int 0))), [], none,
    [], none, none⟩

/-- A list in a list, which is taken apart. -/
def nestedChain : List Step :=
  [.starter ⟨.whereIn, .membership ⟨.text "NAME", .list [.text "Ana"], []⟩⟩]

/-- Two columns whose slots have one name in the template. -/
def collidingChain : List Step :=
  [.starter ⟨.where_, .comparison ⟨.text "A_B", .eq, .text "A_B"⟩⟩,
    .andWhere (.comparison ⟨.text "A.B", .eq, .text "A.B"⟩)]

def unlimitedChain : List Step := [.limit (.int (-1))]

theorem answered_commentChain : answered commentChain scoredItems =
    some (scoredItems.rows.map fun i => .object i.fields) := by
  have hanswer :
      (Database.run none (.filteredScan (.text "ITEMS") commentChain) ⟨scoredItems, []⟩).1 =
        rowsValue (.filteredScan (.text "ITEMS") commentChain) columnTitles
          ((commentQuery.rows none 0 scoredItems).map Item.cells) :=
    Database.run_of_isPlain (s := .select commentSelection) rfl rfl (by decide +kernel) rfl
  have hmet : commentQuery.met scoredItems = scoredItems.rows := by decide +kernel
  have hrows : commentQuery.rows none 0 scoredItems = scoredItems.rows := by
    show sortRows [] (commentQuery.met scoredItems) = scoredItems.rows
    rw [sortRows_nil, hmet]
  rw [answered, hanswer, hrows, rowsValue_columns]

/-- A raw literal can take the order with it, a list in a list and slots that have one name change the
test, and a limit below zero cuts nothing. -/
theorem chains_without_page :
    (answered commentChain scoredItems = some (scoredItems.rows.map fun i => .object i.fields) ∧
      ¬ scoredItems.rows.Pairwise fun i j =>
        rowOrder Cell.order [⟨.text "ID", .descending⟩] i j ≠ .gt) ∧
      ((answered nestedChain oneItem).map List.length = some 1 ∧
        oneItem.rows.filter (Item.fits nestedChain) = []) ∧
      ((answered collidingChain oneItem).map List.length = some 0 ∧
        oneItem.rows.filter (Item.fits collidingChain) = oneItem.rows) ∧
      (answered unlimitedChain oneItem).map List.length = some 1 ∧
        (1 : Int) ≠ min (-1) ((oneItem.rows.filter (Item.fits unlimitedChain)).length : Int) := by
  refine ⟨⟨answered_commentChain, ?_⟩, ?_, ?_, ?_⟩
  · decide +kernel
  · decide +kernel
  · decide +kernel
  · decide +kernel

end Sql

end RowAccess
