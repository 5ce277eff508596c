import RowAccess.Proofs.Facade.Checked
import RowAccess.Proofs.Operation.Neutral
import RowAccess.Proofs.Query.Bracket.RoundTrip
import RowAccess.Proofs.Query.Parts

/-
  RowAccess/Proofs/Facade/Shortcut.lean
  =====================================
  **Reading an item is reading a list.**  The query for the rows whose column holds a value is
  checked and compiled to the steps that the read of an item makes itself, so both calls run the same
  operations and end alike; and the query may come as a query string.  Two things tell the calls
  apart: a fault of the backend that is of no kind, and an id value that is too long to write, which
  only the description of the first call holds (`Facade.getItem_getList`).
-/

namespace RowAccess

open Acceptance Keyed Outcome

/-! ## The query for an item -/

namespace Facade

variable {σ : Type} {column : String} {v : Value} {columns : List Value}

/-- The query for the rows whose column holds a value. -/
def itemQuery (column : String) (v : Value) (columns : List Value) : Fields :=
  (if columns.isEmpty then [] else [("SELECT", .list columns)]) ++
    [("WHERE", .object [("COLUMN", .text column), ("VALUE", v)])]

/-- What may be asked for as an item: a column by its name, a single value that is present, and
columns to select by their names. -/
structure IsItem (column : String) (v : Value) (columns : List Value) : Prop where
  column : Text.isBlankText column = false
  present : IsPresent v
  single : IsSingle v
  columns : ∀ w ∈ columns, IsName w

/-- The steps of the read of an item. -/
def itemSteps (p : Comparison) (columns : List Value) : List Step :=
  (if columns.isEmpty then [] else [.select columns]) ++ [.starter ⟨.where_, .comparison p⟩]

namespace IsItem

open Validation

variable (h : IsItem column v columns)

include h

theorem starterOf_record :
    (starterOf .where_ (.object [("COLUMN", .text column), ("VALUE", v)])).1 =
      .ok (some ⟨.where_, .comparison ⟨.text column, .eq, v⟩⟩) := by
  have hflat : IsFlat [("COLUMN", .text column), ("VALUE", v)] := by
    intro f hf
    cases f with
    | column => exact isSingle_text column
    | comparator => simp [field, find?, ClauseField.name, IsSingle]
    | value => exact h.single
    | values => simp at hf
  have hcomparison : comparisonOf ⟨.starter .where_, none⟩
      [("COLUMN", .text column), ("VALUE", v)] = .ok ⟨.text column, .eq, v⟩ :=
    comparisonOf_eq_ok_iff.2 ⟨⟨rfl, column, rfl, h.column⟩, ⟨rfl, h.present⟩, rfl⟩
  rw [starterOf, recordOf_object _ hflat]
  simp only [starterClause, hcomparison]
  rfl

theorem partOf_select :
    partOf [] selectionOf (find? (itemQuery column v columns) Key.select.name) = .ok columns := by
  unfold itemQuery
  by_cases hempty : columns.isEmpty = true
  · rw [if_pos hempty, List.isEmpty_iff.1 hempty]
    rfl
  · have hgiven : columns.any isMissing = false := by
      refine any_isMissing_eq_false_iff.2 fun w hw => ?_
      obtain ⟨s, rfl, hs⟩ := h.columns w hw
      refine ⟨nofun, ?_⟩
      intro t ht
      cases ht
      exact hs
    rw [if_neg hempty]
    show (if columns.any isMissing then fail (.select (.list columns)) else .ok columns) = _
    rw [hgiven]
    rfl

/-- The query for an item is checked as the comparison of its column. -/
theorem queryOf_itemQuery :
    queryOf (itemQuery column v columns) =
      .ok { select := columns, starter := some ⟨.where_, .comparison ⟨.text column, .eq, v⟩⟩ } := by
  have hnames : unknownName? (itemQuery column v columns) = none := by
    have hknown : (["WHERE"].find? fun k => !Key.isName k) = none ∧
        (["SELECT", "WHERE"].find? fun k => !Key.isName k) = none := by decide
    unfold itemQuery
    split
    · exact hknown.1
    · exact hknown.2
  have haggregates : presentAggregates (itemQuery column v columns) = [] := by
    unfold itemQuery
    split <;> rfl
  have hstarters : presentStarters (itemQuery column v columns) =
      [(.where_, .object [("COLUMN", .text column), ("VALUE", v)])] := by
    unfold itemQuery
    split <;> rfl
  have hother : ∀ key ∈ [Key.andWhere, .orWhere, .orWhereIn, .limit, .order],
      find? (itemQuery column v columns) key.name = none := by
    intro key hkey
    rw [(exact_of_lawful key.name).find?_eq_none_iff]
    intro hmem
    have hnamed : key.name ∈ ["SELECT", "WHERE"] := by
      unfold itemQuery at hmem
      split at hmem
      · exact List.mem_cons_of_mem _ hmem
      · exact hmem
    simp only [List.mem_cons, List.not_mem_nil, or_false] at hkey
    rcases hkey with rfl | rfl | rfl | rfl | rfl <;> revert hnamed <;> decide
  rw [queryOf, hnames]
  dsimp only
  rw [haggregates]
  show rowsOf _ = _
  rw [rowsOf, h.partOf_select, hstarters, startOf, h.starterOf_record]
  rw [hother .andWhere (by simp), hother .orWhere (by simp), hother .orWhereIn (by simp),
    hother .limit (by simp), hother .order (by simp)]
  rfl

end IsItem

/-- What the read of an item makes of its schema is what the query for it is compiled to. -/
theorem IsItem.planOfRecord_itemQuery (h : IsItem column v columns) (table : Value)
    (schema : TableSchema) (c : Config) :
    planOfRecord table (some schema) c (itemQuery column v columns) =
      match idPredicate c schema (.text column) v with
      | .ok p => .ok (.ok (.scan table (itemSteps p columns)))
      | .error f => capture (.error f) := by
  have hstorage : Comparison.forStorage (some schema) c ⟨.text column, .eq, v⟩ =
      idPredicate c schema (.text column) v := rfl
  rw [Validation.planOfRecord_of_ok h.queryOf_itemQuery]
  cases hpredicate : idPredicate c schema (.text column) v with
  | ok p =>
    refine Query.plan_of_steps rfl ?_
    simp only [Query.steps, Option.mapM_some, Clause.forStorage, hstorage, hpredicate]
    cases hempty : columns.isEmpty
    · simp only [itemSteps, hempty]
      rfl
    · simp only [itemSteps, hempty]
      rfl
  | error f =>
    refine Query.plan_of_fault rfl ?_
    simp only [Query.steps, Option.mapM_some, Clause.forStorage, hstorage, hpredicate]
    rfl

/-! ## The two calls -/

/-- A fault of the backend as a failure; any other is raised. -/
def captureBackend {α : Type} : Except Fault α → Except Fault (Reply α)
  | .ok a => .ok (.ok a)
  | .error f =>
    match f.failure? with
    | some ⟨.backend, detail⟩ => .ok (.error ⟨.backend, detail⟩)
    | _ => .error f.raised

theorem execute_runCapturing (act : Action σ Value) (s : Site σ) :
    (runCapturing act).execute s = (captureBackend (act.execute s).1, (act.execute s).2) := by
  unfold runCapturing captureBackend
  rw [Action.execute_bind, Action.execute_outcome]
  dsimp only
  rcases act.execute s with ⟨f | a, s'⟩
  · rcases hfailure : f.failure? with _ | ⟨kind, detail⟩
    · simp only [hfailure]
      rfl
    · simp only [hfailure]
      cases kind <;> rfl
  · rfl

theorem execute_unwrapped_ok {α : Type} (attempt : String) (a : α) (s : Site σ) :
    (Action.unwrapped attempt (.ok a) : Action σ α).execute s = (.ok a, s) := rfl

/-- The rows of a reply on their way out. -/
def replyOut (c : Config) (schema : TableSchema) : Reply Value → Except Fault (Reply Value)
  | .ok rows => (rowsOut c schema rows).map .ok
  | .error failure => .ok (.error failure)

/-- Rows may be converted before the reply is unwrapped, or after. -/
theorem unwrap_replyOut (x : Except Fault (Reply Value)) (c : Config) (schema : TableSchema)
    (attempt : String) :
    (x >>= replyOut c schema >>= unwrap attempt) = x >>= unwrap attempt >>= rowsOut c schema := by
  rcases x with f | failure | rows
  · rfl
  · rfl
  · show ((rowsOut c schema rows).map Except.ok >>= unwrap attempt) = rowsOut c schema rows
    cases rowsOut c schema rows <;> rfl

section Calls

variable (cache : Cache σ) (table : Value) (s : Site σ)

/-- The reply to a call that reads the rows of an item, where `captured` tells how it takes the fault
of its backend. -/
def itemReply (captured : Except Fault Value → Except Fault (Reply Value)) (column : String)
    (v : Value) (columns : List Value) : Except Fault (Reply Value) × Site σ :=
  match (cache.schema table false).execute s with
  | (.error f, s₁) => (capture (.error f), s₁)
  | (.ok schema, s₁) =>
    match idPredicate cache.config schema (.text column) v with
    | .error f => (capture (.error f), s₁)
    | .ok p =>
      let (answer, s₂) := (cache.backend (.filteredScan table (itemSteps p columns))).execute s₁
      (captured answer >>= replyOut cache.config schema, s₂)

theorem execute_read :
    (read cache table (itemScan cache.config table (.text column) v columns)).execute s =
      itemReply cache table s capture column v columns := by
  have hscan : ∀ schema, itemScan cache.config table (.text column) v columns schema =
      (idPredicate cache.config schema (.text column) v).map fun p =>
        .filteredScan table (itemSteps p columns) := by
    intro schema
    unfold itemScan itemSteps
    cases idPredicate cache.config schema (.text column) v with
    | error f => rfl
    | ok p => cases columns.isEmpty <;> rfl
  unfold read perform itemReply
  simp only [Action.execute_bind, execute_captured, hscan]
  rcases (cache.schema table false).execute s with ⟨f | schema, s₁⟩
  · obtain ⟨failure, -, hf⟩ | ⟨-, g, hg⟩ := capture_error_cases f
    · simp only [hf]
      rfl
    · simp only [hg]
  cases hpredicate : idPredicate cache.config schema (.text column) v with
  | error f =>
    simp only [capture_ok, Action.execute_bind, execute_captured, Action.execute_lift, hpredicate,
      Except.map]
    obtain ⟨failure, -, hf⟩ | ⟨-, g, hg⟩ := capture_error_cases f
    · simp only [hf]
      rfl
    · simp only [hg]
  | ok p =>
    simp only [capture_ok, Action.execute_bind, execute_captured, Action.execute_lift, hpredicate,
      Except.map]
    rcases (cache.backend (.filteredScan table (itemSteps p columns))).execute s₁ with
      ⟨f | rows, s₂⟩
    · obtain ⟨failure, -, hf⟩ | ⟨-, g, hg⟩ := capture_error_cases f
      · simp only [hf]
        rfl
      · simp only [hg]
        rfl
    · simp only [capture_ok, Action.execute_bind, Action.execute_lift]
      show _ = ((rowsOut cache.config schema rows).map Except.ok, s₂)
      cases rowsOut cache.config schema rows <;> rfl

/-- The description of the read of an item, written for a reply. -/
def itemEnd (v table : Value) (reply : Reply Value) : Except Fault Value := do
  unwrap ("Failed to get item " ++ (← v.told) ++ " from table " ++ (← table.told)) reply

theorem execute_getItem {select : Value} (hselect : selectedColumns select = .ok columns) :
    (getItem cache table (.text column) v select).execute s =
      ((itemReply cache table s capture column v columns).1 >>= itemEnd v table,
        (itemReply cache table s capture column v columns).2) := by
  unfold getItem
  rw [hselect]
  show Action.execute (read cache table _ >>= _) s = _
  rw [Action.execute_bind, execute_read]
  rcases itemReply cache table s capture column v columns with ⟨f | reply, s'⟩
  · rfl
  · show _ = (itemEnd v table reply, s')
    unfold itemEnd
    rcases v.told with f | id
    · rfl
    · rcases table.told with f | name <;> rfl

theorem execute_getList (htable : table.isWritable = true) {query : Value}
    (hquery : clientQuery query = .ok (itemQuery column v columns)) (h : IsItem column v columns) :
    (getList cache table query).execute s =
      ((itemReply cache table s captureBackend column v columns).1 >>=
          unwrap ("Failed to get list of items from table " ++ table.plain),
        (itemReply cache table s captureBackend column v columns).2) := by
  unfold getList itemReply runClient
  rw [Value.told_of_isWritable htable]
  simp only [Action.execute_bind, execute_captured, Action.execute_lift]
  rcases (cache.schema table false).execute s with ⟨f | schema, s₁⟩
  · obtain ⟨failure, -, hf⟩ | ⟨-, g, hg⟩ := capture_error_cases f
    · simp only [hf]
      rfl
    · simp only [hg]
      rfl
  have hplan := h.planOfRecord_itemQuery table schema cache.config
  cases hpredicate : idPredicate cache.config schema (.text column) v with
  | error f =>
    rw [hpredicate] at hplan
    simp only [capture_ok, execute_unwrapped_ok, Action.execute_bind, Action.execute_lift, hquery,
      captureReading, hplan, hpredicate]
    obtain ⟨failure, -, hf⟩ | ⟨-, g, hg⟩ := capture_error_cases f
    · simp only [hf]
      rfl
    · simp only [hg]
      rfl
  | ok p =>
    rw [hpredicate] at hplan
    simp only [capture_ok, execute_unwrapped_ok, Action.execute_bind, Action.execute_lift, hquery,
      captureReading, hplan, hpredicate, run, execute_runCapturing, runPlan, unwrap_replyOut]
    rcases (cache.backend (.filteredScan table (itemSteps p columns))).execute s₁ with ⟨answer, s₂⟩
    rcases captureBackend answer with f | failure | rows
    · rfl
    · rfl
    · simp only [execute_unwrapped_ok]
      rfl

end Calls

/-! ## Calls that end alike -/

/-- Do two calls end alike: with the same value or faults of one class, at the same site? -/
structure EndsAlike (x y : Except Fault Value × Site σ) : Prop where
  outcome : Agree Fault.SameClass x.1 y.1
  site : x.2 = y.2

/-- Is every fault of the backend of some kind, or none of the pipeline? -/
def Classifies (backend : Backend σ) : Prop :=
  ∀ operation s text, ((backend operation).execute s).1 ≠ .error (.unclassified text)

theorem agree_unwrap {α : Type} (x : Except Fault (Reply α)) (attempt attempt' : String) :
    Agree Fault.SameClass (x >>= unwrap attempt) (x >>= unwrap attempt') := by
  rcases x with f | failure | a
  · exact .error (.same f)
  · exact .error (.kind rfl rfl rfl)
  · exact .ok a

/-- The message of a fault of the backend holds no value. -/
theorem isWritable_of_isOfBackend {f : Fault} {detail : String} (h : f.IsOfBackend detail) :
    f.isWritable = true := by
  unfold Fault.IsOfBackend at h
  cases f with
  | backend | reported => rfl
  | _ => cases h

/-- Where the fault of a backend is of some kind, it is of one class whether it is captured or not. -/
theorem agree_capture_captureBackend {x : Except Fault Value}
    (h : ∀ text, x ≠ .error (.unclassified text)) (attempt attempt' : String) :
    Agree Fault.SameClass (capture x >>= unwrap attempt) (captureBackend x >>= unwrap attempt') := by
  cases x with
  | ok a => exact .ok a
  | error f =>
    unfold captureBackend
    dsimp only
    cases hfailure : f.failure? with
    | none =>
      have hraised : capture (.error f : Except Fault Value) = .error f.raised := by
        unfold capture
        dsimp only
        rw [Fault.failure?_raised_of_none hfailure]
        cases f with
        | unclassified text => exact absurd rfl (h text)
        | _ => rfl
      rw [hraised]
      exact .error (.same _)
    | some failure =>
      obtain ⟨kind, detail⟩ := failure
      have hkind : f.kind? = some kind := by rw [Fault.kind?, hfailure]; rfl
      rw [capture_of_failure? hfailure]
      cases hwritable : f.isWritable with
      | true =>
        rw [Fault.raised_of_isWritable hwritable]
        cases kind with
        | backend => exact .error (.kind rfl rfl rfl)
        | _ => exact .error (.kind rfl hkind hwritable.symm)
      | false =>
        rw [Fault.raised_of_not_isWritable hwritable]
        cases kind with
        | backend => cases (isWritable_of_isOfBackend hfailure).symm.trans hwritable
        | _ => exact .error (.same _)

/-- The replies of the two calls come at one site, and unwrapped they are one value or faults of one
class. -/
theorem itemReply_alike {cache : Cache σ} (h : Classifies cache.backend) (table : Value)
    (s : Site σ) (column : String) (v : Value) (columns : List Value) :
    (∀ attempt attempt', Agree Fault.SameClass
      ((itemReply cache table s capture column v columns).1 >>= unwrap attempt)
      ((itemReply cache table s captureBackend column v columns).1 >>= unwrap attempt')) ∧
    (itemReply cache table s capture column v columns).2 =
      (itemReply cache table s captureBackend column v columns).2 := by
  unfold itemReply
  rcases (cache.schema table false).execute s with ⟨f | schema, s₁⟩
  · exact ⟨agree_unwrap _, rfl⟩
  · dsimp only
    cases idPredicate cache.config schema (.text column) v with
    | error f => exact ⟨agree_unwrap _, rfl⟩
    | ok p =>
      have hanswer := h (.filteredScan table (itemSteps p columns)) s₁
      refine ⟨?_, rfl⟩
      intro attempt attempt'
      rw [unwrap_replyOut, unwrap_replyOut]
      exact (agree_capture_captureBackend hanswer _ _).bind fun rows => Agree.refl .same _

/-! ## The query string for an item -/

/-- Is this a query string for the rows whose column holds a text, however it is encoded? -/
def IsItemText (column s text : String) : Prop :=
  ∃ es, List.Forall₂ Bracket.EncodesParameter es [("WHERE[COLUMN]", column), ("WHERE[VALUE]", s)] ∧
    text.toList = ['&'].intercalate (es.map Bracket.piece)

theorem IsItemText.clientQuery_text {s text : String} (h : IsItemText column s text) :
    clientQuery (.text text) = .ok (itemQuery column (.text s) []) := by
  obtain ⟨es, hes, htext⟩ := h
  have hparameters : Bracket.parameters (text.toList.dropWhile (· == '?')) =
      [("WHERE[COLUMN]", column), ("WHERE[VALUE]", s)] := by
    rw [htext, Bracket.dropWhile_pieces hes, Bracket.parameters_pieces hes]
  have hpaths : Bracket.keyPath "WHERE[COLUMN]" = ["WHERE", "COLUMN"] ∧
      Bracket.keyPath "WHERE[VALUE]" = ["WHERE", "VALUE"] := by decide
  have hnest : Bracket.nest [("WHERE[COLUMN]", column), ("WHERE[VALUE]", s)] =
      [("WHERE", .object [("COLUMN", .text column), ("VALUE", .text s)])] := by
    simp only [Bracket.nest, List.foldl_cons, List.foldl_nil, hpaths]
    rfl
  have hlisted : Bracket.listed (.object (Bracket.nest
      [("WHERE[COLUMN]", column), ("WHERE[VALUE]", s)])) =
        .ok (.object [("WHERE", .object [("COLUMN", .text column), ("VALUE", .text s)])]) := by
    rw [hnest]
    rfl
  exact written_eq_ok_iff.2 (Bracket.parse_eq hparameters hlisted (by simp [keys, Bracket.filterName]))

section Ends

variable {cache : Cache σ} (hbackend : Classifies cache.backend) {table : Value}
  (htable : table.isWritable = true) {query select : Value} (h : IsItem column v columns)
  (hselect : selectedColumns select = .ok columns)
  (hquery : clientQuery query = .ok (itemQuery column v columns)) (s : Site σ)

include hbackend htable h hselect hquery

theorem site_getItem_getList :
    ((getItem cache table (.text column) v select).execute s).2 =
      ((getList cache table query).execute s).2 := by
  rw [execute_getItem _ _ _ hselect, execute_getList _ _ _ htable hquery h]
  exact (itemReply_alike hbackend table s column v columns).2

/-- Where the id value can be written, the two calls end alike. -/
theorem endsAlike_of_isWritable (hv : v.isWritable = true) :
    EndsAlike ((getItem cache table (.text column) v select).execute s)
      ((getList cache table query).execute s) := by
  refine ⟨?_, site_getItem_getList hbackend htable h hselect hquery s⟩
  have hend : itemEnd v table =
      unwrap ("Failed to get item " ++ v.plain ++ " from table " ++ table.plain) := by
    unfold itemEnd
    rw [Value.told_of_isWritable hv, Value.told_of_isWritable htable]
    rfl
  rw [execute_getItem _ _ _ hselect, execute_getList _ _ _ htable hquery h, hend]
  exact (itemReply_alike hbackend table s column v columns).1 _ _

/-- Where the id value cannot be written, the read of the item fails even if the list is read. -/
theorem getItem_of_not_isWritable (hv : v.isWritable = false) :
    ∃ f, ((getItem cache table (.text column) v select).execute s).1 = .error f ∧
      ∀ rows, ((getList cache table query).execute s).1 = .ok rows →
        f = .badArgument .integerToWrite := by
  have hend : itemEnd v table = fun _ => .error (.badArgument .integerToWrite) := by
    unfold itemEnd
    rw [Value.told, hv]
    rfl
  have halike := (itemReply_alike hbackend table s column v columns).1 ""
    ("Failed to get list of items from table " ++ table.plain)
  rw [execute_getItem _ _ _ hselect, execute_getList _ _ _ htable hquery h, hend]
  dsimp only
  rcases hreply : (itemReply cache table s capture column v columns).1 with f | reply
  · rw [hreply, error_bind] at halike
    refine ⟨f, rfl, ?_⟩
    intro rows hrows
    rw [hrows] at halike
    cases halike
  · exact ⟨_, rfl, fun _ _ => rfl⟩

end Ends

/-- **Reading an item is reading a list.**  Over a backend whose faults are classified, the read of
the rows whose column holds a value and the list that the query for them gives run the same
operations and end alike, unless the value is too long to write: then the read of the item fails,
though its operation was run and the list may be there.  So does the list of the query string, for a
value that is a text. -/
theorem getItem_getList (cache : Cache σ) (hbackend : Classifies cache.backend) {table : Value}
    (htable : table.isWritable = true) {column : String} {v : Value} {columns : List Value}
    (h : IsItem column v columns) (s : Site (σ × List Ran)) :
    (v.isWritable = true →
      EndsAlike ((getItem (recorded cache) table (.text column) v (.list columns)).execute s)
        ((getList (recorded cache) table (.object (itemQuery column v columns))).execute s)) ∧
    (v.isWritable = false →
      ((getItem (recorded cache) table (.text column) v (.list columns)).execute s).2 =
          ((getList (recorded cache) table (.object (itemQuery column v columns))).execute s).2 ∧
        ∃ f, ((getItem (recorded cache) table (.text column) v (.list columns)).execute s).1 =
            .error f ∧
          ∀ rows, ((getList (recorded cache) table
              (.object (itemQuery column v columns))).execute s).1 = .ok rows →
            f = .badArgument .integerToWrite) ∧
    ∀ t text, v = .text t → IsItemText column t text →
      EndsAlike ((getItem (recorded cache) table (.text column) v .null).execute s)
        ((getList (recorded cache) table (.text text)).execute s) := by
  have hrecorded : Classifies (recorded cache).backend := fun operation s text =>
    hbackend operation s.unrecorded text
  have hselected : selectedColumns (.list columns) = .ok columns := by
    cases columns <;> rfl
  have hclient : clientQuery (.object (itemQuery column v columns)) =
      .ok (itemQuery column v columns) := by
    unfold itemQuery
    split <;> rfl
  refine ⟨endsAlike_of_isWritable hrecorded htable h hselected hclient s, ?_, ?_⟩
  · intro hv
    exact ⟨site_getItem_getList hrecorded htable h hselected hclient s,
      getItem_of_not_isWritable hrecorded htable h hselected hclient s hv⟩
  · rintro t text rfl htext
    have halone : IsItem column (.text t) [] := ⟨h.column, h.present, h.single, by simp⟩
    exact endsAlike_of_isWritable hrecorded htable halone rfl htext.clientQuery_text s rfl

theorem isItem_name : IsItem "NAME" (.text "Ana M") [.text "ID"] := by
  refine ⟨by decide, ⟨nofun, ?_⟩, ⟨nofun, nofun⟩, ?_⟩
  · rintro t ⟨⟩
    decide
  · intro w hw
    rw [List.mem_singleton.1 hw]
    exact ⟨"ID", rfl, by decide⟩

theorem isItemText_name :
    IsItemText "NAME" "Ana M" "WHERE[COLUMN]=NAME&WHERE%5BVALUE%5D=Ana+%4D" := by
  have hcolumn : Bracket.EncodesParameter ("WHERE[COLUMN]".toList, "NAME".toList)
      ("WHERE[COLUMN]", "NAME") := ⟨⟨by decide, by decide⟩, by decide, by decide⟩
  have hvalue : Bracket.EncodesParameter ("WHERE%5BVALUE%5D".toList, "Ana+%4D".toList)
      ("WHERE[VALUE]", "Ana M") := ⟨⟨by decide, by decide⟩, by decide, by decide⟩
  exact ⟨_, .cons hcolumn (.cons hvalue .nil), by decide⟩

theorem getItem_getList_name :
    ∃ s : Site (Unit × List Ran), IsCached (recorded emptyCache) "T" mixedSchema s ∧
      EndsAlike
        ((getItem (recorded emptyCache) (.text "T") (.text "NAME") (.text "Ana M")
          (.list [.text "ID"])).execute s)
        ((getList (recorded emptyCache) (.text "T") (.object
          [("SELECT", .list [.text "ID"]),
            ("WHERE", .object [("COLUMN", .text "NAME"), ("VALUE", .text "Ana M")])])).execute s) ∧
      EndsAlike
        ((getItem (recorded emptyCache) (.text "T") (.text "NAME") (.text "Ana M") .null).execute s)
        ((getList (recorded emptyCache) (.text "T")
          (.text "WHERE[COLUMN]=NAME&WHERE%5BVALUE%5D=Ana+%4D")).execute s) := by
  obtain ⟨s, hcached, -⟩ := exists_isCached_mixedSchema
  have hbackend : Classifies emptyCache.backend := fun _ _ _ => nofun
  have htable : (Value.text "T").isWritable = true := rfl
  obtain ⟨hobject, -, htext⟩ := getItem_getList emptyCache hbackend htable isItem_name s
  exact ⟨s, hcached, hobject rfl, htext "Ana M" _ rfl isItemText_name⟩

/-- A cache over a backend whose faults are of no kind. -/
def unclassifiedCache : Cache Unit :=
  { emptyCache with backend := fun _ => throw (.unclassified "m") }

theorem isItem_integer (n : Int) : IsItem "ID" (.int n) [] :=
  ⟨by decide, ⟨nofun, nofun⟩, ⟨nofun, nofun⟩, by simp⟩

/-- A fault of no kind is a breach to the read of an item and stays itself in a list; and an id that
is too long to write has its list, but cannot be told in the description of the read. -/
theorem getItem_getList_apart :
    (¬ ∀ (cache : Cache Unit) (table : String) (column : String) (v : Value) (columns : List Value)
        (s : Site (Unit × List Ran)), v.isWritable = true → IsItem column v columns →
      EndsAlike
        ((getItem (recorded cache) (.text table) (.text column) v (.list columns)).execute s)
        ((getList (recorded cache) (.text table) (.object (itemQuery column v columns))).execute
          s)) ∧
      ∃ s : Site (Unit × List Ran), IsCached (recorded emptyCache) "T" mixedSchema s ∧
        ((getItem (recorded emptyCache) (.text "T") (.text "ID") (.int Number.leastUnwritten)
          (.list [])).execute s).1 = .error (.badArgument .integerToWrite) ∧
        ((getList (recorded emptyCache) (.text "T")
          (.object (itemQuery "ID" (.int Number.leastUnwritten) []))).execute s).1 =
            .ok (.list []) := by
  constructor
  · intro h
    obtain ⟨s, hempty, -⟩ := exists_isCached_mixedSchema
    have hcached : IsCached (recorded unclassifiedCache) "T" mixedSchema s :=
      ⟨hempty.isFree, hempty.held⟩
    have halike := (h unclassifiedCache "T" "NAME" (.text "Ana M") [.text "ID"] s rfl
      isItem_name).outcome
    have hselected : selectedColumns (.list [.text "ID"]) = .ok [.text "ID"] := rfl
    have hclient : clientQuery (.object (itemQuery "NAME" (.text "Ana M") [.text "ID"])) =
        .ok (itemQuery "NAME" (.text "Ana M") [.text "ID"]) := rfl
    rw [execute_getItem _ _ _ hselected, execute_getList _ _ _ rfl hclient isItem_name] at halike
    unfold itemReply at halike
    rw [execute_schema_cached hcached] at halike
    have houtcomes : Agree Fault.SameClass
        (.error (.breach (.noFailureKind "m")) : Except Fault Value) (.error (.unclassified "m")) :=
      halike
    cases houtcomes with
    | error hclass =>
      cases hclass with
      | kind hkind => cases hkind
  · obtain ⟨s, hcached, -⟩ := exists_isCached_mixedSchema
    have hlong : ∀ n, Number.isWritten n = false →
        ((getItem (recorded emptyCache) (.text "T") (.text "ID") (.int n) (.list [])).execute s).1 =
            .error (.badArgument .integerToWrite) ∧
          ((getList (recorded emptyCache) (.text "T")
            (.object (itemQuery "ID" (.int n) []))).execute s).1 = .ok (.list []) := by
      intro n hn
      have htable : (Value.text "T").isWritable = true := rfl
      have hbackend : Classifies (recorded emptyCache).backend := fun _ _ _ => nofun
      have hlist : ((getList (recorded emptyCache) (.text "T")
          (.object (itemQuery "ID" (.int n) []))).execute s).1 = .ok (.list []) := by
        rw [execute_getList _ _ _ htable rfl (isItem_integer n)]
        unfold itemReply
        rw [execute_schema_cached hcached]
        rfl
      have hselected : selectedColumns (.list []) = .ok [] := rfl
      have hclient : clientQuery (.object (itemQuery "ID" (.int n) [])) =
          .ok (itemQuery "ID" (.int n) []) := rfl
      obtain ⟨f, hf, hrefused⟩ := getItem_of_not_isWritable hbackend htable (isItem_integer n)
        hselected hclient s hn
      rw [hrefused _ hlist] at hf
      exact ⟨hf, hlist⟩
    exact ⟨s, hcached, hlong _ Number.isWritten_leastUnwritten⟩

end Facade

end RowAccess
