import RowAccess.Proofs.Facade.Conversion
import RowAccess.Proofs.Operation.ConversionFault
import RowAccess.Proofs.Operation.Recording
import RowAccess.Proofs.Query.Overflow
import RowAccess.Proofs.Schema.Cache

/-
  RowAccess/Proofs/Facade/Checked.lean
  ====================================
  **Nothing is run before everything is checked.**  A client's query that cannot be read, checked or
  compiled ends in the failure of the first of these stages, and nothing was run; any other reply
  comes of the operations of the plan.  A call on items that comes to a value which does not fit its
  column fails after its description, or for an integer in it that is too long to write, and nothing
  was run either; otherwise it runs one operation (`checks_precede_runs`).
-/

namespace RowAccess

open Outcome

variable {σ : Type}

/-! ## Queries -/

/-- Is this the failure of the first stage that fails, of reading, checking and compiling? -/
inductive FailsFirst (table : Value) (schema : Option TableSchema) (c : Config) (query : Value) :
    Failure → Prop
  | reading {cause : ReadingFault} (hread : clientQuery query = .error (.reading cause)) :
    FailsFirst table schema c query ⟨.reading, cause.message⟩
  | validation {fields : Fields} {failure : Failure} (hread : clientQuery query = .ok fields)
    (hcheck : (validate (.object fields)).1 = .ok (.error failure)) :
    FailsFirst table schema c query failure
  | coercion {fields : Fields} {q : Query} {failure : Failure}
    (hread : clientQuery query = .ok fields)
    (hcheck : (validate (.object fields)).1 = .ok (.ok q))
    (hcompile : q.plan table schema c = .ok (.error failure)) :
    FailsFirst table schema c query failure

/-- The kinds of the failures before anything is run. -/
def FailureKind.IsOfChecks (kind : FailureKind) : Prop :=
  kind = .reading ∨ kind = .validation ∨ kind = .coercion

theorem FailsFirst.kind {table : Value} {schema : Option TableSchema} {c : Config} {query : Value}
    {failure : Failure} (h : FailsFirst table schema c query failure) :
    failure.kind.IsOfChecks := by
  cases h with
  | reading hread => exact .inl rfl
  | validation hread hcheck =>
    rcases (validate_escapes_iff _).1 with ⟨q, hq⟩ | ⟨detail, hdetail⟩ | hescapes
    · cases hcheck.symm.trans hq
    · cases hcheck.symm.trans hdetail
      exact .inr (.inl rfl)
    · rcases hescapes with hescapes | hescapes
      · cases hcheck.symm.trans hescapes
      · cases hcheck.symm.trans hescapes
  | coercion hread hcheck hcompile => exact .inr (.inr (kind_of_plan hcompile))

/-- A reply to a client's query is the failure of the first stage that fails, or comes of what its
plan has run. -/
theorem runClient_cases {backend : Backend σ} {table : Value} {schema : Option TableSchema}
    {c : Config} {query : Value} {s s' : Site (σ × List Ran)} {reply : Reply Value}
    (h : (runClient (recording backend) table schema c query).execute s = (.ok reply, s')) :
    (∃ failure, FailsFirst table schema c query failure ∧ reply = .error failure ∧ s' = s) ∨
      ∃ plan runs, planOfClient table schema c query = .ok (.ok plan) ∧ s'.ran = s.ran ++ runs ∧
        PlanRan plan runs reply := by
  obtain ⟨read, s₁, hrun, h⟩ := Action.execute_bind_eq_ok_iff.1 h
  rw [Action.execute_lift] at hrun
  obtain ⟨hread, rfl⟩ := Prod.mk.inj hrun
  rcases hquery : clientQuery query with f | fields
  · rw [hquery] at hread
    cases f
    case reading cause =>
      cases hread
      cases h
      exact .inl ⟨_, .reading hquery, rfl, rfl⟩
    all_goals cases hread
  · rw [hquery] at hread
    cases hread
    obtain ⟨planned, s₂, hrun, h⟩ := Action.execute_bind_eq_ok_iff.1 h
    rw [Action.execute_lift] at hrun
    obtain ⟨hplanned, rfl⟩ := Prod.mk.inj hrun
    cases planned with
    | error failure =>
      cases h
      refine .inl ⟨failure, ?_, rfl, rfl⟩
      obtain ⟨checked, hchecked, hcompiled⟩ := bind_eq_ok_iff.1 hplanned
      cases checked with
      | error failure' =>
        cases hcompiled
        exact .validation hquery hchecked
      | ok q => exact .coercion hquery hchecked hcompiled
    | ok plan =>
      obtain ⟨runs, hran, hplan⟩ := ran_run h
      refine .inr ⟨plan, runs, ?_, hran, hplan⟩
      unfold planOfClient
      rw [hquery]
      exact hplanned

namespace Facade

/-! ## Calls on items -/

/-- The calls that read and write items, with what they are given. -/
inductive ItemCall where
  | get (idColumn : String) (idValue select : Value)
  | add (record : Fields)
  | edit (idColumn : String) (idValue : Value) (record : Fields)
  | delete (idColumn : String) (idValue : Value)

namespace ItemCall

def action (cache : Cache σ) (table : String) : ItemCall → Action σ Value
  | .get column v select => getItem cache (.text table) (.text column) v select
  | .add record => addItem cache (.text table) (.object record)
  | .edit column v record => editItem cache (.text table) (.text column) v (.object record)
  | .delete column v => deleteItem cache (.text table) (.text column) v

/-- The description of what a call attempts. -/
def attempt (table : String) : ItemCall → String
  | .get _ v _ => "Failed to get item " ++ v.plain ++ " from table " ++ table
  | .add _ => "Failed to add item to table " ++ table
  | .edit _ v _ => "Failed to edit item " ++ v.plain ++ " in table " ++ table
  | .delete _ v => "Failed to delete item " ++ v.plain ++ " from table " ++ table

/-- Can the id value of a call be written in its description? -/
def isTold : ItemCall → Bool
  | .get _ v _ | .edit _ v _ | .delete _ v => v.isWritable
  | .add _ => true

/-- What a call makes of a reply: the fault of a failure comes after the description, which is
written for every reply. -/
def ended (call : ItemCall) (table : String) (reply : Reply Value) : Except Fault Value :=
  if call.isTold then unwrap (call.attempt table) reply else .error (.badArgument .integerToWrite)

/-- The fault of a call that fails for a conversion.  It cannot be reported where the description or
the cause holds an integer that is too long to write. -/
def refusal (call : ItemCall) (table : String) (cause : CoercionFault) : Fault :=
  if call.isTold && (Fault.coercion cause).isWritable then
    .reported ⟨.coercion, call.attempt table ++ ": " ++ cause.message⟩
  else .badArgument .integerToWrite

/-- Is the selection of a read absent, a text or a list?  No other call has one. -/
def IsSelective : ItemCall → Prop
  | .get _ _ select => select = .null ∨ (∃ s, select = .text s) ∨ ∃ vs, select = .list vs
  | _ => True

/-- The id value of a call in the terms of storage. -/
def idIn (c : Config) (schema : TableSchema) (column : String) (v : Value) : Except Fault Value :=
  (idPredicate c schema (.text column) v).map Comparison.value

/-- The value of an entry on its way in. -/
def entryIn (c : Config) (schema : TableSchema) (e : String × Value) : Except Fault Value := do
  valueIn c (← schema.category? e.1) e.2

/-- The outcomes of all conversions of a call: of its id value, and of every column of its record. -/
def conversions (c : Config) (schema : TableSchema) : ItemCall → List (Except Fault Value)
  | .get column v _ => [idIn c schema column v]
  | .add record => record.map (entryIn c schema)
  | .edit column v record => idIn c schema column v :: record.map (entryIn c schema)
  | .delete column v => [idIn c schema column v]

/-- The operation that a call makes of the schema of its table. -/
def operation (call : ItemCall) (c : Config) (table : String) (schema : TableSchema) :
    Except Fault Operation :=
  match call with
  | .get column v select => do
    itemScan c (.text table) (.text column) v (← selectedColumns select) schema
  | .add record => insertion c (.text table) (.object record) schema
  | .edit column v record => edition c (.text table) (.text column) v (.object record) schema
  | .delete column v => deletion c (.text table) (.text column) v schema

end ItemCall

/-- Does the catalog of the cache hold the schema of the table, which nobody discovers? -/
structure IsCached (cache : Cache σ) (table : String) (schema : TableSchema) (s : Site σ) :
    Prop where
  isFree : cache.IsFree table s
  held : ∃ catalog, cache.loadAt s = .ok catalog ∧ catalog.get? (.text table) = some schema

theorem execute_schema_cached {cache : Cache σ} {table : String} {schema : TableSchema}
    {s : Site σ} (h : IsCached cache table schema s) :
    (cache.schema (.text table) false).execute s =
      (.ok schema, cache.left table (cache.entered table s)) := by
  obtain ⟨catalog, hcatalog, hget⟩ := h.held
  have hload : cache.loadAt (cache.entered table s) = .ok catalog := hcatalog
  unfold Cache.schema
  rw [cache.execute_locked h.isFree]
  simp only [Bool.false_eq_true, if_false, Action.execute_bind, Cache.execute_load, hload, hget]
  rfl

theorem execute_captured {α : Type} (act : Action σ α) (s : Site σ) :
    act.captured.execute s = (capture (act.execute s).1, (act.execute s).2) := rfl

/-- What follows an action and changes no site leaves the site that the action led to. -/
theorem site_bind {α β : Type} {act : Action σ α} {next : α → Action σ β}
    (h : ∀ a s, ((next a).execute s).2 = s) (s : Site σ) :
    ((act >>= next).execute s).2 = (act.execute s).2 := by
  rw [Action.execute_bind]
  rcases act.execute s with ⟨f | a, s'⟩
  · rfl
  · exact h a s'

/-- The cache with a backend that keeps a record. -/
def recorded (cache : Cache σ) : Cache (σ × List Ran) :=
  ⟨cache.config, cache.place, recording cache.backend, cache.id⟩

section Performing

variable {cache : Cache σ} {table : String} {schema : TableSchema} {s : Site (σ × List Ran)}
  (hcached : IsCached (recorded cache) table schema s)
  {make : TableSchema → Except Fault Operation}
  {convert : TableSchema → Value → Except Fault Value}

include hcached

/-- Where the operation of a call cannot be made, its fault is handed on and nothing is run. -/
theorem execute_perform_unfit {f : Fault} (hmake : make schema = .error f) :
    (perform (recorded cache) (.text table) make convert).execute s =
      (capture (.error f), (recorded cache).left table ((recorded cache).entered table s)) := by
  unfold perform
  simp only [Action.execute_bind, execute_captured, execute_schema_cached hcached, capture_ok,
    Action.execute_lift, hmake]
  obtain ⟨failure, -, hf⟩ | ⟨-, g, hg⟩ := capture_error_cases f
  · simp only [hf]
    rfl
  · simp only [hg]

/-- Where the operation of a call can be made, it is run, and nothing else. -/
theorem ran_perform {operation : Operation} (hmake : make schema = .ok operation) :
    ∃ outcome, ((perform (recorded cache) (.text table) make convert).execute s).2.ran =
      s.ran ++ [⟨operation, outcome⟩] := by
  unfold perform
  rw [Action.execute_bind, execute_captured, execute_schema_cached hcached]
  simp only [capture_ok]
  rw [site_bind, execute_captured]
  · simp only [Action.execute_bind, Action.execute_lift, hmake]
    exact ⟨_, ran_recording cache.backend operation _⟩
  · intro reply s
    cases reply with
    | error failure => rfl
    | ok answer => exact site_bind (fun _ _ => rfl) s

end Performing

/-! ## Conversions of a call -/

namespace ItemCall

variable {c : Config} {schema : TableSchema} {table : String}

/-- The entries of a record fit their columns, or its conversion fails as one of them does. -/
theorem recordIn_cases (c : Config) (schema : TableSchema) (record : Fields) :
    (∃ stored, recordIn c schema record = .ok stored ∧
      ∀ x ∈ record.map (entryIn c schema), ∃ w, x = .ok w) ∨
        ∃ f, recordIn c schema record = .error f ∧ .error f ∈ record.map (entryIn c schema) := by
  have hentry : recordIn c schema record =
      record.mapM fun e => (entryIn c schema e).map (Prod.mk e.1) := by
    unfold recordIn entryIn
    congr 1
    funext ⟨name, v⟩
    show (schema.category? name >>= fun k => valueIn c k v >>= fun w => pure (name, w)) =
      (schema.category? name >>= fun k => valueIn c k v).map (Prod.mk name)
    cases schema.category? name with
    | error f => rfl
    | ok k => exact bind_pure_eq_map (valueIn c k v) (Prod.mk name)
  rw [hentry]
  cases hrecord : record.mapM fun e => (entryIn c schema e).map (Prod.mk e.1) with
  | ok stored =>
    refine .inl ⟨stored, rfl, ?_⟩
    intro x hx
    obtain ⟨e, he, rfl⟩ := List.mem_map.1 hx
    obtain ⟨e', -, he'⟩ := exists_mem_of_mapM hrecord he
    obtain ⟨w, hw, -⟩ := map_eq_ok_iff.1 he'
    exact ⟨w, hw⟩
  | error f =>
    obtain ⟨e, he, hf⟩ := exists_error_of_mapM hrecord
    refine .inr ⟨f, rfl, List.mem_map.2 ⟨e, he, ?_⟩⟩
    cases hvalue : entryIn c schema e with
    | ok w =>
      rw [hvalue] at hf
      cases hf
    | error g =>
      rw [hvalue] at hf
      cases hf
      rfl

theorem idIn_cases (c : Config) (schema : TableSchema) (column : String) (v : Value) :
    (∃ p w, idPredicate c schema (.text column) v = .ok p ∧ idIn c schema column v = .ok w) ∨
      ∃ f, idPredicate c schema (.text column) v = .error f ∧
        idIn c schema column v = .error f := by
  unfold idIn
  cases idPredicate c schema (.text column) v with
  | ok p => exact .inl ⟨p, _, rfl, rfl⟩
  | error f => exact .inr ⟨f, rfl, rfl⟩

theorem exists_selectedColumns {column : String} {v select : Value}
    (h : (get column v select).IsSelective) : ∃ columns, selectedColumns select = .ok columns := by
  unfold selectedColumns
  split
  · exact ⟨_, rfl⟩
  · rcases h with rfl | ⟨s, rfl⟩ | ⟨vs, rfl⟩
    · exact absurd rfl ‹_›
    · exact ⟨_, rfl⟩
    · exact ⟨vs, rfl⟩

/-- The operation of a call can be made where every conversion succeeds, and otherwise fails as one
of them does. -/
theorem operation_cases (call : ItemCall) (c : Config) (table : String) (schema : TableSchema)
    (hselect : call.IsSelective) :
    (∃ operation, call.operation c table schema = .ok operation ∧
      ∀ x ∈ call.conversions c schema, ∃ w, x = .ok w) ∨
        ∃ f, call.operation c table schema = .error f ∧ .error f ∈ call.conversions c schema := by
  cases call with
  | get column v select =>
    obtain ⟨columns, hcolumns⟩ := exists_selectedColumns hselect
    rcases idIn_cases c schema column v with ⟨p, w, hp, hw⟩ | ⟨f, hp, hf⟩
    · refine .inl ⟨_, by simp only [operation, hcolumns, ok_bind, itemScan, hp]; rfl, ?_⟩
      simp [conversions, hw]
    · refine .inr ⟨f, by simp only [operation, hcolumns, ok_bind, itemScan, hp]; rfl, ?_⟩
      simp [conversions, hf]
  | add record =>
    rcases recordIn_cases c schema record with ⟨stored, hstored, hfit⟩ | ⟨f, hstored, hf⟩
    · exact .inl ⟨_, by simp only [operation, insertion, fieldsOf, ok_bind, hstored]; rfl, hfit⟩
    · exact .inr ⟨f, by simp only [operation, insertion, fieldsOf, ok_bind, hstored]; rfl, hf⟩
  | edit column v record =>
    rcases idIn_cases c schema column v with ⟨p, w, hp, hw⟩ | ⟨f, hp, hf⟩
    · rcases recordIn_cases c schema record with ⟨stored, hstored, hfit⟩ | ⟨f, hstored, hf⟩
      · refine .inl ⟨_, by simp only [operation, edition, fieldsOf, ok_bind, hp, hstored]; rfl, ?_⟩
        exact List.forall_mem_cons.2 ⟨⟨w, hw⟩, hfit⟩
      · refine .inr ⟨f, by simp only [operation, edition, fieldsOf, ok_bind, hp, hstored]; rfl, ?_⟩
        exact List.mem_cons_of_mem _ hf
    · refine .inr ⟨f, by simp only [operation, edition, hp]; rfl, ?_⟩
      simp [conversions, hf]
  | delete column v =>
    rcases idIn_cases c schema column v with ⟨p, w, hp, hw⟩ | ⟨f, hp, hf⟩
    · refine .inl ⟨_, by simp only [operation, deletion, hp]; rfl, ?_⟩
      simp [conversions, hw]
    · refine .inr ⟨f, by simp only [operation, deletion, hp]; rfl, ?_⟩
      simp [conversions, hf]

section Columns

variable (htext : ∀ k, ∀ v ∈ schema.columns.of k, v.isText = true)

include htext

theorem only_entryIn (e : String × Value) : Only Fault.IsOfConversion (entryIn c schema e) := by
  obtain ⟨k, hk⟩ := TableSchema.exists_category htext e.1
  unfold entryIn
  rw [hk]
  exact only_valueIn c k e.2

theorem only_idIn (column : String) (v : Value) :
    Only Fault.IsOfConversion (idIn c schema column v) := by
  obtain ⟨k, hk⟩ := TableSchema.exists_category htext column
  have hlookup : Storage.categoryIn? (some schema) (.text column) = .ok k := hk
  refine Only.map ?_
  unfold idPredicate Comparison.forStorage Storage.onColumn
  rw [hlookup]
  cases k with
  | none => exact .ok _
  | some k => exact (Storage.only_value c k v).bind fun _ => .ok _

/-- Where columns are named by texts, a conversion fails with a fault of coercion or an overflow. -/
theorem isOfConversion_of_mem {call : ItemCall} {f : Fault}
    (h : .error f ∈ call.conversions c schema) : f.IsOfConversion := by
  have hentry {record : Fields} (hf : .error f ∈ record.map (entryIn c schema)) :
      f.IsOfConversion := by
    obtain ⟨e, -, he⟩ := List.mem_map.1 hf
    exact only_entryIn htext e f he
  have hid {column : String} {v : Value} (hf : .error f = idIn c schema column v) :
      f.IsOfConversion := only_idIn htext column v f hf.symm
  cases call with
  | get column v select => exact hid (List.mem_singleton.1 h)
  | add record => exact hentry h
  | edit column v record =>
    rcases List.mem_cons.1 h with h | h
    · exact hid h
    · exact hentry h
  | delete column v => exact hid (List.mem_singleton.1 h)

end Columns

/-- A conversion that fails is handed on as a failure, or is refused for what its message holds. -/
theorem capture_ended (call : ItemCall) (table : String) (cause : CoercionFault) :
    (capture (.error (.coercion cause) : Except Fault Value) >>= call.ended table) =
      .error (call.refusal table cause) := by
  have hfailure : (Fault.coercion cause).failure? = some ⟨.coercion, cause.message⟩ := rfl
  rw [capture_of_failure? hfailure]
  unfold ended refusal
  cases (Fault.coercion cause).isWritable <;> cases call.isTold <;> rfl

/-- A description of the id value and the table, written for a reply. -/
theorem unwrapped_told (v : Value) (table : String) (attempt : String → String → String)
    (reply : Reply Value) :
    (do Action.unwrapped (attempt (← v.told) (← (Value.text table).told)) reply : Action σ Value) =
      liftM (if v.isWritable then unwrap (attempt v.plain table) reply
        else .error (.badArgument .integerToWrite)) := by
  rw [Value.told]
  cases v.isWritable <;> rfl

/-- A call performs its operation, and then writes its description. -/
theorem action_eq (cache : Cache σ) (table : String) {call : ItemCall}
    (hselect : call.IsSelective) :
    ∃ convert, call.action cache table = (do
      call.ended table
        (← perform cache (.text table) (call.operation cache.config table) convert)) := by
  cases call with
  | get column v select =>
    obtain ⟨columns, hcolumns⟩ := exists_selectedColumns hselect
    have hmake : (get column v select).operation cache.config table =
        itemScan cache.config (.text table) (.text column) v columns := by
      funext schema
      simp only [operation, hcolumns, ok_bind]
    refine ⟨rowsOut cache.config, ?_⟩
    rw [hmake]
    show getItem cache (.text table) (.text column) v select = _
    unfold getItem
    rw [hcolumns]
    exact bind_congr fun reply => unwrapped_told v table _ reply
  | add record => exact ⟨fun _ answer => .ok answer, rfl⟩
  | edit column v record =>
    exact ⟨fun _ answer => .ok answer, bind_congr fun reply => unwrapped_told v table _ reply⟩
  | delete column v =>
    exact ⟨fun _ answer => .ok answer, bind_congr fun reply => unwrapped_told v table _ reply⟩

end ItemCall

section Calls

variable {cache : Cache σ} {table : String} {schema : TableSchema} {s : Site (σ × List Ran)}
  (hcached : IsCached (recorded cache) table schema s) (call : ItemCall)
  (hselect : call.IsSelective)

include hcached hselect

theorem execute_action_unfit {f : Fault}
    (hoperation : call.operation cache.config table schema = .error f) :
    (call.action (recorded cache) table).execute s =
      (capture (.error f) >>= call.ended table,
        (recorded cache).left table ((recorded cache).entered table s)) := by
  obtain ⟨convert, haction⟩ := ItemCall.action_eq (recorded cache) table hselect
  have hperform : (perform (recorded cache) (.text table)
      (call.operation (recorded cache).config table) convert).execute s = _ :=
    execute_perform_unfit hcached hoperation
  rw [haction, Action.execute_bind, hperform]
  rcases capture (.error f : Except Fault Value) with g | reply <;> rfl

theorem ran_action {operation : Operation}
    (hoperation : call.operation cache.config table schema = .ok operation) :
    ∃ outcome, ((call.action (recorded cache) table).execute s).2.ran =
      s.ran ++ [⟨operation, outcome⟩] := by
  obtain ⟨convert, haction⟩ := ItemCall.action_eq (recorded cache) table hselect
  rw [haction, site_bind fun _ _ => rfl]
  exact ran_perform hcached hoperation

end Calls

/-- A call comes to a value that does not fit, is refused for it and runs nothing, or it runs its
operation and nothing else. -/
theorem itemCall_cases {cache : Cache σ} {table : String} {schema : TableSchema}
    {s : Site (σ × List Ran)} (hcached : IsCached (recorded cache) table schema s)
    (htext : ∀ k, ∀ v ∈ schema.columns.of k, v.isText = true) {call : ItemCall}
    (hselect : call.IsSelective)
    (hcalendar : .error .outOfRange ∉ call.conversions cache.config schema) :
    (∃ cause s', .error (.coercion cause) ∈ call.conversions cache.config schema ∧
      (call.action (recorded cache) table).execute s = (.error (call.refusal table cause), s') ∧
        s'.outside = s.outside ∧ s'.folder = s.folder) ∨
      (∀ x ∈ call.conversions cache.config schema, ∃ w, x = .ok w) ∧
        ∃ operation outcome, call.operation cache.config table schema = .ok operation ∧
          ((call.action (recorded cache) table).execute s).2.ran =
            s.ran ++ [⟨operation, outcome⟩] := by
  rcases call.operation_cases cache.config table schema hselect with
    ⟨operation, hoperation, hfit⟩ | ⟨f, hoperation, hf⟩
  · obtain ⟨outcome, hran⟩ := ran_action hcached call hselect hoperation
    exact .inr ⟨hfit, operation, outcome, hoperation, hran⟩
  · rcases ItemCall.isOfConversion_of_mem htext hf with ⟨cause, rfl⟩ | rfl
    · have hunfit := execute_action_unfit hcached call hselect hoperation
      rw [call.capture_ended] at hunfit
      exact .inl ⟨cause, _, hf, hunfit, rfl, rfl⟩
    · exact absurd hf hcalendar

/-! ## A small store -/

/-- A cache over a backend that finds no rows. -/
def emptyCache : Cache Unit :=
  ⟨storeConfig, ⟨"c", "", "c", "t"⟩, fun _ => pure (.list []), 0⟩

/-- A catalog of one schema, as it is stored. -/
def storedAlone (schema : Value) : Value :=
  .object [("schemas", .list [schema])]

theorem plain_storedAlone {schema : Value} (h : Json.Plain schema) :
    Json.Plain (storedAlone schema) := by
  refine .object (by simp [Keyed.keys]) ?_
  intro f hf
  rw [List.mem_singleton.1 hf]
  refine .list ?_
  intro v hv
  rw [List.mem_singleton.1 hv]
  exact h

/-- A catalog that a document gives back is cached at some site, whatever else is there. -/
theorem exists_isCached (cache : Cache σ) (hplace : cache.place = emptyCache.place) {table : String}
    {schema : TableSchema} {v : Value} {catalog : Catalog} (hv : Json.Plain v)
    (hcatalog : Catalog.ofStored v = .ok catalog) (hschema : catalog.get? (.text table) = some schema)
    (outside : σ) : ∃ s, IsCached cache table schema s ∧ s.outside = outside := by
  obtain ⟨text, -, hdocument⟩ := Folder.exists_documentOf hv
  refine ⟨⟨some [("c", .file (Text.Utf8.encode text.toList))], [], outside⟩,
    ⟨List.not_mem_nil, catalog, ?_, hschema⟩, rfl⟩
  rw [Cache.loadAt, hplace, ← hcatalog]
  exact Folder.load_of_documentOf rfl hdocument

theorem isText_mixedSchema : ∀ k, ∀ v ∈ mixedSchema.columns.of k, v.isText = true := by
  intro k
  cases k <;> decide

theorem exists_isCached_mixedSchema :
    ∃ s, IsCached (recorded emptyCache) "T" mixedSchema s ∧ s.ran = [] := by
  have hnamed : mixedSchema.Named := ⟨rfl, .inr rfl, isText_mixedSchema⟩
  have hstored : Catalog.ofStored (storedAlone mixedSchema.toStored) =
    .ok ⟨[.text "T"], [(.text "T", mixedSchema)]⟩ := rfl
  have hschema : Catalog.get? ⟨[.text "T"], [(.text "T", mixedSchema)]⟩ (.text "T") =
    some mixedSchema := rfl
  have hcached : ∃ s, IsCached (recorded emptyCache) "T" mixedSchema s ∧ s.outside = ((), []) :=
    exists_isCached (recorded emptyCache) rfl (plain_storedAlone hnamed.plain) hstored hschema _
  obtain ⟨s, hcached, houtside⟩ := hcached
  exact ⟨s, hcached, congrArg Prod.snd houtside⟩

theorem exists_isCached_numberedSchema :
    ∃ s, IsCached (recorded emptyCache) "T" numberedSchema s ∧ s.ran = [] := by
  have hshort : Json.IsShort 5 := by
    unfold Json.IsShort
    decide
  have hplain : Json.Plain (.object [("name", .text "T"),
      ("timestampColumns", .list [.text "A", .int 5])]) := by
    refine .object (by decide) ?_
    refine List.forall_mem_cons.2 ⟨.text _, List.forall_mem_singleton.2 (.list ?_)⟩
    exact List.forall_mem_cons.2 ⟨.text _, List.forall_mem_singleton.2 (.int hshort)⟩
  have hstored : Catalog.ofStored (storedAlone (.object [("name", .text "T"),
      ("timestampColumns", .list [.text "A", .int 5])])) =
        .ok ⟨[.text "T"], [(.text "T", numberedSchema)]⟩ := rfl
  have hschema : Catalog.get? ⟨[.text "T"], [(.text "T", numberedSchema)]⟩ (.text "T") =
    some numberedSchema := rfl
  have hcached : ∃ s, IsCached (recorded emptyCache) "T" numberedSchema s ∧ s.outside = ((), []) :=
    exists_isCached (recorded emptyCache) rfl (plain_storedAlone hplain) hstored hschema _
  obtain ⟨s, hcached, houtside⟩ := hcached
  exact ⟨s, hcached, congrArg Prod.snd houtside⟩

/-- An edit that names a date nobody can read after a value that fits. -/
def unreadableEdit : ItemCall :=
  .edit "ID" (.int 1) [("NAME", .text "x"), ("CREATED", .text "today")]

end Facade

open Facade

/-- **Nothing is run before everything is checked.**  A reply to a client's query is the failure of
the first stage that fails, and then nothing was run and no site changed, or it comes of the read of
the plan, or of its aggregate and at most one lookup.  A call on items of a known table, whose
columns are named by texts, fails after its description and runs nothing where one of its conversions
fails, the calendar apart, and otherwise runs its operation once and nothing else. -/
theorem checks_precede_runs (cache : Cache σ) (s : Site (σ × List Ran)) :
    (∀ table schema query reply s',
      (runClient (recording cache.backend) table schema cache.config query).execute s =
        (.ok reply, s') →
      (∀ failure, reply = .error failure → failure.kind.IsOfChecks →
        FailsFirst table schema cache.config query failure ∧ s' = s) ∧
      ((∀ failure, reply = .error failure → ¬ failure.kind.IsOfChecks) →
        ∃ plan runs, planOfClient table schema cache.config query = .ok (.ok plan) ∧
          s'.ran = s.ran ++ runs ∧ PlanRan plan runs reply)) ∧
    ∀ table schema call, IsCached (recorded cache) table schema s →
      (∀ k, ∀ v ∈ schema.columns.of k, v.isText = true) → ItemCall.IsSelective call →
      .error .outOfRange ∉ call.conversions cache.config schema →
      ((∃ x ∈ call.conversions cache.config schema, ∃ f, x = .error f) →
        ∃ cause s', .error (.coercion cause) ∈ call.conversions cache.config schema ∧
          (call.action (recorded cache) table).execute s =
            (.error (call.refusal table cause), s') ∧
              s'.outside = s.outside ∧ s'.folder = s.folder) ∧
      ((∀ x ∈ call.conversions cache.config schema, ∃ w, x = .ok w) →
        ∃ operation outcome, call.operation cache.config table schema = .ok operation ∧
          ((call.action (recorded cache) table).execute s).2.ran =
            s.ran ++ [⟨operation, outcome⟩]) := by
  refine ⟨?_, ?_⟩
  · intro table schema query reply s' h
    rcases runClient_cases h with ⟨failure, hfails, rfl, rfl⟩ | ⟨plan, runs, hplan, hran, hruns⟩
    · refine ⟨?_, ?_⟩
      · intro failure' hsame _
        cases hsame
        exact ⟨hfails, rfl⟩
      · intro hkind
        exact absurd hfails.kind (hkind failure rfl)
    · refine ⟨?_, fun _ => ⟨plan, runs, hplan, hran, hruns⟩⟩
      intro failure hreply hkind
      rw [hruns.kind hreply] at hkind
      rcases hkind with hkind | hkind | hkind
      all_goals cases hkind
  · intro table schema call hcached htext hselect hcalendar
    rcases itemCall_cases hcached htext hselect hcalendar with
      hunfit | ⟨hfit, hruns⟩
    · refine ⟨fun _ => hunfit, ?_⟩
      intro hfit
      obtain ⟨cause, -, hcause, -⟩ := hunfit
      obtain ⟨w, hw⟩ := hfit _ hcause
      cases hw
    · refine ⟨?_, fun _ => hruns⟩
      rintro ⟨x, hx, f, rfl⟩
      obtain ⟨w, hw⟩ := hfit _ hx
      cases hw

namespace Facade

theorem checks_precede_runs_mixedSchema :
    ∃ s : Site (Unit × List Ran), IsCached (recorded emptyCache) "T" mixedSchema s ∧ s.ran = [] ∧
      (∃ (query : Value) (reply : Reply Value) (s' : Site (Unit × List Ran)) (plan : Plan)
        (runs : List Ran),
        (runClient (recording emptyCache.backend) (.text "T") (some mixedSchema) storeConfig
          query).execute s = (.ok reply, s') ∧
        planOfClient (.text "T") (some mixedSchema) storeConfig query = .ok (.ok plan) ∧
          s'.ran = runs ∧ PlanRan plan runs reply) ∧
      ∃ cause s', (unreadableEdit.action (recorded emptyCache) "T").execute s =
        (.error (.reported ⟨.coercion,
          "Failed to edit item 1 in table T: " ++ CoercionFault.message cause⟩), s') ∧
            s'.ran = [] := by
  obtain ⟨s, hcached, hran⟩ := exists_isCached_mixedSchema
  obtain ⟨hqueries, hcalls⟩ := checks_precede_runs emptyCache s
  have hquery : ∃ s', (runClient (recording emptyCache.backend) (.text "T") (some mixedSchema)
      storeConfig (.object [("MIN", .text "ID")])).execute s = (.ok (.ok (.list [])), s') :=
    ⟨_, rfl⟩
  obtain ⟨s', hquery⟩ := hquery
  obtain ⟨plan, runs, hplan, hruns, hplanRan⟩ :=
    (hqueries (.text "T") (some mixedSchema) (.object [("MIN", .text "ID")]) _ s' hquery).2
      fun failure h => nomatch h
  rw [hran, List.nil_append] at hruns
  have hconversions : unreadableEdit.conversions storeConfig mixedSchema =
      [.ok (.int 1), .ok (.text "x"),
        .error (.coercion (.timestampText "today" (.unexpected "year" 't' 0 false)))] := rfl
  have hcall := hcalls "T" mixedSchema unreadableEdit hcached isText_mixedSchema trivial
    (by show _ ∉ unreadableEdit.conversions storeConfig mixedSchema; rw [hconversions]; simp)
  have hunread : .error (.coercion (.timestampText "today" (.unexpected "year" 't' 0 false))) ∈
      unreadableEdit.conversions storeConfig mixedSchema := by
    rw [hconversions]
    simp
  obtain ⟨cause, s₁, hcause, hedit, houtside, -⟩ := hcall.1 ⟨_, hunread, _, rfl⟩
  have hrefusal : unreadableEdit.refusal "T" cause =
      .reported ⟨.coercion, "Failed to edit item 1 in table T: " ++ CoercionFault.message cause⟩ := by
    rw [show ItemCall.conversions emptyCache.config mixedSchema unreadableEdit = _ from
      hconversions] at hcause
    simp only [List.mem_cons, reduceCtorEq, Except.error.injEq, Fault.coercion.injEq,
      List.not_mem_nil, or_false, false_or] at hcause
    rw [hcause]
    rfl
  rw [hrefusal] at hedit
  refine ⟨s, hcached, hran, ⟨_, _, s', plan, runs, hquery, hplan, hruns, hplanRan⟩,
    cause, s₁, hedit, ?_⟩
  rw [Site.ran, houtside]
  exact hran

/-- A column that is named by a number has no case, so a record that names another column fails
without a description, and it is no fault of coercion; and where the columns are named by texts, a
record whose timestamp is an integer that is too long to write is not reported either. -/
theorem addItem_unreported :
    (¬ ∀ (cache : Cache Unit) (s : Site (Unit × List Ran)) (table : String) (schema : TableSchema)
        (call : ItemCall), IsCached (recorded cache) table schema s → call.IsSelective →
      .error .outOfRange ∉ call.conversions cache.config schema →
      (∃ x ∈ call.conversions cache.config schema, ∃ f, x = .error f) →
        ∃ detail, ((call.action (recorded cache) table).execute s).1 =
          .error (.reported ⟨.coercion, call.attempt table ++ ": " ++ detail⟩)) ∧
      ∃ s : Site (Unit × List Ran), IsCached (recorded emptyCache) "T" mixedSchema s ∧
        (((ItemCall.add [("CREATED", .int Number.leastUnwritten)]).action
          (recorded emptyCache) "T").execute s).1 = .error (.badArgument .integerToWrite) := by
  constructor
  · intro h
    obtain ⟨s, hcached, -⟩ := exists_isCached_numberedSchema
    have hconversions : (ItemCall.add [("B", .int 1)]).conversions storeConfig numberedSchema =
      [.error .noSuchOperation] := rfl
    obtain ⟨detail, hdetail⟩ := h emptyCache s "T" numberedSchema (.add [("B", .int 1)]) hcached
      trivial (by
        show _ ∉ (ItemCall.add [("B", .int 1)]).conversions storeConfig numberedSchema
        rw [hconversions]
        simp)
      ⟨.error .noSuchOperation, by
        show _ ∈ (ItemCall.add [("B", .int 1)]).conversions storeConfig numberedSchema
        rw [hconversions]
        simp, _, rfl⟩
    have hmake : (ItemCall.add [("B", .int 1)]).operation emptyCache.config "T" numberedSchema =
      .error .noSuchOperation := rfl
    have hfails := congrArg Prod.fst (execute_action_unfit hcached (.add _) trivial hmake)
    cases hfails.symm.trans hdetail
  · obtain ⟨s, hcached, -⟩ := exists_isCached_mixedSchema
    have hunreported : ∀ n, Number.isWritten n = false →
        (((ItemCall.add [("CREATED", .int n)]).action (recorded emptyCache) "T").execute s).1 =
          .error (.badArgument .integerToWrite) := by
      intro n hn
      have hmake : (ItemCall.add [("CREATED", .int n)]).operation emptyCache.config "T" mixedSchema =
        .error (.coercion (.timestampKind (.int n))) := rfl
      have hlong : (Fault.coercion (.timestampKind (.int n))).isWritable = false :=
        (Fault.isWritable_of_mentioned (v := .int n) rfl).trans hn
      have hunfit := execute_action_unfit hcached (.add _) trivial hmake
      rw [ItemCall.capture_ended, ItemCall.refusal, hlong, Bool.and_false] at hunfit
      exact congrArg Prod.fst hunfit
    exact ⟨s, hcached, hunreported _ Number.isWritten_leastUnwritten⟩

end Facade

end RowAccess
