import RowAccess.Proofs.Operation.ConversionFault
import RowAccess.Proofs.Operation.Day

/-
  RowAccess/Proofs/Operation/Neutral.lean
  =======================================
  **Compiling depends on the dialect in its date literals only.**  Compiled for the two dialects, a
  query ends with the same fault at the first value that does not fit its column, or with plans that
  are the same but for literals of the same day.  What is no failure escapes in both dialects: an
  overflow of the calendar, a column looked up among names that have no case, and an integer of more
  digits than a refusal can show (`plan_neutral_iff`).
-/

namespace RowAccess

open DateLiteral Outcome

namespace Outcome

variable {ε α β γ δ : Type}

theorem findSome?_cons_eq_or (f : α → Option β) (a : α) (as : List α) :
    (a :: as).findSome? f = (f a).or (as.findSome? f) := by
  rw [List.findSome?_cons]
  cases f a <;> rfl

theorem findSome?_flatMap (f : β → Option γ) (g : α → List β) (as : List α) :
    (as.flatMap g).findSome? f = as.findSome? fun a => (g a).findSome? f := by
  induction as with
  | nil => rfl
  | cons a as ih => rw [List.flatMap_cons, List.findSome?_append, findSome?_cons_eq_or, ih]

/-- The error that an outcome fails with. -/
def error? : Except ε α → Option ε
  | .error e => some e
  | .ok _ => none

/-- Two outcomes that have related values, or fail with the one error that is named. -/
inductive Twins (R : α → β → Prop) : Option ε → Except ε α → Except ε β → Prop
  | ok {a : α} {b : β} (h : R a b) : Twins R none (.ok a) (.ok b)
  | error (e : ε) : Twins R (some e) (.error e) (.error e)

namespace Twins

variable {R : α → β → Prop} {S : γ → δ → Prop} {o o' : Option ε} {x : Except ε α} {y : Except ε β}

/-- A sequence fails with the error of its first part, or else with that of its second. -/
theorem bind {f : α → Except ε γ} {g : β → Except ε δ} (h : Twins R o x y)
    (hfg : ∀ a b, R a b → Twins S o' (f a) (g b)) : Twins S (o.or o') (x >>= f) (y >>= g) := by
  cases h with
  | ok h => exact hfg _ _ h
  | error e => exact .error e

theorem map {f : α → γ} {g : β → δ} (h : Twins R o x y) (hfg : ∀ a b, R a b → S (f a) (g b)) :
    Twins S o (x.map f) (y.map g) := by
  cases h with
  | ok h => exact .ok (hfg _ _ h)
  | error e => exact .error e

theorem bind_pure {f : α → γ} {g : β → δ} (h : Twins R o x y)
    (hfg : ∀ a b, R a b → S (f a) (g b)) :
    Twins S o (x >>= fun a => pure (f a)) (y >>= fun b => pure (g b)) := by
  rw [bind_pure_eq_map, bind_pure_eq_map]
  exact h.map hfg

/-- A list fails with the first error of its entries. -/
theorem mapM {κ : Type} {f : κ → Except ε α} {g : κ → Except ε β} {fault : κ → Option ε}
    (h : ∀ k, Twins R (fault k) (f k) (g k)) (ks : List κ) :
    Twins (List.Forall₂ R) (ks.findSome? fault) (ks.mapM f) (ks.mapM g) := by
  induction ks with
  | nil => exact .ok .nil
  | cons k ks ih =>
    rw [List.mapM_cons, List.mapM_cons, findSome?_cons_eq_or]
    exact (h k).bind fun a b hab => ih.bind_pure fun as bs hs => .cons hab hs

end Twins

end Outcome

/-! ## Plans of the same days -/

/-- The same value, or literals of one day in either dialect. -/
inductive Value.SameDays : Value → Value → Prop
  | same (v : Value) : SameDays v v
  | day {l m : DateLiteral} {d : Date} (hl : oracleDay? l = some d) (hm : mysqlDay? m = some d) :
    SameDays (.dateLiteral l) (.dateLiteral m)

inductive Clause.SameDays : Clause → Clause → Prop
  | comparison (column : Value) (comparator : Comparator) {v w : Value} (h : v.SameDays w) :
    SameDays (.comparison ⟨column, comparator, v⟩) (.comparison ⟨column, comparator, w⟩)
  | like (l : Like) : SameDays (.like l) (.like l)
  | membership (column : Value) {v w : Value} {vs ws : List Value} (h : v.SameDays w)
      (hs : List.Forall₂ Value.SameDays vs ws) :
    SameDays (.membership ⟨column, v, vs⟩) (.membership ⟨column, w, ws⟩)
  | range (column : Value) {low low' high high' : Value} (hlow : low.SameDays low')
      (hhigh : high.SameDays high') :
    SameDays (.range ⟨column, low, high⟩) (.range ⟨column, low', high'⟩)

/-- Steps of one kind whose clauses are of the same days, and with all else the same. -/
inductive Step.SameDays : Step → Step → Prop
  | select (columns : List Value) : SameDays (.select columns) (.select columns)
  | starter (kind : StarterKind) {c d : Clause} (h : c.SameDays d) :
    SameDays (.starter ⟨kind, c⟩) (.starter ⟨kind, d⟩)
  | andWhere {c d : Clause} (h : c.SameDays d) : SameDays (.andWhere c) (.andWhere d)
  | orWhere {c d : Clause} (h : c.SameDays d) : SameDays (.orWhere c) (.orWhere d)
  | orWhereIn {c d : Clause} (h : c.SameDays d) : SameDays (.orWhereIn c) (.orWhereIn d)
  | limit (count : Value) : SameDays (.limit count) (.limit count)
  | order (terms : List OrderTerm) : SameDays (.order terms) (.order terms)

inductive Plan.SameDays : Plan → Plan → Prop
  | scan (table : Value) {steps steps' : List Step} (h : List.Forall₂ Step.SameDays steps steps') :
    SameDays (.scan table steps) (.scan table steps')
  | aggregate (query : AggregateQuery) : SameDays (.aggregate query) (.aggregate query)

/-- Plans of the same days, or the same failure of coercion. -/
inductive NeutralReplies : Except Fault (Reply Plan) → Except Fault (Reply Plan) → Prop
  | plans {p p' : Plan} (h : p.SameDays p') : NeutralReplies (.ok (.ok p)) (.ok (.ok p'))
  | failure (detail : String) :
    NeutralReplies (.ok (.error ⟨.coercion, detail⟩)) (.ok (.error ⟨.coercion, detail⟩))

/-! ## Values that meet their columns -/

/-- The columns and the values that a clause compares; a pattern is no value. -/
def Clause.compared : Clause → List (Value × Value)
  | .comparison c => [(c.column, c.value)]
  | .like _ => []
  | .membership m => m.values.map fun v => (m.column, v)
  | .range r => [(r.column, r.low), (r.column, r.high)]

/-- The clauses of a query, in the order in which they are compiled. -/
def Query.clauses (q : Query) : List Clause :=
  q.starter.toList.map (·.clause) ++ q.andWhere.map .comparison ++ q.orWhere.map .comparison ++
    q.orWhereIn.map .membership

def Query.compared (q : Query) : List (Value × Value) :=
  q.clauses.flatMap Clause.compared

namespace Storage

variable (schema : Option TableSchema)

/-- Can the value be put into the form for its column? -/
def Fits (e : Value × Value) : Prop :=
  ∃ category, categoryIn? schema e.1 = .ok category ∧
    (category = some .timestamp → ∃ t, Conversion.timestampOf e.2 = .ok t)

/-- Does the value end the compiling with a fault that is no failure?  Its column cannot be looked
up, or in a column of timestamps it is a text past the end of the calendar, or it holds an integer of
more digits than its refusal can show. -/
def Escapes (e : Value × Value) : Prop :=
  (∃ f, categoryIn? schema e.1 = .error f) ∨ categoryIn? schema e.1 = .ok (some .timestamp) ∧
    ((∃ s, e.2 = .text s ∧ Iso.read (Text.strip s) = .error .pastCalendar) ∨
      e.2.isWritable = false)

end Storage

/-- Is the first value that does not fit its column one that escapes? -/
def Query.Escapes (schema : Option TableSchema) (q : Query) : Prop :=
  q.aggregate = none ∧ ∃ before e after, q.compared = before ++ e :: after ∧
    (∀ e' ∈ before, Storage.Fits schema e') ∧ Storage.Escapes schema e

/-- The configuration with another dialect. -/
def Config.over (c : Config) (dialect : Dialect) : Config :=
  { c with dialect }

/-! ## Clauses -/

namespace Storage

variable (schema : Option TableSchema) (c : Config)

/-- The fault that a value of a category meets. -/
def faultIn? (category : Category) (v : Value) : Option Fault :=
  match category with
  | .timestamp => error? (Conversion.timestampOf v)
  | _ => none

/-- The fault that a value meets in its column. -/
def fault? (e : Value × Value) : Option Fault :=
  match categoryIn? schema e.1 with
  | .error f => some f
  | .ok none => none
  | .ok (some category) => faultIn? category e.2

theorem twins_value (category : Category) (v : Value) :
    Twins Value.SameDays (faultIn? category v) (value (c.over .oracle) category v)
      (value (c.over .mysql) category v) := by
  cases category with
  | timestamp =>
    show Twins _ (error? (Conversion.timestampOf v)) ((Conversion.comparisonDate _ v).map _)
      ((Conversion.comparisonDate _ v).map _)
    unfold Conversion.comparisonDate
    cases Conversion.timestampOf v with
    | error f => exact .error f
    | ok t =>
      exact .ok (.day (Conversion.oracleDay?_comparedDate (c.over .oracle) rfl t)
        (Conversion.mysqlDay?_comparedDate (c.over .mysql) rfl t))
  | _ => exact .ok (.same _)

/-- The first fault that values of a column meet. -/
def columnFault? (column : Value) (vs : List Value) : Option Fault :=
  match categoryIn? schema column with
  | .error f => some f
  | .ok none => none
  | .ok (some category) => vs.findSome? (faultIn? category)

theorem findSome?_fault? (column v : Value) (vs : List Value) :
    ((v :: vs).map fun w => (column, w)).findSome? (fault? schema) =
      columnFault? schema column (v :: vs) := by
  rw [columnFault?, List.findSome?_map]
  unfold fault? Function.comp
  dsimp only
  rcases categoryIn? schema column with f | _ | category
  · rfl
  · simp
  · rfl

/-- What is converted for its column ends in the same days when it does so in every category. -/
theorem twins_onColumn {α : Type} {R : α → α → Prop} {f g : Category → α → Except Fault α}
    {vs : List Value} (column : Value) {a : α} (hsame : R a a)
    (h : ∀ k, Twins R (vs.findSome? (faultIn? k)) (f k a) (g k a)) :
    Twins R (columnFault? schema column vs) (onColumn schema column f a)
      (onColumn schema column g a) := by
  unfold columnFault? onColumn
  rcases categoryIn? schema column with e | _ | category
  · exact .error e
  · exact .ok hsame
  · exact h category

end Storage

section Clauses

open Storage

variable (schema : Option TableSchema) (c : Config)

theorem Comparison.twins_forStorage (clause : Comparison) :
    Twins (fun a b => Clause.SameDays (.comparison a) (.comparison b))
      ((Clause.comparison clause).compared.findSome? (fault? schema))
      (clause.forStorage schema (c.over .oracle)) (clause.forStorage schema (c.over .mysql)) := by
  have hfault : (Clause.comparison clause).compared.findSome? (fault? schema) =
      columnFault? schema clause.column [clause.value] :=
    findSome?_fault? schema clause.column clause.value []
  rw [hfault]
  refine twins_onColumn schema _ (.comparison _ _ (.same _)) fun k => ?_
  rw [List.findSome?_singleton]
  exact (twins_value c k clause.value).bind_pure fun v w h => .comparison _ _ h

theorem Membership.twins_forStorage (clause : Membership) :
    Twins (fun a b => Clause.SameDays (.membership a) (.membership b))
      ((Clause.membership clause).compared.findSome? (fault? schema))
      (clause.forStorage schema (c.over .oracle)) (clause.forStorage schema (c.over .mysql)) := by
  have hfault : (Clause.membership clause).compared.findSome? (fault? schema) =
      columnFault? schema clause.column clause.values :=
    findSome?_fault? schema clause.column clause.first clause.rest
  have hsame : Clause.SameDays (.membership clause) (.membership clause) :=
    .membership _ (.same _) (List.forall₂_same.2 fun v _ => .same v)
  rw [hfault]
  refine twins_onColumn schema _ hsame fun k => ?_
  rw [Membership.values, findSome?_cons_eq_or]
  refine (twins_value c k clause.first).bind fun v w h => ?_
  exact (Twins.mapM (twins_value c k) clause.rest).bind_pure fun vs ws hs => .membership _ h hs

theorem Range.twins_forStorage (clause : Range) :
    Twins (fun a b => Clause.SameDays (.range a) (.range b))
      ((Clause.range clause).compared.findSome? (fault? schema))
      (clause.forStorage schema (c.over .oracle)) (clause.forStorage schema (c.over .mysql)) := by
  have hfault : (Clause.range clause).compared.findSome? (fault? schema) =
      columnFault? schema clause.column [clause.low, clause.high] :=
    findSome?_fault? schema clause.column clause.low [clause.high]
  rw [hfault]
  refine twins_onColumn schema _ (.range _ (.same _) (.same _)) fun k => ?_
  rw [findSome?_cons_eq_or, List.findSome?_singleton]
  refine (twins_value c k clause.low).bind fun low low' hlow => ?_
  exact (twins_value c k clause.high).bind_pure fun high high' hhigh => .range _ hlow hhigh

theorem Clause.twins_forStorage (clause : Clause) :
    Twins Clause.SameDays (clause.compared.findSome? (fault? schema))
      (clause.forStorage schema (c.over .oracle)) (clause.forStorage schema (c.over .mysql)) := by
  cases clause with
  | comparison clause => exact (clause.twins_forStorage schema c).map fun _ _ h => h
  | like l => exact .ok (.like l)
  | membership clause => exact (clause.twins_forStorage schema c).map fun _ _ h => h
  | range clause => exact (clause.twins_forStorage schema c).map fun _ _ h => h

/-! ## Queries -/

/-- The first fault that a value of the query meets. -/
def Query.fault? (q : Query) : Option Fault :=
  q.compared.findSome? (Storage.fault? schema)

theorem Query.fault?_eq (q : Query) :
    q.fault? schema =
      ((q.starter.bind fun s => s.clause.compared.findSome? (Storage.fault? schema)).or
        ((q.andWhere.findSome? fun a =>
            (Clause.comparison a).compared.findSome? (Storage.fault? schema)).or
          ((q.orWhere.findSome? fun a =>
              (Clause.comparison a).compared.findSome? (Storage.fault? schema)).or
            (q.orWhereIn.findSome? fun m =>
              (Clause.membership m).compared.findSome? (Storage.fault? schema))))) := by
  rw [Query.fault?, Query.compared, Query.clauses, findSome?_flatMap]
  simp only [List.findSome?_append, List.findSome?_map, Option.or_assoc, Function.comp_def]
  cases q.starter with
  | none => rfl
  | some s => rw [Option.toList_some, List.findSome?_singleton, Option.bind_some]

theorem Query.twins_starter (o : Option Starter) :
    Twins (fun s t => List.Forall₂ Step.SameDays (s.toList.map .starter) (t.toList.map .starter))
      (o.bind fun s => s.clause.compared.findSome? (Storage.fault? schema))
      (o.mapM fun s => do
        return Starter.mk s.kind (← s.clause.forStorage schema (c.over .oracle)))
      (o.mapM fun s => do
        return Starter.mk s.kind (← s.clause.forStorage schema (c.over .mysql))) := by
  cases o with
  | none => exact .ok .nil
  | some s =>
    have hstarter : Twins (fun s t => Step.SameDays (.starter s) (.starter t))
        (s.clause.compared.findSome? (Storage.fault? schema))
        (do return Starter.mk s.kind (← s.clause.forStorage schema (c.over .oracle)))
        (do return Starter.mk s.kind (← s.clause.forStorage schema (c.over .mysql))) :=
      (s.clause.twins_forStorage schema c).bind_pure fun d e h => .starter s.kind h
    exact hstarter.map fun s t h => .cons h .nil

theorem Query.twins_steps (q : Query) :
    Twins (List.Forall₂ Step.SameDays) (q.fault? schema) (q.steps schema (c.over .oracle))
      (q.steps schema (c.over .mysql)) := by
  rw [Query.fault?_eq]
  refine (twins_starter schema c q.starter).bind fun starter starter' hstarter => ?_
  refine (Twins.mapM (Comparison.twins_forStorage schema c) q.andWhere).bind
    fun ands ands' hand => ?_
  refine (Twins.mapM (Comparison.twins_forStorage schema c) q.orWhere).bind
    fun ors ors' hor => ?_
  refine (Twins.mapM (Membership.twins_forStorage schema c) q.orWhereIn).bind_pure
    fun ins ins' hin => ?_
  have hsame : ∀ {α : Type} (f : α → Step), (∀ a, Step.SameDays (f a) (f a)) → ∀ o : Option α,
      List.Forall₂ Step.SameDays (o.toList.map f) (o.toList.map f) := by
    intro α f hf o
    refine List.forall₂_same.2 fun s hs => ?_
    obtain ⟨a, -, rfl⟩ := List.mem_map.1 hs
    exact hf a
  have hclauses : ∀ {α : Type} {as bs : List α} (f : α → Clause) (g : Clause → Step),
      (∀ c d, c.SameDays d → (g c).SameDays (g d)) →
        List.Forall₂ (fun a b => (f a).SameDays (f b)) as bs →
          List.Forall₂ Step.SameDays ((as.map f).map g) ((bs.map f).map g) := by
    intro α as bs f g hg h
    rw [List.map_map, List.map_map, List.forall₂_map_left_iff, List.forall₂_map_right_iff]
    exact h.imp fun a b hab => hg _ _ hab
  unfold Chain.form
  refine List.rel_append (List.rel_append (List.rel_append (List.rel_append (List.rel_append
    (List.rel_append ?_ hstarter) ?_) ?_) ?_) ?_) ?_
  · exact hsame .select .select _
  · exact hclauses .comparison .andWhere (fun _ _ h => .andWhere h) hand
  · exact hclauses .comparison .orWhere (fun _ _ h => .orWhere h) hor
  · exact hclauses .membership .orWhereIn (fun _ _ h => .orWhereIn h) hin
  · exact hsame .limit .limit _
  · exact hsame .order .order _

end Clauses

/-! ## Faults -/

theorem TableSchema.lookup_eq_error {schema : TableSchema} {column : Value} {f : Fault}
    (h : schema.lookup column = .error f) : f = .noSuchOperation := by
  have hcaseless : ∀ (lowered : Value) (entries : List (Value × Category)),
      Only (· = .noSuchOperation) (caselessCategory? lowered entries) := by
    intro lowered entries
    induction entries with
    | nil => exact .ok _
    | cons e r ih =>
      rw [caselessCategory?]
      split
      · exact .error rfl
      · split
        · exact .ok _
        · exact ih
  unfold lookup at h
  split at h
  · cases h
  · split at h
    · exact hcaseless _ _ f h
    · cases h
      rfl

theorem Conversion.timestampOf_eq_outOfRange_iff {v : Value} :
    timestampOf v = .error .outOfRange ↔
      ∃ s, v = .text s ∧ Iso.read (Text.strip s) = .error .pastCalendar := by
  have hzone : ∀ t : Timestamp,
      (if t.isNaive then return t else throw (.coercion (.zoned v)) : Except Fault Timestamp) ≠
        .error .outOfRange := by
    intro t
    split <;> exact fun h => by cases h
  constructor
  · intro h
    unfold timestampOf at h
    cases v with
    | text s =>
      rcases bind_eq_error_iff.1 h with htext | ⟨t, -, hnaive⟩
      · unfold timestampOfText at htext
        split at htext
        · cases htext
        next hread => exact ⟨s, rfl, hread⟩
        · cases htext
      · exact absurd hnaive (hzone t)
    | timestamp t => exact absurd h (hzone t)
    | date d => exact absurd h (hzone (Timestamp.midnight d))
    | _ => cases h
  · rintro ⟨s, rfl, hread⟩
    unfold timestampOf timestampOfText
    dsimp only
    rw [hread]
    rfl

/-- Is the fault one that escapes the compiling? -/
def Fault.IsEscape (f : Fault) : Prop :=
  f = .outOfRange ∨ f = .noSuchOperation ∨ (∃ cause, f = .coercion cause) ∧ f.isWritable = false

/-- What comes of a fault that escapes is no failure, and no breach. -/
theorem Fault.IsEscape.capture_error {f : Fault} (h : f.IsEscape) {α : Type} :
    ∃ g, capture (.error f : Except Fault α) = .error g ∧ ∀ b, g ≠ .breach b := by
  rcases h with rfl | rfl | ⟨⟨cause, rfl⟩, hlong⟩
  · exact ⟨_, rfl, nofun⟩
  · exact ⟨_, rfl, nofun⟩
  · refine ⟨.badArgument .integerToWrite, ?_, nofun⟩
    rw [capture_of_failure? rfl, hlong]
    rfl

namespace Storage

variable {schema : Option TableSchema} {e : Value × Value}

theorem fault?_eq_none_iff : fault? schema e = none ↔ Fits schema e := by
  unfold fault? Fits
  rcases categoryIn? schema e.1 with f | _ | category
  · simp
  · simp
  · cases category with
    | timestamp =>
      cases htime : Conversion.timestampOf e.2 <;> simp [faultIn?, htime, error?]
    | _ => simp [faultIn?]

/-- The fault of a value is one of coercion where the value does not escape. -/
theorem fault?_eq_some {f : Fault} (h : fault? schema e = some f) :
    ((∃ cause, f = .coercion cause) ∧ f.isWritable = true) ∧ ¬ Escapes schema e ∨
      f.IsEscape ∧ Escapes schema e := by
  unfold fault? at h
  rcases hcategory : categoryIn? schema e.1 with f' | _ | category
  · rw [hcategory] at h
    cases h
    refine .inr ⟨.inr (.inl ?_), .inl ⟨f, hcategory⟩⟩
    cases schema with
    | none => cases hcategory
    | some t => exact TableSchema.lookup_eq_error hcategory
  · rw [hcategory] at h
    cases h
  · rw [hcategory] at h
    cases category with
    | timestamp =>
      have htime : Conversion.timestampOf e.2 = .error f := by
        dsimp only [faultIn?] at h
        cases htime : Conversion.timestampOf e.2 with
        | error f' =>
          rw [htime] at h
          rw [Option.some.inj h]
        | ok t =>
          rw [htime] at h
          cases h
      rcases Conversion.only_timestampOf e.2 f htime with ⟨cause, rfl⟩ | rfl
      · have hshown := Conversion.isWritable_of_timestampOf htime
        cases hwritable : e.2.isWritable with
        | false =>
          rw [hwritable] at hshown
          exact .inr ⟨.inr (.inr ⟨⟨cause, rfl⟩, hshown⟩), .inr ⟨hcategory, .inr hwritable⟩⟩
        | true =>
          rw [hwritable] at hshown
          refine .inl ⟨⟨⟨cause, rfl⟩, hshown⟩, ?_⟩
          rintro (⟨f', hf'⟩ | ⟨-, hpast | hlong⟩)
          · rw [hcategory] at hf'
            cases hf'
          · rw [Conversion.timestampOf_eq_outOfRange_iff.2 hpast] at htime
            cases htime
          · rw [hwritable] at hlong
            cases hlong
      · exact .inr ⟨.inl rfl,
          .inr ⟨hcategory, .inl (Conversion.timestampOf_eq_outOfRange_iff.1 htime)⟩⟩
    | _ => cases h

end Storage

/-! ## Plans -/

namespace Query

variable {table : Value} {schema : Option TableSchema} {c : Config} {q : Query}

theorem plan_of_steps {steps : List Step} (hq : q.aggregate = none)
    (h : q.steps schema c = .ok steps) :
    q.plan table schema c = .ok (.ok (.scan table steps)) := by
  have hrun : ∃ d, steps.foldlM Chain.add Chain.empty = .ok d ∧ d.Live := by
    unfold Query.steps at h
    obtain ⟨starter, -, h⟩ := bind_eq_ok_iff.1 h
    obtain ⟨ands, -, h⟩ := bind_eq_ok_iff.1 h
    obtain ⟨ors, -, h⟩ := bind_eq_ok_iff.1 h
    obtain ⟨ins, -, h⟩ := bind_eq_ok_iff.1 h
    cases h
    exact Chain.exists_run_form _ _ _ _ _ _ _
  obtain ⟨d, hd, hlive⟩ := hrun
  have hsteps := Chain.steps_run hd
  unfold plan
  rw [hq]
  dsimp only
  rw [h, ok_bind, hd, ok_bind, Chain.build, if_neg hlive.unbuilt, ok_bind]
  dsimp only
  rw [hsteps]
  rfl

theorem plan_of_fault {f : Fault} (hq : q.aggregate = none) (h : q.steps schema c = .error f) :
    q.plan table schema c = capture (.error f) := by
  unfold plan
  rw [hq]
  dsimp only
  rw [h]
  rfl

theorem fault?_eq_some_iff {f : Fault} :
    q.fault? schema = some f ↔ ∃ before e after, q.compared = before ++ e :: after ∧
      Storage.fault? schema e = some f ∧ ∀ e' ∈ before, Storage.Fits schema e' := by
  rw [fault?, List.findSome?_eq_some_iff]
  simp only [Storage.fault?_eq_none_iff]

theorem fault?_cases {f : Fault} (h : q.fault? schema = some f) :
    ((∃ cause, f = .coercion cause) ∧ f.isWritable = true) ∨ f.IsEscape := by
  obtain ⟨before, e, after, -, hfault, -⟩ := fault?_eq_some_iff.1 h
  rcases Storage.fault?_eq_some hfault with ⟨hcause, -⟩ | ⟨hescape, -⟩
  · exact .inl hcause
  · exact .inr hescape

theorem escapes_iff (hq : q.aggregate = none) :
    q.Escapes schema ↔ ∃ f, q.fault? schema = some f ∧ f.IsEscape := by
  constructor
  · rintro ⟨-, before, e, after, hcompared, hbefore, hescapes⟩
    cases hfault : Storage.fault? schema e with
    | none =>
      obtain ⟨category, hcategory, hday⟩ := Storage.fault?_eq_none_iff.1 hfault
      rcases hescapes with ⟨f, hf⟩ | ⟨htimestamp, hpast⟩
      · rw [hcategory] at hf
        cases hf
      · rw [hcategory] at htimestamp
        obtain ⟨t, ht⟩ := hday (Except.ok.inj htimestamp)
        rcases hpast with hpast | hlong
        · rw [Conversion.timestampOf_eq_outOfRange_iff.2 hpast] at ht
          cases ht
        · rw [Conversion.isWritable_of_timestampOf_eq_ok ht] at hlong
          cases hlong
    | some f =>
      refine ⟨f, fault?_eq_some_iff.2 ⟨before, e, after, hcompared, hfault, hbefore⟩, ?_⟩
      rcases Storage.fault?_eq_some hfault with ⟨-, hnot⟩ | ⟨hescape, -⟩
      · exact absurd hescapes hnot
      · exact hescape
  · rintro ⟨f, hf, hescape⟩
    obtain ⟨before, e, after, hcompared, hfault, hbefore⟩ := fault?_eq_some_iff.1 hf
    refine ⟨hq, before, e, after, hcompared, hbefore, ?_⟩
    rcases Storage.fault?_eq_some hfault with ⟨⟨⟨cause, rfl⟩, hwritable⟩, -⟩ | ⟨-, hescapes⟩
    · rcases hescape with h | h | ⟨-, hlong⟩
      · cases h
      · cases h
      · rw [hwritable] at hlong
        cases hlong
    · exact hescapes

end Query

open Query in
/-- **Compiling depends on the dialect in its date literals only.**  In the two dialects a query
compiles to plans of the same days, or fails with the same failure of coercion, unless the first
value that does not fit its column is one that escapes; then the same fault escapes in both. -/
theorem plan_neutral_iff (table : Value) (schema : Option TableSchema) (c : Config) (q : Query) :
    (NeutralReplies (q.plan table schema (c.over .oracle)) (q.plan table schema (c.over .mysql)) ↔
        ¬ q.Escapes schema) ∧
      (q.Escapes schema ↔ ∃ f, q.plan table schema (c.over .oracle) = .error f ∧
        q.plan table schema (c.over .mysql) = .error f) := by
  suffices hcases : (NeutralReplies (q.plan table schema (c.over .oracle))
      (q.plan table schema (c.over .mysql)) ∧ ¬ q.Escapes schema) ∨
        q.Escapes schema ∧ ∃ f, q.plan table schema (c.over .oracle) = .error f ∧
          q.plan table schema (c.over .mysql) = .error f by
    rcases hcases with ⟨hneutral, hnot⟩ | ⟨hescapes, f, horacle, hmysql⟩
    · refine ⟨⟨fun _ => hnot, fun _ => hneutral⟩, fun h => absurd h hnot, ?_⟩
      rintro ⟨f, horacle, -⟩
      rw [horacle] at hneutral
      cases hneutral
    · refine ⟨⟨?_, fun h => absurd hescapes h⟩, fun _ => ⟨f, horacle, hmysql⟩, fun _ => hescapes⟩
      intro hneutral
      rw [horacle] at hneutral
      cases hneutral
  cases hq : q.aggregate with
  | some a =>
    have hplan : ∀ c, q.plan table schema c =
        .ok (.ok (.aggregate ⟨table, a.function, .text a.column⟩)) := by
      intro c
      unfold plan
      rw [hq]
    rw [hplan, hplan]
    refine .inl ⟨.plans (.aggregate _), ?_⟩
    rintro ⟨hnone, -⟩
    cases hq.symm.trans hnone
  | none =>
    rw [escapes_iff hq]
    have htwins := q.twins_steps schema c
    generalize horacle : q.steps schema (c.over .oracle) = stepsOracle at htwins
    generalize hmysql : q.steps schema (c.over .mysql) = stepsMysql at htwins
    cases hfault : q.fault? schema with
    | none =>
      rw [hfault] at htwins
      cases htwins with
      | ok h =>
        rw [plan_of_steps hq horacle, plan_of_steps hq hmysql]
        exact .inl ⟨.plans (.scan table h), by simp⟩
    | some f =>
      rw [hfault] at htwins
      cases htwins with
      | error f =>
        rw [plan_of_fault hq horacle, plan_of_fault hq hmysql]
        rcases fault?_cases hfault with ⟨⟨cause, rfl⟩, hwritable⟩ | hescape
        · rw [capture_of_failure? rfl, if_pos hwritable]
          refine .inl ⟨.failure cause.message, ?_⟩
          rintro ⟨f, hf, hescape⟩
          cases hf
          rcases hescape with h | h | ⟨-, hlong⟩
          · cases h
          · cases h
          · rw [hwritable] at hlong
            cases hlong
        · obtain ⟨g, hg, -⟩ := hescape.capture_error (α := Plan)
          exact .inr ⟨⟨f, rfl, hescape⟩, g, hg, hg⟩

/-- A query for the rows of the last midnight of the calendar. -/
def midnightQuery : Value :=
  .object [("WHERE", .object [("COLUMN", .text "CREATED"),
    ("VALUE", .text "9999-12-31T24:00:00")])]

def createdItems : TableSchema :=
  ⟨.text "ITEMS", .text "ID", some .number,
    { number := [.text "ID"], timestamp := [.text "CREATED"] }, by decide⟩

/-- The overflow of the calendar escapes in both dialects. -/
theorem plan_midnightQuery : ¬ ∀ (table : Value) (schema : Option TableSchema) (c : Config)
    (v : Value) (q : Query), (validate v).1 = .ok (.ok q) →
      NeutralReplies (q.plan table schema (c.over .oracle))
        (q.plan table schema (c.over .mysql)) := by
  intro h
  obtain ⟨q, hq, hplan⟩ : ∃ q, (validate midnightQuery).1 = .ok (.ok q) ∧
      q.plan (.text "ITEMS") (some createdItems) (formattingConfig.over .oracle) =
        .error .outOfRange := ⟨_, rfl, rfl⟩
  have hneutral := h (.text "ITEMS") (some createdItems) formattingConfig midnightQuery q hq
  rw [hplan] at hneutral
  cases hneutral

end RowAccess
