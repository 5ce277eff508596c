import RowAccess.Proofs.Operation.Compiled
import RowAccess.Proofs.Query.Respelled

/-
  RowAccess/Proofs/Operation/NumberOrDate.lean
  ============================================
  **A text is a number or a date as its column says.**  A text of digits may spell both, and the
  check of a range keeps it without knowing the column.  On a column of numbers it becomes the number
  that it spells, as if the number had been given; on a column of timestamps it becomes the literal
  of its date (`plan_by_category`).
-/

namespace RowAccess

open Acceptance Keyed Outcome Storage Validation

/-! ## Dates -/

/-- Does the text spell a date or a timestamp without an offset? -/
def SpellsDate (s : String) : Prop :=
  ∃ t, Iso.read (Text.strip s) = .ok t ∧ t.isNaive = true

namespace SpellsDate

variable {s : String} (h : SpellsDate s)

include h

theorem isTimestampText : Conversion.isTimestampText (.text s) = .ok true := by
  obtain ⟨t, hread, hnaive⟩ := h
  exact isTimestampText_eq_true_iff.2 ⟨s, t, rfl, hread, hnaive⟩

theorem boundOf_text (key : Key) : boundOf key (.text s) = .ok (.text s) := by
  rw [boundOf, h.isTimestampText]
  rfl

theorem exists_comparisonDate (c : Config) :
    ∃ d, Conversion.comparisonDate c (.text s) = .ok d := by
  obtain ⟨t, hread, hnaive⟩ := h
  have htime : Conversion.timestampOf (.text s) = .ok t := by
    simp only [Conversion.timestampOf, Conversion.timestampOfText, hread, ok_bind, if_pos hnaive]
    rfl
  exact ⟨_, by rw [Conversion.comparisonDate, htime]; rfl⟩

end SpellsDate

section Bounds

variable {schema : Option TableSchema} {c : Config}

/-- On a column of timestamps a value is stored as the literal of its date. -/
theorem value_timestamp_eq_ok {v w : Value} (h : Storage.value c .timestamp v = .ok w) :
    ∃ d, Conversion.comparisonDate c v = .ok d ∧ w = .dateLiteral d := by
  obtain ⟨d, hd, hw⟩ := map_eq_ok_iff.1 h
  exact ⟨d, hd, hw.symm⟩

/-- A bound that is stored as a date is the text that was given, since a number is no date. -/
theorem comparisonDate_of_boundOf {key : Key} {v w : Value} {d : DateLiteral}
    (h : boundOf key v = .ok w) (hd : Conversion.comparisonDate c w = .ok d) :
    Conversion.comparisonDate c v = .ok d := by
  rcases boundOf_eq_ok h with ⟨rfl, -⟩ | ⟨n, rfl⟩
  · exact hd
  · cases n <;> cases hd

theorem forStorage_timestamps {a : Range} {d e : DateLiteral}
    (hk : categoryIn? schema a.column = .ok (some .timestamp))
    (hd : Conversion.comparisonDate c a.low = .ok d)
    (he : Conversion.comparisonDate c a.high = .ok e) :
    (Clause.range a).forStorage schema c =
      .ok (.range ⟨a.column, .dateLiteral d, .dateLiteral e⟩) := by
  rw [Clause.forStorage, Range.forStorage, onColumn, hk, ok_bind]
  dsimp only
  rw [Storage.range, Storage.value, Storage.value, hd, he]
  rfl

end Bounds

/-! ## Queries that come to a scan -/

section Scans

variable (schema : Option TableSchema) (c : Config)

/-- A query for rows with its typed form and the steps of its scan. -/
structure ScansAs (q : Fields) (p : Query) (steps : List Step) : Prop where
  names : unknownName? q = none
  aggregates : aggregateOf (presentAggregates q) = .ok none
  rows : rowsOf q = .ok p
  aggregate : p.aggregate = none
  steps : p.steps schema c = .ok steps

variable {schema c} {q : Fields} {p : Query} {steps : List Step}

theorem ScansAs.plan (h : ScansAs schema c q p steps) (table : Value) :
    planOfRecord table schema c q = .ok (.ok (.scan table steps)) := by
  have hchecked : queryOf q = .ok p := by
    rw [queryOf, h.names]
    dsimp only
    rw [h.aggregates]
    exact h.rows
  rw [planOfRecord_of_ok hchecked]
  exact Query.plan_of_steps h.aggregate h.steps

/-- A plan that is a scan has the steps of a query for rows. -/
theorem steps_of_plan {table : Value}
    (h : p.plan table schema c = .ok (.ok (.scan table steps))) :
    p.aggregate = none ∧ p.steps schema c = .ok steps := by
  have haggregate : p.aggregate = none := by
    cases hp : p.aggregate with
    | none => rfl
    | some request =>
      rw [Query.plan, hp] at h
      cases h
  refine ⟨haggregate, ?_⟩
  cases hp : p.steps schema c with
  | error f =>
    rw [Query.plan_of_fault haggregate hp, capture_eq_ok_iff] at h
    cases h
  | ok steps' =>
    rw [Query.plan_of_steps haggregate hp] at h
    cases h
    rfl

/-- A plan that is a scan comes of a query for rows. -/
theorem exists_scansAs {table : Value}
    (h : planOfRecord table schema c q = .ok (.ok (.scan table steps))) :
    ∃ p, ScansAs schema c q p steps := by
  cases hchecked : queryOf q with
  | error f =>
    rw [planOfRecord_of_error hchecked, capture_eq_ok_iff] at h
    cases h
  | ok p =>
    rw [planOfRecord_of_ok hchecked] at h
    obtain ⟨haggregate, hsteps⟩ := steps_of_plan h
    obtain ⟨hnames, haggregates, hrows⟩ := rowsOf_of_queryOf hchecked haggregate
    exact ⟨p, hnames, haggregates, hrows, haggregate, hsteps⟩

/-- A starter that is present is the one of the query. -/
theorem starterOf_of_startOf {kind : StarterKind} {v : Value} {s : Option Starter}
    (hv : find? q kind.name = some v) (h : startOf (presentStarters q) = .ok s) :
    (starterOf kind v).1 = .ok s := by
  have hmem := mem_presentStarters.2 hv
  rcases hlist : presentStarters q with _ | ⟨e, _ | ⟨f, rest⟩⟩
  · rw [hlist] at hmem
    cases hmem
  · rw [hlist] at hmem h
    obtain rfl := List.mem_singleton.1 hmem
    exact h
  · rw [hlist] at h
    cases h

end Scans

/-! ## Ranges of dates -/

section Ranges

variable {schema : Option TableSchema} {c : Config} {table : Value} {kind : StarterKind}
  {q record : Fields} {v w : Value} {steps : List Step}

/-- The starter of a range is checked as the range of its record. -/
theorem exists_range_of_starterOf (hkind : kind = .whereBetween ∨ kind = .whereNotBetween)
    {s : Option Starter} (h : (starterOf kind (.object record)).1 = .ok s) :
    ∃ r, s = some ⟨kind, .range r⟩ ∧ rangeOf ⟨.starter kind, none⟩ record = .ok r := by
  rw [starterOf_fst] at h
  obtain ⟨record', hrecord, h⟩ := bind_eq_ok_iff.1 h
  obtain ⟨⟨clause, left⟩, hclause, h⟩ := bind_eq_ok_iff.1 h
  cases h
  obtain ⟨heq, -⟩ := recordOf_eq_ok hrecord
  cases heq
  cases gives_of_starterClause hclause with
  | range _ hrange => exact ⟨_, rfl, hrange⟩
  | like hlike => rcases hkind with rfl | rfl <;> cases hlike
  | comparison hcomparison =>
    rcases hkind with rfl | rfl <;> rcases hcomparison with h | h <;> cases h
  | membership hmembership =>
    rcases hkind with rfl | rfl <;> rcases hmembership with h | h <;> cases h

/-- The starter of a query stands among its steps, in the terms of storage. -/
theorem exists_starter_of_compilesTo {p : Query} {a : Clause} (hp : p.starter = some ⟨kind, a⟩)
    (h : p.CompilesTo schema c steps) :
    ∃ b, Clause.Rewritten schema c a b ∧ .starter ⟨kind, b⟩ ∈ steps := by
  cases h with
  | mk hstarter =>
    rw [hp] at hstarter
    cases hstarter with
    | @some _ t ht =>
      obtain ⟨kind', b⟩ := t
      obtain ⟨rfl, hrewritten⟩ := ht
      exact ⟨b, hrewritten, by simp⟩

/-- On a column of timestamps a range is stored between the dates of its bounds. -/
theorem rewritten_timestamps {r : Range} {b : Clause}
    (hk : categoryIn? schema r.column = .ok (some .timestamp))
    (h : Clause.Rewritten schema c (.range r) b) :
    ∃ d e, Conversion.comparisonDate c r.low = .ok d ∧ Conversion.comparisonDate c r.high = .ok e ∧
      b = .range ⟨r.column, .dateLiteral d, .dateLiteral e⟩ := by
  cases h with
  | unknown _ hnone =>
    cases hk.symm.trans hnone
  | range hk' hlow hhigh =>
    cases hk.symm.trans hk'
    obtain ⟨d, hd, rfl⟩ := value_timestamp_eq_ok hlow
    obtain ⟨e, he, rfl⟩ := value_timestamp_eq_ok hhigh
    exact ⟨d, e, hd, he, rfl⟩

/-- In the scan of a query, a range on a column of timestamps stands between the dates of its
bounds. -/
theorem range_of_scan (hkind : kind = .whereBetween ∨ kind = .whereNotBetween)
    (hrecord : find? q kind.name = some (.object record))
    (hk : categoryIn? schema (field record .column) = .ok (some .timestamp))
    (hvalues : field record .values = .list [v, w])
    (h : planOfRecord table schema c q = .ok (.ok (.scan table steps))) :
    ∃ d e, Conversion.comparisonDate c v = .ok d ∧ Conversion.comparisonDate c w = .ok e ∧
      .starter ⟨kind, .range ⟨field record .column, .dateLiteral d, .dateLiteral e⟩⟩ ∈ steps := by
  obtain ⟨p, hp⟩ := exists_scansAs h
  obtain ⟨r, hr, hrange⟩ := exists_range_of_starterOf hkind
    (starterOf_of_startOf hrecord (rowsOf_eq_ok_iff.1 hp.rows).starter)
  obtain ⟨hnames, v', w', hlist, hlow, hhigh⟩ := rangeOf_eq_ok_iff.1 hrange
  cases hlist.held.symm.trans hvalues
  have hcolumn : field record .column = r.column := hnames.named
  rw [hcolumn] at hk ⊢
  obtain ⟨t, ht, hstarter⟩ := exists_starter_of_compilesTo hr (Query.compilesTo_of_steps hp.steps)
  obtain ⟨d, e, hd, he, rfl⟩ := rewritten_timestamps hk ht
  exact ⟨d, e, comparisonDate_of_boundOf hlow hd, comparisonDate_of_boundOf hhigh he, hstarter⟩

/-- The typed form of a query with a starter is that of the query without one, and the starter. -/
theorem rowsOf_of_starter {q q' : Fields} {p : Query} {s : Starter}
    (hother : ∀ key : Key, (∀ kind, key ≠ .starter kind) → find? q key.name = find? q' key.name)
    (hrows : rowsOf q' = .ok p) (hs : startOf (presentStarters q) = .ok (some s)) :
    rowsOf q = .ok { p with starter := some s } := by
  have hparts := rowsOf_eq_ok_iff.1 hrows
  refine rowsOf_eq_ok_iff.2 ⟨?_, hs, ?_, ?_, ?_, ?_, ?_, hparts.aggregate⟩
  · rw [hother .select (by simp), hparts.select]
  · rw [hother .andWhere (by simp), hparts.andWhere]
  · rw [hother .orWhere (by simp), hparts.orWhere]
  · rw [hother .orWhereIn (by simp), hparts.orWhereIn]
  · rw [hother .limit (by simp), hparts.limit]
  · rw [hother .order (by simp), hparts.order]

/-- A starter takes its place among the steps of a query that has none. -/
theorem steps_of_starter {p : Query} {a b : Clause} (hp : p.starter = none)
    (hsteps : p.steps schema c = .ok steps) (hb : a.forStorage schema c = .ok b) :
    ∃ before after, steps = before ++ after ∧
      ({ p with starter := some ⟨kind, a⟩ } : Query).steps schema c =
        .ok (before ++ .starter ⟨kind, b⟩ :: after) := by
  obtain ⟨starter, hstarter, h⟩ := bind_eq_ok_iff.1 hsteps
  obtain ⟨ands, hand, h⟩ := bind_eq_ok_iff.1 h
  obtain ⟨ors, hor, h⟩ := bind_eq_ok_iff.1 h
  obtain ⟨ins, hin, h⟩ := bind_eq_ok_iff.1 h
  rw [hp] at hstarter
  cases hstarter
  cases h
  have hwith : ({ p with starter := some ⟨kind, a⟩ } : Query).steps schema c = .ok (Chain.form
      (if p.select.isEmpty then none else some p.select) (some ⟨kind, b⟩)
      (ands.map .comparison) (ors.map .comparison) (ins.map .membership)
      (p.limit.map fun n => .int n) (if p.order.isEmpty then none else some p.order)) := by
    simp only [Query.steps, Option.mapM_some, hb, hand, hor, hin]
    rfl
  have hform : ∀ (select : Option (List Value)) (starter : Option Starter)
      (ands ors ins : List Clause) (limit : Option Value) (order : Option (List OrderTerm)),
      Chain.form select starter ands ors ins limit order = select.toList.map .select ++
        (starter.toList.map .starter ++ Chain.form none none ands ors ins limit order) := by
    intro select starter ands ors ins limit order
    simp [Chain.form]
  rw [hwith, hform, hform _ (some _)]
  exact ⟨_, _, rfl, rfl⟩

/-- The other keys of a query stay where its starter goes. -/
theorem find?_drop_starter (q : Fields) (key : Key) (hkey : key ≠ .starter kind) :
    find? (drop q kind.name) key.name = find? q key.name := by
  have hname : kind.name ≠ key.name := fun heq =>
    hkey (Key.name_injective (j := key) (k := .starter kind) heq.symm)
  exact (exact_of_lawful kind.name).find?_drop_of_ne q hname

theorem presentStarters_drop (hone : ∀ k, k ≠ kind → find? q (StarterKind.name k) = none) :
    presentStarters (drop q kind.name) = [] := by
  refine List.eq_nil_iff_forall_not_mem.2 fun ⟨k, v⟩ hmem => ?_
  have hv : find? (drop q kind.name) (Key.starter k).name = some v := mem_presentStarters.1 hmem
  by_cases hsame : k = kind
  · rw [hsame] at hv
    cases hv.symm.trans (find?_drop_self q kind.name)
  · have hkey : Key.starter k ≠ .starter kind := fun heq => hsame (Key.starter.inj heq)
    rw [find?_drop_starter q _ hkey] at hv
    cases hv.symm.trans (hone k hsame)

theorem unknownName?_of_drop (h : unknownName? (drop q kind.name) = none) :
    unknownName? q = none := by
  rw [unknownName?_eq_none_iff] at h ⊢
  intro name hname
  by_cases hsame : name = kind.name
  · rw [hsame, Key.isName, show kind.name = (Key.starter kind).name from rfl, Key.ofName?_name]
    rfl
  · obtain ⟨e, he, rfl⟩ := List.mem_map.1 hname
    exact h e.1 (List.mem_map.2 ⟨e, by simp [drop, he, hsame], rfl⟩)

/-- A starter takes its place in the scan of the query without it. -/
theorem scan_of_starter {a b : Clause} (hv : find? q kind.name = some v)
    (hone : ∀ k, k ≠ kind → find? q (StarterKind.name k) = none)
    (ha : (starterOf kind v).1 = .ok (some ⟨kind, a⟩)) (hb : a.forStorage schema c = .ok b)
    (h : planOfRecord table schema c (drop q kind.name) = .ok (.ok (.scan table steps))) :
    ∃ before after, steps = before ++ after ∧ planOfRecord table schema c q =
      .ok (.ok (.scan table (before ++ .starter ⟨kind, b⟩ :: after))) := by
  obtain ⟨p, hp⟩ := exists_scansAs h
  have hnone : p.starter = none := by
    have hstart := (rowsOf_eq_ok_iff.1 hp.rows).starter
    rw [presentStarters_drop hone] at hstart
    exact (Except.ok.inj hstart).symm
  have hstart : startOf (presentStarters q) = .ok (some ⟨kind, a⟩) := by
    rw [presentStarters_eq_singleton hv hone]
    exact ha
  have hrows : rowsOf q = .ok { p with starter := some ⟨kind, a⟩ } :=
    rowsOf_of_starter (fun key hkey => (find?_drop_starter q key (hkey kind)).symm) hp.rows hstart
  have haggregates : presentAggregates q = presentAggregates (drop q kind.name) :=
    presentAggregates_congr fun f =>
      (find?_drop_starter q (.aggregate f) (by simp)).symm
  obtain ⟨before, after, hsteps, hwith⟩ := steps_of_starter hnone hp.steps hb
  have hscans : ScansAs schema c q { p with starter := some ⟨kind, a⟩ }
      (before ++ .starter ⟨kind, b⟩ :: after) :=
    ⟨unknownName?_of_drop hp.names, by rw [haggregates]; exact hp.aggregates, hrows, hp.aggregate,
      hwith⟩
  exact ⟨before, after, hsteps, hscans.plan table⟩

/-- A range between two dates on a column of timestamps takes its place in the scan of the query
without it. -/
theorem scan_of_range (hkind : kind = .whereBetween ∨ kind = .whereNotBetween)
    (hrecord : find? q kind.name = some (.object record))
    (hone : ∀ k, k ≠ kind → find? q (StarterKind.name k) = none)
    (hk : categoryIn? schema (field record .column) = .ok (some .timestamp)) {s u : String}
    (hlists : Lists record [.text s, .text u]) (hs : SpellsDate s) (hu : SpellsDate u)
    (h : planOfRecord table schema c (drop q kind.name) = .ok (.ok (.scan table steps))) :
    ∃ d e before after, Conversion.comparisonDate c (.text s) = .ok d ∧
      Conversion.comparisonDate c (.text u) = .ok e ∧ steps = before ++ after ∧
      planOfRecord table schema c q = .ok (.ok (.scan table (before ++
        .starter ⟨kind, .range ⟨field record .column, .dateLiteral d, .dateLiteral e⟩⟩ ::
          after))) := by
  obtain ⟨d, hd⟩ := hs.exists_comparisonDate c
  obtain ⟨e, he⟩ := hu.exists_comparisonDate c
  have hrange : rangeOf ⟨.starter kind, none⟩ record =
      .ok ⟨field record .column, .text s, .text u⟩ :=
    rangeOf_eq_ok_iff.2 ⟨⟨rfl, hlists.column⟩, _, _, ⟨hlists.values, hlists.entries⟩,
      hs.boundOf_text _, hu.boundOf_text _⟩
  have hstarter : (starterOf kind (.object record)).1 =
      .ok (some ⟨kind, .range ⟨field record .column, .text s, .text u⟩⟩) := by
    rw [starterOf_fst, recordOf_object _ hlists.single, ok_bind,
      (Gives.range hkind hrange).starterClause]
    rfl
  obtain ⟨before, after, hsteps, hplan⟩ :=
    scan_of_starter hrecord hone hstarter (forStorage_timestamps hk hd he) h
  exact ⟨d, e, before, after, hd, he, hsteps, hplan⟩

end Ranges

/-- **A text is a number or a date as its column says.**  An integer that is spelled as the limit or
on a column of numbers comes to the same plan or to a failure of the same kind.  A range on a column
of timestamps stands in every scan between the dates of its bounds; and where both bounds are texts
of dates, it takes its place in the scan of the query without it. -/
theorem plan_by_category (table : Value) (schema : Option TableSchema) (c : Config) :
    (∀ q r, QueryRespelled schema q r →
      SameOutcome (planOfRecord table schema c q) (planOfRecord table schema c r)) ∧
    ∀ (kind : StarterKind) (q record : Fields),
      (kind = .whereBetween ∨ kind = .whereNotBetween) →
      find? q kind.name = some (.object record) →
      categoryIn? schema (field record .column) = .ok (some .timestamp) →
      (∀ v w steps, field record .values = .list [v, w] →
        planOfRecord table schema c q = .ok (.ok (.scan table steps)) →
        ∃ d e, Conversion.comparisonDate c v = .ok d ∧ Conversion.comparisonDate c w = .ok e ∧
          .starter ⟨kind, .range ⟨field record .column, .dateLiteral d, .dateLiteral e⟩⟩ ∈ steps) ∧
      ∀ s u steps, Lists record [.text s, .text u] → SpellsDate s → SpellsDate u →
        (∀ k, k ≠ kind → find? q (StarterKind.name k) = none) →
        planOfRecord table schema c (drop q kind.name) = .ok (.ok (.scan table steps)) →
        ∃ d e before after, Conversion.comparisonDate c (.text s) = .ok d ∧
          Conversion.comparisonDate c (.text u) = .ok e ∧ steps = before ++ after ∧
          planOfRecord table schema c q = .ok (.ok (.scan table (before ++
            .starter ⟨kind, .range ⟨field record .column, .dateLiteral d, .dateLiteral e⟩⟩ ::
              after))) := by
  refine ⟨fun q r h => h.sameOutcome_planOfRecord table c, ?_⟩
  intro kind q record hkind hrecord hk
  constructor
  · intro v w steps hvalues h
    exact range_of_scan hkind hrecord hk hvalues h
  · intro s u steps hlists hs hu hone h
    exact scan_of_range hkind hrecord hone hk hlists hs hu h

/-- The rows whose column lies between two bounds, so many of them. -/
def betweenQuery (column : String) (low high limit : Value) : Fields :=
  [("WHERE_BETWEEN", .object [("COLUMN", .text column), ("VALUES", .list [low, high])]),
    ("LIMIT", limit)]

/-- The same texts between which a number and a date are asked for. -/
def compactQuery (column : String) : Fields :=
  betweenQuery column (.text "20200101") (.text " 20200229\n") (.text " 5")

/-- Texts that spell a number and a date alike are the number on a column of numbers and the date on
a column of timestamps. -/
theorem plan_by_category_compactDates :
    (QueryRespelled (some createdItems) (betweenQuery "id" (.int 20200101) (.int 20200229) (.int 5))
        (compactQuery "id") ∧
      SameOutcome
        (planOfRecord (.text "ITEMS") (some createdItems) formattingConfig
          (betweenQuery "id" (.int 20200101) (.int 20200229) (.int 5)))
        (planOfRecord (.text "ITEMS") (some createdItems) formattingConfig (compactQuery "id"))) ∧
      ∃ d e steps,
        Conversion.comparisonDate formattingConfig (.text "20200101") = .ok d ∧
        Conversion.comparisonDate formattingConfig (.text " 20200229\n") = .ok e ∧
        planOfRecord (.text "ITEMS") (some createdItems) formattingConfig (compactQuery "CREATED") =
          .ok (.ok (.scan (.text "ITEMS") steps)) ∧
        .starter ⟨.whereBetween, .range ⟨.text "CREATED", .dateLiteral d, .dateLiteral e⟩⟩ ∈
          steps := by
  have hlow : Text.SpellsInt "20200101" 20200101 :=
    ⟨by unfold Json.IsShort; decide, [], [], rfl, rfl, by decide⟩
  have hhigh : Text.SpellsInt " 20200229\n" 20200229 :=
    ⟨by unfold Json.IsShort; decide, [' '], ['\n'], rfl, rfl, by decide⟩
  have hlimit : Text.SpellsInt " 5" 5 :=
    ⟨by unfold Json.IsShort; decide, [' '], [], rfl, rfl, by decide⟩
  have hrespelled : QueryRespelled (some createdItems)
      (betweenQuery "id" (.int 20200101) (.int 20200229) (.int 5)) (compactQuery "id") := by
    have hvalues : Value.ListRespelled (.list [.int 20200101, .int 20200229])
        (.list [.text "20200101", .text " 20200229\n"]) :=
      .list (.cons (.spelled hlow) (.cons (.spelled hhigh) .nil))
    have hrecord : RecordRespelled (some createdItems)
        (.object [("COLUMN", .text "id"), ("VALUES", .list [.int 20200101, .int 20200229])])
        (.object [("COLUMN", .text "id"),
          ("VALUES", .list [.text "20200101", .text " 20200229\n"])]) :=
      .onNumbers rfl (.cons (.same _) (.cons (.under ClauseField.values hvalues) .nil))
    exact .cons (.under (Key.starter .whereBetween) hrecord)
      (.cons (.under Key.limit (Value.Respelled.spelled hlimit)) .nil)
  have hlists : Lists [("COLUMN", .text "CREATED"),
      ("VALUES", .list [.text "20200101", .text " 20200229\n"])]
        [.text "20200101", .text " 20200229\n"] := by
    have hname : IsName (.text "CREATED") := ⟨"CREATED", rfl, rfl⟩
    refine ⟨⟨hname, isFlat_columnAndList hname _⟩, rfl, ?_⟩
    exact List.forall_mem_cons.2
      ⟨isEntry_iff.1 rfl, List.forall_mem_singleton.2 (isEntry_iff.1 rfl)⟩
  have hlowDate : SpellsDate "20200101" := ⟨_, rfl, rfl⟩
  have hhighDate : SpellsDate " 20200229\n" := ⟨_, rfl, rfl⟩
  have hone : ∀ k, k ≠ StarterKind.whereBetween →
      find? (compactQuery "CREATED") (StarterKind.name k) = none := by
    intro k hk
    cases k with
    | whereBetween => exact absurd rfl hk
    | _ => rfl
  have hrest : planOfRecord (.text "ITEMS") (some createdItems) formattingConfig
      (drop (compactQuery "CREATED") "WHERE_BETWEEN") =
        .ok (.ok (.scan (.text "ITEMS") [.limit (.int 5)])) := rfl
  obtain ⟨hnumbers, hdates⟩ :=
    plan_by_category (.text "ITEMS") (some createdItems) formattingConfig
  obtain ⟨hscan, htotal⟩ := hdates .whereBetween (compactQuery "CREATED") _ (.inl rfl) rfl rfl
  obtain ⟨_, _, before, after, -, -, -, hplan⟩ :=
    htotal _ _ _ hlists hlowDate hhighDate hone hrest
  obtain ⟨d, e, hd, he, hmem⟩ := hscan _ _ _ rfl hplan
  exact ⟨⟨hrespelled, hnumbers _ _ hrespelled⟩, d, e, _, hd, he, hplan, hmem⟩

end RowAccess
