import RowAccess.Proofs.Schema.Rebuild
import RowAccess.Proofs.Schema.Register

/-
  RowAccess/Proofs/Schema/Survey.lean
  ===================================
  **What a rebuild finds when it is alone.**  Nothing but the rebuild works on the cache, so it
  lists the reported names, each once, and finds under them what a survey finds
  (`Cache.execute_rediscoverAll`).  All that the cache has persisted before is older, so nothing on
  disk is kept or taken for later (`Cache.keepNew_merged`).
-/

namespace RowAccess

open Keyed

/-! ## Names listed once -/

namespace Catalog

theorem foldl_list_eq_eraseDups {names : List Value} (htext : ∀ v ∈ names, v.isText = true)
    (before : List Value) :
    names.foldl list before =
      before ++ (names.filter fun v => !before.contains v).eraseDups := by
  induction names generalizing before with
  | nil => simp
  | cons v names ih =>
    have hrest := ih fun w hw => htext w (List.mem_cons_of_mem _ hw)
    rw [List.foldl_cons, hrest, List.filter_cons]
    by_cases hv : before.contains v = true
    · simp [list, hv]
    · have hfilter : (names.filter fun w => !(before ++ [v]).contains w) =
          (names.filter fun w => !before.contains w).filter fun w => !(w == v) := by
        rw [List.filter_filter]
        refine List.filter_congr fun w _ => ?_
        simp [List.contains_append, Bool.and_comm]
      rw [Bool.not_eq_true] at hv
      simp only [list, hv, Bool.false_eq_true, if_false, Bool.not_false, if_true, hfilter,
        List.eraseDups_cons, List.append_assoc, List.singleton_append]

/-- Listing texts one after another keeps the first of each. -/
theorem foldl_list_nil {names : List Value} (htext : ∀ v ∈ names, v.isText = true) :
    names.foldl list [] = names.eraseDups := by
  have h := foldl_list_eq_eraseDups htext []
  rwa [List.nil_append, List.filter_eq_self.2 (fun v _ => by simp)] at h

theorem mem_foldl_list {names : List Value} (htext : ∀ v ∈ names, v.isText = true)
    (before : List Value) {v : Value} :
    v ∈ names.foldl list before ↔ v ∈ before ∨ v ∈ names := by
  induction names generalizing before with
  | nil => simp
  | cons name names ih =>
    rw [List.foldl_cons, ih fun w hw => htext w (List.mem_cons_of_mem _ hw),
      mem_list (exact_of_isText (htext name List.mem_cons_self)), List.mem_cons, or_assoc]

end Catalog

namespace Cache

variable {σ : Type} {c : Cache σ}

/-! ## Listing -/

theorem listRows_eq (tables rows : List Value) :
    listRows tables rows = (namesIn rows).map fun names => names.foldl Catalog.list tables := by
  unfold listRows namesIn
  induction rows generalizing tables with
  | nil => rfl
  | cons row rows ih =>
    rw [List.foldlM_cons, List.mapM_cons]
    cases caselessGet row (.text "TABLE_NAME") with
    | error f => rfl
    | ok name =>
      have hrest := ih (Catalog.list tables name)
      simp only [bind, Except.bind, pure, Except.pure] at hrest ⊢
      rw [hrest]
      cases List.mapM (fun row => caselessGet row (.text "TABLE_NAME")) rows with
      | error f => rfl
      | ok names => rfl

theorem execute_listBy (h : c.Outward) (tables : List Value) (text : String) (s : Site σ) :
    (c.listBy tables text).execute s =
      (((c.reported text).outer s.outside).1.map fun names => names.foldl Catalog.list tables,
        { s with outside := ((c.reported text).outer s.outside).2 }) := by
  have hquery := (h (.raw text c.schemaParameter)).onBackendFault fun detail =>
    .discovery (.enumeration c.config.schemaName detail)
  rw [listBy, reported, Action.execute_bind, hquery s, Action.outer_bind hquery]
  rcases ((c.backend (.raw text c.schemaParameter)).onBackendFault fun detail =>
    .discovery (.enumeration c.config.schemaName detail)).outer s.outside with ⟨f | rows, o⟩
  · rfl
  · dsimp only
    cases hmembers : membersOf rows with
    | error f => rfl
    | ok members =>
      show (listRows tables members, _) = _
      rw [listRows_eq]
      rfl

theorem execute_tableNames (h : c.Outward) (s : Site σ) :
    c.tableNames.execute s =
      ((c.enumerated.outer s.outside).1.map fun names => names.foldl Catalog.list [],
        { s with outside := (c.enumerated.outer s.outside).2 }) := by
  rw [tableNames, enumerated, Action.execute_bind, execute_listBy h,
    Action.outer_bind (h.reported _)]
  rcases (c.reported c.config.dialect.tablesQuery).outer s.outside with ⟨f | tables, o⟩
  · rfl
  · dsimp only [Except.map]
    cases c.config.dialect.viewsQuery with
    | none => rfl
    | some text =>
      dsimp only
      rw [execute_listBy h, Action.outer_bind (h.reported _)]
      rcases (c.reported text).outer o with ⟨f | views, o'⟩
      · rfl
      · show (Except.ok _, _) = (Except.ok _, _)
        rw [List.foldl_append]
        rfl

/-! ## Discovering all tables -/

theorem outer_discoverAll_cons (h : c.Outward) (table : Value) (rest : List Value) (o : σ) :
    (c.discoverAll (table :: rest)).outer o =
      match (c.discover table).outer o with
      | (.ok t, o') => (((c.discoverAll rest).outer o').1.map ((table, t) :: ·),
          ((c.discoverAll rest).outer o').2)
      | (.error f, o') => (.error f, o') := by
  rw [discoverAll, Action.outer_bind (h.discover table)]
  rcases (c.discover table).outer o with ⟨f | t, o'⟩
  · rfl
  · dsimp only
    rw [Action.outer_bind (h.discoverAll rest)]
    rcases (c.discoverAll rest).outer o' with ⟨f | found, o''⟩
    · rfl
    · rfl

/-- Does a cache only count generations, and leave all else to others? -/
structure Counts (c : Cache σ) (s s' : Site σ) : Prop where
  folder : s'.folder = s.folder
  held : (c.memoryAt s').held = (c.memoryAt s).held
  persisted : (c.memoryAt s').persisted = (c.memoryAt s).persisted
  next_le : (c.memoryAt s).next ≤ (c.memoryAt s').next
  others : ∀ d : Cache σ, d.id ≠ c.id → d.memoryAt s' = d.memoryAt s

theorem memoryAt_changed_of_ne {d : Cache σ} (hd : d.id ≠ c.id) (change : Memory → Memory)
    (s : Site σ) : d.memoryAt (c.changed change s) = d.memoryAt s := by
  simp [memoryAt, changed, find?_put_of_ne (Ne.symm hd)]

theorem Counts.refl (s : Site σ) : c.Counts s s :=
  ⟨rfl, rfl, rfl, Nat.le_refl _, fun _ _ => rfl⟩

theorem Counts.trans {s s₁ s₂ : Site σ} (h : c.Counts s s₁) (h' : c.Counts s₁ s₂) :
    c.Counts s s₂ :=
  ⟨h'.folder.trans h.folder, h'.held.trans h.held, h'.persisted.trans h.persisted,
    Nat.le_trans h.next_le h'.next_le, fun d hd => (h'.others d hd).trans (h.others d hd)⟩

variable (c) in
theorem memoryAt_congr {s s' : Site σ} (h : s'.memories = s.memories) :
    c.memoryAt s' = c.memoryAt s := by
  rw [memoryAt, memoryAt, h]

theorem counts_counted (s : Site σ) (o : σ) : c.Counts s { c.counted s with outside := o } := by
  have hmemory : ∀ d : Cache σ, d.memoryAt { c.counted s with outside := o } =
      d.memoryAt (c.counted s) := fun d => d.memoryAt_congr rfl
  refine ⟨rfl, ?_, ?_, ?_, ?_⟩
  · rw [hmemory, counted, memoryAt_changed]
  · rw [hmemory, counted, memoryAt_changed]
  · rw [hmemory, counted, memoryAt_changed]
    exact Nat.le_succ _
  · intro d hd
    rw [hmemory, counted, memoryAt_changed_of_ne hd]

/-- A table that is discovered under its lock takes one generation. -/
theorem execute_rediscover_apart (h : c.Outward) {table : String} {s : Site σ}
    (hfree : c.IsFree table s) :
    ∃ s', (c.rediscover (.text table)).execute s =
        (((c.discover (.text table)).outer s.outside).1.map fun t => ⟨(c.memoryAt s).next, t⟩, s') ∧
      s'.outside = ((c.discover (.text table)).outer s.outside).2 ∧ c.Counts s s' ∧
        (c.memoryAt s).next < (c.memoryAt s').next := by
  have hopened := h.discover (.text table) (c.opened table s)
  rw [show (c.opened table s).outside = s.outside from rfl] at hopened
  generalize (c.discover (.text table)).outer s.outside = r at hopened ⊢
  have hmemory : c.memoryAt (c.left table { c.opened table s with outside := r.2 }) =
      { c.memoryAt s with next := (c.memoryAt s).next + 1 } := by
    have hsame : c.memoryAt { c.opened table s with outside := r.2 } =
        c.memoryAt (c.opened table s) := c.memoryAt_congr rfl
    rw [left, memoryAt_changed, hsame]
    simp only [opened, counted, entered, memoryAt_changed, filter_held hfree]
  refine ⟨c.left table { c.opened table s with outside := r.2 }, ?_, rfl, ⟨rfl, ?_, ?_, ?_, ?_⟩, ?_⟩
  · rw [c.execute_rediscover hfree, hopened]
  · rw [hmemory]
  · rw [hmemory]
  · rw [hmemory]
    exact Nat.le_succ _
  · intro d hd
    have hsame : d.memoryAt { c.opened table s with outside := r.2 } =
        d.memoryAt (c.opened table s) := d.memoryAt_congr rfl
    rw [left, memoryAt_changed_of_ne hd, hsame, opened, counted, memoryAt_changed_of_ne hd, entered,
      memoryAt_changed_of_ne hd]
  · rw [hmemory]
    exact Nat.lt_succ_self _

/-- Does a rebuild find what a survey does?  It fails with the same fault, or has the same schemas
after those it had before, under generations from the start on. -/
inductive Finds (before : Keyed Value Discovery) (start : Nat) :
    Except Fault (Keyed Value Discovery) → Except Fault (Keyed Value TableSchema) → Prop
  | failed (f : Fault) : Finds before start (.error f) (.error f)
  | found (own : Keyed Value Discovery) (later : ∀ e ∈ own, start ≤ e.2.generation) :
    Finds before start (.ok (before ++ own)) (.ok (own.map fun e => (e.1, e.2.schema)))

theorem execute_rediscoverAll (h : c.Outward) {names : List Value}
    (htext : ∀ v ∈ names, v.isText = true) (before : Keyed Value Discovery)
    (hnew : (keys before ++ names).Nodup) {s : Site σ} (hheld : (c.memoryAt s).held = []) :
    ∃ outcome s', (c.rediscoverAll names before).execute s = (outcome, s') ∧
      s'.outside = ((c.discoverAll names).outer s.outside).2 ∧ c.Counts s s' ∧
        Finds before (c.memoryAt s).next outcome ((c.discoverAll names).outer s.outside).1 := by
  induction names generalizing before s with
  | nil =>
    have hfinds : Finds before (c.memoryAt s).next (.ok (before ++ [])) (.ok []) :=
      .found [] (by simp)
    rw [List.append_nil] at hfinds
    exact ⟨.ok before, s, rfl, rfl, .refl s, hfinds⟩
  | cons v rest ih =>
    obtain ⟨table, rfl⟩ := Value.isText_iff.1 (htext v List.mem_cons_self)
    have hfree : c.IsFree table s := by
      rw [IsFree, hheld]
      exact List.not_mem_nil
    obtain ⟨s₁, hexecute, houtside, hcounts, hlt⟩ := execute_rediscover_apart h hfree
    rw [outer_discoverAll_cons h, rediscoverAll, Action.execute_bind, hexecute]
    -- Both sides go by the same answer of the backend, whichever it is.
    generalize (c.discover (.text table)).outer s.outside = r at houtside ⊢
    obtain ⟨f | t, o⟩ := r
    · exact ⟨.error f, s₁, rfl, houtside, hcounts, .failed f⟩
    · have hfresh : Value.text table ∉ keys before := fun hmem =>
        (List.nodup_append.1 hnew).2.2 _ hmem _ List.mem_cons_self rfl
      have hput := (Value.exact_text table).put_of_not_mem hfresh
        (⟨(c.memoryAt s).next, t⟩ : Discovery)
      obtain ⟨outcome, s', hrest, houtside', hcounts', hfinds⟩ :=
        ih (fun w hw => htext w (List.mem_cons_of_mem _ hw))
          (before ++ [(.text table, ⟨(c.memoryAt s).next, t⟩)])
          (by simpa [keys] using hnew) (hcounts.held.trans hheld)
      rw [houtside] at houtside' hfinds
      refine ⟨outcome, s', ?_, houtside', hcounts.trans hcounts', ?_⟩
      · simp only [Except.map, hput]
        exact hrest
      · dsimp only at hfinds ⊢
        generalize ((c.discoverAll rest).outer o).1 = found at hfinds
        cases hfinds with
        | failed f => exact .failed f
        | found own later =>
          have hlater : ∀ e ∈ (.text table, ⟨(c.memoryAt s).next, t⟩) :: own,
              (c.memoryAt s).next ≤ e.2.generation := by
            intro e he
            rcases List.mem_cons.1 he with rfl | he
            · exact Nat.le_refl _
            · exact Nat.le_trans (Nat.le_of_lt hlt) (later e he)
          have hfound : Finds before (c.memoryAt s).next _ _ := .found _ hlater
          simpa [Except.map] using hfound

/-! ## What a survey finds -/

/-- Does the backend leave the file and the memories alone, whatever it answers and wherever it
fails, and name tables and columns by texts? -/
structure Detached (c : Cache σ) : Prop where
  outward : c.Outward
  tables : ∀ o names, (c.enumerated.outer o).1 = .ok names → ∀ v ∈ names, v.isText = true
  schemas : ∀ table o t, ((c.discover (.text table)).outer o).1 = .ok t → t.Named

theorem outer_survey (h : c.Outward) (o : σ) :
    c.survey.outer o =
      match c.enumerated.outer o with
      | (.ok names, o') => (c.discoverAll names.eraseDups).outer o'
      | (.error f, o') => (.error f, o') := by
  rw [survey, Action.outer_bind h.enumerated]
  rcases c.enumerated.outer o with ⟨f | names, o'⟩
  · rfl
  · rfl

theorem name_of_outer {table : Value} {o : σ} {t : TableSchema}
    (h : ((c.discover table).outer o).1 = .ok t) : t.name = table := by
  obtain ⟨s', hdiscover⟩ := Action.exists_execute_of_outer h
  exact c.discover_name hdiscover

theorem found_discoverAll (h : c.Detached) {names : List Value}
    (htext : ∀ v ∈ names, v.isText = true) {o : σ} {found : Keyed Value TableSchema}
    (hfound : ((c.discoverAll names).outer o).1 = .ok found) :
    keys found = names ∧ ∀ e ∈ found, e.2.Named ∧ e.2.name = e.1 := by
  induction names generalizing o found with
  | nil =>
    obtain rfl := Except.ok.inj hfound
    exact ⟨rfl, by simp⟩
  | cons v names ih =>
    obtain ⟨table, rfl⟩ := Value.isText_iff.1 (htext v List.mem_cons_self)
    rw [outer_discoverAll_cons h.outward] at hfound
    rcases hdiscover : (c.discover (.text table)).outer o with ⟨f | t, o'⟩
    · rw [hdiscover] at hfound
      cases hfound
    · rw [hdiscover] at hfound
      obtain ⟨rest, hrest, rfl⟩ := Outcome.map_eq_ok_iff.1 hfound
      have hok : ((c.discover (.text table)).outer o).1 = .ok t := by rw [hdiscover]
      obtain ⟨hkeys, hnamed⟩ := ih (fun w hw => htext w (List.mem_cons_of_mem _ hw)) hrest
      refine ⟨?_, ?_⟩
      · show Value.text table :: keys rest = _
        rw [hkeys]
      · intro e he
        rcases List.mem_cons.1 he with rfl | he
        · exact ⟨h.schemas table o t hok, name_of_outer hok⟩
        · exact hnamed e he

/-- No table is surveyed twice. -/
theorem nodup_eraseDups {names : List Value} (htext : ∀ v ∈ names, v.isText = true) :
    names.eraseDups.Nodup ∧ ∀ v ∈ names.eraseDups, v.isText = true := by
  have hsubset : ∀ v ∈ names.foldl Catalog.list [], v.isText = true := by
    intro v hv
    exact htext v (((Catalog.mem_foldl_list htext []).1 hv).resolve_left List.not_mem_nil)
  rw [← Catalog.foldl_list_nil htext]
  exact ⟨Catalog.nodup_foldl_list names [] List.nodup_nil hsubset, hsubset⟩

/-! ## Merging -/

theorem isNewer_of_later {persisted : Keyed Value Nat} {start g : Nat}
    (h : ∀ table g, find? persisted (.text table) = some g → g < start) (hg : start ≤ g)
    {v : Value} (hv : v.isText = true) : isNewer persisted v g = false := by
  obtain ⟨table, rfl⟩ := Value.isText_iff.1 hv
  unfold isNewer
  cases hfind : find? persisted (.text table) with
  | none => rfl
  | some g' =>
    have hlt : g' < start := h table g' hfind
    simp only [decide_eq_false_iff_not]
    omega

/-- A rebuild that is later than all that was persisted takes nothing from disk. -/
theorem keepNew_merged {known : Keyed Value TableSchema} (persisted : Keyed Value Nat)
    (start : Nat) {own : Keyed Value Discovery} (hn : (Catalog.ofKnown known).Named)
    (hpersisted : ∀ table g, find? persisted (.text table) = some g → g < start)
    (hlater : ∀ e ∈ own, start ≤ e.2.generation) (hdistinct : (keys own).Nodup)
    (hname : ∀ e ∈ own, e.2.schema.Named ∧ e.2.schema.name = e.1) :
    keepNew (.ofKnown known) persisted own start
        (merged (keys own) (.ofKnown known) persisted own).1 =
      .ofKnown (own.map fun e => (e.1, e.2.schema)) := by
  have htext : ∀ e ∈ own, e.1.isText = true := by
    intro e he
    rw [← (hname e he).2]
    exact (hname e he).1.table
  have hkept : kept (.ofKnown known) persisted own start = [] := by
    have hnone : (Catalog.ofKnown known).schemas.filter
        (fun e => !has own e.1 && isNewer persisted e.1 start) = [] := by
      refine List.filter_eq_nil_iff.2 fun e he => ?_
      have hv : e.1.isText = true := hn.tables _ (List.mem_map.2 ⟨e, he, rfl⟩)
      simp [isNewer_of_later hpersisted (Nat.le_refl start) hv]
    rw [kept, hnone]
    rfl
  have hchosen : own.map (fun e => chosen (.ofKnown known) persisted e.1 e.2) =
      values (own.map fun e => (e.1, e.2.schema)) := by
    rw [values, List.map_map]
    refine List.map_congr_left fun e he => ?_
    unfold chosen
    split
    · rw [isNewer_of_later hpersisted (hlater e he) (htext e he)]
      rfl
    · rfl
  have hkeys : keys (own.map fun e => (e.1, e.2.schema)) = keys own :=
    keys_map_values own fun _ d => d.schema
  rw [keepNew_eq, hkept, merged, mergeFound_fst, hchosen]
  show (Catalog.mk (keys own) []).putAll _ = _
  rw [Catalog.putAll_keys]
  · rw [List.nil_append, Catalog.ofKnown, hkeys]
  · intro e he
    obtain ⟨d, hd, rfl⟩ := List.mem_map.1 he
    exact htext d hd
  · intro e he
    obtain ⟨d, hd, rfl⟩ := List.mem_map.1 he
    exact (hname d hd).2
  · intro e he
    obtain ⟨d, hd, rfl⟩ := List.mem_map.1 he
    exact List.mem_map.2 ⟨d, hd, rfl⟩
  · rw [List.nil_append, hkeys]
    exact hdistinct

end Cache

end RowAccess
