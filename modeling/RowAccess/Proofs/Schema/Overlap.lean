import RowAccess.Proofs.Schema.Course

/-
  RowAccess/Proofs/Schema/Overlap.lean
  ====================================
  **When an outdated rebuild brings a table back.**  A call that commits while a rebuild runs may
  leave out a table, as a later rebuild does that no longer finds it.  Nothing is remembered of the
  tables that were left out, so the outdated rebuild lists the table again exactly if it has found
  it itself, or a call has that committed in between (`Cache.rebuild_brings_back_iff`).
-/

namespace RowAccess

open Keyed

namespace Cache

variable {σ α : Type} {c : Cache σ}

/-! ## Every run has a course -/

/-- A rebuild that fails leaves the cache as the listing left it, or as the discoveries did. -/
theorem execute_rebuild_eq_error {s s' : Site σ} {f : Fault}
    (h : c.rebuild.execute s = (.error f, s')) :
    (∃ f', c.tableNames.execute (c.counted s) = (.error f', s')) ∨
      ∃ tables s₁, c.tableNames.execute (c.counted s) = (.ok tables, s₁) ∧
        c.Untouched ((c.rediscoverAll tables []).execute s₁).2 s' := by
  rw [rebuild, Action.execute_bind, execute_nextGeneration] at h
  dsimp only at h
  rw [Action.execute_bind] at h
  generalize c.tableNames.execute (c.counted s) = listed at h ⊢
  obtain ⟨f' | tables, s₁⟩ := listed
  · obtain ⟨-, rfl⟩ := Prod.mk.inj h
    exact .inl ⟨f', rfl⟩
  refine .inr ⟨tables, s₁, rfl, ?_⟩
  dsimp only at h
  rw [Action.execute_bind] at h
  generalize (c.rediscoverAll tables []).execute s₁ = discovered at h ⊢
  obtain ⟨f' | found, s₂⟩ := discovered
  · obtain ⟨-, rfl⟩ := Prod.mk.inj h
    exact .refl c s₂
  dsimp only at h
  rw [Action.execute_bind, execute_load] at h
  generalize c.loadAt s₂ = loaded at h
  obtain f' | onDisk := loaded
  · obtain ⟨-, rfl⟩ := Prod.mk.inj h
    exact .refl c s₂
  dsimp only at h
  rw [Action.execute_bind, execute_memory] at h
  dsimp only at h
  rw [Action.execute_bind, execute_save] at h
  generalize keepNew onDisk _ found _ _ = catalog at h
  rcases hsave : s₂.folder.save c.place catalog with ⟨f' | u, folder⟩
  · rw [hsave] at h
    obtain ⟨-, rfl⟩ := Prod.mk.inj h
    exact ⟨rfl, Folder.entry?_save_error hsave⟩
  · rw [hsave] at h
    cases h

theorem mem_of_missing {catalog : Catalog} {tables : List Value}
    (h : missing catalog = .ok tables) : ∀ v ∈ tables, v ∈ catalog.tables := by
  unfold missing at h
  generalize catalog.tables = listed at h ⊢
  induction listed generalizing tables with
  | nil =>
    cases h
    simp
  | cons v listed ih =>
    rw [List.filterMapM_cons] at h
    cases hlookup : catalog.lookup v with
    | error f =>
      rw [hlookup] at h
      cases h
    | ok t =>
      rw [hlookup] at h
      cases t with
      | some t => exact fun w hw => List.mem_cons_of_mem _ (ih h w hw)
      | none =>
        obtain ⟨vs, hvs, hcons⟩ := Outcome.bind_eq_ok_iff.1
          (show (List.filterMapM _ listed >>= fun vs => pure (v :: vs)) = Except.ok tables from h)
        cases hcons
        intro w hw
        rcases List.mem_cons.1 hw with rfl | hw
        · exact List.mem_cons_self
        · exact List.mem_cons_of_mem _ (ih hvs w hw)

/-- Does a course lead from one site to the other? -/
def Passes (c : Cache σ) (s s' : Site σ) : Prop :=
  ∃ log, c.Course [] s log s'

/-- Does the backend do nothing to the cache but call it? -/
def Reentrant (c : Cache σ) : Prop :=
  ∀ operation, Stateful.Spans c.Passes (c.backend operation)

namespace Reentrant

theorem covers (h : c.Reentrant) : c.Covers c.Passes where
  refl := fun s => ⟨[], .untouched (.refl c s)⟩
  trans := by
    rintro s s₁ s₂ ⟨log, h⟩ ⟨log', h'⟩
    exact ⟨log ++ log', h.next h'⟩
  backend := h

/-- A call for a schema passes, whether it succeeds or not. -/
theorem schema (h : c.Reentrant) (table : String) (overwrite : Bool) :
    Stateful.Spans c.Passes (c.schema (.text table) overwrite) := by
  intro s
  show c.Passes s ((c.schema (.text table) overwrite).execute s).2
  by_cases hfree : c.IsFree table s
  · by_cases hdiscovers : c.Discovers table overwrite s
    · obtain ⟨log, inner⟩ := h.covers.discover (.text table) (c.opened table s)
      have hexecute := c.execute_schema_discovers hfree hdiscovers
      rcases c.execute_refresh (.text table) (c.entered table s) with
        ⟨f, s', hrefresh, -⟩ | ⟨t, s₁, catalog, folder, hdiscover, hload, -, hrefresh⟩
      · rw [hrefresh] at hexecute
        exact ⟨_, .refused hfree hdiscovers inner (congrArg Prod.fst hexecute)⟩
      · rw [hrefresh] at hexecute
        have hloaded : c.loadAt ((c.discover (.text table)).execute (c.opened table s)).2 =
            .ok catalog := by
          have hopened : (c.discover (.text table)).execute (c.opened table s) = (.ok t, s₁) :=
            hdiscover
          rw [hopened]
          exact hload
        exact ⟨_, .refreshed hfree hdiscovers inner hloaded (congrArg Prod.fst hexecute)⟩
    · exact ⟨[], .known hfree hdiscovers⟩
  · rw [Cache.schema, c.execute_locked_held hfree]
    exact h.covers.refl s

/-- The discoveries of a rebuild have a course, and as long as they succeed it has found them. -/
theorem rediscoverAll (h : c.Reentrant) (tables : List String) (before : Keyed Value Discovery)
    (hnew : (keys before ++ tables.map Value.text).Nodup) (s : Site σ) :
    ∃ own log, c.Course own s log
        ((c.rediscoverAll (tables.map .text) before).execute s).2 ∧
      ∀ found, ((c.rediscoverAll (tables.map .text) before).execute s).1 = .ok found →
        found = before ++ own.map entry := by
  induction tables generalizing before s with
  | nil =>
    refine ⟨[], [], .untouched (.refl c s), fun found hfound => ?_⟩
    obtain rfl := Except.ok.inj hfound
    rw [List.map_nil, List.append_nil]
  | cons table tables ih =>
    rw [List.map_cons, Cache.rediscoverAll, Action.execute_bind]
    by_cases hfree : c.IsFree table s
    · obtain ⟨log, inner⟩ := h.covers.discover (.text table) (c.opened table s)
      have hexecute := c.execute_rediscover hfree
      rcases hdiscover : ((c.discover (.text table)).execute (c.opened table s)).1 with f | t
      · have hmissed := Course.missed hfree inner hdiscover
        rw [hdiscover] at hexecute
        rw [hexecute] at hmissed ⊢
        exact ⟨[], _, hmissed, fun found hfound => by cases hfound⟩
      · have hfound := Course.found hfree inner hdiscover
        have hfresh : Value.text table ∉ keys before := fun hmem =>
          (List.nodup_append.1 hnew).2.2 _ hmem (.text table) (by simp) rfl
        have hput := (Value.exact_text table).put_of_not_mem hfresh
          (⟨(c.memoryAt s).next, t⟩ : Discovery)
        rw [hdiscover] at hexecute
        rw [hexecute] at hfound ⊢
        obtain ⟨own, log', hrest, hown⟩ := ih (put before (.text table) ⟨(c.memoryAt s).next, t⟩)
          (by rw [hput]; simpa [keys] using hnew) _
        refine ⟨_, _, hfound.next hrest, fun found' hfound' => ?_⟩
        rw [hown found' hfound', hput]
        simp [entry]
    · rw [rediscover, c.execute_locked_held hfree]
      exact ⟨[], [], .untouched (.refl c s), fun found hfound => by cases hfound⟩

end Reentrant

variable (c) in
/-- A rebuild that succeeds, with the tables it lists and what is seen of other calls while it runs:
first while it lists the tables, then while it discovers them one after another. -/
inductive Rebuilding (s : Site σ) (tables : List String) :
    List Moment → Catalog → Site σ → Prop
  | intro {s₁ s₂ s' : Site σ} {own : List Finding} {log log' : List Moment} {catalog : Catalog}
    (listed : c.tableNames.execute (c.counted s) = (.ok (tables.map .text), s₁))
    (listing : c.Course [] (c.counted s) log s₁)
    (rediscovered : (c.rediscoverAll (tables.map .text) []).execute s₁ =
      (.ok (own.map entry), s₂))
    (discovering : c.Course own s₁ log' s₂)
    (success : c.rebuild.execute s = (.ok catalog, s')) :
    Rebuilding s tables (log ++ log') catalog s'

namespace Reentrant

variable (h : c.Reentrant) (htexts : ∀ s tables s', c.tableNames.execute s = (.ok tables, s') →
  ∀ v ∈ tables, v.isText = true)

include h htexts

/-- Every rebuild that succeeds has a course. -/
theorem exists_rebuilding {s s' : Site σ} {catalog : Catalog}
    (hsuccess : c.rebuild.execute s = (.ok catalog, s')) :
    ∃ tables log, c.Rebuilding s tables log catalog s' := by
  obtain ⟨names, s₁, found, s₂, -, -, hlisted, hfound, -⟩ := c.execute_rebuild_eq_ok hsuccess
  have hdistinct := c.nodup_tableNames hlisted (htexts _ _ _ hlisted)
  obtain ⟨tables, rfl⟩ := exists_map_text (htexts _ _ _ hlisted)
  obtain ⟨log, hlisting⟩ := Action.rel_of_spans h.covers.tableNames hlisted
  obtain ⟨own, log', hdiscovering, hown⟩ := h.rediscoverAll tables [] (by simpa [keys]) s₁
  rw [hfound] at hdiscovering hown
  obtain rfl := hown found rfl
  rw [List.nil_append] at hfound
  exact ⟨tables, _, .intro hlisted hlisting hfound hdiscovering hsuccess⟩

/-- A rebuild passes, whether it succeeds or not. -/
theorem rebuild : Stateful.Spans c.Passes c.rebuild := by
  intro s
  show c.Passes s (c.rebuild.execute s).2
  rcases hrebuild : c.rebuild.execute s with ⟨f | catalog, s'⟩
  · have hstarted : c.Passes s (c.counted s) := ⟨_, .started⟩
    rcases execute_rebuild_eq_error hrebuild with ⟨f', hlisted⟩ | ⟨names, s₁, hlisted, huntouched⟩
    · exact h.covers.trans _ _ _ hstarted (Action.rel_of_spans h.covers.tableNames hlisted)
    · have hdistinct := c.nodup_tableNames hlisted (htexts _ _ _ hlisted)
      obtain ⟨tables, rfl⟩ := exists_map_text (htexts _ _ _ hlisted)
      obtain ⟨own, log, hdiscovering, -⟩ := h.rediscoverAll tables [] (by simpa [keys]) s₁
      have hlisting := Action.rel_of_spans h.covers.tableNames hlisted
      exact h.covers.trans _ _ _ hstarted (h.covers.trans _ _ _ hlisting
        ⟨_, hdiscovering.abandoned.next (.untouched huntouched)⟩)
  · obtain ⟨tables, log, hrebuilding⟩ := h.exists_rebuilding htexts hrebuild
    cases hrebuilding with
    | intro listed listing rediscovered discovering success =>
      exact ⟨_, .rebuilt listed listing rediscovered discovering success⟩

omit htexts in
theorem completeAll (tables : List String) :
    Stateful.Spans c.Passes (c.completeAll (tables.map .text)) := by
  induction tables with
  | nil => exact .pure h.covers.refl _
  | cons table tables ih => exact .bind h.covers.trans (h.schema table false) fun _ => ih

/-- A call for the catalog passes: it rebuilds the catalog, or calls for the schemas that the
catalog on disk lacks. -/
theorem catalog {s : Site σ} (hstored : ∀ onDisk, c.loadAt s = .ok onDisk →
    ∀ v ∈ onDisk.tables, v.isText = true) (overwrite : Bool) :
    c.Passes s ((c.catalog overwrite).execute s).2 := by
  have hrebuild : c.Passes s (c.rebuild.execute s).2 := h.rebuild htexts s
  unfold Cache.catalog
  split
  · exact hrebuild
  refine Action.rel_bind h.covers.trans (h.covers.refl s) fun onDisk s₁ hloaded => ?_
  obtain ⟨hload, rfl⟩ := Prod.mk.inj hloaded
  split
  · exact hrebuild
  refine Action.rel_bind h.covers.trans (h.covers.refl s) fun missed s₁ hmissed => ?_
  obtain ⟨hmissing, rfl⟩ := Prod.mk.inj hmissed
  split
  · exact h.covers.refl s
  · obtain ⟨tables, rfl⟩ := exists_map_text fun v hv =>
      hstored onDisk hload v (mem_of_missing hmissing v hv)
    exact Action.rel_bind h.covers.trans (h.completeAll tables s) fun _ s₁ _ => h.covers.refl s₁

end Reentrant

/-! ## Tables that were left out -/

/-- **When an outdated rebuild brings a table back.**  While a rebuild runs another call commits a
catalog without a table.  Then what the rebuild returns is what is persisted, and the table is in it
exactly if the rebuild itself lists the table, or some call after the other has committed it and
none has left it out again. -/
theorem rebuild_brings_back_iff {s s' : Site σ} {tables found : List String}
    {log before after : List Moment} {catalog other : Catalog}
    (h : c.Rebuilding s tables log catalog s')
    (hlog : log = before ++ .commits found other :: after)
    (hstored : ∀ onDisk, c.loadAt s = .ok onDisk → onDisk.Named)
    (hnamed : ∀ m ∈ log, m.Named) (hcatalog : catalog.Named) {table : String}
    (habsent : .text table ∉ other.tables) :
    c.loadAt s' = .ok catalog ∧
      (.text table ∈ catalog.tables ↔ table ∈ tables ∨ Moment.Returns table after) := by
  obtain ⟨listed, listing, rediscovered, discovering, success⟩ := h
  rename_i s₁ s₂ own log₁ log₂
  have hpassage : c.Passage own (c.counted s) (log₁ ++ log₂) s₂ :=
    listing.passage.trans discovering.passage
  obtain ⟨rfl, hdistinct, onDisk, folder, hload, rfl, hsave, rfl⟩ :=
    commit_of_rebuild listed rediscovered success
  have hleads := hpassage.leads hstored hnamed
  have hn := hleads.named hstored hnamed onDisk hload
  have hc := Folder.coherent_load hload hn.tables
  rw [hlog, hload] at hleads
  have hmem := hleads.of_commit.mem_tables_iff table
  refine ⟨Folder.load_save hcatalog (coherent_rebuilt hn hc hpassage.named hdistinct) hsave, ?_⟩
  rw [mem_tables_rebuilt hn hc hpassage.named, exists_mem_rebuiltFrom_iff hc hpassage.named]
  -- On disk the table is listed with a schema if it is listed, and newer than the rebuild then.
  refine or_congr_right ⟨?_, ?_⟩
  · rintro ⟨⟨t, ht⟩, -⟩
    have hlisted := hc.listed _ ((Value.exact_text table).mem_keys_of_find? ht)
    exact (hmem.1 hlisted).resolve_right fun hkept => habsent hkept.1
  · intro hreturns
    have hlisted := hmem.2 (.inl hreturns)
    have hschema : ∃ t, onDisk.get? (.text table) = some t := by
      cases hget : onDisk.get? (.text table) with
      | none => exact absurd (hleads.of_commit.bare ⟨hlisted, hget⟩).1 habsent
      | some t => exact ⟨t, rfl⟩
    obtain ⟨before', m, after', rfl, hfinds, -⟩ := hreturns
    have hstart : (c.memoryAt s).next < (c.memoryAt (c.counted s)).next := by
      simp only [counted, memoryAt_changed, Nat.lt_succ_self]
    refine ⟨hschema, hpassage.newer _ hstart table (.inr ⟨m, ?_, hfinds⟩)⟩
    rw [hlog]
    simp

/-! ## A small run -/

/-- A cache over an engine without tables. -/
def emptied : Cache Bool where
  config := smallConfig
  place := ⟨"c", "", "c", "t"⟩
  backend := fun _ => return .list []
  id := 0

/-- The cache over an engine whose only table is dropped while a rebuild reads it; the catalog is
rebuilt at once. -/
def emptying : Cache Bool :=
  { emptied with
    backend := fun operation => do
      if (← get).outside then return .list []
      match operation with
      | .tableScan _ _ _ =>
        modify fun s => { s with outside := true }
        let _ ← emptied.rebuild.outcome
        return smallAnswer
      | _ => return smallAnswer }

theorem execute_tableNames_emptied (f : Folder) (m : Keyed Nat Memory) :
    emptied.tableNames.execute ⟨f, m, true⟩ = (.ok [], ⟨f, m, true⟩) := rfl

theorem execute_tableNames_emptying (f : Folder) (m : Keyed Nat Memory) :
    emptying.tableNames.execute ⟨f, m, true⟩ = (.ok [], ⟨f, m, true⟩) := rfl

theorem execute_rebuild_emptying (f : Folder) (m : Keyed Nat Memory) :
    emptying.rebuild.execute ⟨f, m, true⟩ = emptied.rebuild.execute ⟨f, m, true⟩ := by
  rw [rebuild, rebuild, Action.execute_bind, Action.execute_bind, execute_nextGeneration,
    execute_nextGeneration]
  dsimp only
  rw [Action.execute_bind, Action.execute_bind, counted, counted, changed, changed,
    execute_tableNames_emptying, execute_tableNames_emptied]
  rfl

/-- While the table is read another rebuild runs. -/
theorem execute_discover_emptying (f : Folder) (m : Keyed Nat Memory) :
    (emptying.discover (.text "a")).execute ⟨f, m, false⟩ =
      (.ok (smallSchema "a"), (emptying.rebuild.execute ⟨f, m, true⟩).2) := by
  rw [execute_rebuild_emptying]
  rfl

/-- Before the run, with an empty folder and no cache in use. -/
def full : Site Bool := ⟨some [], [], false⟩

/-- The rebuild that runs while the table is read. -/
def emptiedSite : Site Bool :=
  { emptying.opened "a" (emptying.counted full) with outside := true }

theorem named_empty : ({} : Catalog).Named :=
  ⟨by simp, by simp⟩

/-- The rebuild that runs meanwhile commits an empty catalog. -/
theorem course_emptying : ∃ s', emptying.rebuild.execute emptiedSite = (.ok {}, s') ∧
    emptying.Course [] emptiedSite [.rebuilds, .commits [] {}] s' ∧ emptying.loadAt s' = .ok {} ∧
      s'.folder.isSome = true ∧ s'.folder.entry? emptying.place.name ≠ some .folder := by
  have hlisted : emptying.tableNames.execute (emptying.counted emptiedSite) =
      (.ok ((([] : List Finding).map (·.table)).map .text), emptying.counted emptiedSite) := rfl
  have hfound : (emptying.rediscoverAll ((([] : List Finding).map (·.table)).map .text) []).execute
        (emptying.counted emptiedSite) =
      (.ok (([] : List Finding).map entry), emptying.counted emptiedSite) := rfl
  have hload : emptying.loadAt (emptying.counted emptiedSite) = .ok {} := rfl
  obtain ⟨s', hrebuild⟩ := exists_execute_rebuild hlisted hfound hload named_empty (by simp) rfl
    (show none ≠ some Entry.folder by simp)
  have hsuccess : emptying.rebuild.execute emptiedSite = (.ok {}, s') := hrebuild
  obtain ⟨-, -, onDisk, folder, -, -, hsave, rfl⟩ := commit_of_rebuild hlisted hfound hsuccess
  refine ⟨_, hsuccess, .rebuilt hlisted (.untouched (.refl _ _)) hfound (.untouched (.refl _ _))
    hsuccess, Folder.load_save named_empty (Catalog.coherent_empty [] List.nodup_nil) hsave, ?_, ?_⟩
  · have hpresent := Folder.isSome_save emptying.place {} (emptying.counted emptiedSite).folder
    rw [hsave] at hpresent
    exact hpresent
  · obtain ⟨bytes, -, hentry⟩ := Folder.entry?_save_ok hsave
    show folder.entry? emptying.place.name ≠ some .folder
    rw [hentry]
    simp

theorem rebuilding_emptying : ∃ s', emptying.Rebuilding full ["a"]
    [.discovers "a", .rebuilds, .commits [] {}] (({} : Catalog).put (smallSchema "a")) s' := by
  obtain ⟨s₁, hinner, hcourse, hload, hpresent, hfile⟩ := course_emptying
  have hfree : emptying.IsFree "a" (emptying.counted full) := by
    show Value.text "a" ∉ []
    simp
  have hdiscover : (emptying.discover (.text "a")).execute
      (emptying.opened "a" (emptying.counted full)) = (.ok (smallSchema "a"), s₁) := by
    refine (execute_discover_emptying _ _).trans ?_
    show (_, (emptying.rebuild.execute emptiedSite).2) = _
    rw [hinner]
  have hdropped : emptying.Course [] (emptying.opened "a" (emptying.counted full)) [] emptiedSite :=
    .untouched ⟨rfl, rfl⟩
  have hrediscover := emptying.execute_rediscover hfree
  rw [hdiscover] at hrediscover
  have hfound := Course.found hfree (by rw [hdiscover]; exact hdropped.next hcourse)
    (congrArg Prod.fst hdiscover)
  rw [hrediscover] at hfound
  have hlisted : emptying.tableNames.execute (emptying.counted full) =
      (.ok (["a"].map .text), emptying.counted full) := rfl
  have hrediscovered : (emptying.rediscoverAll (["a"].map .text) []).execute
      (emptying.counted full) =
        (.ok ([⟨"a", 1, smallSchema "a"⟩].map entry), emptying.left "a" s₁) := by
    rw [List.map_cons, rediscoverAll, Action.execute_bind, hrediscover]
    rfl
  have hown : ∀ d ∈ [Finding.mk "a" 1 (smallSchema "a")], d.schema.Named := by
    simp [named_smallSchema]
  have hleft : emptying.loadAt (emptying.left "a" s₁) = .ok {} := hload
  obtain ⟨s', hsuccess⟩ := exists_execute_rebuild hlisted hrediscovered hleft named_empty hown
    hpresent hfile
  exact ⟨s', .intro hlisted (.untouched (.refl _ _)) hrediscovered hfound hsuccess⟩

theorem rebuild_brings_back_iff_emptying :
    ∃ catalog s', emptying.Rebuilding full ["a"] [.discovers "a", .rebuilds, .commits [] {}]
        catalog s' ∧ emptying.loadAt s' = .ok catalog ∧
      (.text "a" ∈ catalog.tables ↔ "a" ∈ ["a"] ∨ Moment.Returns "a" []) := by
  obtain ⟨s', h⟩ := rebuilding_emptying
  have hstored : ∀ onDisk, emptying.loadAt full = .ok onDisk → onDisk.Named := by
    intro onDisk hload
    cases hload
    exact named_empty
  have hnamed : ∀ m ∈ [.discovers "a", .rebuilds, .commits [] {}], Moment.Named m := by
    simp [Moment.Named, named_empty]
  have hlog : ([.discovers "a", .rebuilds, .commits [] {}] : List Moment) =
      [.discovers "a", .rebuilds] ++ .commits [] {} :: [] := rfl
  exact ⟨_, s', h, rebuild_brings_back_iff h hlog hstored hnamed
    (named_empty.put (named_smallSchema "a")) (by simp)⟩

/-- The outdated rebuild lists a table that was dropped: no discovery of it has started since the
other rebuild did, whose catalog is empty. -/
theorem rebuild_brings_back_emptying :
    ∃ catalog s', emptying.Rebuilding full ["a"] [.discovers "a", .rebuilds, .commits [] {}]
        catalog s' ∧ .text "a" ∉ ({} : Catalog).tables ∧ .text "a" ∈ catalog.tables := by
  obtain ⟨s', h⟩ := rebuilding_emptying
  exact ⟨_, s', h, by simp, (Catalog.mem_tables_put rfl).2 (.inr rfl)⟩

end Cache

end RowAccess
