import RowAccess.Proofs.Schema.History

/-
  RowAccess/Proofs/Schema/Rebuild.lean
  ====================================
  **A rebuild loses no refresh.**  While a rebuild lists and discovers the tables, its backend may
  ask the same cache for schemas.  What the rebuild commits in the end has for every table it found
  the schema of the latest discovery, its own or one that was committed meanwhile, and of other
  tables exactly those that were committed meanwhile (`Cache.rebuild_keeps_latest`).
-/

namespace RowAccess

open Keyed

namespace Cache

variable {σ : Type} (c : Cache σ)

/-! ## Merging -/

section Merging

variable (onDisk : Catalog) (persisted : Keyed Value Nat)

/-- The schema that a rebuild takes for a table it found: the one on disk if it is later. -/
def chosen (table : Value) (d : Discovery) : TableSchema :=
  match onDisk.get? table with
  | some newer => if isNewer persisted table d.generation then newer else d.schema
  | none => d.schema

/-- The schemas on disk of other tables that were persisted after the start. -/
def kept (found : Keyed Value Discovery) (start : Nat) : List TableSchema :=
  (onDisk.schemas.filter fun e => !has found e.1 && isNewer persisted e.1 start).map (·.2)

theorem mergeFound_fst (found : Keyed Value Discovery) (done : Catalog × Keyed Value Nat) :
    (mergeFound onDisk persisted found done).1 =
      done.1.putAll (found.map fun e => chosen onDisk persisted e.1 e.2) := by
  induction found generalizing done with
  | nil => rfl
  | cons e found ih =>
    obtain ⟨table, d⟩ := e
    obtain ⟨catalog, replaced⟩ := done
    rw [List.map_cons, Catalog.putAll, List.foldl_cons, ← Catalog.putAll]
    unfold mergeFound chosen
    cases hget : onDisk.get? table with
    | none =>
      simp only [ih, chosen]
    | some newer =>
      dsimp only
      split
      · simp only [ih, chosen]
      · simp only [ih, chosen]

theorem keepNew_eq (found : Keyed Value Discovery) (start : Nat) (catalog : Catalog) :
    keepNew onDisk persisted found start catalog =
      catalog.putAll (kept onDisk persisted found start) := by
  unfold keepNew kept Catalog.putAll
  rw [List.foldl_map, List.foldl_filter]

end Merging

/-! ## Listing -/

/-- Texts that were listed are distinct. -/
theorem nodup_listRows {before after rows : List Value} (h : listRows before rows = .ok after)
    (htext : ∀ v ∈ after, v.isText = true) (hbefore : before.Nodup) : after.Nodup := by
  refine Outcome.foldlM_induction
    (motive := fun _ tables => (∀ v ∈ tables, v.isText = true) → tables.Nodup)
    (fun _ => hbefore) ?_ h htext
  intro done tables row tables' hnodup hstep htext'
  obtain ⟨name, -, hname⟩ := Outcome.bind_eq_ok_iff.1 hstep
  cases hname
  have hname : name.isText = true := Catalog.isText_of_list htext'
  exact Catalog.nodup_list (Catalog.exact_of_isText hname)
    (hnodup fun v hv => htext' v (Catalog.subset_list tables name v hv))

theorem subset_listRows {before after rows : List Value} (h : listRows before rows = .ok after) :
    ∀ v ∈ before, v ∈ after := by
  refine Outcome.foldlM_induction (motive := fun _ tables => ∀ v ∈ before, v ∈ tables)
    (fun v hv => hv) ?_ h
  intro done tables row tables' hsubset hstep
  obtain ⟨name, -, hname⟩ := Outcome.bind_eq_ok_iff.1 hstep
  cases hname
  exact fun v hv => Catalog.subset_list tables name v (hsubset v hv)

theorem execute_listBy_eq_ok {before after : List Value} {text : String} {s s' : Site σ}
    (h : (c.listBy before text).execute s = (.ok after, s')) :
    ∃ rows, listRows before rows = .ok after := by
  unfold listBy at h
  obtain ⟨rows, s₁, -, h⟩ := Action.execute_bind_eq_ok_iff.1 h
  obtain ⟨members, s₂, -, h⟩ := Action.execute_bind_eq_ok_iff.1 h
  exact ⟨members, (Prod.mk.inj h).1⟩

theorem nodup_tableNames {tables : List Value} {s s' : Site σ}
    (h : c.tableNames.execute s = (.ok tables, s')) (htext : ∀ v ∈ tables, v.isText = true) :
    tables.Nodup := by
  unfold tableNames at h
  obtain ⟨first, s₁, hfirst, h⟩ := Action.execute_bind_eq_ok_iff.1 h
  obtain ⟨rows, hrows⟩ := c.execute_listBy_eq_ok hfirst
  cases hviews : c.config.dialect.viewsQuery with
  | none =>
    rw [hviews] at h
    cases h
    exact nodup_listRows hrows htext List.nodup_nil
  | some text =>
    rw [hviews] at h
    obtain ⟨rows', hrows'⟩ := c.execute_listBy_eq_ok h
    exact nodup_listRows hrows' htext
      (nodup_listRows hrows (fun v hv => htext v (subset_listRows hrows' v hv)) List.nodup_nil)

/-! ## The discoveries of a rebuild -/

/-- The discoveries of a rebuild, table after table: what it finds itself, and what is committed
meanwhile. -/
inductive Rediscoveries : List String → Site σ → List Finding → List Finding → Site σ → Prop
  | nil (s : Site σ) : Rediscoveries [] s [] [] s
  | cons {table : String} {tables : List String} {s s' : Site σ} {t : TableSchema}
    {own log log' : List Finding} (free : c.IsFree table s)
    (found : ((c.discover (.text table)).execute (c.opened table s)).1 = .ok t)
    (inner : c.Meanwhile (c.opened table s) log
      ((c.discover (.text table)).execute (c.opened table s)).2)
    (rest : Rediscoveries tables ((c.rediscover (.text table)).execute s).2 own log' s') :
    Rediscoveries (table :: tables) s (⟨table, (c.memoryAt s).next, t⟩ :: own) (log ++ log') s'

/-- A rebuild that succeeds, with the tables it lists, what it finds itself, and what is committed
meanwhile. -/
inductive Rebuilt (s : Site σ) (tables : List String) (own : List Finding) :
    List Finding → Catalog → Site σ → Prop
  | intro {s₁ s₂ s' : Site σ} {log log' : List Finding} {catalog : Catalog}
    (listed : c.tableNames.execute (c.counted s) = (.ok (tables.map .text), s₁))
    (before : c.Meanwhile (c.counted s) log s₁)
    (discoveries : c.Rediscoveries tables s₁ own log' s₂)
    (success : c.rebuild.execute s = (.ok catalog, s')) :
    Rebuilt s tables own (log ++ log') catalog s'

variable {c}

structure Own (tables : List String) (v w : View) (log own : List Finding) : Prop where
  tables : own.map (·.table) = tables
  counted : ∀ d ∈ own, v.memory.next ≤ d.generation ∧ d.generation < w.memory.next
  named : ∀ d ∈ own, d.schema.name = .text d.table
  apart : ∀ d ∈ own, ∀ e ∈ log, e.table = d.table → e.generation ≠ d.generation

theorem Rediscoveries.effect {tables : List String} {s s' : Site σ} {own log : List Finding}
    (h : c.Rediscoveries tables s own log s') :
    (c.view s).Effect log (c.view s') ∧ Own tables (c.view s) (c.view s') log own := by
  induction h with
  | nil s => exact ⟨.refl _, rfl, by simp, by simp, by simp⟩
  | @cons table tables s s' t own log log' free found inner _ ih =>
    obtain ⟨heffect', htables, hcounted, hnamed, hapart⟩ := ih
    have heffect := inner.effect
    rw [view_opened] at heffect
    obtain ⟨heffect, hnext, hlater⟩ := View.Effect.locked (v := c.view s) free heffect
    rw [c.execute_rediscover free, view_left] at heffect' hcounted
    have hname : t.name = .text table := c.discover_name (Prod.ext found rfl)
    refine ⟨heffect.trans heffect', by rw [List.map_cons, htables], ?_, ?_, ?_⟩
    · intro d hd
      rcases List.mem_cons.1 hd with rfl | hd
      · exact ⟨Nat.le_refl _, Nat.lt_of_lt_of_le hnext heffect'.next_le⟩
      · exact ⟨Nat.le_trans heffect.next_le (hcounted d hd).1, (hcounted d hd).2⟩
    · intro d hd
      rcases List.mem_cons.1 hd with rfl | hd
      · exact hname
      · exact hnamed d hd
    · intro d hd e he htable
      rcases List.mem_cons.1 hd with rfl | hd
      · rcases List.mem_append.1 he with he | he
        · exact absurd htable (hlater e he).1
        · exact Nat.ne_of_gt (Nat.lt_of_lt_of_le hnext (heffect'.counted e he).1)
      · rcases List.mem_append.1 he with he | he
        · exact Nat.ne_of_lt (Nat.lt_of_lt_of_le (heffect.counted e he).2 (hcounted d hd).1)
        · exact hapart d hd e he htable

def entry (d : Finding) : Value × Discovery :=
  (.text d.table, ⟨d.generation, d.schema⟩)

theorem keys_map_entry (own : List Finding) :
    keys (own.map entry) = (own.map (·.table)).map .text := by
  simp [keys, entry]

theorem Rediscoveries.execute {tables : List String} {s s' : Site σ} {own log : List Finding}
    (h : c.Rediscoveries tables s own log s') (before : Keyed Value Discovery)
    (hnew : (keys before ++ tables.map Value.text).Nodup) :
    (c.rediscoverAll (tables.map .text) before).execute s =
      (.ok (before ++ own.map entry), s') := by
  induction h generalizing before with
  | nil s => simp [rediscoverAll, Action.execute_pure]
  | @cons table tables s s' t own log log' free found _ _ ih =>
    have hfresh : Value.text table ∉ keys before := fun hmem =>
      (List.nodup_append.1 hnew).2.2 _ hmem (.text table) (by simp) rfl
    have hput := (Value.exact_text table).put_of_not_mem hfresh
      (⟨(c.memoryAt s).next, t⟩ : Discovery)
    have hrest := ih (before ++ [(.text table, ⟨(c.memoryAt s).next, t⟩)])
      (by simpa [keys] using hnew)
    have hexecute := c.execute_rediscover free
    rw [found] at hexecute
    rw [hexecute] at hrest
    rw [List.map_cons, rediscoverAll, Action.execute_bind, hexecute]
    simp only [Except.map, hput, hrest]
    simp [entry]

/-! ## The rebuilt catalog -/

/-- What a rebuild commits, described by the catalog on disk at that moment, what is persisted then,
and what the rebuild found itself. -/
def rebuiltFrom (onDisk : Catalog) (persisted : Keyed Value Nat) (start : Nat)
    (own : List Finding) : List TableSchema :=
  own.map (fun d => chosen onDisk persisted (.text d.table) ⟨d.generation, d.schema⟩) ++
    kept onDisk persisted (own.map entry) start

theorem keepNew_merged_entry (tables : List Value) (onDisk : Catalog) (persisted : Keyed Value Nat)
    (start : Nat) (own : List Finding) :
    keepNew onDisk persisted (own.map entry) start
        (merged tables onDisk persisted (own.map entry)).1 =
      (Catalog.mk tables []).putAll (rebuiltFrom onDisk persisted start own) := by
  rw [keepNew_eq, merged, mergeFound_fst, rebuiltFrom, Catalog.putAll, Catalog.putAll,
    Catalog.putAll, List.foldl_append]
  simp [entry, Function.comp_def]

section Commit

variable {onDisk : Catalog} {persisted : Keyed Value Nat} {start : Nat} {own : List Finding}

theorem chosen_eq (onDisk : Catalog) (persisted : Keyed Value Nat) (d : Finding) :
    chosen onDisk persisted (.text d.table) ⟨d.generation, d.schema⟩ = d.schema ∨
      onDisk.get? (.text d.table) =
        some (chosen onDisk persisted (.text d.table) ⟨d.generation, d.schema⟩) := by
  unfold chosen
  cases hget : onDisk.get? (.text d.table) with
  | none => exact .inl rfl
  | some newer =>
    dsimp only
    split
    · exact .inr rfl
    · exact .inl rfl

theorem chosen_name (hc : onDisk.Coherent) {d : Finding} (hd : d.schema.name = .text d.table) :
    (chosen onDisk persisted (.text d.table) ⟨d.generation, d.schema⟩).name = .text d.table := by
  rcases chosen_eq onDisk persisted d with h | h
  · rw [h]
    exact hd
  · exact hc.get?_name h

theorem mem_kept {found : Keyed Value Discovery} {t : TableSchema} :
    t ∈ kept onDisk persisted found start ↔ ∃ k, (k, t) ∈ onDisk.schemas ∧
      has found k = false ∧ isNewer persisted k start = true := by
  simp only [kept, List.mem_map, List.mem_filter, Bool.and_eq_true, Bool.not_eq_true']
  constructor
  · rintro ⟨⟨k, u⟩, ⟨hmem, hcond⟩, rfl⟩
    exact ⟨k, hmem, hcond⟩
  · rintro ⟨k, hmem, hcond⟩
    exact ⟨(k, t), ⟨hmem, hcond⟩, rfl⟩

theorem has_entry {table : String} :
    has (own.map entry) (.text table) = true ↔ table ∈ own.map (·.table) := by
  rw [(Value.exact_text table).has_iff, keys_map_entry, List.mem_map]
  constructor
  · rintro ⟨t, ht, heq⟩
    rwa [← Value.text.inj heq]
  · exact fun h => ⟨table, h, rfl⟩

theorem named_rebuiltFrom (hn : onDisk.Named) (hown : ∀ d ∈ own, d.schema.Named) :
    ∀ t ∈ rebuiltFrom onDisk persisted start own, t.Named := by
  intro t ht
  rcases List.mem_append.1 ht with ht | ht
  · obtain ⟨d, hd, rfl⟩ := List.mem_map.1 ht
    rcases chosen_eq onDisk persisted d with h | h
    · rw [h]
      exact hown d hd
    · exact hn.schemas _ ((Value.exact_text d.table).mem_of_find? h)
  · obtain ⟨k, hmem, -⟩ := mem_kept.1 ht
    exact hn.schemas _ hmem

/-- No table is put twice: what is kept was not found. -/
theorem nodup_rebuiltFrom (hc : onDisk.Coherent)
    (hown : ∀ d ∈ own, d.schema.name = .text d.table) (hdistinct : (own.map (·.table)).Nodup) :
    ((rebuiltFrom onDisk persisted start own).map (·.name)).Nodup := by
  have hfirst : (own.map (fun d => chosen onDisk persisted (.text d.table)
      ⟨d.generation, d.schema⟩)).map (·.name) = (own.map (·.table)).map .text := by
    rw [List.map_map, List.map_map]
    exact List.map_congr_left fun d hd => chosen_name hc (hown d hd)
  have hsecond : (kept onDisk persisted (own.map entry) start).map (·.name) =
      keys (onDisk.schemas.filter fun e =>
        !has (own.map entry) e.1 && isNewer persisted e.1 start) := by
    rw [kept, List.map_map, keys]
    refine List.map_congr_left fun e he => ?_
    exact (hc.named e (List.mem_filter.1 he).1).symm
  rw [rebuiltFrom, List.map_append, hfirst, hsecond]
  refine List.nodup_append.2 ⟨?_, ?_, ?_⟩
  · exact List.pairwise_map.2 (hdistinct.imp fun hne heq => hne (Value.text.inj heq))
  · exact hc.once.sublist (List.filter_sublist.map _)
  · intro a ha b hb
    obtain ⟨table, htable, rfl⟩ := List.mem_map.1 ha
    obtain ⟨e, he, rfl⟩ := List.mem_map.1 hb
    rintro heq
    obtain ⟨-, hcond⟩ := List.mem_filter.1 he
    rw [← heq, has_entry.2 htable] at hcond
    cases hcond

end Commit

/-- Are the generations of what was persisted below the next one? -/
def Ordered (s : Site σ) : Prop :=
  ∀ table g, find? (c.memoryAt s).persisted (.text table) = some g → g < (c.memoryAt s).next

/-- Everything about a rebuild at the site where it commits. -/
theorem Rebuilt.commit {s s' : Site σ} {tables : List String} {own log : List Finding}
    {catalog : Catalog} (h : c.Rebuilt s tables own log catalog s') :
    ∃ s₂ onDisk folder, tables.Nodup ∧ (c.view (c.counted s)).Effect log (c.view s₂) ∧
      Own tables (c.view (c.counted s)) (c.view s₂) log own ∧
      c.loadAt s₂ = .ok onDisk ∧
      catalog = (Catalog.mk (tables.map .text) []).putAll
        (rebuiltFrom onDisk (c.memoryAt s₂).persisted (c.memoryAt s).next own) ∧
      s₂.folder.save c.place catalog = (.ok (), folder) ∧ s'.folder = folder := by
  obtain ⟨listed, before, discoveries, success⟩ := h
  rename_i s₁ s₂ log log'
  have hdistinct : (tables.map Value.text).Nodup :=
    c.nodup_tableNames listed (by simp [Value.isText])
  obtain ⟨tables', s₁', found, s₂', onDisk, folder, hlisted, hfound, hload, hcatalog, hsave, hs'⟩ :=
    c.execute_rebuild_eq_ok success
  rw [listed] at hlisted
  obtain ⟨htables, rfl⟩ := Prod.mk.inj hlisted
  obtain rfl := Except.ok.inj htables
  rw [discoveries.execute [] (by simpa [keys] using hdistinct)] at hfound
  obtain ⟨hown, rfl⟩ := Prod.mk.inj hfound
  obtain rfl := Except.ok.inj hown
  obtain ⟨heffect, hown⟩ := discoveries.effect
  have hbefore := before.effect
  refine ⟨s₂, onDisk, folder, ?_, hbefore.trans heffect, ?_, hload, ?_, hsave, ?_⟩
  · exact (List.pairwise_map.1 hdistinct).imp fun hne heq => hne (congrArg Value.text heq)
  · obtain ⟨htables, hcounted, hnamed, hapart⟩ := hown
    refine ⟨htables, ?_, hnamed, ?_⟩
    · exact fun d hd => ⟨Nat.le_trans hbefore.next_le (hcounted d hd).1, (hcounted d hd).2⟩
    · intro d hd e he htable
      rcases List.mem_append.1 he with he | he
      · exact Nat.ne_of_lt (Nat.lt_of_lt_of_le (hbefore.counted e he).2 (hcounted d hd).1)
      · exact hapart d hd e he htable
  · rw [hcatalog, List.nil_append, keepNew_merged_entry]
  · rw [hs']
    rfl

/-- What is on disk and persisted when a rebuild commits agrees with what was committed meanwhile;
what was persisted before is older than the rebuild. -/
structure Recorded (onDisk : Catalog) (persisted : Keyed Value Nat) (start : Nat)
    (log : List Finding) : Prop where
  named : onDisk.Named
  coherent : onDisk.Coherent
  ascending : Finding.Ascending log
  last : ∀ table e, Finding.last? log table = some e →
    find? persisted (.text table) = some e.generation ∧
      onDisk.get? (.text table) = some e.schema ∧ start < e.generation
  old : ∀ table g, Finding.last? log table = none →
    find? persisted (.text table) = some g → g < start

section Answers

variable {onDisk : Catalog} {persisted : Keyed Value Nat} {start : Nat} {own log : List Finding}

theorem eq_of_table_eq (hdistinct : (own.map (·.table)).Nodup) {d e : Finding} (hd : d ∈ own)
    (he : e ∈ own) (h : e.table = d.table) : e = d := by
  induction own with
  | nil => cases hd
  | cons f own ih =>
    rw [List.map_cons, List.nodup_cons] at hdistinct
    rcases List.mem_cons.1 hd with hdf | hd
    · rcases List.mem_cons.1 he with hef | he
      · rw [hdf, hef]
      · exact absurd (List.mem_map.2 ⟨e, he, by rw [h, hdf]⟩) hdistinct.1
    · rcases List.mem_cons.1 he with hef | he
      · exact absurd (List.mem_map.2 ⟨d, hd, by rw [← h, hef]⟩) hdistinct.1
      · exact ih hdistinct.2 hd he

/-- A rebuild takes for a table it found the latest discovery, its own or a committed one. -/
theorem Recorded.chosen_latest (h : Recorded onDisk persisted start log)
    (hdistinct : (own.map (·.table)).Nodup) {d : Finding} (hd : d ∈ own)
    (hstart : start < d.generation)
    (hapart : ∀ e ∈ log, e.table = d.table → e.generation ≠ d.generation) :
    ∃ l ∈ own ++ log, l.table = d.table ∧
      chosen onDisk persisted (.text d.table) ⟨d.generation, d.schema⟩ = l.schema ∧
        ∀ e ∈ own ++ log, e.table = d.table → e = l ∨ e.generation < l.generation := by
  cases hlast : Finding.last? log d.table with
  | none =>
    refine ⟨d, List.mem_append_left _ hd, rfl, ?_, ?_⟩
    · have hnewer : isNewer persisted (.text d.table) d.generation = false := by
        unfold isNewer
        cases hp : find? persisted (.text d.table) with
        | none => rfl
        | some g =>
          have := h.old d.table g hlast hp
          simp only [decide_eq_false_iff_not]
          omega
      unfold chosen
      cases onDisk.get? (.text d.table) with
      | none => rfl
      | some newer => simp [hnewer]
    · intro e he htable
      rcases List.mem_append.1 he with he | he
      · exact .inl (eq_of_table_eq hdistinct hd he htable)
      · exact absurd htable (Finding.last?_eq_none_iff.1 hlast e he)
  | some l =>
    obtain ⟨hp, hget, -⟩ := h.last d.table l hlast
    obtain ⟨hl, hltable⟩ := Finding.mem_of_last? hlast
    have hle : ∀ e ∈ log, e.table = d.table → e = l ∨ e.generation < l.generation := by
      intro e he htable
      rw [← htable] at hlast
      exact h.ascending.le_last? hlast he
    by_cases hnewer : d.generation < l.generation
    · refine ⟨l, List.mem_append_right _ hl, hltable, ?_, ?_⟩
      · simp [chosen, hget, isNewer, hp, hnewer]
      · intro e he htable
        rcases List.mem_append.1 he with he | he
        · rw [eq_of_table_eq hdistinct hd he htable]
          exact .inr hnewer
        · exact hle e he htable
    · refine ⟨d, List.mem_append_left _ hd, rfl, ?_, ?_⟩
      · simp [chosen, hget, isNewer, hp, hnewer]
      · intro e he htable
        rcases List.mem_append.1 he with he | he
        · exact .inl (eq_of_table_eq hdistinct hd he htable)
        · have hne := hapart l hl hltable
          rcases hle e he htable with rfl | hlt
          · exact .inr (by omega)
          · exact .inr (by omega)

/-- The last commit of a table that the rebuild did not find is kept. -/
theorem Recorded.mem_rebuiltFrom (h : Recorded onDisk persisted start log) {table : String}
    (htable : table ∉ own.map (·.table)) {e : Finding}
    (he : Finding.last? log table = some e) :
    e.schema ∈ rebuiltFrom onDisk persisted start own := by
  obtain ⟨hp, hget, hstart⟩ := h.last table e he
  refine List.mem_append_right _ (mem_kept.2 ⟨.text table, ?_, ?_, ?_⟩)
  · exact (Value.exact_text table).mem_of_find? hget
  · exact Bool.eq_false_iff.2 fun hhas => htable (has_entry.1 hhas)
  · simp [isNewer, hp, hstart]

/-- Whatever a rebuild commits it found itself, or it was committed meanwhile. -/
theorem Recorded.name_rebuiltFrom (h : Recorded onDisk persisted start log)
    (hown : ∀ d ∈ own, d.schema.name = .text d.table) {t : TableSchema}
    (ht : t ∈ rebuiltFrom onDisk persisted start own) :
    ∃ table, t.name = .text table ∧
      (table ∈ own.map (·.table) ∨ ∃ e, Finding.last? log table = some e) := by
  rcases List.mem_append.1 ht with ht | ht
  · obtain ⟨d, hd, rfl⟩ := List.mem_map.1 ht
    exact ⟨d.table, chosen_name h.coherent (hown d hd), .inl (List.mem_map.2 ⟨d, hd, rfl⟩)⟩
  · obtain ⟨k, hmem, -, hnewer⟩ := mem_kept.1 ht
    obtain rfl : k = t.name := h.coherent.named _ hmem
    obtain ⟨table, htable⟩ := Value.isText_iff.1 (h.named.schemas _ hmem).table
    refine ⟨table, htable, .inr ?_⟩
    cases hlast : Finding.last? log table with
    | some e => exact ⟨e, rfl⟩
    | none =>
      rw [htable, isNewer] at hnewer
      cases hp : find? persisted (.text table) with
      | none =>
        rw [hp] at hnewer
        cases hnewer
      | some g =>
        have hold := h.old table g hlast hp
        rw [hp] at hnewer
        simp only [decide_eq_true_eq] at hnewer
        omega

end Answers

/-- When a rebuild commits, what is on disk and persisted agrees with what was committed
meanwhile. -/
theorem recorded {s s₂ : Site σ} {log : List Finding} {onDisk : Catalog}
    (heffect : (c.view (c.counted s)).Effect log (c.view s₂)) (hload : c.loadAt s₂ = .ok onDisk)
    (hordered : c.Ordered s) (hstored : ∀ before, c.loadAt s = .ok before → before.Named)
    (hnamed : ∀ d ∈ log, d.schema.Named) :
    Recorded onDisk (c.memoryAt s₂).persisted (c.memoryAt s).next log := by
  have hnext : (c.view (c.counted s)).memory.next = (c.memoryAt s).next + 1 := by
    simp only [view, counted, memoryAt_changed]
  have hbefore : (c.view (c.counted s)).memory.persisted = (c.memoryAt s).persisted := by
    simp only [view, counted, memoryAt_changed]
  obtain ⟨hn, hc, hget⟩ : onDisk.Named ∧ onDisk.Coherent ∧ ∃ before : Catalog, ∀ table,
      onDisk.get? (.text table) =
        ((Finding.last? log table).map (·.schema)).or (before.get? (.text table)) := by
    rcases hs : c.loadAt s with f | before
    · obtain ⟨-, hw⟩ := heffect.unreadable f hs
      rw [view, hload] at hw
      cases hw
    · have hn := hstored before hs
      obtain ⟨catalog, hw, hn', hc', hget⟩ :=
        heffect.stored before hs hn (Folder.coherent_load hs hn.tables) hnamed
      rw [view, hload] at hw
      obtain rfl := Except.ok.inj hw
      exact ⟨hn', hc', before, hget⟩
  obtain ⟨before, hget⟩ := hget
  refine ⟨hn, hc, heffect.ascending, ?_, ?_⟩
  · intro table e he
    obtain ⟨hmem, -⟩ := Finding.mem_of_last? he
    have hp := heffect.persisted table
    have hg := hget table
    rw [he] at hp hg
    have hcounted := (heffect.counted e hmem).1
    rw [hnext] at hcounted
    exact ⟨hp, hg, hcounted⟩
  · intro table g hnone hg
    have hp := heffect.persisted table
    rw [hnone, hbefore] at hp
    exact hordered table g (hp.symm.trans hg)

/-- **A rebuild loses no refresh.**  If a rebuild succeeds, what it returns is what is persisted.
A table that it lists has the schema of the latest discovery, the rebuild's own or one that a call
committed while the rebuild ran; another table is there exactly when a call committed it meanwhile,
with the last schema that was committed. -/
theorem rebuild_keeps_latest {s s' : Site σ} {tables : List String} {own log : List Finding}
    {catalog : Catalog} (h : c.Rebuilt s tables own log catalog s') (hordered : c.Ordered s)
    (hstored : ∀ before, c.loadAt s = .ok before → before.Named)
    (hnamed : ∀ d ∈ own ++ log, d.schema.Named) :
    c.loadAt s' = .ok catalog ∧
      (∀ table ∈ tables, ∃ d ∈ own ++ log, d.table = table ∧
        catalog.get? (.text table) = some d.schema ∧
          ∀ e ∈ own ++ log, e.table = table → e = d ∨ e.generation < d.generation) ∧
      (∀ table, table ∉ tables →
        catalog.get? (.text table) = (Finding.last? log table).map (·.schema)) ∧
      ∀ v, v ∈ catalog.tables ↔
        ∃ table, v = .text table ∧ (table ∈ tables ∨ ∃ d ∈ log, d.table = table) := by
  obtain ⟨s₂, onDisk, folder, hdistinct, heffect, hown, hload, hcatalog, hsave, hs'⟩ := h.commit
  have hrecorded := recorded heffect hload hordered hstored
    fun d hd => hnamed d (List.mem_append_right _ hd)
  have hownNamed : ∀ d ∈ own, d.schema.Named := fun d hd => hnamed d (List.mem_append_left _ hd)
  have hnext : (c.view (c.counted s)).memory.next = (c.memoryAt s).next + 1 := by
    simp only [view, counted, memoryAt_changed]
  have hownDistinct : (own.map (·.table)).Nodup := by
    rw [hown.tables]
    exact hdistinct
  generalize hstart : (c.memoryAt s).next = start at *
  generalize hpersisted : (c.memoryAt s₂).persisted = persisted at *
  have hput : ∀ t ∈ rebuiltFrom onDisk persisted start own, t.Named :=
    named_rebuiltFrom hrecorded.named hownNamed
  have hputDistinct : ((rebuiltFrom onDisk persisted start own).map (·.name)).Nodup :=
    nodup_rebuiltFrom hrecorded.coherent hown.named hownDistinct
  have htexts : ∀ t ∈ rebuiltFrom onDisk persisted start own, t.name.isText = true :=
    fun t ht => (hput t ht).table
  refine ⟨?_, ?_, ?_, ?_⟩
  · have hempty : (Catalog.mk (tables.map Value.text) []).Named := ⟨by simp [Value.isText], by simp⟩
    have hdistinct' : (tables.map Value.text).Nodup :=
      List.pairwise_map.2 (hdistinct.imp fun hne heq => hne (Value.text.inj heq))
    rw [loadAt, hs']
    refine Folder.load_save ?_ ?_ hsave
    · rw [hcatalog]
      exact hempty.putAll hput
    · rw [hcatalog]
      exact (Catalog.coherent_empty _ hdistinct').putAll htexts
  · intro table htable
    rw [← hown.tables] at htable
    obtain ⟨d, hd, rfl⟩ := List.mem_map.1 htable
    have hlater := (hown.counted d hd).1
    rw [hnext] at hlater
    obtain ⟨l, hl, hltable, hchosen, hlatest⟩ :=
      hrecorded.chosen_latest hownDistinct hd hlater (hown.apart d hd)
    refine ⟨l, hl, hltable, ?_, hlatest⟩
    have hmem : chosen onDisk persisted (.text d.table) ⟨d.generation, d.schema⟩ ∈
        rebuiltFrom onDisk persisted start own :=
      List.mem_append_left _ (List.mem_map.2 ⟨d, hd, rfl⟩)
    have hget := Catalog.get?_putAll_of_mem (c := ⟨tables.map .text, []⟩) htexts hputDistinct hmem
    rw [chosen_name hrecorded.coherent (hown.named d hd), hchosen] at hget
    rw [hcatalog]
    exact hget
  · intro table htable
    rw [← hown.tables] at htable
    rw [hcatalog]
    cases hlast : Finding.last? log table with
    | some e =>
      obtain ⟨hmem, hetable⟩ := Finding.mem_of_last? hlast
      have hget := Catalog.get?_putAll_of_mem (c := ⟨tables.map .text, []⟩) htexts hputDistinct
        (hrecorded.mem_rebuiltFrom htable hlast)
      rw [heffect.named e hmem, hetable] at hget
      exact hget
    | none =>
      rw [Catalog.get?_putAll_of_ne htexts]
      · rfl
      · intro t ht heq
        obtain ⟨table', hname, hcause⟩ := hrecorded.name_rebuiltFrom hown.named ht
        obtain rfl := Value.text.inj (heq.symm.trans hname)
        rcases hcause with hmem | ⟨e, he⟩
        · exact htable hmem
        · rw [hlast] at he
          cases he
  · intro v
    rw [hcatalog, Catalog.mem_tables_putAll htexts]
    constructor
    · rintro (hv | ⟨t, ht, rfl⟩)
      · obtain ⟨table, htable, rfl⟩ := List.mem_map.1 hv
        exact ⟨table, rfl, .inl htable⟩
      · obtain ⟨table, hname, hcause⟩ := hrecorded.name_rebuiltFrom hown.named ht
        refine ⟨table, hname, ?_⟩
        rcases hcause with hmem | ⟨e, he⟩
        · rw [hown.tables] at hmem
          exact .inl hmem
        · exact .inr ⟨e, Finding.mem_of_last? he⟩
    · rintro ⟨table, rfl, hcause⟩
      by_cases htable : table ∈ tables
      · exact .inl (List.mem_map.2 ⟨table, htable, rfl⟩)
      · obtain ⟨d, hd, hdtable⟩ := hcause.resolve_left htable
        cases hlast : Finding.last? log table with
        | none => exact absurd hdtable (Finding.last?_eq_none_iff.1 hlast d hd)
        | some e =>
          obtain ⟨hmem, hetable⟩ := Finding.mem_of_last? hlast
          rw [← hown.tables] at htable
          refine .inr ⟨e.schema, hrecorded.mem_rebuiltFrom htable hlast, ?_⟩
          rw [heffect.named e hmem, hetable]

/-! ## A small run -/

/-- The conventions of a small run. -/
def smallConfig : Config where
  dialect := .mysql
  schemaName := "S"
  catalogPath := "c"
  booleanTrue := "Y"
  booleanFalse := "N"
  booleanNativeType := none
  wrapDateLiterals := true
  timestampFormatter := none
  debug := false
  schemaName_ne := by decide
  sentinels_ne := by decide

/-- What the backend of a small run answers to everything: one table, and its only column. -/
def smallAnswer : Value :=
  .list [.object [("TABLE_NAME", .text "a"), ("COLUMN_NAME", .text "id"),
    ("DATA_TYPE", .text "INT"), ("DATA_LENGTH", .null)]]

/-- A cache whose backend only answers. -/
def quiet : Cache Unit :=
  ⟨smallConfig, ⟨"c", "", "c", "t"⟩, fun _ => return smallAnswer, 0⟩

/-- The cache with a backend that refreshes another table while it reads the first. -/
def busy : Cache Unit :=
  { quiet with
    backend := fun operation =>
      match operation with
      | .tableScan (.text "a") _ _ => do
        let _ ← (quiet.schema (.text "b") true).outcome
        return smallAnswer
      | _ => return smallAnswer }

/-- An empty folder, and no cache in use. -/
def unused : Site Unit := ⟨some [], [], ()⟩

/-- What a discovery finds in a small run. -/
def smallSchema (table : String) : TableSchema :=
  ⟨.text table, .text "id", some .number, { number := [.text "id"] }, rfl⟩

theorem named_smallSchema (table : String) : (smallSchema table).Named := by
  refine ⟨rfl, .inr rfl, ?_⟩
  intro k v hv
  cases k <;> simp_all [smallSchema, Columns.of, Value.isText]

theorem execute_discover_busy (s : Site Unit) :
    (busy.discover (.text "a")).execute s =
      (.ok (smallSchema "a"), ((busy.schema (.text "b") true).execute s).2) := rfl

theorem execute_discover_quiet (s : Site Unit) :
    (busy.discover (.text "b")).execute s = (.ok (smallSchema "b"), s) := rfl

/-- The backend of the small run commits another table while the first is discovered. -/
theorem rediscoveries_busy : ∃ s', busy.Rediscoveries ["a"] (busy.counted unused)
    [⟨"a", 1, smallSchema "a"⟩] [⟨"b", 2, smallSchema "b"⟩] s' := by
  have hfree : busy.IsFree "a" (busy.counted unused) := by
    show Value.text "a" ∉ []
    simp
  have hfree' : busy.IsFree "b" (busy.opened "a" (busy.counted unused)) := by
    show Value.text "b" ∉ [Value.text "a"]
    simp
  have hcommits : busy.commits "b" true (busy.opened "a" (busy.counted unused)) =
      [⟨"b", 2, smallSchema "b"⟩] := rfl
  have hquiet : busy.Meanwhile (busy.opened "a" (busy.counted unused)) [⟨"b", 2, smallSchema "b"⟩]
      ((busy.schema (.text "b") true).execute (busy.opened "a" (busy.counted unused))).2 := by
    rw [← hcommits, ← List.nil_append (busy.commits _ _ _)]
    refine .discovered hfree' (.inl rfl) ?_
    rw [execute_discover_quiet]
    exact .untouched (.refl _ _)
  have hfound := execute_discover_busy (busy.opened "a" (busy.counted unused))
  rw [← congrArg Prod.snd hfound] at hquiet
  exact ⟨_, .cons hfree (congrArg Prod.fst hfound) hquiet (.nil _)⟩

theorem rebuild_keeps_latest_busy :
    ∃ catalog s', busy.Rebuilt unused ["a"] [⟨"a", 1, smallSchema "a"⟩]
        [⟨"b", 2, smallSchema "b"⟩] catalog s' ∧
      busy.loadAt s' = .ok catalog ∧ catalog.get? (.text "a") = some (smallSchema "a") ∧
        catalog.get? (.text "b") = some (smallSchema "b") := by
  obtain ⟨s₂, hrediscoveries⟩ := rediscoveries_busy
  obtain ⟨catalog, s', hsuccess⟩ :
      ∃ catalog s', busy.rebuild.execute unused = (.ok catalog, s') := by
    have hok : (busy.rebuild.execute unused).1.isOk = true := by decide +kernel
    rcases hrun : busy.rebuild.execute unused with ⟨f | catalog, s'⟩
    · rw [hrun] at hok
      cases hok
    · exact ⟨catalog, s', rfl⟩
  have hrebuilt : busy.Rebuilt unused ["a"] [⟨"a", 1, smallSchema "a"⟩]
      [⟨"b", 2, smallSchema "b"⟩] catalog s' :=
    .intro rfl (.untouched (.refl _ _)) hrediscoveries hsuccess
  have hordered : busy.Ordered unused := by
    intro table g hg
    cases hg
  have hstored : ∀ before, busy.loadAt unused = .ok before → before.Named := by
    intro before hbefore
    cases hbefore
    exact ⟨by simp, by simp⟩
  obtain ⟨hload, hlisted, hother, -⟩ := rebuild_keeps_latest hrebuilt hordered hstored (by
    intro d hd
    rcases List.mem_cons.1 hd with rfl | hd
    · exact named_smallSchema "a"
    · rw [List.mem_singleton.1 hd]
      exact named_smallSchema "b")
  obtain ⟨d, hd, htable, hget, -⟩ := hlisted "a" (by simp)
  refine ⟨catalog, s', hrebuilt, hload, ?_, hother "b" (by simp)⟩
  rcases List.mem_cons.1 hd with rfl | hd
  · exact hget
  · rw [List.mem_singleton.1 hd] at htable
    exact absurd htable (by decide)

end Cache

end RowAccess
