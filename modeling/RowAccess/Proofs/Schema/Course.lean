import RowAccess.Proofs.Schema.Moment
import RowAccess.Proofs.Schema.Run

/-
  RowAccess/Proofs/Schema/Course.lean
  ===================================
  **Calls of any kind while the backend works.**  A backend may ask the cache it works for for
  schemas and for rebuilds, so calls nest to any depth (`Cache.Course`).  Whatever they do, the
  catalog on disk goes from one commit to the next, and a table that some call has found counts as
  newer than every generation that was given out before (`Cache.Course.passage`).
-/

namespace RowAccess

open Keyed

namespace Cache

variable {σ : Type} {c : Cache σ}

/-! ## Generations of what is found -/

theorem isNewer_put {m : Keyed Value Nat} {table : String} {g : Nat} (k : Value) {g' : Nat}
    (hg : g < g') (h : isNewer m (.text table) g = true ∨ k = .text table) :
    isNewer (put m k g') (.text table) g = true := by
  have hexact := Value.exact_text table
  by_cases hk : k = .text table
  · subst hk
    simp [isNewer, hexact.find?_put, hg]
  · have hsame := hexact.find?_put_other m hk g'
    rw [isNewer, hsame]
    exact h.resolve_right hk

theorem isNewer_putAll {n : Keyed Value Nat} {g : Nat} (hn : ∀ e ∈ n, g < e.2)
    {m : Keyed Value Nat} {table : String}
    (h : isNewer m (.text table) g = true ∨ .text table ∈ keys n) :
    isNewer (putAll m n) (.text table) g = true := by
  induction n generalizing m with
  | nil => exact h.resolve_right List.not_mem_nil
  | cons e n ih =>
    refine ih (fun e' he' => hn e' (List.mem_cons_of_mem _ he')) ?_
    have hput : isNewer m (.text table) g = true ∨ e.1 = .text table →
        isNewer (put m e.1 e.2) (.text table) g = true := isNewer_put e.1 (hn e List.mem_cons_self)
    rcases h with h | h
    · exact .inl (hput (.inl h))
    · rcases List.mem_cons.1 h with h | h
      · exact .inl (hput (.inr h.symm))
      · exact .inr h

/-- What a rebuild found it has put, or a later discovery is on disk. -/
theorem mem_keys_mergeFound {onDisk : Catalog} {persisted : Keyed Value Nat} {own : List Finding}
    {done : Catalog × Keyed Value Nat} {table : String}
    (h : .text table ∈ keys done.2 ∨ table ∈ own.map (·.table)) :
    .text table ∈ keys (mergeFound onDisk persisted (own.map entry) done).2 ∨
      ∃ d ∈ own, isNewer persisted (.text table) d.generation = true := by
  induction own generalizing done with
  | nil => exact .inl (h.resolve_right List.not_mem_nil)
  | cons d own ih =>
    obtain ⟨catalog, replaced⟩ := done
    have hrest : ∀ {done' : Catalog × Keyed Value Nat}, .text table ∈ keys done'.2 ∨
        table ∈ own.map (·.table) →
          .text table ∈ keys (mergeFound onDisk persisted (own.map entry) done').2 ∨
            ∃ e ∈ d :: own, isNewer persisted (.text table) e.generation = true :=
      fun h' => (ih h').imp_right fun ⟨e, he, hnewer⟩ => ⟨e, List.mem_cons_of_mem _ he, hnewer⟩
    have hput : ∀ {catalog' : Catalog}, .text table ∈ keys (mergeFound onDisk persisted
        (own.map entry) (catalog', put replaced (.text d.table) d.generation)).2 ∨
          ∃ e ∈ d :: own, isNewer persisted (.text table) e.generation = true := by
      intro catalog'
      refine hrest ?_
      rw [(Value.exact_text d.table).mem_keys_put]
      rcases h with h | h
      · exact .inl (.inl h)
      · rcases List.mem_cons.1 h with h | h
        · exact .inl (.inr (congrArg Value.text h))
        · exact .inr h
    show .text table ∈ keys (mergeFound onDisk persisted
      ((.text d.table, ⟨d.generation, d.schema⟩) :: own.map entry) (catalog, replaced)).2 ∨ _
    unfold mergeFound
    split
    · split
      next hnewer =>
        by_cases htable : table = d.table
        · subst htable
          exact .inr ⟨d, List.mem_cons_self, hnewer⟩
        · exact hrest (h.imp_right fun h => (List.mem_cons.1 h).resolve_left htable)
      next => exact hput
    · exact hput

/-- Whatever a rebuild has found under later generations counts as newer once it has committed. -/
theorem isNewer_merged {tables : List Value} {onDisk : Catalog} {persisted : Keyed Value Nat}
    {own : List Finding} {table : String} {g : Nat} (hown : ∀ d ∈ own, g < d.generation)
    (h : isNewer persisted (.text table) g = true ∨ table ∈ own.map (·.table)) :
    isNewer (putAll persisted (merged tables onDisk persisted (own.map entry)).2) (.text table) g =
      true := by
  refine isNewer_putAll ?_ ?_
  · intro e he
    rcases mem_mergeFound he with hmem | ⟨e', he', heq⟩
    · cases hmem
    · obtain ⟨d, hd, rfl⟩ := List.mem_map.1 he'
      rw [← heq]
      exact hown d hd
  · rcases h with h | h
    · exact .inl h
    · have hfound : .text table ∈ keys (merged tables onDisk persisted (own.map entry)).2 ∨ _ :=
        mem_keys_mergeFound (.inr h)
      rcases hfound with hmem | ⟨d, hd, hnewer⟩
      · exact .inr hmem
      · refine .inl ?_
        have hlater := hown d hd
        unfold isNewer at hnewer ⊢
        split at hnewer
        · simp only [decide_eq_true_eq] at hnewer ⊢
          omega
        · cases hnewer

/-! ## What a rebuild commits -/

theorem keys_rediscoverAll {tables : List Value} (htext : ∀ v ∈ tables, v.isText = true)
    {before found : Keyed Value Discovery} (hnew : (keys before ++ tables).Nodup) {s s' : Site σ}
    (h : (c.rediscoverAll tables before).execute s = (.ok found, s')) :
    keys found = keys before ++ tables := by
  induction tables generalizing before s with
  | nil =>
    cases h
    simp
  | cons v tables ih =>
    rw [rediscoverAll] at h
    obtain ⟨d, s₁, -, h⟩ := Action.execute_bind_eq_ok_iff.1 h
    have hfresh : v ∉ keys before := fun hmem =>
      (List.nodup_append.1 hnew).2.2 _ hmem _ List.mem_cons_self rfl
    have hput : keys (put before v d) = keys before ++ [v] := by
      rw [(Catalog.exact_of_isText (htext v List.mem_cons_self)).put_of_not_mem hfresh]
      simp [keys]
    rw [ih (fun w hw => htext w (List.mem_cons_of_mem _ hw)) (by simpa [hput] using hnew) h, hput]
    simp

section Commit

variable {onDisk : Catalog} {persisted : Keyed Value Nat} {start : Nat} {own : List Finding}

theorem isText_rebuiltFrom (hn : onDisk.Named) (hc : onDisk.Coherent)
    (hown : ∀ d ∈ own, d.schema.name = .text d.table) :
    ∀ t ∈ rebuiltFrom onDisk persisted start own, t.name.isText = true := by
  intro t ht
  rcases List.mem_append.1 ht with ht | ht
  · obtain ⟨d, hd, rfl⟩ := List.mem_map.1 ht
    rw [chosen_name hc (hown d hd)]
    rfl
  · obtain ⟨k, hmem, -⟩ := mem_kept.1 ht
    exact (hn.schemas _ hmem).table

/-- A rebuild puts the schemas of the tables that it has found, and of others if they are on disk
and newer than its start. -/
theorem exists_mem_rebuiltFrom_iff (hc : onDisk.Coherent)
    (hown : ∀ d ∈ own, d.schema.name = .text d.table) (table : String) :
    (∃ t ∈ rebuiltFrom onDisk persisted start own, t.name = .text table) ↔
      table ∈ own.map (·.table) ∨ (∃ t, onDisk.get? (.text table) = some t) ∧
        isNewer persisted (.text table) start = true := by
  have hfound : table ∈ own.map (·.table) →
      ∃ t ∈ rebuiltFrom onDisk persisted start own, t.name = .text table := by
    intro htable
    obtain ⟨d, hd, rfl⟩ := List.mem_map.1 htable
    exact ⟨_, List.mem_append_left _ (List.mem_map.2 ⟨d, hd, rfl⟩), chosen_name hc (hown d hd)⟩
  constructor
  · rintro ⟨t, ht, hname⟩
    rcases List.mem_append.1 ht with ht | ht
    · obtain ⟨d, hd, rfl⟩ := List.mem_map.1 ht
      rw [chosen_name hc (hown d hd)] at hname
      exact .inl (List.mem_map.2 ⟨d, hd, Value.text.inj hname⟩)
    · obtain ⟨k, hschema, -, hnewer⟩ := mem_kept.1 ht
      obtain rfl : k = .text table := (hc.named _ hschema).trans hname
      have hkey : Value.text table ∈ keys onDisk.schemas := List.mem_map.2 ⟨_, hschema, rfl⟩
      exact .inr ⟨(Value.exact_text table).exists_find? hkey, hnewer⟩
  · rintro (htable | ⟨⟨t, ht⟩, hnewer⟩)
    · exact hfound htable
    · by_cases htable : table ∈ own.map (·.table)
      · exact hfound htable
      · have hschema := (Value.exact_text table).mem_of_find? ht
        refine ⟨t, List.mem_append_right _ (mem_kept.2 ⟨_, hschema, ?_, hnewer⟩),
          (hc.named _ hschema).symm⟩
        exact Bool.eq_false_iff.2 fun hhas => htable (has_entry.1 hhas)

/-- The catalog that a rebuild makes of its own discoveries and of the catalog on disk. -/
def rebuiltCatalog (onDisk : Catalog) (persisted : Keyed Value Nat) (start : Nat)
    (own : List Finding) : Catalog :=
  (Catalog.mk ((own.map (·.table)).map .text) []).putAll (rebuiltFrom onDisk persisted start own)

theorem mem_tables_rebuilt (hn : onDisk.Named) (hc : onDisk.Coherent)
    (hown : ∀ d ∈ own, d.schema.name = .text d.table) (table : String) :
    .text table ∈ (rebuiltCatalog onDisk persisted start own).tables ↔
      ∃ t ∈ rebuiltFrom onDisk persisted start own, t.name = .text table := by
  rw [rebuiltCatalog, Catalog.mem_tables_putAll (isText_rebuiltFrom hn hc hown)]
  constructor
  · rintro (htable | ⟨t, ht, hname⟩)
    · obtain ⟨name, hname, heq⟩ := List.mem_map.1 htable
      obtain rfl := Value.text.inj heq
      exact (exists_mem_rebuiltFrom_iff hc hown name).2 (.inl hname)
    · exact ⟨t, ht, hname.symm⟩
  · rintro ⟨t, ht, hname⟩
    exact .inr ⟨t, ht, hname.symm⟩

theorem commits_rebuilt (hn : onDisk.Named) (hc : onDisk.Coherent)
    (hown : ∀ d ∈ own, d.schema.name = .text d.table) (hdistinct : (own.map (·.table)).Nodup) :
    onDisk.Commits (own.map (·.table)) (rebuiltCatalog onDisk persisted start own) := by
  constructor
  · intro table htable
    rw [mem_tables_rebuilt hn hc hown, exists_mem_rebuiltFrom_iff hc hown]
    exact .inl htable
  · intro table htable
    rw [mem_tables_rebuilt hn hc hown, exists_mem_rebuiltFrom_iff hc hown] at htable
    refine htable.imp_right ?_
    rintro ⟨⟨t, ht⟩, -⟩
    exact hc.listed _ ((Value.exact_text table).mem_keys_of_find? ht)
  · rintro table ⟨htable, hget⟩
    obtain ⟨t, ht, hname⟩ := (mem_tables_rebuilt hn hc hown table).1 htable
    have hfind := Catalog.get?_putAll_of_mem (c := ⟨(own.map (·.table)).map .text, []⟩)
      (isText_rebuiltFrom hn hc hown) (nodup_rebuiltFrom hc hown hdistinct) ht
    rw [hname] at hfind
    rw [rebuiltCatalog, hfind] at hget
    cases hget

theorem coherent_rebuilt (hn : onDisk.Named) (hc : onDisk.Coherent)
    (hown : ∀ d ∈ own, d.schema.name = .text d.table) (hdistinct : (own.map (·.table)).Nodup) :
    (rebuiltCatalog onDisk persisted start own).Coherent := by
  have htexts : ((own.map (·.table)).map Value.text).Nodup :=
    List.pairwise_map.2 (hdistinct.imp fun hne heq => hne (Value.text.inj heq))
  exact (Catalog.coherent_empty _ htexts).putAll (isText_rebuiltFrom hn hc hown)

end Commit

/-- A rebuild that succeeds has put its own discoveries and what it keeps of the catalog on disk. -/
theorem commit_of_rebuild {tables : List String} {own : List Finding} {catalog : Catalog}
    {s s₁ s₂ s' : Site σ}
    (hlisted : c.tableNames.execute (c.counted s) = (.ok (tables.map .text), s₁))
    (hfound : (c.rediscoverAll (tables.map .text) []).execute s₁ = (.ok (own.map entry), s₂))
    (hsuccess : c.rebuild.execute s = (.ok catalog, s')) :
    own.map (·.table) = tables ∧ tables.Nodup ∧ ∃ onDisk folder, c.loadAt s₂ = .ok onDisk ∧
      catalog = rebuiltCatalog onDisk (c.memoryAt s₂).persisted (c.memoryAt s).next own ∧
        s₂.folder.save c.place catalog = (.ok (), folder) ∧
          s' = c.changed
            (fun m => { m with
              persisted := putAll m.persisted
                (merged (tables.map .text) onDisk (c.memoryAt s₂).persisted (own.map entry)).2 })
            { s₂ with folder := folder } := by
  have htext : ∀ v ∈ tables.map Value.text, v.isText = true := by simp [Value.isText]
  have hnodup := c.nodup_tableNames hlisted htext
  have hdistinct : tables.Nodup :=
    (List.pairwise_map.1 hnodup).imp fun hne heq => hne (congrArg Value.text heq)
  have hkeys := keys_rediscoverAll htext (by simpa [keys] using hnodup) hfound
  have htables : own.map (·.table) = tables := by
    rw [keys_map_entry] at hkeys
    exact (List.map_inj_right fun _ _ => Value.text.inj).1 (by simpa [keys] using hkeys)
  obtain ⟨tables', s₁', found, s₂', onDisk, folder, hlisted', hfound', hload, hcatalog, hsave,
    hs'⟩ := c.execute_rebuild_eq_ok hsuccess
  obtain ⟨hnames, rfl⟩ := Prod.mk.inj (hlisted.symm.trans hlisted')
  obtain rfl := Except.ok.inj hnames
  obtain ⟨hown, rfl⟩ := Prod.mk.inj (hfound.symm.trans hfound')
  obtain rfl := Except.ok.inj hown
  refine ⟨htables, hdistinct, onDisk, folder, hload, ?_, hsave, hs'⟩
  rw [hcatalog, rebuiltCatalog, htables]
  exact keepNew_merged_entry _ onDisk _ _ _

/-- A rebuild that has listed and discovered its tables succeeds wherever there is a folder and
nothing but a file is in the way. -/
theorem exists_execute_rebuild {own : List Finding} {onDisk : Catalog} {s s₁ s₂ : Site σ}
    (hlisted : c.tableNames.execute (c.counted s) =
      (.ok ((own.map (·.table)).map .text), s₁))
    (hfound : (c.rediscoverAll ((own.map (·.table)).map .text) []).execute s₁ =
      (.ok (own.map entry), s₂))
    (hload : c.loadAt s₂ = .ok onDisk) (hn : onDisk.Named) (hown : ∀ d ∈ own, d.schema.Named)
    (hpresent : s₂.folder.isSome = true) (hfile : s₂.folder.entry? c.place.name ≠ some .folder) :
    ∃ s', c.rebuild.execute s = (.ok (rebuiltCatalog onDisk (c.memoryAt s₂).persisted
      (c.memoryAt s).next own), s') := by
  have hempty : (Catalog.mk ((own.map (·.table)).map Value.text) []).Named :=
    ⟨by simp [Value.isText], by simp⟩
  have hnamed : (rebuiltCatalog onDisk (c.memoryAt s₂).persisted (c.memoryAt s).next own).Named :=
    hempty.putAll (named_rebuiltFrom hn hown)
  obtain ⟨folder, hsave⟩ := Folder.exists_save hnamed hpresent hfile
  rw [rebuild, Action.execute_bind, execute_nextGeneration]
  dsimp only
  rw [Action.execute_bind, hlisted]
  dsimp only
  rw [Action.execute_bind, hfound]
  dsimp only
  rw [Action.execute_bind, execute_load, hload]
  dsimp only
  rw [Action.execute_bind, execute_memory]
  dsimp only
  rw [← merged, keepNew_merged_entry, ← rebuiltCatalog, Action.execute_bind, execute_save, hsave]
  exact ⟨_, rfl⟩

/-! ## Courses -/

variable (c) in
/-- What may happen to the cache while its backend works, what is seen of it, and what a rebuild
that is still running has found itself by then.  Outside of calls nobody touches the cache.  A call
discovers a table under its lock, and what happens while it discovers is again of this kind.  A
rebuild that fails has given out generations and has found what nobody is given; calls for the
catalog that is there are calls for the schemas that it lacks. -/
inductive Course : List Finding → Site σ → List Moment → Site σ → Prop
  | untouched {s s' : Site σ} (h : c.Untouched s s') : Course [] s [] s'
  | known {table : String} {overwrite : Bool} {s : Site σ} (free : c.IsFree table s)
    (known : ¬ c.Discovers table overwrite s) :
    Course [] s [] ((c.schema (.text table) overwrite).execute s).2
  | refreshed {table : String} {overwrite : Bool} {s : Site σ} {log : List Moment}
    {catalog : Catalog} {t : TableSchema} (free : c.IsFree table s)
    (discovers : c.Discovers table overwrite s)
    (inner : Course [] (c.opened table s) log
      ((c.discover (.text table)).execute (c.opened table s)).2)
    (loaded : c.loadAt ((c.discover (.text table)).execute (c.opened table s)).2 = .ok catalog)
    (success : ((c.schema (.text table) overwrite).execute s).1 = .ok t) :
    Course [] s (.discovers table :: (log ++ [.commits [table] (catalog.put t)]))
      ((c.schema (.text table) overwrite).execute s).2
  | refused {table : String} {overwrite : Bool} {s : Site σ} {log : List Moment} {f : Fault}
    (free : c.IsFree table s) (discovers : c.Discovers table overwrite s)
    (inner : Course [] (c.opened table s) log
      ((c.discover (.text table)).execute (c.opened table s)).2)
    (failure : ((c.schema (.text table) overwrite).execute s).1 = .error f) :
    Course [] s (.discovers table :: log) ((c.schema (.text table) overwrite).execute s).2
  | started {s : Site σ} : Course [] s [.rebuilds] (c.counted s)
  | found {table : String} {s : Site σ} {log : List Moment} {t : TableSchema}
    (free : c.IsFree table s)
    (inner : Course [] (c.opened table s) log
      ((c.discover (.text table)).execute (c.opened table s)).2)
    (success : ((c.discover (.text table)).execute (c.opened table s)).1 = .ok t) :
    Course [⟨table, (c.memoryAt s).next, t⟩] s (.discovers table :: log)
      ((c.rediscover (.text table)).execute s).2
  | missed {table : String} {s : Site σ} {log : List Moment} {f : Fault}
    (free : c.IsFree table s)
    (inner : Course [] (c.opened table s) log
      ((c.discover (.text table)).execute (c.opened table s)).2)
    (failure : ((c.discover (.text table)).execute (c.opened table s)).1 = .error f) :
    Course [] s (.discovers table :: log) ((c.rediscover (.text table)).execute s).2
  | rebuilt {s s₁ s₂ s' : Site σ} {tables : List String} {own : List Finding}
    {log log' : List Moment} {catalog : Catalog}
    (listed : c.tableNames.execute (c.counted s) = (.ok (tables.map .text), s₁))
    (listing : Course [] (c.counted s) log s₁)
    (rediscovered : (c.rediscoverAll (tables.map .text) []).execute s₁ =
      (.ok (own.map entry), s₂))
    (discovering : Course own s₁ log' s₂)
    (success : c.rebuild.execute s = (.ok catalog, s')) :
    Course [] s (.rebuilds :: (log ++ log' ++ [.commits tables catalog])) s'
  | abandoned {s s' : Site σ} {own : List Finding} {log : List Moment}
    (h : Course own s log s') : Course [] s log s'
  | next {s s₁ s' : Site σ} {own own' : List Finding} {log log' : List Moment}
    (first : Course own s log s₁) (second : Course own' s₁ log' s') :
    Course (own ++ own') s (log ++ log') s'

/-- What the moments of a course do to a cache.  Generations are counted on; what a running rebuild
has found has later generations than all that was given out before; a table that was found, or was
newer than a generation given out before, is newer than it; and the catalog on disk goes through
the commits. -/
structure Passage (c : Cache σ) (own : List Finding) (s : Site σ) (log : List Moment)
    (s' : Site σ) : Prop where
  next_le : (c.memoryAt s).next ≤ (c.memoryAt s').next
  named : ∀ d ∈ own, d.schema.name = .text d.table
  later : ∀ d ∈ own, (c.memoryAt s).next ≤ d.generation
  newer : ∀ g < (c.memoryAt s).next, ∀ table,
    isNewer (c.memoryAt s).persisted (.text table) g = true ∨ (∃ m ∈ log, m.Finds table) →
      isNewer (c.memoryAt s').persisted (.text table) g = true
  leads : (∀ before, c.loadAt s = .ok before → before.Named) → (∀ m ∈ log, m.Named) →
    Moment.Leads (c.loadAt s) log (c.loadAt s')

namespace Passage

variable {s s₁ s' : Site σ} {own own' : List Finding} {log log' : List Moment}

theorem of_eq (hmemory : c.memoryAt s' = c.memoryAt s) (hload : c.loadAt s' = c.loadAt s) :
    c.Passage [] s [] s' where
  next_le := Nat.le_of_eq (by rw [hmemory])
  named := by simp
  later := by simp
  newer := by simp [hmemory]
  leads := by
    intro _ _
    rw [hload]
    exact .nil _

theorem trans (h : c.Passage own s log s₁) (h' : c.Passage own' s₁ log' s') :
    c.Passage (own ++ own') s (log ++ log') s' where
  next_le := Nat.le_trans h.next_le h'.next_le
  named := by
    intro d hd
    exact (List.mem_append.1 hd).elim (h.named d) (h'.named d)
  later := by
    intro d hd
    rcases List.mem_append.1 hd with hd | hd
    · exact h.later d hd
    · exact Nat.le_trans h.next_le (h'.later d hd)
  newer := by
    intro g hg table hcause
    refine h'.newer g (Nat.lt_of_lt_of_le hg h.next_le) table ?_
    rcases hcause with hnewer | ⟨m, hm, hfinds⟩
    · exact .inl (h.newer g hg table (.inl hnewer))
    · rcases List.mem_append.1 hm with hm | hm
      · exact .inl (h.newer g hg table (.inr ⟨m, hm, hfinds⟩))
      · exact .inr ⟨m, hm, hfinds⟩
  leads := by
    intro hbefore hlog
    have hfirst := h.leads hbefore fun m hm => hlog m (List.mem_append_left _ hm)
    refine hfirst.append (h'.leads ?_ fun m hm => hlog m (List.mem_append_right _ hm))
    exact hfirst.named hbefore fun m hm => hlog m (List.mem_append_left _ hm)

theorem abandon (h : c.Passage own s log s') : c.Passage [] s log s' :=
  { h with named := by simp, later := by simp }

/-- What happens once a generation was given out is seen after the moment that it was given out
for. -/
theorem prepend (h : c.Passage own s₁ log s') {m : Moment}
    (hnext : (c.memoryAt s₁).next = (c.memoryAt s).next + 1)
    (hpersisted : (c.memoryAt s₁).persisted = (c.memoryAt s).persisted)
    (hload : c.loadAt s₁ = c.loadAt s) (hfinds : ∀ table, ¬ m.Finds table)
    (hleads : ∀ stored, Moment.Leads (c.loadAt s) log stored →
      Moment.Leads (c.loadAt s) (m :: log) stored) :
    c.Passage own s (m :: log) s' where
  next_le := by
    have hle := h.next_le
    omega
  named := h.named
  later := by
    intro d hd
    have hle := h.later d hd
    omega
  newer := by
    intro g hg table hcause
    refine h.newer g (by omega) table ?_
    rw [hpersisted]
    refine hcause.imp_right ?_
    rintro ⟨m', hm', hfound⟩
    rcases List.mem_cons.1 hm' with rfl | hm'
    · exact absurd hfound (hfinds table)
    · exact ⟨m', hm', hfound⟩
  leads := by
    intro hbefore hlog
    rw [← hload] at hbefore
    have hrest := h.leads hbefore fun m' hm' => hlog m' (List.mem_cons_of_mem _ hm')
    rw [hload] at hrest
    exact hleads _ hrest

/-- Taking the lock of a table and leaving it is not seen. -/
theorem locked {table : String} (h : c.Passage own (c.opened table s) log s') :
    c.Passage own s (.discovers table :: log) (c.left table s') := by
  have hleft : c.Passage own (c.opened table s) log (c.left table s') := by
    have hunseen : c.memoryAt (c.left table s') = { c.memoryAt s' with
        held := (c.memoryAt s').held.filter fun t => !(t == .text table) } := by
      rw [left, memoryAt_changed]
    exact { h with
      next_le := by rw [hunseen]; exact h.next_le
      newer := by rw [hunseen]; exact h.newer }
  refine hleft.prepend ?_ ?_ rfl (fun _ h => h) fun _ => .discovers table
  · simp only [opened, counted, entered, memoryAt_changed]
  · simp only [opened, counted, entered, memoryAt_changed]

/-- A rebuild has given out a generation when it lists the tables. -/
theorem start (h : c.Passage own (c.counted s) log s') :
    c.Passage own s (.rebuilds :: log) s' := by
  refine h.prepend ?_ ?_ rfl (fun _ h => h) fun _ => .rebuilds
  · simp only [counted, memoryAt_changed]
  · simp only [counted, memoryAt_changed]

/-- A commit adds what was found. -/
theorem commit (h : c.Passage own s log s₁) {found : List String} {catalog : Catalog}
    (hnext : (c.memoryAt s').next = (c.memoryAt s₁).next)
    (hnewer : ∀ g < (c.memoryAt s).next, ∀ table,
      isNewer (c.memoryAt s₁).persisted (.text table) g = true ∨ table ∈ found →
        isNewer (c.memoryAt s').persisted (.text table) g = true)
    (hcommits : (∀ onDisk, c.loadAt s₁ = .ok onDisk → onDisk.Named) → catalog.Named →
      Moment.Leads (c.loadAt s₁) [.commits found catalog] (c.loadAt s')) :
    c.Passage [] s (log ++ [.commits found catalog]) s' where
  next_le := by
    rw [hnext]
    exact h.next_le
  named := by simp
  later := by simp
  newer := by
    intro g hg table hcause
    refine hnewer g hg table ?_
    rcases hcause with hold | ⟨m, hm, hfinds⟩
    · exact .inl (h.newer g hg table (.inl hold))
    · rcases List.mem_append.1 hm with hm | hm
      · exact .inl (h.newer g hg table (.inr ⟨m, hm, hfinds⟩))
      · rw [List.mem_singleton.1 hm] at hfinds
        exact .inr hfinds
  leads := by
    intro hbefore hlog
    have hfirst := h.leads hbefore fun m hm => hlog m (List.mem_append_left _ hm)
    refine hfirst.append (hcommits ?_ (hlog (.commits found catalog) (by simp)))
    exact hfirst.named hbefore fun m hm => hlog m (List.mem_append_left _ hm)

end Passage

section Steps

variable {table : String} {overwrite : Bool} {s : Site σ} {log : List Moment}

theorem passage_refreshed {catalog : Catalog} {t : TableSchema} (hfree : c.IsFree table s)
    (hdiscovers : c.Discovers table overwrite s)
    (inner : c.Passage [] (c.opened table s) log
      ((c.discover (.text table)).execute (c.opened table s)).2)
    (hloaded : c.loadAt ((c.discover (.text table)).execute (c.opened table s)).2 = .ok catalog)
    (hsuccess : ((c.schema (.text table) overwrite).execute s).1 = .ok t) :
    c.Passage [] s (.discovers table :: (log ++ [.commits [table] (catalog.put t)]))
      ((c.schema (.text table) overwrite).execute s).2 := by
  have hexecute := c.execute_schema_discovers hfree hdiscovers
  rw [hexecute] at hsuccess ⊢
  rcases c.execute_refresh (.text table) (c.entered table s) with
    ⟨f, s', hrefresh, -⟩ | ⟨t', s₁, catalog', folder, hdiscover, hload, hsave, hrefresh⟩
  · rw [hrefresh] at hsuccess
    cases hsuccess
  · rw [hrefresh] at hsuccess ⊢
    obtain rfl := Except.ok.inj hsuccess
    have hopened : (c.discover (.text table)).execute (c.opened table s) = (.ok t', s₁) := hdiscover
    rw [hopened] at inner hloaded
    obtain rfl := Except.ok.inj (hloaded.symm.trans hload)
    have hname : t'.name = .text table := c.discover_name hdiscover
    have hgeneration : (c.memoryAt (c.entered table s)).next = (c.memoryAt s).next := by
      simp only [entered, memoryAt_changed]
    have hbefore : c.memoryAt { s₁ with folder := folder } = c.memoryAt s₁ := rfl
    have hlocked := inner.locked
    rw [hgeneration]
    refine hlocked.commit ?_ ?_ ?_
    · simp only [left, committed, memoryAt_changed, hbefore]
    · intro g hg name hcause
      simp only [left, committed, memoryAt_changed, hbefore] at hcause ⊢
      refine isNewer_put _ hg (hcause.imp_right fun hname => ?_)
      rw [List.mem_singleton.1 hname]
    · intro hn hnamed
      have hc := Folder.coherent_load hload (hn catalog hload).tables
      have htext : t'.name.isText = true := by rw [hname]; rfl
      have hstored : c.loadAt (c.left table (c.committed (.text table) (c.memoryAt s).next folder
          s₁)) = .ok (catalog.put t') := Folder.load_save hnamed (hc.put htext) hsave
      rw [hstored, show c.loadAt (c.left table s₁) = .ok catalog from hload]
      exact .commits (catalog.commits_put hname) (.nil _)

theorem passage_refused {f : Fault} (hfree : c.IsFree table s)
    (hdiscovers : c.Discovers table overwrite s)
    (inner : c.Passage [] (c.opened table s) log
      ((c.discover (.text table)).execute (c.opened table s)).2)
    (hfailure : ((c.schema (.text table) overwrite).execute s).1 = .error f) :
    c.Passage [] s (.discovers table :: log) ((c.schema (.text table) overwrite).execute s).2 := by
  have hexecute := c.execute_schema_discovers hfree hdiscovers
  rw [hexecute] at hfailure ⊢
  rcases c.execute_refresh (.text table) (c.entered table s) with
    ⟨f', s', hrefresh, huntouched⟩ | ⟨t, s₁, catalog, folder, -, -, -, hrefresh⟩
  · rw [hrefresh]
    have hrefused := inner.trans (.of_eq huntouched.memory huntouched.loadAt)
    rw [List.append_nil, List.append_nil] at hrefused
    exact hrefused.locked
  · rw [hrefresh] at hfailure
    cases hfailure

theorem passage_rebuilt {s₁ s₂ s' : Site σ} {tables : List String} {own : List Finding}
    {catalog : Catalog}
    (hlisted : c.tableNames.execute (c.counted s) = (.ok (tables.map .text), s₁))
    (hrediscovered : (c.rediscoverAll (tables.map .text) []).execute s₁ =
      (.ok (own.map entry), s₂))
    (inner : c.Passage own (c.counted s) log s₂)
    (hsuccess : c.rebuild.execute s = (.ok catalog, s')) :
    c.Passage [] s (.rebuilds :: (log ++ [.commits tables catalog])) s' := by
  obtain ⟨rfl, hdistinct, onDisk, folder, hload, hcatalog, hsave, rfl⟩ :=
    commit_of_rebuild hlisted hrediscovered hsuccess
  have hbefore : c.memoryAt { s₂ with folder := folder } = c.memoryAt s₂ := rfl
  have hstarted := inner.start
  refine hstarted.commit ?_ ?_ ?_
  · simp only [memoryAt_changed, hbefore]
  · intro g hg name hcause
    simp only [memoryAt_changed, hbefore]
    exact isNewer_merged (fun d hd => Nat.lt_of_lt_of_le hg (hstarted.later d hd)) hcause
  · intro hn hnamed
    have hn := hn onDisk hload
    have hc := Folder.coherent_load hload hn.tables
    have hcoherent : catalog.Coherent := by
      rw [hcatalog]
      exact coherent_rebuilt hn hc inner.named hdistinct
    rw [loadAt_changed, show c.loadAt { s₂ with folder := folder } = .ok catalog from
      Folder.load_save hnamed hcoherent hsave, hload]
    refine .commits ?_ (.nil _)
    rw [hcatalog]
    exact commits_rebuilt hn hc inner.named hdistinct

end Steps

/-- **Whatever calls do while the backend works is a passage.** -/
theorem Course.passage {own : List Finding} {s s' : Site σ} {log : List Moment}
    (h : c.Course own s log s') : c.Passage own s log s' := by
  induction h with
  | untouched h => exact .of_eq h.memory h.loadAt
  | known free known =>
    have h := c.execute_schema_known free known
    exact .of_eq h.memory h.loadAt
  | refreshed free discovers _ loaded success ih =>
    exact passage_refreshed free discovers ih loaded success
  | refused free discovers _ failure ih => exact passage_refused free discovers ih failure
  | started => exact .start (.of_eq rfl rfl)
  | @found table s log t free inner success ih =>
    rw [c.execute_rediscover free]
    have hname : t.name = .text table := c.discover_name (Prod.ext success rfl)
    exact { ih.locked with
      named := by simp [hname]
      later := by simp }
  | missed free _ _ ih =>
    rw [c.execute_rediscover free]
    exact ih.locked
  | rebuilt listed _ rediscovered _ success ih ih' =>
    exact passage_rebuilt listed rediscovered (ih.trans ih') success
  | abandoned _ ih => exact ih.abandon
  | next _ _ ih ih' => exact ih.trans ih'

end Cache

end RowAccess
