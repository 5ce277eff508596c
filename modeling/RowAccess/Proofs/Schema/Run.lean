import RowAccess.Proofs.Schema.Rebuild

/-
  RowAccess/Proofs/Schema/Run.lean
  ================================
  **Every run of a cache has a history.**  A backend is cooperative if all it does to the cache
  while it executes an operation is to ask for schemas.  Then every call nests as histories allow,
  and every rebuild that succeeds has a history (`Cache.Cooperative.exists_rebuilt`).  Generations
  only go up, whatever calls are made, so what was persisted stays below the next one
  (`Cache.Covers.schema`, `Cache.Covers.catalog`).  What is kept outside of the cache by all that the
  discovery of a table asks is kept by a call for its schema (`Cache.CoversDiscovery.schema`).
-/

namespace RowAccess.Cache

open Keyed

variable {σ α : Type} {c : Cache σ}

/-! ## What a backend preserves -/

/-- Does the relation hold over what the discovery of a table asks of the backend, and over any number
of steps? -/
structure CoversDiscovery (c : Cache σ) (table : Value) (R : Site σ → Site σ → Prop) : Prop where
  refl : ∀ s, R s s
  trans : ∀ s s₁ s₂, R s s₁ → R s₁ s₂ → R s s₂
  columns : ∀ parameters,
    Stateful.Spans R (c.backend (.raw c.config.dialect.columnsQuery parameters))
  keys : ∀ parameters,
    Stateful.Spans R (c.backend (.raw c.config.dialect.primaryKeyQuery parameters))
  sample : Stateful.Spans R (c.backend (.tableScan table [] (.int 1)))

namespace CoversDiscovery

variable {R : Site σ → Site σ → Prop} {table : Value}

theorem introspect (h : c.CoversDiscovery table R) {operation : Operation}
    (hoperation : Stateful.Spans R (c.backend operation)) :
    Stateful.Spans R (c.introspect table operation) :=
  Action.spans_onBackendFault h.refl h.trans hoperation _

theorem primaryKey (h : c.CoversDiscovery table R) : Stateful.Spans R (c.primaryKey table) := by
  refine Stateful.Spans.bind h.trans (h.introspect (h.keys _)) fun rows => ?_
  refine Stateful.Spans.bind h.trans (.lift h.refl _) fun row => ?_
  split
  · exact .pure h.refl _
  · exact .lift h.refl _

theorem discover (h : c.CoversDiscovery table R) : Stateful.Spans R (c.discover table) := by
  refine Stateful.Spans.bind h.trans (h.introspect (h.columns _)) fun rows => ?_
  have hrest : Stateful.Spans R (do
      let idColumn ← c.primaryKey table
      let samples ← c.introspect table (.tableScan table [] (.int 1))
      let sample ← firstOf samples
      TableSchema.ofColumns table (← categories c.config sample (← membersOf rows)) idColumn) := by
    refine Stateful.Spans.bind h.trans h.primaryKey fun idColumn => ?_
    refine Stateful.Spans.bind h.trans (h.introspect h.sample) fun samples => ?_
    refine Stateful.Spans.bind h.trans (.lift h.refl _) fun sample => ?_
    refine Stateful.Spans.bind h.trans (.lift h.refl _) fun members => ?_
    refine Stateful.Spans.bind h.trans (.lift h.refl _) fun entries => ?_
    exact .lift h.refl _
  dsimp only
  split
  · exact Stateful.Spans.bind h.trans (.throw h.refl _) fun _ => hrest
  · exact hrest

/-- Taking a lock and leaving it changes only who holds it. -/
theorem locked (h : c.CoversDiscovery table R)
    (hremember : ∀ change : Memory → Memory, (∀ m, (change m).next = m.next) →
      (∀ m, (change m).persisted = m.persisted) → Stateful.Spans R (c.remember change))
    {act : Action σ α} (hact : Stateful.Spans R act) : Stateful.Spans R (c.locked table act) := by
  have hrest : Stateful.Spans R (do
      if (← c.memory).held.contains table then throw (.breach (.lockHeld table))
      c.remember fun m => { m with held := table :: m.held }
      let outcome ← act.outcome
      c.remember fun m => { m with held := m.held.filter fun t => !(t == table) }
      outcome) := by
    refine Stateful.Spans.bind h.trans (fun s => h.refl s) fun m => ?_
    have hrun : Stateful.Spans R (do
        c.remember fun m => { m with held := table :: m.held }
        let outcome ← act.outcome
        c.remember fun m => { m with held := m.held.filter fun t => !(t == table) }
        outcome) := by
      refine Stateful.Spans.bind h.trans (hremember _ (fun _ => rfl) fun _ => rfl) fun _ => ?_
      refine Stateful.Spans.bind h.trans (Action.spans_outcome hact) fun outcome => ?_
      refine Stateful.Spans.bind h.trans (hremember _ (fun _ => rfl) fun _ => rfl) fun _ => ?_
      exact .lift h.refl _
    dsimp only
    split
    · exact Stateful.Spans.bind h.trans (.throw h.refl _) fun _ => hrun
    · exact hrun
  unfold Cache.locked
  dsimp only
  split
  · exact Stateful.Spans.bind h.trans (.throw h.refl _) fun _ => hrest
  · exact hrest

/-- What a discovery keeps outside of the cache, a call for a schema keeps. -/
theorem schema (h : c.CoversDiscovery table R) (houtside : ∀ s s', s'.outside = s.outside → R s s')
    (overwrite : Bool) : Stateful.Spans R (c.schema table overwrite) := by
  have hrefresh : Stateful.Spans R (c.refresh table) := by
    refine Stateful.Spans.bind h.trans (fun s => houtside _ _ rfl) fun generation => ?_
    refine Stateful.Spans.bind h.trans h.discover fun schema => ?_
    refine Stateful.Spans.bind h.trans (fun s => h.refl s) fun catalog => ?_
    refine Stateful.Spans.bind h.trans (fun s => houtside _ _ rfl) fun _ => ?_
    exact Stateful.Spans.bind h.trans (fun s => houtside _ _ rfl) fun _ => .pure h.refl _
  refine h.locked (fun change _ _ s => houtside _ _ rfl) ?_
  split
  · exact hrefresh
  · refine Stateful.Spans.bind h.trans (fun s => h.refl s) fun catalog => ?_
    split
    · exact .pure h.refl _
    · exact hrefresh

end CoversDiscovery

/-- Does the relation hold over whatever the backend does, and over any number of steps? -/
structure Covers (c : Cache σ) (R : Site σ → Site σ → Prop) : Prop where
  refl : ∀ s, R s s
  trans : ∀ s s₁ s₂, R s s₁ → R s₁ s₂ → R s s₂
  backend : ∀ operation, Stateful.Spans R (c.backend operation)

namespace Covers

variable {R : Site σ → Site σ → Prop}

theorem discovery (h : c.Covers R) (table : Value) : c.CoversDiscovery table R where
  refl := h.refl
  trans := h.trans
  columns := fun _ => h.backend _
  keys := fun _ => h.backend _
  sample := h.backend _

theorem discover (h : c.Covers R) (table : Value) : Stateful.Spans R (c.discover table) :=
  (h.discovery table).discover

theorem listBy (h : c.Covers R) (tables : List Value) (text : String) :
    Stateful.Spans R (c.listBy tables text) := by
  refine Stateful.Spans.bind h.trans
    (Action.spans_onBackendFault h.refl h.trans (h.backend _) _) fun rows => ?_
  refine Stateful.Spans.bind h.trans (.lift h.refl _) fun members => ?_
  exact .lift h.refl _

theorem tableNames (h : c.Covers R) : Stateful.Spans R c.tableNames := by
  refine Stateful.Spans.bind h.trans (h.listBy _ _) fun tables => ?_
  split
  · exact h.listBy _ _
  · exact .pure h.refl _

end Covers

theorem exists_map_text {vs : List Value} (h : ∀ v ∈ vs, v.isText = true) :
    ∃ names : List String, vs = names.map .text := by
  induction vs with
  | nil => exact ⟨[], rfl⟩
  | cons v vs ih =>
    obtain ⟨name, rfl⟩ := Value.isText_iff.1 (h v List.mem_cons_self)
    obtain ⟨names, rfl⟩ := ih fun w hw => h w (List.mem_cons_of_mem _ hw)
    exact ⟨name :: names, rfl⟩

/-! ## Histories -/

/-- Does a history lead from one site to the other? -/
def Reaches (c : Cache σ) (s s' : Site σ) : Prop :=
  ∃ log, c.Meanwhile s log s'

/-- Does the backend do nothing to the cache but ask it for schemas? -/
def Cooperative (c : Cache σ) : Prop :=
  ∀ operation, Stateful.Spans c.Reaches (c.backend operation)

namespace Cooperative

theorem covers (h : c.Cooperative) : c.Covers c.Reaches where
  refl := fun s => ⟨[], .untouched (.refl c s)⟩
  trans := by
    intro s s₁ s₂ h h'
    obtain ⟨log, h⟩ := h
    obtain ⟨log', h'⟩ := h'
    exact ⟨log ++ log', h.next h'⟩
  backend := h

/-- A call for the schema of a table whose lock is free is part of a history. -/
theorem schema (h : c.Cooperative) {table : String} {overwrite : Bool} {s : Site σ}
    (hfree : c.IsFree table s) :
    c.Reaches s ((c.schema (.text table) overwrite).execute s).2 := by
  by_cases hdiscovers : c.Discovers table overwrite s
  · obtain ⟨log, hlog⟩ := h.covers.discover (.text table) (c.opened table s)
    exact ⟨_, .discovered hfree hdiscovers hlog⟩
  · exact ⟨[], .known hfree hdiscovers⟩

theorem exists_rediscoveries (h : c.Cooperative) {tables : List String}
    {before found : Keyed Value Discovery} {s s' : Site σ}
    (hfound : (c.rediscoverAll (tables.map .text) before).execute s = (.ok found, s')) :
    ∃ own log, c.Rediscoveries tables s own log s' := by
  induction tables generalizing before s with
  | nil =>
    cases hfound
    exact ⟨[], [], .nil _⟩
  | cons table tables ih =>
    rw [List.map_cons, rediscoverAll] at hfound
    obtain ⟨d, s₁, hd, hrest⟩ := Action.execute_bind_eq_ok_iff.1 hfound
    obtain ⟨own, log', hrest⟩ := ih hrest
    by_cases hfree : c.IsFree table s
    · obtain ⟨log, hlog⟩ := h.covers.discover (.text table) (c.opened table s)
      have hexecute := c.execute_rediscover hfree
      rw [hd] at hexecute
      obtain ⟨hvalue, hsite⟩ := Prod.mk.inj hexecute
      obtain ⟨t, ht, -⟩ := Outcome.map_eq_ok_iff.1 hvalue.symm
      have hs₁ : s₁ = ((c.rediscover (.text table)).execute s).2 := by rw [hd]
      rw [hs₁] at hrest
      exact ⟨_, _, .cons hfree ht hlog hrest⟩
    · rw [rediscover, c.execute_locked_held hfree] at hd
      cases hd

/-- Every rebuild that succeeds has a history. -/
theorem exists_rebuilt (h : c.Cooperative) {s s' : Site σ} {catalog : Catalog}
    (hsuccess : c.rebuild.execute s = (.ok catalog, s'))
    (htexts : ∀ tables s₁, c.tableNames.execute (c.counted s) = (.ok tables, s₁) →
      ∀ v ∈ tables, v.isText = true) :
    ∃ tables own log, c.Rebuilt s tables own log catalog s' := by
  obtain ⟨tables, s₁, found, s₂, _, _, hlisted, hfound, -⟩ := c.execute_rebuild_eq_ok hsuccess
  obtain ⟨names, rfl⟩ := exists_map_text (htexts tables s₁ hlisted)
  obtain ⟨own, log', hdiscoveries⟩ := h.exists_rediscoveries hfound
  obtain ⟨log, hbefore⟩ := Action.rel_of_spans h.covers.tableNames hlisted
  exact ⟨names, own, _, .intro hlisted hbefore hdiscoveries hsuccess⟩

end Cooperative

/-! ## Generations -/

/-- Are generations counted on, and what is persisted kept below the next one? -/
def Grows (c : Cache σ) (s s' : Site σ) : Prop :=
  (c.memoryAt s).next ≤ (c.memoryAt s').next ∧ (c.Ordered s → c.Ordered s')

/-- Before a cache is used nothing is persisted. -/
theorem ordered_new {s : Site σ} (h : c.memoryAt s = {}) : c.Ordered s := by
  intro table g hg
  rw [h] at hg
  cases hg

theorem grows_of_memory {s s' : Site σ} (h : c.memoryAt s' = c.memoryAt s) : c.Grows s s' := by
  unfold Grows Ordered
  rw [h]
  exact ⟨Nat.le_refl _, fun hordered => hordered⟩

theorem grows_changed (change : Memory → Memory) (hnext : ∀ m, m.next ≤ (change m).next)
    (hpersisted : ∀ m, (change m).persisted = m.persisted) (s : Site σ) :
    c.Grows s (c.changed change s) := by
  unfold Grows Ordered
  rw [memoryAt_changed, hpersisted]
  refine ⟨hnext _, ?_⟩
  intro hordered table g hg
  exact Nat.lt_of_lt_of_le (hordered table g hg) (hnext _)

theorem grows_counted (s : Site σ) : c.Grows s (c.counted s) :=
  grows_changed (fun m => { m with next := m.next + 1 }) (fun m => Nat.le_succ m.next)
    (fun _ => rfl) s

/-- What is persisted under a generation that was given out stays below the next one. -/
theorem ordered_changed {change : Memory → Memory} {s : Site σ}
    (hnext : (change (c.memoryAt s)).next = (c.memoryAt s).next)
    (hpersisted : ∀ table g, find? (change (c.memoryAt s)).persisted (.text table) = some g →
      find? (c.memoryAt s).persisted (.text table) = some g ∨ g < (c.memoryAt s).next) :
    c.Grows s (c.changed change s) := by
  unfold Grows Ordered
  rw [memoryAt_changed, hnext]
  refine ⟨Nat.le_refl _, ?_⟩
  intro hordered table g hg
  rcases hpersisted table g hg with hold | hlt
  · exact hordered table g hold
  · exact hlt

/-- Whatever calls for schemas do, generations are counted on. -/
theorem grows_of_reaches {s s' : Site σ} (h : c.Reaches s s') : c.Grows s s' := by
  obtain ⟨log, hlog⟩ := h
  have heffect := hlog.effect
  refine ⟨heffect.next_le, ?_⟩
  intro hordered table g hg
  have hpersisted := heffect.persisted table
  rw [show find? (c.view s').memory.persisted (.text table) = some g from hg] at hpersisted
  cases hlast : Finding.last? log table with
  | none =>
    rw [hlast] at hpersisted
    exact Nat.lt_of_lt_of_le (hordered table g hpersisted.symm) heffect.next_le
  | some d =>
    rw [hlast] at hpersisted
    rw [Option.some.inj hpersisted]
    exact (heffect.counted d (Finding.mem_of_last? hlast).1).2

/-- Every cooperative backend is covered. -/
theorem Cooperative.covers_grows (h : c.Cooperative) : c.Covers c.Grows where
  refl := fun _ => grows_of_memory rfl
  trans := fun _ _ _ h h' => ⟨Nat.le_trans h.1 h'.1, fun hordered => h'.2 (h.2 hordered)⟩
  backend := fun operation s => grows_of_reaches (h operation s)

/-- An action under a lock that succeeds has succeeded on its own, and leaving the lock counts
nothing. -/
theorem execute_locked_eq_ok {table : Value} {act : Action σ α} {s s' : Site σ} {a : α}
    (h : (c.locked table act).execute s = (.ok a, s')) :
    ∃ s₁ s₂, act.execute s₁ = (.ok a, s₂) ∧ (c.memoryAt s').next = (c.memoryAt s₂).next := by
  unfold locked at h
  split at h
  · cases h
  · obtain ⟨m, s₁, hmemory, h⟩ := Action.execute_bind_eq_ok_iff.1 h
    dsimp only at h
    split at h
    · cases h
    · obtain ⟨_, s₂, -, h⟩ := Action.execute_bind_eq_ok_iff.1 h
      obtain ⟨outcome, s₃, houtcome, h⟩ := Action.execute_bind_eq_ok_iff.1 h
      obtain ⟨_, s₄, hremember, h⟩ := Action.execute_bind_eq_ok_iff.1 h
      rw [Action.execute_outcome] at houtcome
      obtain ⟨hvalue, rfl⟩ := Prod.mk.inj houtcome
      rw [execute_remember] at hremember
      obtain ⟨-, rfl⟩ := Prod.mk.inj hremember
      obtain ⟨hok, rfl⟩ := Prod.mk.inj h
      refine ⟨s₂, (act.execute s₂).2, Prod.ext ?_ rfl, by rw [memoryAt_changed]⟩
      rw [Except.ok.inj hvalue]
      exact hok

namespace Covers

theorem locked (h : c.Covers c.Grows) (table : Value) {act : Action σ α}
    (hact : Stateful.Spans c.Grows act) : Stateful.Spans c.Grows (c.locked table act) := by
  refine (h.discovery table).locked ?_ hact
  intro change hnext hpersisted s
  exact grows_changed change (fun m => Nat.le_of_eq (hnext m).symm) hpersisted s

/-- A refresh persists the generation that it was given, and others were given out since. -/
theorem refresh (h : c.Covers c.Grows) (table : Value) :
    Stateful.Spans c.Grows (c.refresh table) := by
  intro s
  show c.Grows s ((c.refresh table).execute s).2
  have hdiscover : c.Grows (c.counted s) ((c.discover table).execute (c.counted s)).2 :=
    h.discover table (c.counted s)
  have hgrows := h.trans _ _ _ (grows_counted s) hdiscover
  rcases c.execute_refresh table s with
    ⟨f, s', hrefresh, huntouched⟩ | ⟨t, s₁, catalog, folder, hdiscovered, -, -, hrefresh⟩
  · rw [hrefresh]
    exact h.trans _ _ _ hgrows (grows_of_memory huntouched.memory)
  · rw [hdiscovered] at hgrows hdiscover
    have hlt : (c.memoryAt s).next < (c.memoryAt s₁).next := by
      refine Nat.lt_of_lt_of_le ?_ hdiscover.1
      simp only [Cache.counted, memoryAt_changed, Nat.lt_succ_self]
    rw [hrefresh]
    refine h.trans _ _ _ hgrows (h.trans _ { s₁ with folder := folder } _ (grows_of_memory rfl) ?_)
    refine ordered_changed rfl ?_
    intro name g hg
    have hexact := Value.exact_text name
    by_cases heq : table = .text name
    · subst heq
      rw [hexact.find?_put] at hg
      obtain rfl := Option.some.inj hg
      exact .inr hlt
    · rw [hexact.find?_put_other _ heq] at hg
      exact .inl hg

/-- A call for the schema of a table counts generations on. -/
theorem schema (h : c.Covers c.Grows) (table : Value) (overwrite : Bool) :
    Stateful.Spans c.Grows (c.schema table overwrite) := by
  refine h.locked table ?_
  split
  · exact h.refresh table
  · refine Stateful.Spans.bind h.trans (fun s => h.refl s) fun catalog => ?_
    split
    · exact .pure h.refl _
    · exact h.refresh table

/-- A rebuild discovers under generations that it was given. -/
theorem rediscover (h : c.Covers c.Grows) (table : Value) :
    Stateful.Spans c.Grows (c.rediscover table) := by
  refine h.locked table ?_
  refine Stateful.Spans.bind h.trans (fun s => grows_counted s) fun generation => ?_
  exact Stateful.Spans.bind h.trans (h.discover table) fun t => .pure h.refl _

theorem rediscoverAll (h : c.Covers c.Grows) (tables : List Value)
    (before : Keyed Value Discovery) : Stateful.Spans c.Grows (c.rediscoverAll tables before) := by
  induction tables generalizing before with
  | nil => exact .pure h.refl _
  | cons table tables ih =>
    exact Stateful.Spans.bind h.trans (h.rediscover table) fun d => ih (put before table d)

/-- What a rediscovery finds has a generation below the next one. -/
theorem rediscover_lt (h : c.Covers c.Grows) {table : Value} {s s' : Site σ} {d : Discovery}
    (hfound : (c.rediscover table).execute s = (.ok d, s')) :
    d.generation < (c.memoryAt s').next := by
  obtain ⟨s₁, s₂, hact, hnext⟩ := execute_locked_eq_ok hfound
  obtain ⟨generation, s₃, hcounted, hrest⟩ := Action.execute_bind_eq_ok_iff.1 hact
  obtain ⟨t, s₄, hdiscover, hpure⟩ := Action.execute_bind_eq_ok_iff.1 hrest
  rw [execute_nextGeneration] at hcounted
  obtain ⟨hgeneration, rfl⟩ := Prod.mk.inj hcounted
  obtain rfl := Except.ok.inj hgeneration
  obtain ⟨hd, rfl⟩ := Prod.mk.inj hpure
  obtain rfl := Except.ok.inj hd
  have hgrows := (Action.rel_of_spans (h.discover table) hdiscover).1
  rw [hnext]
  refine Nat.lt_of_lt_of_le ?_ hgrows
  simp only [Cache.counted, memoryAt_changed, Nat.lt_succ_self]

theorem rediscoverAll_lt (h : c.Covers c.Grows) {tables : List Value}
    {before found : Keyed Value Discovery} {s s' : Site σ}
    (hfound : (c.rediscoverAll tables before).execute s = (.ok found, s'))
    (hbefore : ∀ e ∈ before, e.2.generation < (c.memoryAt s).next) :
    ∀ e ∈ found, e.2.generation < (c.memoryAt s').next := by
  induction tables generalizing before s with
  | nil =>
    cases hfound
    exact hbefore
  | cons table tables ih =>
    rw [Cache.rediscoverAll] at hfound
    obtain ⟨d, s₁, hd, hrest⟩ := Action.execute_bind_eq_ok_iff.1 hfound
    refine ih hrest ?_
    intro e he
    have hgrows := (Action.rel_of_spans (h.rediscover table) hd).1
    rcases value_of_mem_put he with heq | hmem
    · rw [heq]
      exact h.rediscover_lt hd
    · exact Nat.lt_of_lt_of_le (hbefore e hmem) hgrows

end Covers

theorem mem_mergeFound {onDisk : Catalog} {persisted : Keyed Value Nat}
    {found : Keyed Value Discovery} {done : Catalog × Keyed Value Nat} {e : Value × Nat}
    (he : e ∈ (mergeFound onDisk persisted found done).2) :
    e ∈ done.2 ∨ ∃ d ∈ found, d.2.generation = e.2 := by
  induction found generalizing done with
  | nil => exact .inl he
  | cons first found ih =>
    obtain ⟨table, d⟩ := first
    obtain ⟨catalog, replaced⟩ := done
    have hput : ∀ {catalog' : Catalog},
        e ∈ (mergeFound onDisk persisted found
          (catalog', put replaced table d.generation)).2 →
          e ∈ replaced ∨ ∃ d' ∈ (table, d) :: found, d'.2.generation = e.2 := by
      intro catalog' he
      rcases ih he with hmem | ⟨d', hd', heq⟩
      · rcases value_of_mem_put hmem with heq | hmem
        · exact .inr ⟨(table, d), List.mem_cons_self, heq.symm⟩
        · exact .inl hmem
      · exact .inr ⟨d', List.mem_cons_of_mem _ hd', heq⟩
    unfold mergeFound at he
    split at he
    · split at he
      · exact (ih he).imp_right fun ⟨d', hd', heq⟩ => ⟨d', List.mem_cons_of_mem _ hd', heq⟩
      · exact hput he
    · exact hput he

namespace Covers

/-- A rebuild counts generations on, whether it succeeds or not. -/
theorem rebuild (h : c.Covers c.Grows) : Stateful.Spans c.Grows c.rebuild := by
  intro s
  refine Action.rel_bind h.trans (grows_counted s) ?_
  intro start s₀ _
  refine Action.rel_bind h.trans (h.tableNames s₀) ?_
  intro tables s₁ _
  refine Action.rel_bind h.trans (h.rediscoverAll tables [] s₁) ?_
  intro found s₂ hfound
  have hlt := h.rediscoverAll_lt hfound (by simp)
  refine Action.rel_bind h.trans (h.refl s₂) ?_
  intro onDisk s₃ hload
  obtain ⟨-, rfl⟩ := Prod.mk.inj hload
  refine Action.rel_bind h.trans (h.refl s₂) ?_
  intro m s₃ hmemory
  obtain ⟨-, rfl⟩ := Prod.mk.inj hmemory
  dsimp only
  refine Action.rel_bind h.trans (grows_of_memory rfl) ?_
  intro u s₃ hsave
  rw [execute_save] at hsave
  obtain ⟨-, rfl⟩ := Prod.mk.inj hsave
  refine Action.rel_bind h.trans ?_ fun _ s₃ _ => h.refl s₃
  rw [execute_remember]
  refine ordered_changed rfl ?_
  intro table g hg
  refine ((Value.exact_text table).find?_putAll hg).imp_right ?_
  rintro ⟨e, he, rfl⟩
  rcases mem_mergeFound he with hmem | ⟨d, hd, heq⟩
  · cases hmem
  · rw [← heq]
    exact hlt d hd

theorem completeAll (h : c.Covers c.Grows) (tables : List Value) :
    Stateful.Spans c.Grows (c.completeAll tables) := by
  induction tables with
  | nil => exact .pure h.refl _
  | cons table tables ih => exact Stateful.Spans.bind h.trans (h.schema table false) fun _ => ih

/-- A call for the catalog of all tables counts generations on. -/
theorem catalog (h : c.Covers c.Grows) (overwrite : Bool) :
    Stateful.Spans c.Grows (c.catalog overwrite) := by
  unfold Cache.catalog
  split
  · exact h.rebuild
  · refine Stateful.Spans.bind h.trans (fun s => h.refl s) fun onDisk => ?_
    split
    · exact h.rebuild
    · refine Stateful.Spans.bind h.trans (.lift h.refl _) fun tables => ?_
      split
      · exact .pure h.refl _
      · exact Stateful.Spans.bind h.trans (h.completeAll _) fun _ => fun s => h.refl s

end Covers

end RowAccess.Cache
