import RowAccess.Proofs.Operation.Action
import RowAccess.Proofs.Schema.Folder
import RowAccess.Schema.Cache

/-
  RowAccess/Proofs/Schema/Cache.lean
  ==================================
  **What the parts of a cache do to a site.**  Taking and leaving a lock, counting a discovery and
  replacing the catalog change one thing each.  A refresh either leaves the cache as the discovery
  left it, or commits the discovered schema (`Cache.execute_refresh`); the public call does the same
  under the lock of its table.
-/

namespace RowAccess.Cache

open Keyed

variable {σ α : Type} (c : Cache σ)

/-! ## Memory and disk -/

def memoryAt (s : Site σ) : Memory :=
  (find? s.memories c.id).getD {}

def loadAt (s : Site σ) : Except Fault Catalog :=
  s.folder.load c.place

/-- The site after a change of what the cache remembers. -/
def changed (change : Memory → Memory) (s : Site σ) : Site σ :=
  { s with memories := put s.memories c.id (change (c.memoryAt s)) }

@[simp] theorem memoryAt_changed (change : Memory → Memory) (s : Site σ) :
    c.memoryAt (c.changed change s) = change (c.memoryAt s) := by
  simp [memoryAt, changed, find?_put_self]

@[simp] theorem loadAt_changed (change : Memory → Memory) (s : Site σ) :
    c.loadAt (c.changed change s) = c.loadAt s := rfl

theorem execute_memory (s : Site σ) : c.memory.execute s = (.ok (c.memoryAt s), s) := rfl

theorem execute_remember (change : Memory → Memory) (s : Site σ) :
    (c.remember change).execute s = (.ok (), c.changed change s) := rfl

theorem execute_load (s : Site σ) : c.load.execute s = (c.loadAt s, s) := rfl

theorem execute_save (catalog : Catalog) (s : Site σ) :
    (c.save catalog).execute s =
      ((s.folder.save c.place catalog).1, { s with folder := (s.folder.save c.place catalog).2 }) :=
  rfl

/-- The site after a generation was given out. -/
def counted (s : Site σ) : Site σ :=
  c.changed (fun m => { m with next := m.next + 1 }) s

theorem execute_nextGeneration (s : Site σ) :
    c.nextGeneration.execute s = (.ok (c.memoryAt s).next, c.counted s) := rfl

/-! ## Locks -/

/-- The site after the lock of a table was taken. -/
def entered (table : String) (s : Site σ) : Site σ :=
  c.changed (fun m => { m with held := .text table :: m.held }) s

/-- The site after the lock of a table was left. -/
def left (table : String) (s : Site σ) : Site σ :=
  c.changed (fun m => { m with held := m.held.filter fun t => !(t == .text table) }) s

/-- Does nobody hold the lock of the table? -/
def IsFree (table : String) (s : Site σ) : Prop :=
  Value.text table ∉ (c.memoryAt s).held

theorem execute_locked {table : String} {s : Site σ} (h : c.IsFree table s) (act : Action σ α) :
    (c.locked (.text table) act).execute s =
      ((act.execute (c.entered table s)).1, c.left table (act.execute (c.entered table s)).2) := by
  have hheld : ¬ (c.memoryAt s).held.contains (.text table) = true :=
    fun hc => h (((Value.exact_text table).contains_iff _).1 hc)
  unfold locked
  dsimp only
  rw [if_neg (by simp [Value.isKey])]
  simp only [Action.execute_bind, execute_memory]
  rw [if_neg hheld]
  simp only [Action.execute_bind, execute_remember, Action.execute_outcome]
  rfl

theorem execute_locked_held {table : String} {s : Site σ} (h : ¬ c.IsFree table s)
    (act : Action σ α) :
    (c.locked (.text table) act).execute s = (.error (.breach (.lockHeld (.text table))), s) := by
  have hheld : (c.memoryAt s).held.contains (.text table) = true :=
    ((Value.exact_text table).contains_iff _).2 (Classical.not_not.1 h)
  unfold locked
  dsimp only
  rw [if_neg (by simp [Value.isKey])]
  simp only [Action.execute_bind, execute_memory]
  rw [if_pos hheld]
  rfl

/-! ## Discovery -/

theorem discover_name {table : Value} {s s' : Site σ} {t : TableSchema}
    (h : (c.discover table).execute s = (.ok t, s')) : t.name = table := by
  have hmake : ∀ idColumn idType columns t,
      TableSchema.make table idColumn idType columns = .ok t → t.name = table := by
    intro idColumn idType columns t ht
    unfold TableSchema.make at ht
    split at ht
    · cases ht
      rfl
    · cases ht
    · cases ht
  have hcolumns : ∀ entries idColumn t,
      TableSchema.ofColumns table entries idColumn = .ok t → t.name = table := by
    intro entries idColumn t ht
    unfold TableSchema.ofColumns at ht
    dsimp only at ht
    split at ht
    · cases ht
    · exact hmake _ _ _ t ht
  unfold discover at h
  obtain ⟨rows, s₁, -, h⟩ := Action.execute_bind_eq_ok_iff.1 h
  dsimp only at h
  split at h
  · cases h
  · obtain ⟨idColumn, s₂, -, h⟩ := Action.execute_bind_eq_ok_iff.1 h
    obtain ⟨samples, s₃, -, h⟩ := Action.execute_bind_eq_ok_iff.1 h
    obtain ⟨sample, s₄, -, h⟩ := Action.execute_bind_eq_ok_iff.1 h
    obtain ⟨members, s₅, -, h⟩ := Action.execute_bind_eq_ok_iff.1 h
    obtain ⟨entries, s₆, -, h⟩ := Action.execute_bind_eq_ok_iff.1 h
    exact hcolumns _ _ _ (Prod.mk.inj h).1

/-- Is the memory of the cache, and its file, what it was? -/
structure Untouched (s s' : Site σ) : Prop where
  memory : c.memoryAt s' = c.memoryAt s
  file : s'.folder.entry? c.place.name = s.folder.entry? c.place.name

theorem Untouched.refl (s : Site σ) : c.Untouched s s := ⟨rfl, rfl⟩

variable {c} in
theorem Untouched.loadAt {s s' : Site σ} (h : c.Untouched s s') : c.loadAt s' = c.loadAt s :=
  Folder.load_congr h.file

/-- The site after a schema was committed: the catalog is in its place, and the generation of the
discovery is remembered. -/
def committed (table : Value) (generation : Nat) (folder : Folder) (s : Site σ) : Site σ :=
  c.changed (fun m => { m with persisted := put m.persisted table generation })
    { s with folder := folder }

/-- A refresh fails and leaves the cache as the discovery left it, or commits what the discovery
found. -/
theorem execute_refresh (table : Value) (s : Site σ) :
    (∃ f s', (c.refresh table).execute s = (.error f, s') ∧
        c.Untouched ((c.discover table).execute (c.counted s)).2 s') ∨
      ∃ t s₁ catalog folder, (c.discover table).execute (c.counted s) = (.ok t, s₁) ∧
        c.loadAt s₁ = .ok catalog ∧ s₁.folder.save c.place (catalog.put t) = (.ok (), folder) ∧
          (c.refresh table).execute s =
            (.ok t, c.committed table (c.memoryAt s).next folder s₁) := by
  unfold refresh
  simp only [Action.execute_bind, execute_nextGeneration]
  rcases (c.discover table).execute (c.counted s) with ⟨f | t, s₁⟩
  · exact .inl ⟨f, s₁, rfl, .refl c s₁⟩
  simp only [execute_load]
  rcases hload : c.loadAt s₁ with f | catalog
  · exact .inl ⟨f, s₁, rfl, .refl c s₁⟩
  simp only [execute_save]
  rcases hsave : s₁.folder.save c.place (catalog.put t) with ⟨f | u, folder⟩
  · exact .inl ⟨f, _, rfl, rfl, Folder.entry?_save_error hsave⟩
  · exact .inr ⟨t, s₁, catalog, folder, rfl, hload, hsave, rfl⟩

/-- The site at which the discovery of a table starts: the lock of the table is taken, and a
generation was given out. -/
def opened (table : String) (s : Site σ) : Site σ :=
  c.counted (c.entered table s)

/-- Does a call for the schema of a table discover it?  It does where it has to, or where the
catalog can be read and lacks the table. -/
def Discovers (table : String) (overwrite : Bool) (s : Site σ) : Prop :=
  overwrite = true ∨ ∃ catalog, c.loadAt s = .ok catalog ∧ catalog.get? (.text table) = none

/-- Leaving a lock that was free before takes back what entering it did. -/
theorem filter_held {table : String} {held : List Value} (h : Value.text table ∉ held) :
    (Value.text table :: held).filter (fun t => !(t == .text table)) = held := by
  have hexact := Value.exact_text table
  rw [List.filter_cons_of_neg (by simp [hexact.self]), List.filter_eq_self]
  intro v hv
  have hne : v ≠ .text table := by
    rintro rfl
    exact h hv
  simp [hexact.right_ne hne]

/-- A call that discovers nothing leaves the cache alone. -/
theorem execute_schema_known {table : String} {overwrite : Bool} {s : Site σ}
    (hfree : c.IsFree table s) (h : ¬ c.Discovers table overwrite s) :
    c.Untouched s ((c.schema (.text table) overwrite).execute s).2 := by
  have huntouched : c.Untouched s (c.left table (c.entered table s)) := by
    refine ⟨?_, rfl⟩
    simp only [left, entered, memoryAt_changed, filter_held hfree]
  have hoverwrite : overwrite = false := Bool.eq_false_iff.2 fun e => h (.inl e)
  subst hoverwrite
  have hload : c.loadAt (c.entered table s) = c.loadAt s := rfl
  unfold schema
  rw [c.execute_locked hfree]
  simp only [Bool.false_eq_true, if_false, Action.execute_bind, execute_load, hload]
  rcases hcatalog : c.loadAt s with f | catalog
  · exact huntouched
  · cases hget : catalog.get? (.text table) with
    | none => exact absurd (.inr ⟨catalog, hcatalog, hget⟩) h
    | some t =>
      simp only [hget]
      exact huntouched

/-- A call that discovers refreshes under the lock of the table. -/
theorem execute_schema_discovers {table : String} {overwrite : Bool} {s : Site σ}
    (hfree : c.IsFree table s) (h : c.Discovers table overwrite s) :
    (c.schema (.text table) overwrite).execute s =
      (((c.refresh (.text table)).execute (c.entered table s)).1,
        c.left table ((c.refresh (.text table)).execute (c.entered table s)).2) := by
  unfold schema
  rw [c.execute_locked hfree]
  by_cases hoverwrite : overwrite = true
  · rw [if_pos hoverwrite]
  · obtain ⟨catalog, hcatalog, hget⟩ := h.resolve_left hoverwrite
    have hload : c.loadAt (c.entered table s) = .ok catalog := hcatalog
    rw [if_neg hoverwrite]
    simp only [Action.execute_bind, execute_load, hload, hget]

/-- A rebuild discovers a table under its lock. -/
theorem execute_rediscover {table : String} {s : Site σ} (hfree : c.IsFree table s) :
    (c.rediscover (.text table)).execute s =
      (((c.discover (.text table)).execute (c.opened table s)).1.map
          fun t => ⟨(c.memoryAt s).next, t⟩,
        c.left table ((c.discover (.text table)).execute (c.opened table s)).2) := by
  have hnext : (c.memoryAt (c.entered table s)).next = (c.memoryAt s).next := by
    simp only [entered, memoryAt_changed]
  unfold rediscover
  rw [c.execute_locked hfree]
  simp only [Action.execute_bind, execute_nextGeneration, hnext]
  show _ = (((c.discover (.text table)).execute (c.counted (c.entered table s))).1.map _, _)
  unfold opened
  rcases (c.discover (.text table)).execute (c.counted (c.entered table s)) with ⟨f | t, s₁⟩
  · rfl
  · rfl

/-! ## Rebuilding -/

/-- The schemas that a rebuild found, or later ones on disk, and the generations of those it
found. -/
def merged (tables : List Value) (onDisk : Catalog) (persisted : Keyed Value Nat)
    (found : Keyed Value Discovery) : Catalog × Keyed Value Nat :=
  mergeFound onDisk persisted found (⟨tables, []⟩, [])

/-- A rebuild that succeeds lists the tables, discovers them one after another, and commits what it
merged with the catalog on disk. -/
theorem execute_rebuild_eq_ok {s s' : Site σ} {catalog : Catalog}
    (h : c.rebuild.execute s = (.ok catalog, s')) :
    ∃ tables s₁ found s₂ onDisk folder,
      c.tableNames.execute (c.counted s) = (.ok tables, s₁) ∧
        (c.rediscoverAll tables []).execute s₁ = (.ok found, s₂) ∧
          c.loadAt s₂ = .ok onDisk ∧
            catalog = keepNew onDisk (c.memoryAt s₂).persisted found (c.memoryAt s).next
              (merged tables onDisk (c.memoryAt s₂).persisted found).1 ∧
              s₂.folder.save c.place catalog = (.ok (), folder) ∧
                s' = c.changed
                  (fun m => { m with
                    persisted := putAll m.persisted
                      (merged tables onDisk (c.memoryAt s₂).persisted found).2 })
                  { s₂ with folder := folder } := by
  unfold rebuild at h
  obtain ⟨start, s₀, hstart, h⟩ := Action.execute_bind_eq_ok_iff.1 h
  obtain ⟨rfl, rfl⟩ : (c.memoryAt s).next = start ∧ c.counted s = s₀ := by
    rw [execute_nextGeneration] at hstart
    exact ⟨Except.ok.inj (Prod.mk.inj hstart).1, (Prod.mk.inj hstart).2⟩
  obtain ⟨tables, s₁, htables, h⟩ := Action.execute_bind_eq_ok_iff.1 h
  obtain ⟨found, s₂, hfound, h⟩ := Action.execute_bind_eq_ok_iff.1 h
  obtain ⟨onDisk, s₃, hloaded, h⟩ := Action.execute_bind_eq_ok_iff.1 h
  obtain ⟨hload, rfl⟩ := Prod.mk.inj hloaded
  obtain ⟨memory, s₃, hmemory, h⟩ := Action.execute_bind_eq_ok_iff.1 h
  obtain ⟨rfl, rfl⟩ : c.memoryAt s₂ = memory ∧ s₂ = s₃ := by
    rw [execute_memory] at hmemory
    exact ⟨Except.ok.inj (Prod.mk.inj hmemory).1, (Prod.mk.inj hmemory).2⟩
  dsimp only at h
  obtain ⟨u, s₃, hsaved, h⟩ := Action.execute_bind_eq_ok_iff.1 h
  rw [execute_save] at hsaved
  obtain ⟨hsave, rfl⟩ := Prod.mk.inj hsaved
  obtain ⟨u', s₄, hremember, h⟩ := Action.execute_bind_eq_ok_iff.1 h
  rw [execute_remember] at hremember
  obtain ⟨-, rfl⟩ := Prod.mk.inj hremember
  obtain ⟨hcatalog, rfl⟩ := Prod.mk.inj h
  obtain rfl := Except.ok.inj hcatalog
  exact ⟨tables, s₁, found, s₂, onDisk, _, htables, hfound, hload, rfl, Prod.ext hsave rfl, rfl⟩

end RowAccess.Cache
