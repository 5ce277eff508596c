import Mathlib.Logic.Relation
import RowAccess.Proofs.Schema.Run

/-
  RowAccess/Proofs/Schema/Uncommitted.lean
  ========================================
  **A call that fails commits nothing.**  Saving a catalog puts its document into the file, or changes
  nothing and is a fault of the catalog.  A call for a schema, and a rebuild, save last and remember
  what they saved after that; so whatever they fail at, they have themselves only taken and left locks
  and counted generations, and all else that has happened is the work of the backend
  (`Cache.save_all_or_nothing`).
-/

namespace RowAccess.Cache

open Keyed
open Stateful (Spans FailsWithin)

variable {σ α : Type} {c : Cache σ}

/-! ## Saving -/

/-- A save is that of its folder, and changes nothing else. -/
theorem execute_save_eq {catalog : Catalog} {s s' : Site σ} {r : Except Fault Unit}
    (h : (c.save catalog).execute s = (r, s')) :
    ∃ folder, s.folder.save c.place catalog = (r, folder) ∧ s' = { s with folder } := by
  rw [execute_save] at h
  obtain ⟨rfl, rfl⟩ := Prod.mk.inj h
  exact ⟨_, rfl, rfl⟩

/-- A save that succeeds puts the document of the catalog into its file and changes nothing else. -/
theorem execute_save_eq_ok {catalog : Catalog} {s s' : Site σ}
    (h : (c.save catalog).execute s = (.ok (), s')) :
    ∃ bytes, Folder.bytesOf catalog = .ok bytes ∧
      s'.folder.entry? c.place.name = some (.file bytes) ∧
      (∀ name, name ≠ c.place.name → s'.folder.entry? name = s.folder.entry? name) ∧
      s' = { s with folder := s'.folder } := by
  obtain ⟨folder, hsave, rfl⟩ := execute_save_eq h
  obtain ⟨entries, bytes, hfolder, hbytes, -, rfl⟩ := Folder.save_eq_ok_iff.1 hsave
  have hexact := exact_of_lawful c.place.name
  refine ⟨bytes, hbytes, hexact.find?_put _ _, ?_, rfl⟩
  intro name hname
  rw [hfolder]
  exact hexact.find?_put_of_ne _ _ (Ne.symm hname)

/-- A save that fails changes nothing, and is a fault of the catalog. -/
theorem execute_save_eq_error {catalog : Catalog} {s s' : Site σ} {f : Fault}
    (h : (c.save catalog).execute s = (.error f, s')) :
    s' = s ∧ ∃ detail, f = .catalog (.writing c.place.path detail) := by
  obtain ⟨folder, hsave, rfl⟩ := execute_save_eq h
  obtain ⟨rfl, hfault⟩ := Folder.save_eq_error hsave
  exact ⟨rfl, hfault⟩

/-- A save succeeds where there is a folder, the catalog has a document and no folder stands in the
place of the file. -/
theorem execute_save_ok_iff {catalog : Catalog} {s : Site σ} :
    (∃ s', (c.save catalog).execute s = (.ok (), s')) ↔
      s.folder.isSome = true ∧ (∃ bytes, Folder.bytesOf catalog = .ok bytes) ∧
        s.folder.entry? c.place.name ≠ some .folder := by
  constructor
  · rintro ⟨s', h⟩
    obtain ⟨folder, hsave, -⟩ := execute_save_eq h
    obtain ⟨entries, bytes, hfolder, hbytes, hfile, -⟩ := Folder.save_eq_ok_iff.1 hsave
    rw [hfolder]
    exact ⟨rfl, ⟨bytes, hbytes⟩, hfile⟩
  · rintro ⟨hsome, ⟨bytes, hbytes⟩, hfile⟩
    obtain ⟨entries, hfolder⟩ := Option.isSome_iff_exists.1 hsome
    rw [hfolder] at hfile
    have hsaved := Folder.save_eq_ok_iff.2 ⟨entries, bytes, hfolder, hbytes, hfile, rfl⟩
    exact ⟨_, (c.execute_save catalog s).trans (by rw [hsaved])⟩

/-! ## What a call does without its backend -/

/-- Has nothing happened but that locks of the cache were taken or left and generations were counted
on? -/
structure Idles (c : Cache σ) (s s' : Site σ) : Prop where
  folder : s'.folder = s.folder
  outside : s'.outside = s.outside
  persisted : (c.memoryAt s').persisted = (c.memoryAt s).persisted
  next_le : (c.memoryAt s).next ≤ (c.memoryAt s').next
  others : ∀ id, id ≠ c.id → find? s'.memories id = find? s.memories id

namespace Idles

theorem refl (s : Site σ) : c.Idles s s :=
  ⟨rfl, rfl, rfl, Nat.le_refl _, fun _ _ => rfl⟩

theorem trans {s s₁ s₂ : Site σ} (h : c.Idles s s₁) (h' : c.Idles s₁ s₂) : c.Idles s s₂ where
  folder := h'.folder.trans h.folder
  outside := h'.outside.trans h.outside
  persisted := h'.persisted.trans h.persisted
  next_le := Nat.le_trans h.next_le h'.next_le
  others := fun id hid => (h'.others id hid).trans (h.others id hid)

theorem changed (change : Memory → Memory) (hpersisted : ∀ m, (change m).persisted = m.persisted)
    (hnext : ∀ m, m.next ≤ (change m).next) (s : Site σ) : c.Idles s (c.changed change s) where
  folder := rfl
  outside := rfl
  persisted := by rw [memoryAt_changed, hpersisted]
  next_le := by
    rw [memoryAt_changed]
    exact hnext _
  others := fun _ hid => find?_put_of_ne (Ne.symm hid) _

theorem counted (s : Site σ) : c.Idles s (c.counted s) :=
  changed (fun m => { m with next := m.next + 1 }) (fun _ => rfl)
    (fun m => Nat.le_succ m.next) s

end Idles

/-- Is the second site what the backend makes of the first by one operation? -/
def Serves (c : Cache σ) (s s' : Site σ) : Prop :=
  ∃ operation, s' = ((c.backend operation).execute s).2

/-- Has nothing happened but operations of the backend, and what a call does without it? -/
def Uncommitted (c : Cache σ) : Site σ → Site σ → Prop :=
  Relation.ReflTransGen fun s s' => c.Serves s s' ∨ c.Idles s s'

namespace Uncommitted

variable {s s' : Site σ}

theorem covers : c.Covers c.Uncommitted where
  refl := fun _ => .refl
  trans := fun _ _ _ => .trans
  backend := fun operation _ => .single (.inl ⟨operation, rfl⟩)

theorem of_idles (h : c.Idles s s') : c.Uncommitted s s' :=
  .single (.inr h)

/-- What the backend keeps, and a call without it, an uncommitted call keeps. -/
theorem rel {R : Site σ → Site σ → Prop} (hR : c.Covers R) (hidles : ∀ s s', c.Idles s s' → R s s')
    (h : c.Uncommitted s s') : R s s' := by
  induction h with
  | refl => exact hR.refl s
  | tail _ hstep ih =>
    refine hR.trans _ _ _ ih ?_
    rcases hstep with ⟨operation, rfl⟩ | hidle
    · exact hR.backend operation _
    · exact hidles _ _ hidle

/-! ## Parts of calls -/

theorem spans_nextGeneration : Spans c.Uncommitted c.nextGeneration :=
  fun s => of_idles (.counted s)

theorem spans_locked (table : Value) {act : Action σ α} (h : Spans c.Uncommitted act) :
    Spans c.Uncommitted (c.locked table act) := by
  refine (covers.discovery table).locked ?_ h
  intro change hnext hpersisted s
  exact of_idles (.changed change hpersisted (fun m => Nat.le_of_eq (hnext m).symm) s)

theorem spans_rediscover (table : Value) : Spans c.Uncommitted (c.rediscover table) := by
  refine spans_locked table ?_
  refine Spans.bind covers.trans spans_nextGeneration fun generation => ?_
  exact Spans.bind covers.trans (covers.discover table) fun t => .pure covers.refl _

theorem spans_rediscoverAll (tables : List Value) (before : Keyed Value Discovery) :
    Spans c.Uncommitted (c.rediscoverAll tables before) := by
  induction tables generalizing before with
  | nil => exact .pure covers.refl _
  | cons table tables ih =>
    exact Spans.bind covers.trans (spans_rediscover table) fun d => ih (put before table d)

theorem failsWithin_save (catalog : Catalog) : FailsWithin c.Uncommitted (c.save catalog) := by
  intro s f s' h
  rw [execute_save_eq_error h |>.1]
  exact .refl

/-- After the save a commit does not fail. -/
theorem failsWithin_commit {β : Type} (catalog : Catalog) (change : Memory → Memory) (b : β) :
    FailsWithin c.Uncommitted (do
      c.save catalog
      c.remember change
      return b) :=
  (failsWithin_save catalog).bind_ok fun _ s => ⟨b, c.changed change s, rfl⟩

theorem failsWithin_discovery (table : Value) (generation : Nat) :
    FailsWithin c.Uncommitted (do
      let schema ← c.discover table
      let catalog ← c.load
      c.save (catalog.put schema)
      c.remember fun m => { m with persisted := Keyed.put m.persisted table generation }
      return schema) := by
  refine FailsWithin.bind covers.trans (covers.discover table) fun schema => ?_
  refine FailsWithin.bind covers.trans (fun s => covers.refl s) fun catalog => ?_
  exact failsWithin_commit _ _ _

theorem failsWithin_enumeration (start : Nat) :
    FailsWithin c.Uncommitted (do
      let tables ← c.tableNames
      let found ← c.rediscoverAll tables []
      let onDisk ← c.load
      let persisted := (← c.memory).persisted
      let (merged, replaced) := mergeFound onDisk persisted found (⟨tables, []⟩, [])
      let catalog := keepNew onDisk persisted found start merged
      c.save catalog
      c.remember fun m => { m with persisted := Keyed.putAll m.persisted replaced }
      return catalog) := by
  refine FailsWithin.bind covers.trans covers.tableNames fun tables => ?_
  refine FailsWithin.bind covers.trans (spans_rediscoverAll tables []) fun found => ?_
  refine FailsWithin.bind covers.trans (fun s => covers.refl s) fun onDisk => ?_
  refine FailsWithin.bind covers.trans (fun s => covers.refl s) fun m => ?_
  exact failsWithin_commit _ _ _

end Uncommitted

/-! ## Calls that fail -/

/-- Has a call done nothing, or first given out a generation and then committed nothing? -/
def Abandons (c : Cache σ) (s s' : Site σ) : Prop :=
  c.Idles s s' ∨ ∃ s₁, c.Idles s s₁ ∧ (c.memoryAt s).next < (c.memoryAt s₁).next ∧
    c.Uncommitted s₁ s'

namespace Abandons

variable {s s' : Site σ}

theorem uncommitted (h : c.Abandons s s') : c.Uncommitted s s' := by
  rcases h with hidle | ⟨s₁, hidle, -, hrest⟩
  · exact .of_idles hidle
  · exact (Uncommitted.of_idles hidle).trans hrest

/-- Locks may be taken before and left after. -/
theorem enclose {s₁ s₂ : Site σ} (hbefore : c.Idles s s₁) (h : c.Abandons s₁ s₂)
    (hafter : c.Idles s₂ s') : c.Abandons s s' := by
  rcases h with hidle | ⟨s₃, hidle, hlt, hrest⟩
  · exact .inl ((hbefore.trans hidle).trans hafter)
  · exact .inr ⟨s₃, hbefore.trans hidle, Nat.lt_of_le_of_lt hbefore.next_le hlt,
      hrest.trans (Uncommitted.of_idles hafter)⟩

/-- Counting comes first. -/
theorem of_counted {act : Nat → Action σ α} (hact : ∀ n, FailsWithin c.Uncommitted (act n))
    {f : Fault} (h : (c.nextGeneration >>= act).execute s = (.error f, s')) : c.Abandons s s' := by
  rw [Action.execute_bind, execute_nextGeneration] at h
  refine .inr ⟨c.counted s, .counted s, ?_, hact _ _ _ _ h⟩
  rw [Cache.counted, memoryAt_changed]
  exact Nat.lt_succ_self _

theorem refresh {table : Value} {f : Fault}
    (h : (c.refresh table).execute s = (.error f, s')) : c.Abandons s s' :=
  of_counted (Uncommitted.failsWithin_discovery table) h

theorem rebuild {f : Fault} (h : c.rebuild.execute s = (.error f, s')) : c.Abandons s s' :=
  of_counted Uncommitted.failsWithin_enumeration h

/-- An action that fails under a lock has failed by itself, or the lock could not be taken. -/
theorem locked {table : Value} {act : Action σ α}
    (hact : ∀ s f s', act.execute s = (.error f, s') → c.Abandons s s') {f : Fault}
    (h : (c.locked table act).execute s = (.error f, s')) : c.Abandons s s' := by
  unfold Cache.locked at h
  dsimp only at h
  split at h
  · obtain ⟨-, rfl⟩ := Prod.mk.inj h
    exact .inl (.refl s)
  · rw [Action.execute_bind, execute_memory] at h
    dsimp only at h
    split at h
    · obtain ⟨-, rfl⟩ := Prod.mk.inj h
      exact .inl (.refl s)
    · have htaken : c.Idles s (c.changed (fun m => { m with held := table :: m.held }) s) :=
        .changed (fun m => { m with held := table :: m.held }) (fun _ => rfl)
          (fun _ => Nat.le_refl _) s
      rw [Action.execute_bind, execute_remember] at h
      dsimp only at h
      rw [Action.execute_bind, Action.execute_outcome] at h
      rcases hrun : act.execute (c.changed (fun m => { m with held := table :: m.held }) s) with
        ⟨r, s₂⟩
      rw [hrun] at h
      obtain ⟨rfl, rfl⟩ := Prod.mk.inj h
      exact enclose htaken (hact _ _ _ hrun)
        (.changed (fun m => { m with held := m.held.filter fun t => !(t == table) })
          (fun _ => rfl) (fun _ => Nat.le_refl _) s₂)

theorem schema {table : Value} {overwrite : Bool} {f : Fault}
    (h : (c.schema table overwrite).execute s = (.error f, s')) : c.Abandons s s' := by
  refine locked ?_ h
  intro s f s' h
  split at h
  · exact refresh h
  · rw [Action.execute_bind, execute_load] at h
    split at h
    next catalog s₁ hload =>
      obtain ⟨-, rfl⟩ := Prod.mk.inj hload
      split at h
      · cases h
      · exact refresh h
    next f' s₁ hload =>
      obtain ⟨-, rfl⟩ := Prod.mk.inj hload
      obtain ⟨-, rfl⟩ := Prod.mk.inj h
      exact .inl (.refl s)

end Abandons

/-! ## Generations of calls that fail -/

/-- Are generations counted on, and is all that is persisted since of a generation given out since? -/
def Renews (c : Cache σ) (s s' : Site σ) : Prop :=
  (c.memoryAt s).next ≤ (c.memoryAt s').next ∧ ∀ table : String, ∀ g,
    find? (c.memoryAt s').persisted (.text table) = some g →
      find? (c.memoryAt s).persisted (.text table) = some g ∨ (c.memoryAt s).next ≤ g

theorem renews_of_idles {s s' : Site σ} (h : c.Idles s s') : c.Renews s s' := by
  refine ⟨h.next_le, fun table g hg => .inl ?_⟩
  rw [← h.persisted]
  exact hg

/-- A backend that does nothing to the cache but ask it for schemas is covered. -/
theorem Cooperative.covers_renews (h : c.Cooperative) : c.Covers c.Renews where
  refl := fun s => renews_of_idles (.refl s)
  trans := by
    rintro s s₁ s₂ ⟨hle, hpersisted⟩ ⟨hle', hpersisted'⟩
    refine ⟨Nat.le_trans hle hle', fun table g hg => ?_⟩
    rcases hpersisted' table g hg with hg | hg
    · exact hpersisted table g hg
    · exact .inr (Nat.le_trans hle hg)
  backend := by
    intro operation s
    obtain ⟨log, hlog⟩ := h operation s
    have heffect := hlog.effect
    refine ⟨heffect.next_le, fun table g hg => ?_⟩
    have hpersisted := heffect.persisted table
    rw [show find? (c.view _).memory.persisted (.text table) = some g from hg] at hpersisted
    cases hlast : Finding.last? log table with
    | none =>
      rw [hlast] at hpersisted
      exact .inl hpersisted.symm
    | some d =>
      rw [hlast] at hpersisted
      rw [Option.some.inj hpersisted]
      exact .inr (heffect.counted d (Finding.mem_of_last? hlast).1).1

/-! ## All or nothing -/

/-- **A call that fails commits nothing.**  A save succeeds where there is a folder, the catalog has
a document and no folder is in the way; then the document stands in the file and nothing else has
changed, and otherwise nothing has and the fault is one of the catalog.  A call for a schema, or a
rebuild, that fails has only had operations of the backend done, beside taking and leaving locks and
counting generations.  So where the backend leaves the folder and what is persisted as they are, the
call does; and where all that the backend persists is of generations given out to it, the generation
of the call is not among those persisted. -/
theorem save_all_or_nothing (c : Cache σ) :
    (∀ catalog s, (∃ s', (c.save catalog).execute s = (.ok (), s')) ↔
      s.folder.isSome = true ∧ (∃ bytes, Folder.bytesOf catalog = .ok bytes) ∧
        s.folder.entry? c.place.name ≠ some .folder) ∧
    (∀ catalog s s', (c.save catalog).execute s = (.ok (), s') →
      ∃ bytes, Folder.bytesOf catalog = .ok bytes ∧
        s'.folder.entry? c.place.name = some (.file bytes) ∧
        (∀ name, name ≠ c.place.name → s'.folder.entry? name = s.folder.entry? name) ∧
        s' = { s with folder := s'.folder }) ∧
    (∀ catalog s f s', (c.save catalog).execute s = (.error f, s') →
      s' = s ∧ ∃ detail, f = .catalog (.writing c.place.path detail)) ∧
    ∀ s f s', (∃ table overwrite, (c.schema table overwrite).execute s = (.error f, s')) ∨
        c.rebuild.execute s = (.error f, s') →
      c.Uncommitted s s' ∧
      ((∀ operation s, ((c.backend operation).execute s).2.folder = s.folder ∧
          (c.memoryAt ((c.backend operation).execute s).2).persisted = (c.memoryAt s).persisted) →
        s'.folder = s.folder ∧ (c.memoryAt s').persisted = (c.memoryAt s).persisted) ∧
      (c.Covers c.Renews → c.Ordered s → ∀ table : String,
        find? (c.memoryAt s').persisted (.text table) ≠ some (c.memoryAt s).next) := by
  refine ⟨fun _ _ => execute_save_ok_iff, fun _ _ _ => execute_save_eq_ok,
    fun _ _ _ _ => execute_save_eq_error, ?_⟩
  intro s f s' hfailed
  have habandons : c.Abandons s s' := by
    rcases hfailed with ⟨table, overwrite, hschema⟩ | hrebuild
    · exact .schema hschema
    · exact .rebuild hrebuild
  refine ⟨habandons.uncommitted, ?_, ?_⟩
  · intro hquiet
    have hcovers : c.Covers fun s s' =>
        s'.folder = s.folder ∧ (c.memoryAt s').persisted = (c.memoryAt s).persisted :=
      ⟨fun _ => ⟨rfl, rfl⟩, fun _ _ _ h h' => ⟨h'.1.trans h.1, h'.2.trans h.2⟩, hquiet⟩
    exact habandons.uncommitted.rel hcovers fun _ _ h => ⟨h.folder, h.persisted⟩
  · intro hrenews hordered table hpersisted
    rcases habandons with hidle | ⟨s₁, hidle, hlt, hrest⟩
    · rw [hidle.persisted] at hpersisted
      exact Nat.lt_irrefl _ (hordered table _ hpersisted)
    · -- What is persisted after the generation was given out is older, or of a later one.
      rcases (hrest.rel hrenews fun _ _ => renews_of_idles).2 table _ hpersisted with hold | hle
      · rw [hidle.persisted] at hold
        exact Nat.lt_irrefl _ (hordered table _ hold)
      · exact Nat.lt_irrefl _ (Nat.lt_of_lt_of_le hlt hle)

/-- The cache with a backend that refreshes another table and then fails to read the first. -/
def failing : Cache Unit :=
  { quiet with
    backend := fun operation =>
      match operation with
      | .tableScan (.text "a") _ _ => do
        let _ ← (quiet.schema (.text "b") true).outcome
        throw .outOfRange
      | _ => return smallAnswer }

theorem cooperative_failing : failing.Cooperative := by
  have hanswer (s : Site Unit) : failing.Reaches s s := ⟨[], .untouched (.refl failing s)⟩
  have hrefresh (s : Site Unit) :
      failing.Reaches s ((failing.schema (.text "b") true).execute s).2 := by
    by_cases hfree : failing.IsFree "b" s
    · exact ⟨_, .discovered hfree (.inl rfl) (.untouched (.refl failing _))⟩
    · rw [schema, execute_locked_held failing hfree]
      exact hanswer s
  intro operation s
  unfold failing
  dsimp only
  split
  · exact hrefresh s
  · exact hanswer s

/-- The other table is persisted, under the generation of its own call. -/
theorem save_all_or_nothing_failing : ∃ f s',
    (failing.schema (.text "a") true).execute unused = (.error f, s') ∧
      find? (failing.memoryAt s').persisted (.text "b") = some 1 ∧
      ∀ table : String, find? (failing.memoryAt s').persisted (.text table) ≠ some 0 := by
  obtain ⟨f, s', hfailed, hother⟩ : ∃ f s',
      (failing.schema (.text "a") true).execute unused = (.error f, s') ∧
        find? (failing.memoryAt s').persisted (.text "b") = some 1 := ⟨_, _, rfl, rfl⟩
  obtain ⟨-, -, -, hcalls⟩ := save_all_or_nothing failing
  obtain ⟨-, -, hgeneration⟩ := hcalls _ f s' (.inl ⟨_, _, hfailed⟩)
  refine ⟨f, s', hfailed, hother, hgeneration cooperative_failing.covers_renews ?_⟩
  exact ordered_new rfl

end RowAccess.Cache
