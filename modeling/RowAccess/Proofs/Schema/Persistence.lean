import RowAccess.Proofs.Schema.Rebuild

/-
  RowAccess/Proofs/Schema/Persistence.lean
  ========================================
  **Catalogs survive the disk.**  Whatever is put into a catalog, one that was empty or was read
  from a file, it stays coherent: no table is listed twice, and every schema stands under its own
  name, which is listed.  So the stored form gives the catalog back, with the order of its tables,
  schemas and columns, and what a cache saved it loads (`Catalog.Reachable.persists`).
-/

namespace RowAccess

open Keyed

namespace Catalog

/-- The catalogs that come about: the empty one, those that were loaded, and what schemas put into
them make of them.  Texts name their tables and columns. -/
inductive Reachable : Catalog → Prop
  | empty : Reachable {}
  | loaded {p : Place} {f : Folder} {c : Catalog} (load : f.load p = .ok c) (named : c.Named) :
    Reachable c
  | put {c : Catalog} {t : TableSchema} (before : Reachable c) (named : t.Named) :
    Reachable (c.put t)

namespace Reachable

variable {c : Catalog}

theorem named (h : c.Reachable) : c.Named := by
  induction h with
  | empty => exact ⟨by simp, by simp⟩
  | loaded _ named => exact named
  | put _ named ih => exact ih.put named

theorem coherent (h : c.Reachable) : c.Coherent := by
  induction h with
  | empty => exact coherent_empty [] List.nodup_nil
  | loaded load named => exact Folder.coherent_load load named.tables
  | put _ named ih => exact ih.put named.table

/-- A cache can save the catalog wherever there is a folder and nothing but a file is in the way. -/
theorem exists_save {σ : Type} (h : c.Reachable) (cache : Cache σ) {s : Site σ}
    (hsome : s.folder.isSome = true) (hfile : s.folder.entry? cache.place.name ≠ some .folder) :
    ∃ s', (cache.save c).execute s = (.ok (), s') := by
  obtain ⟨g, hsave⟩ := Folder.exists_save h.named hsome hfile
  rw [cache.execute_save, hsave]
  exact ⟨_, rfl⟩

/-- **Catalogs survive the disk.**  A catalog that comes about lists no table twice and has every
schema once, under its own name, which is listed; its stored form gives it back; and once a cache
has saved it, the cache loads it. -/
theorem persists (h : c.Reachable) :
    c.tables.Nodup ∧ (keys c.schemas).Nodup ∧
      (∀ e ∈ c.schemas, e.1 = e.2.name ∧ e.1 ∈ c.tables) ∧ ofStored c.toStored = .ok c ∧
        ∀ {σ : Type} (cache : Cache σ) (s s' : Site σ),
          (cache.save c).execute s = (.ok (), s') → cache.load.execute s' = (.ok c, s') := by
  have hn := h.named
  have hc := h.coherent
  refine ⟨hc.distinct, hc.once, ?_, ofStored_toStored hn hc, ?_⟩
  · intro e he
    exact ⟨hc.named e he, hc.listed e.1 (List.mem_map.2 ⟨e, he, rfl⟩)⟩
  · intro σ cache s s' hsave
    rw [cache.execute_save] at hsave
    obtain ⟨hok, rfl⟩ := Prod.mk.inj hsave
    rw [cache.execute_load]
    exact Prod.ext (Folder.load_save hn hc (Prod.ext hok rfl)) rfl

end Reachable

/-- A schema whose names need every kind of escape. -/
def awkwardSchema : TableSchema :=
  ⟨.text "a\"b\\c\n\t\u0001", .text "\u00e9", some .string,
    { number := [.text "\u20ac"], string := [.text "\u00e9", .text ""] }, by decide +kernel⟩

def awkward : Catalog :=
  (({} : Catalog).put awkwardSchema).put (Cache.smallSchema "\u00fc/..")

theorem named_awkwardSchema : awkwardSchema.Named := by
  refine ⟨rfl, .inr rfl, ?_⟩
  intro k v hv
  cases k with
  | number | string =>
    simp only [awkwardSchema, Columns.of, List.mem_cons, List.not_mem_nil, or_false] at hv
    rcases hv with rfl | rfl
    all_goals rfl
  | _ => cases hv

theorem persists_awkward :
    awkward.Reachable ∧ ofStored awkward.toStored = .ok awkward ∧
      ∃ s', (Cache.quiet.save awkward).execute Cache.unused = (.ok (), s') ∧
        Cache.quiet.load.execute s' = (.ok awkward, s') := by
  have hreachable : awkward.Reachable :=
    .put (.put .empty named_awkwardSchema) (Cache.named_smallSchema _)
  obtain ⟨s', hsave⟩ := hreachable.exists_save Cache.quiet (s := Cache.unused) rfl
    (by show none ≠ _; simp)
  obtain ⟨-, -, -, hstored, hload⟩ := Reachable.persists hreachable
  exact ⟨hreachable, hstored, s', hsave, hload Cache.quiet Cache.unused s' hsave⟩

end Catalog

end RowAccess
