import Mathlib.Logic.Relation
import RowAccess.Proofs.Schema.Overlap
import RowAccess.Proofs.Schema.Survey

/-
  RowAccess/Proofs/Schema/Lacking.lean
  ====================================
  **What a catalog lacks is added, and nothing else.**  A file that lists tables is taken for the
  catalog of all tables, and a call for the catalog asks for the schemas of the tables that are
  listed without one, one after another.  Alone it appends what it discovers and changes nothing
  else.  Other calls may replace the listing meanwhile, but no commit lists a table without a schema
  that had one or was not listed, so what is read in the end lacks nothing
  (`Cache.catalog_adds_lacking`).
-/

namespace RowAccess

open Keyed

namespace Catalog

/-- The tables that are listed without a schema. -/
def lacking (c : Catalog) : List Value :=
  c.tables.filter fun v => (c.get? v).isNone

/-- Does every listed table have a schema? -/
def Full (c : Catalog) : Prop :=
  ∀ v ∈ c.tables, ∃ t, c.get? v = some t

theorem mem_lacking {c : Catalog} {table : String} :
    .text table ∈ c.lacking ↔ c.Bare table := by
  simp [lacking, Bare]

/-- A schema for a table that is listed without one goes after the others. -/
theorem Bare.put_eq {c : Catalog} {table : String} (h : c.Bare table) {t : TableSchema}
    (ht : t.name = .text table) : c.put t = ⟨c.tables, c.schemas ++ [(.text table, t)]⟩ := by
  have hexact := Value.exact_text table
  have hnew : Value.text table ∉ keys c.schemas := by
    intro hmem
    obtain ⟨t', ht'⟩ := hexact.exists_find? hmem
    have hnone : find? c.schemas (.text table) = none := h.2
    rw [ht'] at hnone
    cases hnone
  rw [Catalog.put, ht, list_of_mem hexact h.1, hexact.put_of_not_mem hnew]

end Catalog

/-- After a write there is a folder still, and nothing but a file is in the way. -/
theorem Folder.ready_of_save {p : Place} {c : Catalog} {f g : Folder}
    (h : save p c f = (.ok (), g)) (hpresent : f.isSome = true) :
    g.isSome = true ∧ g.entry? p.name ≠ some .folder := by
  have hsame := isSome_save p c f
  rw [h] at hsame
  obtain ⟨bytes, -, hentry⟩ := entry?_save_ok h
  rw [hentry]
  exact ⟨hsame.trans hpresent, by simp⟩

namespace Cache

variable {σ : Type} {c : Cache σ}

theorem missing_eq {catalog : Catalog} (h : catalog.Named) :
    missing catalog = .ok catalog.lacking := by
  have htext := h.tables
  unfold missing Catalog.lacking
  generalize catalog.tables = tables at htext
  induction tables with
  | nil => rfl
  | cons v tables ih =>
    obtain ⟨table, rfl⟩ := Value.isText_iff.1 (htext v List.mem_cons_self)
    have hrest := ih fun w hw => htext w (List.mem_cons_of_mem _ hw)
    have hlookup : catalog.lookup (.text table) = .ok (catalog.get? (.text table)) := rfl
    rw [List.filterMapM_cons, hlookup]
    cases hget : catalog.get? (.text table) with
    | some t => simpa [hget, bind, Except.bind, pure, Except.pure] using hrest
    | none =>
      simp only [bind, Except.bind, pure, Except.pure] at hrest ⊢
      simp [hget, hrest]

/-! ## One call for a schema -/

/-- Taking a lock gives out no generation. -/
theorem next_entered (table : String) (s : Site σ) :
    (c.memoryAt (c.entered table s)).next = (c.memoryAt s).next := by
  simp only [entered, memoryAt_changed]

section Schema

variable {table : String} {overwrite : Bool} {s s' : Site σ} {t : TableSchema}

/-- A call for a schema that succeeds found the lock free.  It leaves the cache alone, or it has
committed what it discovered. -/
theorem execute_schema_eq_ok
    (h : (c.schema (.text table) overwrite).execute s = (.ok t, s')) :
    c.IsFree table s ∧ ((¬ c.Discovers table overwrite s ∧ c.Untouched s s') ∨
      c.Discovers table overwrite s ∧ ∃ s₁ catalog folder,
        (c.discover (.text table)).execute (c.opened table s) = (.ok t, s₁) ∧
          c.loadAt s₁ = .ok catalog ∧ s₁.folder.save c.place (catalog.put t) = (.ok (), folder) ∧
            s' = c.left table (c.committed (.text table) (c.memoryAt s).next folder s₁)) := by
  have hfree : c.IsFree table s := by
    refine Classical.byContradiction fun hheld => ?_
    rw [schema, c.execute_locked_held hheld] at h
    cases h
  refine ⟨hfree, ?_⟩
  by_cases hdiscovers : c.Discovers table overwrite s
  · refine .inr ⟨hdiscovers, ?_⟩
    rw [c.execute_schema_discovers hfree hdiscovers] at h
    rcases c.execute_refresh (.text table) (c.entered table s) with
      ⟨f, s₁, hrefresh, -⟩ | ⟨t', s₁, catalog, folder, hdiscover, hload, hsave, hrefresh⟩
    · rw [hrefresh] at h
      cases h
    · rw [hrefresh, next_entered] at h
      obtain ⟨hok, rfl⟩ := Prod.mk.inj h
      obtain rfl := Except.ok.inj hok
      exact ⟨s₁, catalog, folder, hdiscover, hload, hsave, rfl⟩
  · have huntouched := c.execute_schema_known hfree hdiscovers
    rw [h] at huntouched
    exact .inl ⟨hdiscovers, huntouched⟩

/-- A call that discovers succeeds wherever there is a folder and nothing but a file is in the
way. -/
theorem exists_execute_schema {s₁ : Site σ} {catalog : Catalog} (hfree : c.IsFree table s)
    (hdiscovers : c.Discovers table overwrite s)
    (hdiscover : (c.discover (.text table)).execute (c.opened table s) = (.ok t, s₁))
    (hload : c.loadAt s₁ = .ok catalog) (hn : catalog.Named) (ht : t.Named)
    (hpresent : s₁.folder.isSome = true) (hfile : s₁.folder.entry? c.place.name ≠ some .folder) :
    ∃ folder, s₁.folder.save c.place (catalog.put t) = (.ok (), folder) ∧
      (c.schema (.text table) overwrite).execute s =
        (.ok t, c.left table (c.committed (.text table) (c.memoryAt s).next folder s₁)) := by
  obtain ⟨folder, hsave⟩ := Folder.exists_save (hn.put ht) hpresent hfile
  refine ⟨folder, hsave, ?_⟩
  have hopened : (c.discover (.text table)).execute (c.counted (c.entered table s)) =
      (.ok t, s₁) := hdiscover
  have hrefresh : (c.refresh (.text table)).execute (c.entered table s) =
      (.ok t, c.committed (.text table) (c.memoryAt s).next folder s₁) := by
    rw [refresh, Action.execute_bind, execute_nextGeneration, next_entered]
    dsimp only
    rw [Action.execute_bind, hopened]
    dsimp only
    rw [Action.execute_bind, execute_load, hload]
    dsimp only
    rw [Action.execute_bind, execute_save, hsave]
    rfl
  rw [c.execute_schema_discovers hfree hdiscovers, hrefresh]

end Schema

/-- Does the engine name the columns of tables by texts, whatever else is done meanwhile? -/
def NamesTexts (c : Cache σ) : Prop :=
  ∀ table s t s', (c.discover (.text table)).execute s = (.ok t, s') → t.Named

/-! ## Alone -/

section Alone

variable (h : c.Outward) (htexts : c.NamesTexts)

include h htexts

/-- Alone, a call for a schema that the catalog lacks discovers it and puts it. -/
theorem schema_adds {table : String} {s s' : Site σ} {before : Catalog} {t : TableSchema}
    (hload : c.loadAt s = .ok before) (hn : before.Named) (hbare : before.Bare table)
    (hsuccess : (c.schema (.text table) false).execute s = (.ok t, s')) :
    (c.discover (.text table)).outer s.outside = (.ok t, s'.outside) ∧ t.Named ∧
      t.name = .text table ∧ c.loadAt s' = .ok (before.put t) := by
  obtain ⟨-, ⟨hknown, -⟩ | ⟨-, s₁, catalog, folder, hdiscover, hloaded, hsave, rfl⟩⟩ :=
    execute_schema_eq_ok hsuccess
  · exact absurd (.inr ⟨before, hload, hbare.2⟩) hknown
  have ht := htexts _ _ _ _ hdiscover
  have hname := c.discover_name hdiscover
  rw [h.discover (.text table)] at hdiscover
  obtain ⟨hok, rfl⟩ := Prod.mk.inj hdiscover
  obtain rfl : before = catalog := Except.ok.inj (hload.symm.trans hloaded)
  have hc := Folder.coherent_load hload hn.tables
  exact ⟨Prod.ext hok rfl, ht, hname, Folder.load_save (hn.put ht) (hc.put ht.table) hsave⟩

/-- Alone, calls for schemas that the catalog lacks discover them and put them, one after
another. -/
theorem completeAll_adds {tables : List String} (hdistinct : tables.Nodup) {s s' : Site σ}
    {before : Catalog} (hload : c.loadAt s = .ok before) (hn : before.Named)
    (hbare : ∀ table ∈ tables, before.Bare table)
    (hsuccess : (c.completeAll (tables.map .text)).execute s = (.ok (), s')) :
    ∃ found, (c.discoverAll (tables.map .text)).outer s.outside = (.ok found, s'.outside) ∧
      keys found = tables.map .text ∧
        c.loadAt s' = .ok ⟨before.tables, before.schemas ++ found⟩ := by
  induction tables generalizing before s with
  | nil =>
    obtain ⟨-, rfl⟩ := Prod.mk.inj hsuccess
    exact ⟨[], rfl, rfl, by rw [hload, List.append_nil]⟩
  | cons table tables ih =>
    rw [List.nodup_cons] at hdistinct
    obtain ⟨t, s₁, hfirst, hrest⟩ := Action.execute_bind_eq_ok_iff.1 hsuccess
    have htable := hbare table List.mem_cons_self
    obtain ⟨houter, ht, hname, hload₁⟩ := schema_adds h htexts hload hn htable hfirst
    have hput := htable.put_eq hname
    -- The other tables are lacking still.
    have hothers : ∀ name ∈ tables, (before.put t).Bare name := by
      intro name hmem
      obtain ⟨hlisted, hget⟩ := hbare name (List.mem_cons_of_mem _ hmem)
      have hne : t.name ≠ .text name := by
        intro heq
        rw [hname] at heq
        rw [Value.text.inj heq] at hdistinct
        exact hdistinct.1 hmem
      exact ⟨(Catalog.mem_tables_put ht.table).2 (.inl hlisted),
        (Catalog.get?_put_of_ne ht.table hne).trans hget⟩
    obtain ⟨found, hall, hkeys, hload'⟩ := ih hdistinct.2 hload₁ (hn.put ht) hothers hrest
    refine ⟨(.text table, t) :: found, ?_, ?_, ?_⟩
    · rw [List.map_cons, outer_discoverAll_cons h, houter]
      simp only [hall, Except.map]
    · rw [List.map_cons, ← hkeys]
      rfl
    · rw [hload', hput, List.append_assoc]
      rfl

end Alone

/-! ## While other calls run -/

variable (c) in
/-- A step of calls that overlap.  It leaves the file alone, or it is the commit of a call: of one
for a schema, which puts what it has discovered into the catalog on disk, or of a rebuild, which
replaces the listing.  When the calls have started, and what they remember, is left open. -/
inductive Step (s s' : Site σ) : Prop
  | elsewhere (file : s'.folder.entry? c.place.name = s.folder.entry? c.place.name)
  | put {t : TableSchema} {onDisk : Catalog} (named : t.Named) (loaded : c.loadAt s = .ok onDisk)
    (saved : s.folder.save c.place (onDisk.put t) = (.ok (), s'.folder))
  | rebuilt {own : List Finding} {onDisk : Catalog} {persisted : Keyed Value Nat} {start : Nat}
    (named : ∀ d ∈ own, d.schema.Named ∧ d.schema.name = .text d.table)
    (distinct : (own.map (·.table)).Nodup) (loaded : c.loadAt s = .ok onDisk)
    (saved : s.folder.save c.place (rebuiltCatalog onDisk persisted start own) =
      (.ok (), s'.folder))

/-- Does nothing happen to the file while the backend works but steps of calls that overlap? -/
def Overlapped (c : Cache σ) : Prop :=
  ∀ operation, Stateful.Spans (Relation.ReflTransGen c.Step) (c.backend operation)

/-- Is the catalog on disk named by texts, with no table listed without a schema but those that were
so before, and none of the given ones? -/
def Supplied (c : Cache σ) (before : Catalog) (tables : List String) (s : Site σ) : Prop :=
  ∃ after, c.loadAt s = .ok after ∧ after.Named ∧
    ∀ name, after.Bare name → before.Bare name ∧ name ∉ tables

/-- A schema that was put is loaded, and its table is not lacking. -/
theorem supplied_put {s s' : Site σ} {before : Catalog} {table : String} {t : TableSchema}
    (hname : t.name = .text table) (ht : t.Named) (hload : c.loadAt s = .ok before)
    (hn : before.Named) (hsave : s.folder.save c.place (before.put t) = (.ok (), s'.folder)) :
    c.Supplied before [table] s' := by
  have hc := Folder.coherent_load hload hn.tables
  refine ⟨before.put t, Folder.load_save (hn.put ht) (hc.put ht.table) hsave, hn.put ht, ?_⟩
  intro name hbare
  refine ⟨(before.commits_put hname).bare name hbare, fun hmem => ?_⟩
  have hget := Catalog.get?_put (c := before) ht.table
  rw [hname, ← List.mem_singleton.1 hmem, hbare.2] at hget
  cases hget

/-- No step lists a table without a schema that was not listed without one before. -/
theorem Step.supplied {s s' : Site σ} (h : c.Step s s') {before : Catalog}
    (hload : c.loadAt s = .ok before) (hn : before.Named) : c.Supplied before [] s' := by
  cases h with
  | elsewhere file =>
    exact ⟨before, (Folder.load_congr file).trans hload, hn, fun _ h => ⟨h, List.not_mem_nil⟩⟩
  | put named loaded saved =>
    obtain rfl := Except.ok.inj (hload.symm.trans loaded)
    obtain ⟨table, hname⟩ := Value.isText_iff.1 named.table
    obtain ⟨after, hafter, hnamed, hbare⟩ := supplied_put hname named hload hn saved
    exact ⟨after, hafter, hnamed, fun name h => ⟨(hbare name h).1, List.not_mem_nil⟩⟩
  | @rebuilt own onDisk persisted start named distinct loaded saved =>
    obtain rfl := Except.ok.inj (hload.symm.trans loaded)
    have hc := Folder.coherent_load hload hn.tables
    have hnames : ∀ d ∈ own, d.schema.name = .text d.table := fun d hd => (named d hd).2
    have hempty : (Catalog.mk ((own.map (·.table)).map Value.text) []).Named :=
      ⟨by simp [Value.isText], by simp⟩
    have hnamed : (rebuiltCatalog before persisted start own).Named :=
      hempty.putAll (named_rebuiltFrom hn fun d hd => (named d hd).1)
    exact ⟨_, Folder.load_save hnamed (coherent_rebuilt hn hc hnames distinct) saved, hnamed,
      fun name h => ⟨(commits_rebuilt hn hc hnames distinct).bare name h, List.not_mem_nil⟩⟩

theorem supplied_of_steps {s s' : Site σ} (h : Relation.ReflTransGen c.Step s s') {before : Catalog}
    (hload : c.loadAt s = .ok before) (hn : before.Named) : c.Supplied before [] s' := by
  induction h with
  | refl => exact ⟨before, hload, hn, fun _ h => ⟨h, List.not_mem_nil⟩⟩
  | tail _ step ih =>
    obtain ⟨between, hbetween, hn', hbare⟩ := ih
    obtain ⟨after, hafter, hn'', hbare'⟩ := step.supplied hbetween hn'
    exact ⟨after, hafter, hn'', fun name h => hbare name (hbare' name h).1⟩

namespace Overlapped

variable (h : c.Overlapped) (htexts : c.NamesTexts)

include h

theorem covers : c.Covers (Relation.ReflTransGen c.Step) :=
  ⟨fun _ => .refl, fun _ _ _ => .trans, h⟩

include htexts

/-- After a call for the schema of a table the table is not listed without one. -/
theorem schema_supplied {table : String} {s s' : Site σ} {before : Catalog} {t : TableSchema}
    (hload : c.loadAt s = .ok before) (hn : before.Named)
    (hsuccess : (c.schema (.text table) false).execute s = (.ok t, s')) :
    c.Supplied before [table] s' := by
  obtain ⟨-, ⟨hknown, huntouched⟩ | ⟨-, s₁, catalog, folder, hdiscover, hloaded, hsave, rfl⟩⟩ :=
    execute_schema_eq_ok hsuccess
  · refine ⟨before, huntouched.loadAt.trans hload, hn, fun name hbare => ⟨hbare, fun hmem => ?_⟩⟩
    rw [List.mem_singleton.1 hmem] at hbare
    exact hknown (.inr ⟨before, hload, hbare.2⟩)
  · -- Other calls may have committed while the table was discovered.
    have hopened : c.loadAt (c.opened table s) = .ok before := hload
    have hsteps : Relation.ReflTransGen c.Step (c.opened table s) s₁ :=
      Action.rel_of_spans (h.covers.discover (.text table)) hdiscover
    obtain ⟨catalog', hloaded', hn', hbare⟩ := supplied_of_steps hsteps hopened hn
    obtain rfl := Except.ok.inj (hloaded.symm.trans hloaded')
    have hsaved : s₁.folder.save c.place (catalog.put t) = (.ok (),
        (c.left table (c.committed (.text table) (c.memoryAt s).next folder s₁)).folder) := hsave
    obtain ⟨after, hafter, hn'', hbare'⟩ := supplied_put (c.discover_name hdiscover)
      (htexts _ _ _ _ hdiscover) hloaded hn' hsaved
    exact ⟨after, hafter, hn'', fun name hname =>
      ⟨(hbare name (hbare' name hname).1).1, (hbare' name hname).2⟩⟩

/-- After calls for the schemas of tables none of them is listed without one. -/
theorem completeAll_supplied (tables : List String) {s s' : Site σ} {before : Catalog}
    (hload : c.loadAt s = .ok before) (hn : before.Named)
    (hsuccess : (c.completeAll (tables.map .text)).execute s = (.ok (), s')) :
    c.Supplied before tables s' := by
  induction tables generalizing before s with
  | nil =>
    obtain ⟨-, rfl⟩ := Prod.mk.inj hsuccess
    exact ⟨before, hload, hn, fun name hbare => ⟨hbare, List.not_mem_nil⟩⟩
  | cons table tables ih =>
    obtain ⟨t, s₁, hfirst, hrest⟩ := Action.execute_bind_eq_ok_iff.1 hsuccess
    obtain ⟨between, hload₁, hn₁, hbare₁⟩ := h.schema_supplied htexts hload hn hfirst
    obtain ⟨after, hload', hn', hbare⟩ := ih hload₁ hn₁ hrest
    refine ⟨after, hload', hn', fun name hname => ?_⟩
    obtain ⟨hbetween, hothers⟩ := hbare name hname
    obtain ⟨hbefore, hfirst⟩ := hbare₁ name hbetween
    simp only [List.mem_cons, List.not_mem_nil, or_false] at hfirst ⊢
    exact ⟨hbefore, not_or.2 ⟨hfirst, hothers⟩⟩

end Overlapped

/-- What calls do that run from their start to their end while the backend works are steps. -/
theorem Course.steps (htexts : c.NamesTexts) {own : List Finding} {s s' : Site σ}
    {log : List Moment} (h : c.Course own s log s') :
    Relation.ReflTransGen c.Step s s' ∧ ∀ d ∈ own, d.schema.Named := by
  -- Taking a lock and leaving it, or giving out a generation, is not seen in the file.
  have hopened : ∀ table s, c.Step s (c.opened table s) := fun _ _ => .elsewhere rfl
  have hcounted : ∀ s, c.Step s (c.counted s) := fun _ => .elsewhere rfl
  have hinside : ∀ {table : String} {s s₁ s' : Site σ},
      Relation.ReflTransGen c.Step (c.opened table s) s₁ →
        s'.folder.entry? c.place.name = s₁.folder.entry? c.place.name →
          Relation.ReflTransGen c.Step s s' :=
    fun inner file => .tail (.head (hopened _ _) inner) (.elsewhere file)
  induction h with
  | untouched h => exact ⟨.single (.elsewhere h.file), by simp⟩
  | known free known =>
    exact ⟨.single (.elsewhere (c.execute_schema_known free known).file), by simp⟩
  | started => exact ⟨.single (hcounted _), by simp⟩
  | @refreshed table overwrite s log catalog t free discovers inner loaded success ih =>
    refine ⟨?_, by simp⟩
    rcases hrun : (c.schema (.text table) overwrite).execute s with ⟨r, s'⟩
    rw [hrun] at success
    obtain rfl : r = .ok t := success
    obtain ⟨-, ⟨hknown, -⟩ | ⟨-, s₁, catalog, folder, hdiscover, hload, hsave, rfl⟩⟩ :=
      execute_schema_eq_ok hrun
    · exact absurd discovers hknown
    · rw [hdiscover] at ih
      exact .tail (.head (hopened _ _) ih.1) (.put (htexts _ _ _ _ hdiscover) hload hsave)
  | @refused table overwrite s log f free discovers inner failure ih =>
    refine ⟨hinside ih.1 ?_, by simp⟩
    rw [c.execute_schema_discovers free discovers] at failure ⊢
    rcases c.execute_refresh (.text table) (c.entered table s) with
      ⟨f', s₁, hrefresh, huntouched⟩ | ⟨t, s₁, catalog, folder, -, -, -, hrefresh⟩
    · rw [hrefresh]
      exact huntouched.file
    · rw [hrefresh] at failure
      cases failure
  | found free _ success ih =>
    have ht := htexts _ _ _ _ (Prod.ext success rfl)
    rw [c.execute_rediscover free]
    exact ⟨hinside ih.1 rfl, by simp [ht]⟩
  | missed free _ _ ih =>
    rw [c.execute_rediscover free]
    exact ⟨hinside ih.1 rfl, by simp⟩
  | rebuilt listed _ rediscovered discovering success ih ih' =>
    obtain ⟨rfl, hdistinct, onDisk, folder, hload, rfl, hsave, rfl⟩ :=
      commit_of_rebuild listed rediscovered success
    have hnamed := fun d hd => And.intro (ih'.2 d hd) (discovering.passage.named d hd)
    exact ⟨.tail (.head (hcounted _) (ih.1.trans ih'.1))
      (.rebuilt hnamed hdistinct hload hsave), by simp⟩
  | abandoned _ ih => exact ⟨ih.1, by simp⟩
  | next _ _ ih ih' =>
    refine ⟨ih.1.trans ih'.1, fun d hd => ?_⟩
    exact (List.mem_append.1 hd).elim (ih.2 d) (ih'.2 d)

theorem Reentrant.overlapped (h : c.Reentrant) (htexts : c.NamesTexts) : c.Overlapped := by
  intro operation s
  obtain ⟨log, hcourse⟩ := h operation s
  exact (hcourse.steps htexts).1

/-! ## The catalog of all tables -/

section Catalog

variable {s s' : Site σ} {onDisk catalog : Catalog}

/-- Where the file lists tables a call for the catalog asks for what is lacking, and then reads the
file again. -/
theorem execute_catalog (hload : c.loadAt s = .ok onDisk) (hlisted : onDisk.tables ≠ [])
    (hn : onDisk.Named) :
    (c.catalog false).execute s = (c.completeAll onDisk.lacking >>= fun _ => c.load).execute s := by
  have hnonempty : onDisk.tables.isEmpty = false := by simpa using hlisted
  rw [Cache.catalog, if_neg Bool.false_ne_true, Action.execute_bind, execute_load, hload]
  dsimp only
  rw [hnonempty, if_neg Bool.false_ne_true, missing_eq hn]
  cases hlacking : onDisk.lacking with
  | nil =>
    show (Except.ok onDisk, s) = (c.loadAt s, s)
    rw [hload]
  | cons v tables => rfl

/-- A call for a catalog that lacks one table succeeds wherever there is a folder and nothing but a
file is in the way. -/
theorem exists_execute_catalog {table : String} {s₁ : Site σ} {t : TableSchema}
    (hload : c.loadAt s = .ok onDisk) (hn : onDisk.Named)
    (hlacking : onDisk.lacking = [.text table]) (hfree : c.IsFree table s)
    (hdiscover : (c.discover (.text table)).execute (c.opened table s) = (.ok t, s₁))
    (hload₁ : c.loadAt s₁ = .ok catalog) (hn₁ : catalog.Named) (ht : t.Named)
    (hpresent : s₁.folder.isSome = true) (hfile : s₁.folder.entry? c.place.name ≠ some .folder) :
    ∃ s', (c.catalog false).execute s = (.ok (catalog.put t), s') := by
  have hbare : onDisk.Bare table := Catalog.mem_lacking.1 (by simp [hlacking])
  obtain ⟨folder, hsave, hschema⟩ := exists_execute_schema hfree
    (.inr ⟨onDisk, hload, hbare.2⟩) hdiscover hload₁ hn₁ ht hpresent hfile
  have hc := Folder.coherent_load hload₁ hn₁.tables
  have hstored : c.loadAt (c.left table (c.committed (.text table) (c.memoryAt s).next folder s₁)) =
      .ok (catalog.put t) := Folder.load_save (hn₁.put ht) (hc.put ht.table) hsave
  rw [execute_catalog hload (List.ne_nil_of_mem hbare.1) hn, hlacking, Action.execute_bind,
    completeAll, Action.execute_bind, hschema]
  refine ⟨_, Prod.ext ?_ rfl⟩
  exact hstored

/-- **What a catalog lacks is added, and nothing else.**  A call for the catalog succeeds where the
file lists tables.  Then what it returns is what is persisted.  If nothing was lacking it is what
was there, whatever the backend would do, and nothing has changed.  Alone, the call has asked what
the discoveries of the lacking tables ask and nothing else, and what they found stands after the
schemas that were there, under an unchanged listing.  Whatever other calls run meanwhile, from their
start to their end or overlapping with it and with each other, every table that is listed in the end
has a schema. -/
theorem catalog_adds_lacking (htexts : c.NamesTexts) (hload : c.loadAt s = .ok onDisk)
    (hlisted : onDisk.tables ≠ []) (hn : onDisk.Named)
    (hsuccess : (c.catalog false).execute s = (.ok catalog, s')) :
    c.loadAt s' = .ok catalog ∧
      (onDisk.lacking = [] → catalog = onDisk ∧ s' = s ∧
        ∀ backend, (({ c with backend := backend } : Cache σ).catalog false).execute s =
          (.ok onDisk, s)) ∧
      (c.Outward → ∃ found,
        (c.discoverAll onDisk.lacking).outer s.outside = (.ok found, s'.outside) ∧
          keys found = onDisk.lacking ∧
            catalog = ⟨onDisk.tables, onDisk.schemas ++ found⟩) ∧
      (c.Reentrant ∨ c.Overlapped → catalog.Full) := by
  have hcall := hsuccess
  rw [execute_catalog hload hlisted hn] at hcall
  obtain ⟨u, s₁, hcompleted, hloaded⟩ := Action.execute_bind_eq_ok_iff.1 hcall
  rw [execute_load] at hloaded
  obtain ⟨hstored, rfl⟩ := Prod.mk.inj hloaded
  have hsubset : ∀ v ∈ onDisk.lacking, v.isText = true :=
    fun v hv => hn.tables v (List.mem_filter.1 hv).1
  obtain ⟨tables, htables⟩ := exists_map_text hsubset
  rw [htables] at hcompleted
  refine ⟨hstored, ?_, ?_, ?_⟩
  · intro hnone
    have hknown : ∀ backend, (({ c with backend := backend } : Cache σ).catalog false).execute s =
        (.ok onDisk, s) := by
      intro backend
      have hsame : ({ c with backend := backend } : Cache σ).loadAt s = .ok onDisk := hload
      rw [execute_catalog hsame hlisted hn, hnone]
      exact Prod.ext hsame rfl
    obtain ⟨hcatalog, hs⟩ := Prod.mk.inj (hsuccess.symm.trans (hknown c.backend))
    exact ⟨Except.ok.inj hcatalog, hs, hknown⟩
  · intro h
    have hc := Folder.coherent_load hload hn.tables
    have hdistinct : tables.Nodup := by
      have hnodup : onDisk.lacking.Nodup := hc.distinct.filter _
      rw [htables] at hnodup
      exact (List.pairwise_map.1 hnodup).imp fun hne heq => hne (congrArg Value.text heq)
    have hbare : ∀ table ∈ tables, onDisk.Bare table := by
      intro table htable
      rw [← Catalog.mem_lacking, htables]
      exact List.mem_map.2 ⟨table, htable, rfl⟩
    obtain ⟨found, hfound, hkeys, hload'⟩ :=
      completeAll_adds h htexts hdistinct hload hn hbare hcompleted
    rw [htables]
    exact ⟨found, hfound, hkeys, Except.ok.inj (hstored.symm.trans hload')⟩
  · intro hcalls v hv
    have h : c.Overlapped := hcalls.elim (fun h => h.overlapped htexts) fun h => h
    obtain ⟨after, hload', hn', hbare⟩ := h.completeAll_supplied htexts tables hload hn hcompleted
    obtain rfl := Except.ok.inj (hstored.symm.trans hload')
    obtain ⟨table, rfl⟩ := Value.isText_iff.1 (hn'.tables v hv)
    cases hget : catalog.get? (.text table) with
    | some t => exact ⟨t, rfl⟩
    | none =>
      -- The table would have been listed without a schema at first, and been asked for.
      obtain ⟨hlacked, hasked⟩ := hbare table ⟨hv, hget⟩
      refine absurd ?_ hasked
      have hmem := Catalog.mem_lacking.2 hlacked
      rw [htables] at hmem
      obtain ⟨name, hname, heq⟩ := List.mem_map.1 hmem
      rwa [← Value.text.inj heq]

end Catalog

/-! ## A small run -/

/-- A catalog of two tables that lacks the first. -/
def half : Catalog :=
  ⟨[.text "a", .text "c"], [(.text "c", smallSchema "c")]⟩

theorem named_half : half.Named := by
  refine ⟨by simp [half, Value.isText], ?_⟩
  simp [half, named_smallSchema]

theorem coherent_half : half.Coherent := by
  refine ⟨?_, ?_, ?_, ?_⟩
  all_goals simp [half, keys, smallSchema]

theorem lacking_half : half.lacking = [.text "a"] := rfl

/-- The catalog may be on disk, with no cache in use. -/
theorem exists_half : ∃ s : Site Unit, busy.loadAt s = .ok half ∧ s.memories = [] ∧
    s.folder.isSome = true ∧ s.folder.entry? busy.place.name ≠ some .folder := by
  obtain ⟨folder, hsave⟩ := Folder.exists_save (p := busy.place) (f := some []) named_half rfl
    (by show none ≠ _; simp)
  exact ⟨⟨folder, [], ()⟩, Folder.load_save named_half coherent_half hsave, rfl,
    Folder.ready_of_save hsave rfl⟩

theorem namesTexts_quiet : quiet.NamesTexts := by
  intro table s t s' h
  have hdiscover : (quiet.discover (.text table)).execute s = (.ok (smallSchema table), s) := rfl
  obtain rfl := Except.ok.inj (Prod.mk.inj (hdiscover.symm.trans h)).1
  exact named_smallSchema table

theorem namesTexts_busy : busy.NamesTexts := by
  intro table s t s' h
  by_cases htable : table = "a"
  · subst htable
    obtain rfl := Except.ok.inj (Prod.mk.inj ((execute_discover_busy s).symm.trans h)).1
    exact named_smallSchema "a"
  · have hscan : busy.backend (.tableScan (.text table) [] (.int 1)) =
        quiet.backend (.tableScan (.text table) [] (.int 1)) := by
      simp [busy, quiet, htable]
    refine namesTexts_quiet table s t s' ?_
    rw [← h]
    unfold discover introspect
    rw [hscan]
    rfl

/-- The backend calls for the schema of the other table, or only answers. -/
theorem reentrant_busy : busy.Reentrant := by
  have hanswers : ∀ s, busy.Passes s s := fun s => ⟨[], .untouched (.refl busy s)⟩
  have hcalls : ∀ s, busy.Passes s ((busy.schema (.text "b") true).execute s).2 := by
    intro s
    by_cases hfree : busy.IsFree "b" s
    · have inner : busy.Course [] (busy.opened "b" s) []
          ((busy.discover (.text "b")).execute (busy.opened "b" s)).2 := by
        rw [execute_discover_quiet]
        exact .untouched (.refl busy _)
      cases hrun : ((busy.schema (.text "b") true).execute s).1 with
      | error f => exact ⟨_, .refused hfree (.inl rfl) inner hrun⟩
      | ok t =>
        obtain ⟨-, ⟨hknown, -⟩ | ⟨-, s₁, catalog, -, hdiscover, hload, -⟩⟩ :=
          execute_schema_eq_ok (Prod.ext hrun rfl)
        · exact absurd (.inl rfl) hknown
        · exact ⟨_, .refreshed hfree (.inl rfl) inner (by rw [hdiscover]; exact hload) hrun⟩
    · rw [schema, busy.execute_locked_held hfree]
      exact hanswers s
  intro operation s
  by_cases hscan : ∃ columns limit, operation = .tableScan (.text "a") columns limit
  · obtain ⟨columns, limit, rfl⟩ := hscan
    exact hcalls s
  · have hbackend : busy.backend operation = return smallAnswer := by
      dsimp only [busy]
      split
      · exact absurd ⟨_, _, rfl⟩ hscan
      · rfl
    rw [hbackend]
    exact hanswers s

/-- Both calls succeed; while the second runs the other table is listed. -/
theorem exists_execute_catalog_half {s : Site Unit} (hload : busy.loadAt s = .ok half)
    (hunused : s.memories = []) (hpresent : s.folder.isSome = true)
    (hfile : s.folder.entry? busy.place.name ≠ some .folder) :
    (∃ s', (quiet.catalog false).execute s = (.ok (half.put (smallSchema "a")), s')) ∧
      ∃ s', (busy.catalog false).execute s =
        (.ok ((half.put (smallSchema "b")).put (smallSchema "a")), s') := by
  have hmemory : busy.memoryAt s = {} := by
    rw [memoryAt, hunused]
    rfl
  have hfree : busy.IsFree "a" s := by simp [IsFree, hmemory]
  have hfree' : busy.IsFree "b" (busy.opened "a" s) := by
    simp [IsFree, opened, counted, entered, hmemory]
  constructor
  · have hdiscover : (quiet.discover (.text "a")).execute (quiet.opened "a" s) =
        (.ok (smallSchema "a"), quiet.opened "a" s) := rfl
    exact exists_execute_catalog hload named_half lacking_half hfree hdiscover hload named_half
      (named_smallSchema "a") hpresent hfile
  · have hopened : busy.loadAt (busy.opened "a" s) = .ok half := hload
    have hasked : busy.Discovers "b" true (busy.opened "a" s) := .inl rfl
    obtain ⟨folder, hsave, hinner⟩ := exists_execute_schema hfree' hasked
      (execute_discover_quiet _) hopened named_half (named_smallSchema "b") hpresent hfile
    have hdiscover := execute_discover_busy (busy.opened "a" s)
    rw [hinner] at hdiscover
    have hn := named_half.put (named_smallSchema "b")
    have hstored := Folder.load_save hn (coherent_half.put (named_smallSchema "b").table) hsave
    obtain ⟨hpresent', hfile'⟩ := Folder.ready_of_save hsave hpresent
    exact exists_execute_catalog hload named_half lacking_half hfree hdiscover hstored hn
      (named_smallSchema "a") hpresent' hfile'

theorem catalog_adds_lacking_half :
    (∃ s s' catalog found, quiet.loadAt s = .ok half ∧
        (quiet.catalog false).execute s = (.ok catalog, s') ∧ quiet.loadAt s' = .ok catalog ∧
          keys found = [.text "a"] ∧ catalog = ⟨half.tables, half.schemas ++ found⟩) ∧
      ∃ s s' catalog, busy.loadAt s = .ok half ∧
        (busy.catalog false).execute s = (.ok catalog, s') ∧ .text "b" ∈ catalog.tables ∧
          catalog.Full := by
  obtain ⟨s, hload, hunused, hpresent, hfile⟩ := exists_half
  obtain ⟨⟨s₁, hquiet⟩, s₂, hbusy⟩ := exists_execute_catalog_half hload hunused hpresent hfile
  have hlisted : half.tables ≠ [] := List.cons_ne_nil _ _
  obtain ⟨hstored, -, halone, -⟩ :=
    catalog_adds_lacking namesTexts_quiet hload hlisted named_half hquiet
  obtain ⟨found, -, hkeys, hcatalog⟩ := halone fun _ => .pure _
  obtain ⟨-, -, -, hfull⟩ := catalog_adds_lacking namesTexts_busy hload hlisted named_half hbusy
  refine ⟨⟨s, s₁, _, found, hload, hquiet, hstored, hkeys, hcatalog⟩,
    s, s₂, _, hload, hbusy, ?_, hfull (.inl reentrant_busy)⟩
  exact (Catalog.mem_tables_put rfl).2 (.inl ((Catalog.mem_tables_put rfl).2 (.inr rfl)))

end Cache

end RowAccess
