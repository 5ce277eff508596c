import RowAccess.Proofs.Schema.Sequence

/-
  RowAccess/Proofs/Schema/Completeness.lean
  =========================================
  **When the catalog of all tables has them all.**  A file that is there is taken for the catalog of
  all tables, whoever wrote it.  Over an engine that does not change, a call for the catalog is
  given all its tables exactly if some call has listed them so far, or every one of them was asked
  for by name (`Cache.catalog_complete_iff`).  What was discovered for a single table is such a
  file.
-/

namespace RowAccess

open Keyed

namespace Cache

variable {σ : Type} {c : Cache σ} {names : List String}

/-! ## Engines that do not change -/

/-- Does the engine tell a schema of the table? -/
def Discoverable (c : Cache σ) (table : String) : Prop :=
  ∃ o t, ((c.discover (.text table)).outer o).1 = .ok t

/-- Does the engine report the same tables whenever it is asked, and tell the same of a table?  It
works outside and names tables and columns by texts, and it can tell of what it reports. -/
structure Steady (c : Cache σ) (names : List String) : Prop where
  outward : c.Outward
  reports : ∀ o, (c.enumerated.outer o).1 = .ok (names.map .text)
  tells : ∀ table o o', ((c.discover (.text table)).outer o).1 =
    ((c.discover (.text table)).outer o').1
  schemas : ∀ table o t, ((c.discover (.text table)).outer o).1 = .ok t → t.Named
  discoverable : ∀ name ∈ names, c.Discoverable name

namespace Steady

theorem detached (h : c.Steady names) : c.Detached where
  outward := h.outward
  tables := by
    intro o vs hvs v hv
    obtain rfl := Except.ok.inj ((h.reports o).symm.trans hvs)
    obtain ⟨name, -, rfl⟩ := List.mem_map.1 hv
    rfl
  schemas := h.schemas

theorem exists_discovered (h : c.Steady names) {table : String} (htable : c.Discoverable table)
    (o : σ) : ∃ t, ((c.discover (.text table)).outer o).1 = .ok t := by
  obtain ⟨o', t, ht⟩ := htable
  exact ⟨t, (h.tells table o o').trans ht⟩

theorem exists_discoverAll (h : c.Steady names) {tables : List Value}
    (htables : ∀ v ∈ tables, ∃ table, v = .text table ∧ c.Discoverable table) (o : σ) :
    ∃ found, ((c.discoverAll tables).outer o).1 = .ok found := by
  induction tables generalizing o with
  | nil => exact ⟨[], rfl⟩
  | cons v tables ih =>
    obtain ⟨table, rfl, htable⟩ := htables v List.mem_cons_self
    obtain ⟨t, ht⟩ := h.exists_discovered htable o
    rw [outer_discoverAll_cons h.outward]
    rcases hdiscover : (c.discover (.text table)).outer o with ⟨f | t', o'⟩
    · rw [hdiscover] at ht
      cases ht
    · obtain ⟨found, hfound⟩ := ih (fun w hw => htables w (List.mem_cons_of_mem _ hw)) o'
      exact ⟨(.text table, t') :: found, by simp only [hfound, Except.map]⟩

/-- A survey succeeds and finds the reported tables. -/
theorem exists_survey (h : c.Steady names) (o : σ) :
    ∃ found, (c.survey.outer o).1 = .ok found ∧ (Catalog.ofKnown found).Named ∧
      ∀ v, v ∈ keys found ↔ ∃ name ∈ names, v = .text name := by
  have htext : ∀ v ∈ names.map Value.text, v.isText = true := by simp [Value.isText]
  have hmem : ∀ v, v ∈ (names.map Value.text).eraseDups ↔ ∃ name ∈ names, v = .text name := by
    intro v
    rw [← Catalog.foldl_list_nil htext, Catalog.mem_foldl_list htext]
    simp [eq_comm]
  have hreports := h.reports o
  rw [outer_survey h.outward]
  generalize c.enumerated.outer o = reported at hreports ⊢
  obtain ⟨outcome, o'⟩ := reported
  subst hreports
  have hdiscoverable : ∀ v ∈ (names.map Value.text).eraseDups,
      ∃ table, v = .text table ∧ c.Discoverable table := by
    intro v hv
    obtain ⟨name, hname, rfl⟩ := (hmem v).1 hv
    exact ⟨name, rfl, h.discoverable name hname⟩
  obtain ⟨found, hfound⟩ := h.exists_discoverAll hdiscoverable o'
  obtain ⟨hkeys, hnamed⟩ := found_discoverAll h.detached (nodup_eraseDups htext).2 hfound
  exact ⟨found, hfound, Catalog.named_ofKnown hnamed, fun v => by rw [hkeys, hmem]⟩

end Steady

/-! ## Steps over a register -/

section Steps

variable {p : Place} {start : Folder} {r : Register σ}

/-- Where there is a folder, and no file at first, known schemas are written. -/
theorem writing_eq_ok {q : Place} (hpresent : start.isSome = true)
    (hstart : start.entry? q.name = none) {known : Keyed Value TableSchema}
    (hn : (Catalog.ofKnown known).Named) : start.writing q (.ofKnown known) = .ok () := by
  obtain ⟨f, hsave⟩ := Folder.exists_save (p := q) hn hpresent
    (by rw [hstart]; exact Option.some_ne_none _ |>.symm)
  rw [Folder.writing, hsave]

variable (hc : c.Steady names) (hpresent : start.isSome = true)
  (hstart : start.entry? c.place.name = none)

include hc hpresent hstart

/-- A rebuild replaces what is known by the reported tables. -/
theorem Steady.exists_rebuild (r : Register σ) :
    ∃ r', Register.execute (Register.rebuild start.writing c) r = (.ok (.ofKnown r'.known), r') ∧
      ∀ v, v ∈ keys r'.known ↔ ∃ name ∈ names, v = .text name := by
  obtain ⟨found, hfound, hn, hkeys⟩ := hc.exists_survey r.outside
  rw [Register.rebuild, Register.execute_bind, Register.execute_ask]
  rcases hsurvey : c.survey.outer r.outside with ⟨f | found', o⟩
  · rw [hsurvey] at hfound
    cases hfound
  · rw [hsurvey] at hfound
    obtain rfl := Except.ok.inj hfound
    dsimp only
    rw [Register.execute_bind, Register.execute_commit, writing_eq_ok hpresent hstart hn]
    exact ⟨⟨found', o⟩, rfl, hkeys⟩

/-- A refresh adds the table if it can be discovered. -/
theorem Steady.mem_keys_refresh (hn : (Catalog.ofKnown r.known).Named) (table : String)
    (v : Value) :
    v ∈ keys (Register.execute (Register.refresh start.writing c table) r).2.known ↔
      v ∈ keys r.known ∨ v = .text table ∧ c.Discoverable table := by
  rw [Register.refresh, Register.execute_bind, Register.execute_ask]
  rcases hdiscover : (c.discover (.text table)).outer r.outside with ⟨f | t, o⟩
  · have hnot : ¬ c.Discoverable table := by
      intro htable
      obtain ⟨t, ht⟩ := hc.exists_discovered htable r.outside
      rw [hdiscover] at ht
      cases ht
    simp [hnot]
  · have hok : ((c.discover (.text table)).outer r.outside).1 = .ok t := by rw [hdiscover]
    have ht : t.name = .text table := name_of_outer hok
    have hnamed : t.Named := hc.schemas table _ t hok
    have hput := Catalog.put_ofKnown r.known hnamed.table
    have hn' := hn.put hnamed
    rw [hput] at hn'
    have hdiscoverable : c.Discoverable table := ⟨r.outside, t, hok⟩
    dsimp only
    rw [Register.execute_bind, Register.execute_get]
    dsimp only
    rw [Register.execute_bind, Register.execute_commit, ← ht,
      writing_eq_ok hpresent hstart hn']
    show v ∈ keys (put r.known t.name t) ↔ _
    rw [(Catalog.exact_of_isText hnamed.table).mem_keys_put]
    simp only [hdiscoverable, and_true]

theorem Steady.mem_keys_schema (hn : (Catalog.ofKnown r.known).Named) (table : String)
    (overwrite : Bool) (v : Value) :
    v ∈ keys (Register.execute (Register.schema start.writing c table overwrite) r).2.known ↔
      v ∈ keys r.known ∨ v = .text table ∧ c.Discoverable table := by
  have hrefresh := hc.mem_keys_refresh hpresent hstart hn table v
  unfold Register.schema
  cases overwrite with
  | true => exact hrefresh
  | false =>
    simp only [Bool.false_eq_true, if_false]
    rw [Register.execute_bind, Register.execute_get]
    dsimp only
    cases hfind : find? r.known (.text table) with
    | none => exact hrefresh
    | some t =>
      have hmem := (Value.exact_text table).mem_keys_of_find? hfind
      constructor
      · exact .inl
      · rintro (hv | ⟨rfl, -⟩)
        · exact hv
        · exact hmem

end Steps

/-! ## Runs of calls -/

/-- The site after calls, one after another, each of a cache of its own. -/
def after (calls : List (Cache σ × Call)) (s : Site σ) : Site σ :=
  calls.foldl (fun s e => ((e.1.answer e.2).execute s).2) s

/-- Does one of the calls list the tables of the engine?  A call for the catalog does where it has
to, or where the calls before it have asked for no table that can be discovered. -/
def Lists (calls : List (Cache σ × Call)) : Prop :=
  ∃ before c overwrite rest, calls = before ++ (c, .catalog overwrite) :: rest ∧
    (overwrite = true ∨ ∀ d table w, (d, .schema table w) ∈ before → ¬ d.Discoverable table)

theorem lists_concat (calls : List (Cache σ × Call)) (e : Cache σ × Call) :
    Lists (calls ++ [e]) ↔ Lists calls ∨ ∃ overwrite, e.2 = .catalog overwrite ∧
      (overwrite = true ∨ ∀ d table w, (d, .schema table w) ∈ calls → ¬ d.Discoverable table) := by
  constructor
  · rintro ⟨before, c, overwrite, rest, hcalls, hlists⟩
    rcases List.eq_nil_or_concat rest with rfl | ⟨rest, e', rfl⟩
    · obtain ⟨rfl, hlast⟩ := List.append_inj' hcalls rfl
      obtain rfl := List.head_eq_of_cons_eq hlast
      exact .inr ⟨overwrite, rfl, hlists⟩
    · rw [List.concat_eq_append, ← List.cons_append, ← List.append_assoc] at hcalls
      obtain ⟨rfl, -⟩ := List.append_inj' hcalls rfl
      exact .inl ⟨before, c, overwrite, rest, rfl, hlists⟩
  · rintro (⟨before, c, overwrite, rest, rfl, hlists⟩ | ⟨overwrite, he, hlists⟩)
    · exact ⟨before, c, overwrite, rest ++ [e], by simp, hlists⟩
    · exact ⟨calls, e.1, overwrite, [], by rw [← he], hlists⟩

/-- What a register knows after calls: all the reported tables once they were listed, and until then
those that were asked for and can be discovered. -/
structure Accounts (names : List String) (calls : List (Cache σ × Call)) (r : Register σ) :
    Prop where
  listed : Lists calls → ∀ name ∈ names, Value.text name ∈ keys r.known
  asked : ¬ Lists calls → ∀ v, v ∈ keys r.known ↔
    ∃ d table w, (d, .schema table w) ∈ calls ∧ d.Discoverable table ∧ v = .text table

theorem accounts_nil (o : σ) : Accounts names [] ⟨[], o⟩ := by
  refine ⟨?_, ?_⟩
  · rintro ⟨before, c, overwrite, rest, hcalls, -⟩
    simp at hcalls
  · intro _ v
    simp [keys]

section Accounts

variable {start : Folder} {r : Register σ} {calls : List (Cache σ × Call)}

theorem Accounts.concat_schema (h : Accounts names calls r) {r' : Register σ} {table : String}
    (overwrite : Bool)
    (hkeys : ∀ v, v ∈ keys r'.known ↔
      v ∈ keys r.known ∨ v = .text table ∧ c.Discoverable table) :
    Accounts names (calls ++ [(c, .schema table overwrite)]) r' := by
  have hlists : Lists (calls ++ [(c, .schema table overwrite)]) ↔ Lists calls := by
    rw [lists_concat]
    simp
  constructor
  · intro h' name hname
    exact (hkeys _).2 (.inl (h.listed (hlists.1 h') name hname))
  · intro hnot v
    rw [hkeys, h.asked (mt hlists.2 hnot)]
    constructor
    · rintro (⟨d, table', w, hmem, hd, rfl⟩ | ⟨rfl, hd⟩)
      · exact ⟨d, table', w, List.mem_append_left _ hmem, hd, rfl⟩
      · exact ⟨c, table, overwrite, by simp, hd, rfl⟩
    · rintro ⟨d, table', w, hmem, hd, rfl⟩
      rcases List.mem_append.1 hmem with hmem | hmem
      · exact .inl ⟨d, table', w, hmem, hd, rfl⟩
      · obtain ⟨rfl, hcall⟩ := Prod.mk.inj (List.mem_singleton.1 hmem)
        obtain ⟨rfl, -⟩ := Call.schema.inj hcall
        exact .inr ⟨rfl, hd⟩

/-- A call for the catalog lists the tables, or leaves what is known. -/
theorem Accounts.concat_catalog (h : Accounts names calls r) (hc : c.Steady names)
    (hpresent : start.isSome = true) (hstart : start.entry? c.place.name = none)
    (overwrite : Bool) :
    ∃ r', Register.execute (Register.catalog start.writing c overwrite) r =
        (.ok (.ofKnown r'.known), r') ∧
      Accounts names (calls ++ [(c, .catalog overwrite)]) r' := by
  rw [Register.catalog, Register.execute_bind, Register.execute_get]
  dsimp only
  split
  next hcond =>
    obtain ⟨r', hrebuild, hkeys⟩ := hc.exists_rebuild hpresent hstart r
    refine ⟨r', hrebuild, fun _ name hname => (hkeys _).2 ⟨name, hname, rfl⟩, ?_⟩
    intro hnot
    rw [lists_concat, not_or] at hnot
    refine absurd ⟨overwrite, rfl, ?_⟩ hnot.2
    rcases Bool.or_eq_true _ _ |>.mp hcond with hoverwrite | hempty
    · exact .inl hoverwrite
    · refine .inr fun d table w hmem hd => ?_
      have hknown := (h.asked hnot.1 _).2 ⟨d, table, w, hmem, hd, rfl⟩
      rw [List.isEmpty_iff.1 hempty] at hknown
      cases hknown
  next hcond =>
    rw [Bool.or_eq_true, not_or] at hcond
    obtain ⟨hoverwrite, hempty⟩ := hcond
    have hbefore : Lists (calls ++ [(c, .catalog overwrite)]) → Lists calls := by
      intro hlists
      refine Classical.byContradiction fun hnot => hempty ?_
      rcases (lists_concat _ _).1 hlists with hlists | ⟨overwrite', hcall, hcause⟩
      · exact absurd hlists hnot
      · obtain rfl := Call.catalog.inj hcall
        have hnone := hcause.resolve_left hoverwrite
        rw [List.isEmpty_iff, List.eq_nil_iff_forall_not_mem]
        intro e he
        obtain ⟨d, table, w, hmem, hd, -⟩ := (h.asked hnot e.1).1 (List.mem_map.2 ⟨e, he, rfl⟩)
        exact hnone d table w hmem hd
    refine ⟨r, rfl, fun hlists => h.listed (hbefore hlists), fun hnot v => ?_⟩
    rw [h.asked fun hlists => hnot ((lists_concat _ _).2 (.inl hlists))]
    simp

theorem Accounts.answer (h : Accounts names calls r) (hn : (Catalog.ofKnown r.known).Named)
    (hc : c.Steady names) (hpresent : start.isSome = true)
    (hstart : start.entry? c.place.name = none) (call : Call) :
    Accounts names (calls ++ [(c, call)])
      (Register.execute (Register.answer start.writing c call) r).2 := by
  cases call with
  | schema table overwrite =>
    refine h.concat_schema overwrite fun v => ?_
    rw [Register.answer, Register.execute_map]
    exact hc.mem_keys_schema hpresent hstart hn table overwrite v
  | catalog overwrite =>
    obtain ⟨r', hcatalog, haccounts⟩ := h.concat_catalog hc hpresent hstart overwrite
    rw [Register.answer, Register.execute_map, hcatalog]
    exact haccounts

end Accounts

/-- Where no cache has been used a register that is empty is followed. -/
theorem follows_start {p : Place} {s : Site σ} (hfile : s.folder.entry? p.name = none)
    (hunused : s.memories = []) : Follows p s.folder s ⟨[], s.outside⟩ := by
  have hmemory : ∀ c : Cache σ, c.memoryAt s = {} := by
    intro c
    rw [memoryAt, hunused]
    rfl
  refine ⟨rfl, Folder.holds_start hfile, ?_, fun c => ordered_new (hmemory c)⟩
  intro c
  rw [hmemory]

/-- After calls the caches hold a register that knows what the calls account for. -/
theorem exists_accounts {p : Place} (calls : List (Cache σ × Call)) {s : Site σ}
    (hpresent : s.folder.isSome = true) (hfile : s.folder.entry? p.name = none)
    (hunused : s.memories = []) (hshared : ∀ e ∈ calls, e.1.place.name = p.name)
    (hsteady : ∀ e ∈ calls, e.1.Steady names) :
    ∃ r, Follows p s.folder (after calls s) r ∧ Accounts names calls r := by
  have hgeneral : ∀ (rest done : List (Cache σ × Call)) (s' : Site σ) (r : Register σ),
      Follows p s.folder s' r → Accounts names done r → (∀ e ∈ rest, e.1.place.name = p.name) →
        (∀ e ∈ rest, e.1.Steady names) →
          ∃ r', Follows p s.folder (after rest s') r' ∧ Accounts names (done ++ rest) r' := by
    intro rest
    induction rest with
    | nil =>
      intro done s' r hfollows haccounts _ _
      exact ⟨r, hfollows, by rwa [List.append_nil]⟩
    | cons e rest ih =>
      obtain ⟨c, call⟩ := e
      intro done s' r hfollows haccounts hshared hsteady
      have hname : c.place.name = p.name := hshared _ List.mem_cons_self
      have hc : c.Steady names := hsteady _ List.mem_cons_self
      obtain ⟨r', hfollows', haccounts'⟩ := ih (done ++ [(c, call)]) _ _
        (hfollows.answer hfile hc.detached hname call).2
        (haccounts.answer hfollows.holds.named hc hpresent (by rw [hname]; exact hfile) call)
        (fun e he => hshared e (List.mem_cons_of_mem _ he))
        fun e he => hsteady e (List.mem_cons_of_mem _ he)
      exact ⟨r', hfollows', by simpa using haccounts'⟩
  exact hgeneral calls [] s _ (follows_start hfile hunused) (accounts_nil s.outside) hshared hsteady

/-- **When the catalog of all tables has them all.**  Over an engine that does not change, with no
file at first, a call for the catalog succeeds after any calls.  Its catalog lists every reported
table and has a schema for each exactly if one of the calls, the last included, has listed the
tables, or each of them was asked for by name before. -/
theorem catalog_complete_iff (calls : List (Cache σ × Call)) (overwrite : Bool) {s : Site σ}
    (hpresent : s.folder.isSome = true) (hfile : s.folder.entry? c.place.name = none)
    (hunused : s.memories = []) (hshared : ∀ e ∈ calls, e.1.place.name = c.place.name)
    (hsteady : ∀ e ∈ calls, e.1.Steady names) (hc : c.Steady names) :
    ∃ catalog, ((c.catalog overwrite).execute (after calls s)).1 = .ok catalog ∧
      ((∀ name ∈ names, .text name ∈ catalog.tables ∧ ∃ t, catalog.get? (.text name) = some t) ↔
        Lists (calls ++ [(c, .catalog overwrite)]) ∨
          ∀ name ∈ names, ∃ d w, (d, .schema name w) ∈ calls) := by
  obtain ⟨r, hfollows, haccounts⟩ := exists_accounts calls hpresent hfile hunused hshared hsteady
  have hagrees := agrees_catalog hc.detached rfl hfile hfollows.outside hfollows.holds
    (hfollows.held c) (hfollows.ordered c) overwrite
  obtain ⟨r', hcatalog, haccounts'⟩ := haccounts.concat_catalog hc hpresent hfile overwrite
  rw [hcatalog] at hagrees
  refine ⟨_, hagrees.outcome, ?_⟩
  have hget : ∀ name, (Value.text name ∈ (Catalog.ofKnown r'.known).tables ∧
      ∃ t, (Catalog.ofKnown r'.known).get? (.text name) = some t) ↔
        Value.text name ∈ keys r'.known :=
    fun name => ⟨fun h => h.1, fun h => ⟨h, (Value.exact_text name).exists_find? h⟩⟩
  simp only [hget]
  by_cases hlists : Lists (calls ++ [(c, .catalog overwrite)])
  · simp only [hlists, true_or, iff_true]
    exact haccounts'.listed hlists
  · simp only [hlists, false_or, haccounts'.asked hlists]
    constructor
    · intro h name hname
      obtain ⟨d, table, w, hmem, -, heq⟩ := h name hname
      obtain rfl := Value.text.inj heq
      exact ⟨d, w, by simpa using hmem⟩
    · intro h name hname
      obtain ⟨d, w, hmem⟩ := h name hname
      exact ⟨d, name, w, List.mem_append_left _ hmem,
        (hsteady _ hmem).discoverable name hname, rfl⟩

/-! ## A small run -/

/-- Caches of one file over an engine of two tables, which answers the same to everything. -/
def pair (id : Nat) : Cache Unit where
  config := smallConfig
  place := ⟨"c", "", "c", "t"⟩
  backend := fun _ => return .list (["a", "b"].map fun table =>
    .object [("TABLE_NAME", .text table), ("COLUMN_NAME", .text "id"), ("DATA_TYPE", .text "INT"),
      ("DATA_LENGTH", .null)])
  id := id

theorem outer_discover_pair (id : Nat) (table : String) (o : Unit) :
    (((pair id).discover (.text table)).outer o).1 = .ok (smallSchema table) := rfl

theorem steady_pair (id : Nat) : (pair id).Steady ["a", "b"] where
  outward := fun _ => .pure _
  reports := fun _ => rfl
  tells := fun _ _ _ => rfl
  schemas := by
    intro table o t ht
    obtain rfl := Except.ok.inj ((outer_discover_pair id table o).symm.trans ht)
    exact named_smallSchema table
  discoverable := fun name _ => ⟨(), smallSchema name, outer_discover_pair id name ()⟩

/-- Two caches have asked for one table each. -/
theorem catalog_complete_iff_pair :
    ∃ catalog, (((pair 0).catalog false).execute
        (after [(pair 0, .schema "a" false), (pair 1, .schema "b" true)] unused)).1 = .ok catalog ∧
      ∀ name ∈ ["a", "b"], .text name ∈ catalog.tables ∧
        ∃ t, catalog.get? (.text name) = some t := by
  obtain ⟨catalog, hcatalog, hcomplete⟩ := catalog_complete_iff (c := pair 0)
    [(pair 0, .schema "a" false), (pair 1, .schema "b" true)] false (s := unused) rfl rfl rfl
    (by simp [pair]) (by simp [steady_pair]) (steady_pair 0)
  refine ⟨catalog, hcatalog, hcomplete.2 (.inr ?_)⟩
  intro name hname
  simp only [List.mem_cons, List.not_mem_nil, or_false] at hname
  rcases hname with rfl | rfl
  · exact ⟨pair 0, false, by simp⟩
  · exact ⟨pair 1, true, by simp⟩

/-- The schema of one table is taken for the catalog of all. -/
theorem catalog_incomplete_pair :
    (pair 0).Steady ["a", "b"] ∧
      ∃ catalog, (((pair 0).catalog false).execute
          (after [(pair 0, .schema "a" false)] unused)).1 = .ok catalog ∧
        .text "b" ∉ catalog.tables ∧ catalog.get? (.text "b") = none := by
  have hfollows := ((follows_start (s := unused) rfl rfl).answer rfl (steady_pair 0).detached rfl
    (.schema "a" false)).2
  have hagrees := agrees_catalog (steady_pair 0).detached rfl rfl hfollows.outside hfollows.holds
    (hfollows.held (pair 0)) (hfollows.ordered (pair 0)) false
  have hlacks : Value.text "b" ∉ [Value.text "a"] := by simp
  exact ⟨steady_pair 0, .ofKnown [(.text "a", smallSchema "a")], hagrees.outcome, hlacks, rfl⟩

end Cache

end RowAccess
