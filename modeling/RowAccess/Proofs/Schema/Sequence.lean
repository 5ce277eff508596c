import RowAccess.Proofs.Schema.Run
import RowAccess.Proofs.Schema.Survey

/-
  RowAccess/Proofs/Schema/Sequence.lean
  =====================================
  **Caches used one after another are one map.**  Caches that share a file, each with its own locks
  and generations, answer every sequence of calls as a register does, and after every call the file
  holds the register (`Cache.sights_eq_register`).  Generations are private to a cache, but all that
  a cache has persisted is older than a rebuild it starts, so a rebuild takes over nothing from
  disk.
-/

namespace RowAccess

open Keyed

namespace Cache

variable {σ α : Type} {c : Cache σ} {p : Place} {start : Folder}

/-! ## Calls -/

/-- Does an execution at a site agree with a step over a register, and change no lock and no memory
of another cache? -/
structure Agrees (c : Cache σ) (p : Place) (start : Folder) (s : Site σ)
    (done : Except Fault α × Site σ) (step : Except Fault α × Register σ) : Prop where
  outcome : done.1 = step.1
  outside : done.2.outside = step.2.outside
  holds : Folder.Holds p start step.2.known done.2.folder
  held : (c.memoryAt done.2).held = (c.memoryAt s).held
  others : ∀ d : Cache σ, d.id ≠ c.id → d.memoryAt done.2 = d.memoryAt s

section Steps

variable (hc : c.Detached) (hname : c.place.name = p.name) (hstart : start.entry? p.name = none)
  {s : Site σ} {r : Register σ} (houtside : s.outside = r.outside)
  (hholds : Folder.Holds p start r.known s.folder)

include hname hstart houtside hholds

/-- Writing the known schemas agrees with the register's step, whatever is remembered then. -/
theorem agrees_commit {s₀ : Site σ} (hcounts : c.Counts s₀ s)
    {known : Keyed Value TableSchema} (hn : (Catalog.ofKnown known).Named)
    (hcoherent : (Catalog.ofKnown known).Coherent) (a : α)
    (persisted : Keyed Value Nat → Keyed Value Nat) :
    Agrees c p start s₀
      (Action.execute (do
        c.save (.ofKnown known)
        c.remember fun m => { m with persisted := persisted m.persisted }
        return a) s)
      (Register.execute (do
        Register.commit (start.writing c.place) known
        return a) r) := by
  obtain ⟨outcome, r', hcommit, houtcome, houtside', hholds'⟩ :=
    hholds.commit (q := c.place) hstart hname hn hcoherent
  rw [Action.execute_bind, execute_save, Register.execute_bind, hcommit]
  generalize Folder.save c.place _ s.folder = saved at houtcome hholds' ⊢
  obtain ⟨saving, folder⟩ := saved
  subst houtcome
  have hmemory : ∀ d : Cache σ, d.memoryAt { s with folder := folder } = d.memoryAt s :=
    fun d => d.memoryAt_congr rfl
  have hagree := houtside.trans houtside'.symm
  cases saving with
  | error f =>
    refine ⟨rfl, hagree, hholds', ?_, ?_⟩
    · exact (congrArg Memory.held (hmemory c)).trans hcounts.held
    · exact fun d hd => (hmemory d).trans (hcounts.others d hd)
  | ok u =>
    let change : Memory → Memory := fun m => { m with persisted := persisted m.persisted }
    refine ⟨rfl, hagree, hholds', ?_, ?_⟩
    · show (c.memoryAt (c.changed change { s with folder := folder })).held = _
      rw [memoryAt_changed, hmemory]
      exact hcounts.held
    · intro d hd
      show d.memoryAt (c.changed change { s with folder := folder }) = _
      rw [memoryAt_changed_of_ne hd, hmemory]
      exact hcounts.others d hd

include hc

theorem agrees_refresh (table : String) :
    Agrees c p start s ((c.refresh (.text table)).execute s)
      (Register.execute (Register.refresh start.writing c table) r) := by
  have hdiscover := hc.outward.discover (.text table) (c.counted s)
  rw [show (c.counted s).outside = r.outside from houtside] at hdiscover
  rw [refresh, Action.execute_bind, execute_nextGeneration, Register.refresh,
    Register.execute_bind, Register.execute_ask]
  dsimp only
  rw [Action.execute_bind, hdiscover]
  rcases hfound : (c.discover (.text table)).outer r.outside with ⟨f | t, o⟩
  · have hcounts := counts_counted (c := c) s o
    exact ⟨rfl, rfl, hholds, hcounts.held, hcounts.others⟩
  · have hok : ((c.discover (.text table)).outer r.outside).1 = .ok t := by rw [hfound]
    have ht : t.name = .text table := name_of_outer hok
    have hnamed : t.Named := hc.schemas table _ t hok
    have hload : c.loadAt { c.counted s with outside := o } = .ok (.ofKnown r.known) :=
      Folder.load_of_name hname hholds.stored
    have hput := Catalog.put_ofKnown r.known hnamed.table
    have hn := hholds.named.put hnamed
    have hcoherent := hholds.coherent.put hnamed.table
    rw [hput] at hn hcoherent
    have hcounts := counts_counted (c := c) s o
    dsimp only
    rw [Action.execute_bind, execute_load, hload]
    dsimp only
    rw [hput, ← ht, Register.execute_bind, Register.execute_get]
    exact agrees_commit (s := { c.counted s with outside := o }) (r := { r with outside := o })
      hname hstart rfl hholds hcounts hn hcoherent t (put · t.name (c.memoryAt s).next)

/-- A call for a schema takes the lock of its table and leaves it. -/
theorem agrees_schema (hheld : (c.memoryAt s).held = []) (table : String) (overwrite : Bool) :
    Agrees c p start s ((c.schema (.text table) overwrite).execute s)
      (Register.execute (Register.schema start.writing c table overwrite) r) := by
  have hfree : c.IsFree table s := by
    rw [IsFree, hheld]
    exact List.not_mem_nil
  have hrefresh : Agrees c p start (c.entered table s)
      ((c.refresh (.text table)).execute (c.entered table s))
      (Register.execute (Register.refresh start.writing c table) r) :=
    agrees_refresh (s := c.entered table s) hc hname hstart houtside hholds table
  -- What agrees under the lock agrees once the lock is left.
  have hleft : ∀ (act : Action σ TableSchema) (step : Register.Transaction σ TableSchema),
      Agrees c p start (c.entered table s) (act.execute (c.entered table s))
          (Register.execute step r) →
        Agrees c p start s ((c.locked (.text table) act).execute s) (Register.execute step r) := by
    intro act step h
    rw [c.execute_locked hfree]
    refine ⟨h.outcome, h.outside, h.holds, ?_, ?_⟩
    · show (c.memoryAt (c.left table _)).held = _
      rw [left, memoryAt_changed]
      show (c.memoryAt (act.execute (c.entered table s)).2).held.filter _ = _
      rw [h.held, entered, memoryAt_changed]
      exact filter_held hfree
    · intro d hd
      show d.memoryAt (c.left table _) = _
      rw [left, memoryAt_changed_of_ne hd, h.others d hd, entered, memoryAt_changed_of_ne hd]
  unfold schema Register.schema
  cases overwrite with
  | true => exact hleft _ _ hrefresh
  | false =>
    refine hleft _ _ ?_
    have hload : c.loadAt (c.entered table s) = .ok (.ofKnown r.known) :=
      Folder.load_of_name hname hholds.stored
    simp only [Bool.false_eq_true, if_false]
    rw [Action.execute_bind, execute_load, hload, Register.execute_bind, Register.execute_get]
    dsimp only
    rw [show (Catalog.ofKnown r.known).get? (.text table) = find? r.known (.text table) from rfl]
    cases find? r.known (.text table) with
    | none => exact hrefresh
    | some t => exact ⟨rfl, houtside, hholds, rfl, fun _ _ => rfl⟩

omit hc houtside in
/-- What a rebuild found goes into the file, and nothing that was there stays. -/
theorem agrees_merge {s₁ : Site σ} (hcounts : c.Counts s s₁) (hordered : c.Ordered s)
    {own : Keyed Value Discovery} {generation : Nat} (hnow : (c.memoryAt s).next ≤ generation)
    (hlater : ∀ e ∈ own, generation ≤ e.2.generation) (hdistinct : (keys own).Nodup)
    (hnamed : ∀ e ∈ own, e.2.schema.Named ∧ e.2.schema.name = e.1) :
    Agrees c p start s
      (Action.execute (do
        let onDisk ← c.load
        let persisted := (← c.memory).persisted
        let (merged, replaced) := mergeFound onDisk persisted own (⟨keys own, []⟩, [])
        let catalog := keepNew onDisk persisted own (c.memoryAt s).next merged
        c.save catalog
        c.remember fun m => { m with persisted := Keyed.putAll m.persisted replaced }
        return catalog) s₁)
      (Register.execute (do
        Register.commit (start.writing c.place) (own.map fun e => (e.1, e.2.schema))
        return .ofKnown (own.map fun e => (e.1, e.2.schema)))
        { r with outside := s₁.outside }) := by
  have hload : c.loadAt s₁ = .ok (.ofKnown r.known) := by
    rw [loadAt, hcounts.folder]
    exact Folder.load_of_name hname hholds.stored
  have hfolder : Folder.Holds p start r.known s₁.folder := by
    rw [hcounts.folder]
    exact hholds
  -- All that the cache has persisted is older than the generation the rebuild started with.
  have hmerged := keepNew_merged (c.memoryAt s₁).persisted (c.memoryAt s).next hholds.named
    (by rw [hcounts.persisted]; exact hordered)
    (fun e he => Nat.le_trans hnow (hlater e he)) hdistinct hnamed
  have hknown : ∀ e ∈ own.map fun e => (e.1, e.2.schema), e.2.Named ∧ e.2.name = e.1 := by
    intro e he
    obtain ⟨d, hd, rfl⟩ := List.mem_map.1 he
    exact hnamed d hd
  have hkeys : keys (own.map fun e => (e.1, e.2.schema)) = keys own :=
    keys_map_values own fun _ d => d.schema
  have hn := Catalog.named_ofKnown hknown
  have hcoherent := Catalog.coherent_ofKnown (by rwa [hkeys]) fun e he => (hknown e he).2
  rw [Action.execute_bind, execute_load, hload]
  dsimp only
  rw [Action.execute_bind, execute_memory]
  dsimp only
  rw [← merged, hmerged]
  exact agrees_commit (r := { r with outside := s₁.outside }) hname hstart rfl hfolder hcounts
    hn hcoherent _ (putAll · _)

/-- A rebuild starts after all that the cache has persisted. -/
theorem agrees_rebuild (hheld : (c.memoryAt s).held = []) (hordered : c.Ordered s) :
    Agrees c p start s (c.rebuild.execute s)
      (Register.execute (Register.rebuild start.writing c) r) := by
  have hcounts := counts_counted (c := c) s
  have hnames := execute_tableNames hc.outward (c.counted s)
  rw [show (c.counted s).outside = r.outside from houtside] at hnames
  rw [rebuild, Action.execute_bind, execute_nextGeneration, Register.rebuild,
    Register.execute_bind, Register.execute_ask, outer_survey hc.outward]
  dsimp only
  rw [Action.execute_bind, hnames]
  rcases henumerated : c.enumerated.outer r.outside with ⟨f | names, o⟩
  · exact ⟨rfl, rfl, hholds, (hcounts o).held, (hcounts o).others⟩
  have htext : ∀ v ∈ names, v.isText = true := hc.tables r.outside names (by rw [henumerated])
  obtain ⟨hdistinct, htexts⟩ := nodup_eraseDups htext
  obtain ⟨outcome, s₁, hrediscovered, houtside₁, hcounts₁, hfinds⟩ :=
    execute_rediscoverAll hc.outward htexts [] (by simpa [keys] using hdistinct)
      (s := { c.counted s with outside := o }) ((hcounts o).held.trans hheld)
  have hcounts' := (hcounts o).trans hcounts₁
  dsimp only [Except.map]
  rw [Catalog.foldl_list_nil htext, Action.execute_bind, hrediscovered]
  rcases hdiscovered : (c.discoverAll names.eraseDups).outer o with ⟨f | found, o₁⟩
  · rw [hdiscovered] at hfinds houtside₁
    obtain rfl := houtside₁
    cases hfinds with
    | failed f =>
      refine ⟨rfl, rfl, ?_, hcounts'.held, hcounts'.others⟩
      show Folder.Holds p start r.known s₁.folder
      rw [hcounts'.folder]
      exact hholds
  · have hok : ((c.discoverAll names.eraseDups).outer o).1 = .ok found := by rw [hdiscovered]
    obtain ⟨hkeys, hnamed⟩ := found_discoverAll hc htexts hok
    rw [hdiscovered] at hfinds houtside₁
    obtain rfl := houtside₁
    cases hfinds with
    | found own later =>
      rw [keys_map_values own fun _ d => d.schema] at hkeys
      dsimp only
      rw [← hkeys, List.nil_append]
      exact agrees_merge hname hstart hholds hcounts' hordered (hcounts o).next_le later
        (by rwa [hkeys]) fun e he => hnamed _ (List.mem_map.2 ⟨e, he, rfl⟩)

theorem agrees_catalog (hheld : (c.memoryAt s).held = []) (hordered : c.Ordered s)
    (overwrite : Bool) :
    Agrees c p start s ((c.catalog overwrite).execute s)
      (Register.execute (Register.catalog start.writing c overwrite) r) := by
  have hrebuild := agrees_rebuild hc hname hstart houtside hholds hheld hordered
  rw [Register.catalog, Register.execute_bind, Register.execute_get]
  unfold catalog
  dsimp only
  cases overwrite with
  | true => exact hrebuild
  | false =>
    have hload : c.loadAt s = .ok (.ofKnown r.known) := Folder.load_of_name hname hholds.stored
    have hempty : (Catalog.ofKnown r.known).tables.isEmpty = r.known.isEmpty := by
      simp [Catalog.ofKnown, keys]
    simp only [Bool.false_eq_true, if_false, Bool.false_or]
    rw [Action.execute_bind, execute_load, hload]
    dsimp only
    rw [hempty]
    cases r.known.isEmpty with
    | true => exact hrebuild
    | false =>
      simp only [Bool.false_eq_true, if_false, Catalog.missing_ofKnown hholds.named]
      exact ⟨rfl, houtside, hholds, rfl, fun _ _ => rfl⟩

theorem agrees_answer (hheld : (c.memoryAt s).held = []) (hordered : c.Ordered s) (call : Call) :
    Agrees c p start s ((c.answer call).execute s)
      (Register.execute (Register.answer start.writing c call) r) := by
  have hmap : ∀ {α : Type} (act : Action σ α) (step : Register.Transaction σ α) (f : α → Answer),
      Agrees c p start s (act.execute s) (Register.execute step r) →
        Agrees c p start s (Action.execute (do return f (← act)) s)
          (Register.execute (do return f (← step)) r) := by
    intro α act step f h
    rw [Action.execute_bind, Register.execute_bind]
    generalize act.execute s = done at h
    generalize Register.execute step r = stepped at h
    obtain ⟨outcome, s'⟩ := done
    obtain ⟨outcome', r'⟩ := stepped
    obtain rfl : outcome = outcome' := h.outcome
    cases outcome with
    | error f => exact ⟨rfl, h.outside, h.holds, h.held, h.others⟩
    | ok a => exact ⟨rfl, h.outside, h.holds, h.held, h.others⟩
  cases call with
  | schema table overwrite =>
    exact hmap _ _ _ (agrees_schema hc hname hstart houtside hholds hheld table overwrite)
  | catalog overwrite =>
    exact hmap _ _ _ (agrees_catalog hc hname hstart houtside hholds hheld hordered overwrite)

end Steps

/-! ## Runs -/

/-- Does a site hold what a register does, and is every cache idle? -/
structure Follows (p : Place) (start : Folder) (s : Site σ) (r : Register σ) : Prop where
  outside : s.outside = r.outside
  holds : Folder.Holds p start r.known s.folder
  held : ∀ c : Cache σ, (c.memoryAt s).held = []
  ordered : ∀ c : Cache σ, c.Ordered s

/-- A backend that works outside gives out no generation. -/
theorem Outward.covers_grows (h : c.Outward) : c.Covers c.Grows where
  refl := fun _ => grows_of_memory rfl
  trans := fun _ _ _ h h' => ⟨Nat.le_trans h.1 h'.1, fun hordered => h'.2 (h.2 hordered)⟩
  backend := by
    intro operation s
    refine grows_of_memory (c.memoryAt_congr ?_)
    show ((c.backend operation).execute s).2.memories = _
    rw [h operation s]

theorem Outward.grows_answer (h : c.Outward) (call : Call) :
    Stateful.Spans c.Grows (c.answer call) := by
  have hcovers := h.covers_grows
  cases call with
  | schema table overwrite =>
    exact .bind hcovers.trans (hcovers.schema (.text table) overwrite) fun _ => .pure hcovers.refl _
  | catalog overwrite =>
    exact .bind hcovers.trans (hcovers.catalog overwrite) fun _ => .pure hcovers.refl _

theorem Follows.answer {s : Site σ} {r : Register σ} (h : Follows p start s r)
    (hstart : start.entry? p.name = none) (hc : c.Detached) (hname : c.place.name = p.name)
    (call : Call) :
    ((c.answer call).execute s).1 = (Register.execute (Register.answer start.writing c call) r).1 ∧
      Follows p start ((c.answer call).execute s).2
        (Register.execute (Register.answer start.writing c call) r).2 := by
  have hagrees := agrees_answer hc hname hstart h.outside h.holds (h.held c) (h.ordered c) call
  have hgrows := hc.outward.grows_answer call s
  refine ⟨hagrees.outcome, hagrees.outside, hagrees.holds, ?_, ?_⟩
  · intro d
    by_cases hd : d.id = c.id
    · have hsame : ∀ s, d.memoryAt s = c.memoryAt s := by
        intro s
        rw [memoryAt, hd, memoryAt]
      rw [hsame, hagrees.held, h.held]
    · rw [hagrees.others d hd, h.held]
  · intro d
    by_cases hd : d.id = c.id
    · have hsame : ∀ s, d.Ordered s ↔ c.Ordered s := by
        intro s
        rw [Ordered, memoryAt, hd, Ordered, memoryAt]
      exact (hsame _).2 (hgrows.2 (h.ordered c))
    · unfold Ordered
      rw [hagrees.others d hd]
      exact h.ordered d

theorem sights_cons (call : Call) (rest : List (Cache σ × Call)) (s : Site σ) :
    sights p ((c, call) :: rest) s =
      ⟨((c.answer call).execute s).1, ((c.answer call).execute s).2.folder.load p,
        ((c.answer call).execute s).2.outside⟩ :: sights p rest ((c.answer call).execute s).2 := rfl

/-- **Caches used one after another are one map.**  Where no file is there at first and no cache has
been used, calls of caches that share the file are answered as over one register that is empty at
first: the same outcomes and faults, the same work of the backends, and after every call the file
holds the catalog of what the register knows. -/
theorem sights_eq_register (calls : List (Cache σ × Call)) {s : Site σ}
    (hfile : s.folder.entry? p.name = none) (hunused : s.memories = [])
    (hshared : ∀ e ∈ calls, e.1.place.name = p.name) (hbackends : ∀ e ∈ calls, e.1.Detached) :
    sights p calls s = Register.sights s.folder.writing calls ⟨[], s.outside⟩ := by
  have hgeneral : ∀ (calls : List (Cache σ × Call)) (s' : Site σ) (r : Register σ),
      Follows p s.folder s' r → (∀ e ∈ calls, e.1.place.name = p.name) →
        (∀ e ∈ calls, e.1.Detached) →
          sights p calls s' = Register.sights s.folder.writing calls r := by
    intro calls
    induction calls with
    | nil => exact fun _ _ _ _ _ => rfl
    | cons e rest ih =>
      obtain ⟨c, call⟩ := e
      intro s' r h hshared hbackends
      obtain ⟨houtcome, hfollows⟩ := h.answer hfile (hbackends _ List.mem_cons_self)
        (hshared _ List.mem_cons_self) call
      have hrest := ih _ _ hfollows (fun e he => hshared e (List.mem_cons_of_mem _ he))
        fun e he => hbackends e (List.mem_cons_of_mem _ he)
      rw [sights_cons, Register.sights_cons, hrest, houtcome, hfollows.holds.stored,
        hfollows.outside]
  have hmemory : ∀ c : Cache σ, c.memoryAt s = {} := by
    intro c
    rw [memoryAt, hunused]
    rfl
  refine hgeneral calls s ⟨[], s.outside⟩ ⟨rfl, Folder.holds_start hfile, ?_, ?_⟩ hshared hbackends
  · intro c
    rw [hmemory]
  · exact fun c => ordered_new (hmemory c)

/-! ## A small run -/

/-- Caches of one file over a backend that counts the operations and fails at one of them. -/
def flaky (id : Nat) : Cache Nat where
  config := smallConfig
  place := ⟨"c", "", "c", "t"⟩
  backend := fun _ => do
    let s ← get
    set { s with outside := s.outside + 1 }
    if s.outside = 4 then throw (.backend "down") else return smallAnswer
  id := id

theorem execute_backend_flaky (id : Nat) (operation : Operation) (s : Site Nat) :
    ((flaky id).backend operation).execute s =
      (if s.outside = 4 then .error (.backend "down") else .ok smallAnswer,
        { s with outside := s.outside + 1 }) := by
  by_cases h : s.outside = 4
  · rw [if_pos h]
    show Action.execute (if s.outside = 4 then _ else _) _ = _
    rw [if_pos h]
    rfl
  · rw [if_neg h]
    show Action.execute (if s.outside = 4 then _ else _) _ = _
    rw [if_neg h]
    rfl

/-- What a flaky backend is asked, it answers always the same or not at all. -/
theorem answer_of_flaky {id : Nat} {operation : Operation} {other : String → Fault} {v : Value}
    {s s' : Site Nat}
    (h : (((flaky id).backend operation).onBackendFault other).execute s = (.ok v, s')) :
    v = smallAnswer := by
  obtain ⟨outcome, s₁, hbackend, h⟩ := Action.execute_bind_eq_ok_iff.1 h
  rw [Action.execute_outcome, execute_backend_flaky] at hbackend
  obtain ⟨houtcome, -⟩ := Prod.mk.inj hbackend
  obtain rfl := Except.ok.inj houtcome
  by_cases hdown : s.outside = 4
  · simp only [hdown, if_true] at h
    cases h
  · simp only [hdown, if_false] at h
    exact (Except.ok.inj (Prod.mk.inj h).1).symm

theorem detached_flaky (id : Nat) : (flaky id).Detached := by
  refine ⟨?_, ?_, ?_⟩
  · intro operation s
    rw [Action.outer, execute_backend_flaky, execute_backend_flaky]
  · intro o names h
    obtain ⟨s', henumerated⟩ := Action.exists_execute_of_outer h
    obtain ⟨tables, s₁, htables, hviews⟩ := Action.execute_bind_eq_ok_iff.1 henumerated
    obtain ⟨rows, s₂, hrows, hnames⟩ := Action.execute_bind_eq_ok_iff.1 htables
    obtain rfl := answer_of_flaky hrows
    cases hnames
    cases hviews
    simp [Value.isText]
  · intro table o t h
    obtain ⟨s', hdiscover⟩ := Action.exists_execute_of_outer h
    obtain ⟨rows, s₁, hrows, hdiscover⟩ := Action.execute_bind_eq_ok_iff.1 hdiscover
    obtain rfl := answer_of_flaky hrows
    obtain ⟨idColumn, s₂, hkey, hdiscover⟩ := Action.execute_bind_eq_ok_iff.1 hdiscover
    obtain ⟨rows, s₃, hrows, hkey⟩ := Action.execute_bind_eq_ok_iff.1 hkey
    obtain rfl := answer_of_flaky hrows
    cases hkey
    obtain ⟨samples, s₄, hsamples, hdiscover⟩ := Action.execute_bind_eq_ok_iff.1 hdiscover
    obtain rfl := answer_of_flaky hsamples
    cases hdiscover
    exact named_smallSchema table

def smallCalls : List (Cache Nat × Call) :=
  [(flaky 0, .schema "b" false), (flaky 1, .schema "a" false), (flaky 1, .catalog false),
    (flaky 0, .catalog true), (flaky 1, .schema "b" true)]

/-- The names of the tables that can be loaded after each call. -/
def storedNames (sights : List (Sight Nat)) : List (Option (List (Option String))) :=
  sights.map fun sight => sight.stored.toOption.map fun c => c.tables.map Value.text?

theorem sights_eq_register_flaky :
    sights ⟨"c", "", "c", "t"⟩ smallCalls ⟨some [], [], 0⟩ =
        Register.sights (Folder.writing (some [])) smallCalls ⟨[], 0⟩ ∧
      storedNames (sights ⟨"c", "", "c", "t"⟩ smallCalls ⟨some [], [], 0⟩) =
        [some [some "b"], some [some "b"], some [some "b"], some [some "a"],
          some [some "a", some "b"]] := by
  have h := sights_eq_register (p := ⟨"c", "", "c", "t"⟩) smallCalls (s := ⟨some [], [], 0⟩) rfl rfl
    (by simp [smallCalls, flaky]) (by simp [smallCalls, detached_flaky])
  refine ⟨h, ?_⟩
  rw [h]
  decide +kernel

end Cache

end RowAccess
