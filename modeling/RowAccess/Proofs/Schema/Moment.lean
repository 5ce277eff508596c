import RowAccess.Proofs.Schema.Catalog

/-
  RowAccess/Proofs/Schema/Moment.lean
  ===================================
  **A catalog through its commits.**  A commit lists what it has found, keeps some of what was
  listed before, and lists nothing else.  So after a number of commits a table is listed if one of
  them found it and none after that left it out, or if it was listed at first and none left it out
  (`Moment.Leads.mem_tables_iff`).
-/

namespace RowAccess

/-! ## Commits -/

namespace Catalog

/-- Is the table listed without a schema? -/
def Bare (c : Catalog) (table : String) : Prop :=
  .text table ∈ c.tables ∧ c.get? (.text table) = none

/-- Does a commit list what was found, and nothing else but what was listed before?  No table loses
its schema by it. -/
structure Commits (before : Catalog) (found : List String) (after : Catalog) : Prop where
  listed : ∀ table ∈ found, .text table ∈ after.tables
  known : ∀ table, .text table ∈ after.tables → table ∈ found ∨ .text table ∈ before.tables
  bare : ∀ table, after.Bare table → before.Bare table

theorem commits_put (c : Catalog) {t : TableSchema} {table : String} (ht : t.name = .text table) :
    c.Commits [table] (c.put t) := by
  have htext : t.name.isText = true := by rw [ht]; rfl
  constructor
  · intro name hname
    rw [List.mem_singleton.1 hname, ← ht]
    exact (mem_tables_put htext).2 (.inr rfl)
  · intro name hname
    rcases (mem_tables_put htext).1 hname with hmem | heq
    · exact .inr hmem
    · rw [ht] at heq
      exact .inl (List.mem_singleton.2 (Value.text.inj heq))
  · rintro name ⟨hmem, hget⟩
    have hne : t.name ≠ .text name := by
      intro heq
      rw [← heq, get?_put htext] at hget
      cases hget
    rw [get?_put_of_ne htext hne] at hget
    exact ⟨((mem_tables_put htext).1 hmem).resolve_right fun heq => hne heq.symm, hget⟩

end Catalog

/-! ## Moments -/

/-- What is seen of calls: a rebuild starts, a discovery of a table starts, or a call commits a
catalog with what it has found. -/
inductive Moment where
  | rebuilds
  | discovers (table : String)
  | commits (found : List String) (catalog : Catalog)

namespace Moment

def Finds (table : String) : Moment → Prop
  | .commits found _ => table ∈ found
  | _ => False

/-- Is the table still listed then, if it was before? -/
def Keeps (table : String) : Moment → Prop
  | .commits _ catalog => .text table ∈ catalog.tables
  | _ => True

def Named : Moment → Prop
  | .commits _ catalog => catalog.Named
  | _ => True

/-- Does one of the moments find the table, and none after it drop it? -/
def Returns (table : String) (log : List Moment) : Prop :=
  ∃ before m after, log = before ++ m :: after ∧ m.Finds table ∧ ∀ m' ∈ after, m'.Keeps table

theorem returns_cons {table : String} {m : Moment} {log : List Moment} :
    Returns table (m :: log) ↔
      Returns table log ∨ m.Finds table ∧ ∀ m' ∈ log, m'.Keeps table := by
  constructor
  · rintro ⟨before, m', after, hlog, hfinds, hkeeps⟩
    cases before with
    | nil =>
      obtain ⟨rfl, rfl⟩ := List.cons.inj hlog
      exact .inr ⟨hfinds, hkeeps⟩
    | cons m₀ before =>
      obtain ⟨rfl, rfl⟩ := List.cons.inj hlog
      exact .inl ⟨before, m', after, rfl, hfinds, hkeeps⟩
  · rintro (⟨before, m', after, rfl, hfinds, hkeeps⟩ | ⟨hfinds, hkeeps⟩)
    · exact ⟨m :: before, m', after, rfl, hfinds, hkeeps⟩
    · exact ⟨[], m, log, rfl, hfinds, hkeeps⟩

/-- Does the catalog on disk go through the commits of a list of moments? -/
inductive Leads : Except Fault Catalog → List Moment → Except Fault Catalog → Prop
  | nil (stored : Except Fault Catalog) : Leads stored [] stored
  | rebuilds {stored stored' : Except Fault Catalog} {log : List Moment}
    (rest : Leads stored log stored') : Leads stored (.rebuilds :: log) stored'
  | discovers {stored stored' : Except Fault Catalog} {log : List Moment} (table : String)
    (rest : Leads stored log stored') : Leads stored (.discovers table :: log) stored'
  | commits {before after : Catalog} {found : List String} {stored' : Except Fault Catalog}
    {log : List Moment} (step : before.Commits found after)
    (rest : Leads (.ok after) log stored') :
    Leads (.ok before) (.commits found after :: log) stored'

namespace Leads

variable {stored stored' stored'' : Except Fault Catalog} {log log' : List Moment}

theorem append (h : Leads stored log stored') (h' : Leads stored' log' stored'') :
    Leads stored (log ++ log') stored'' := by
  induction h with
  | nil => exact h'
  | rebuilds _ ih => exact .rebuilds (ih h')
  | discovers table _ ih => exact .discovers table (ih h')
  | commits step _ ih => exact .commits step (ih h')

theorem named (h : Leads stored log stored') (hbefore : ∀ c, stored = .ok c → c.Named)
    (hlog : ∀ m ∈ log, m.Named) : ∀ c, stored' = .ok c → c.Named := by
  induction h with
  | nil => exact hbefore
  | rebuilds _ ih | discovers _ _ ih =>
    exact ih hbefore fun m hm => hlog m (List.mem_cons_of_mem _ hm)
  | commits _ _ ih =>
    refine ih ?_ fun m hm => hlog m (List.mem_cons_of_mem _ hm)
    intro c hc
    rw [← Except.ok.inj hc]
    exact hlog _ List.mem_cons_self

/-- After a commit the rest leads on from its catalog. -/
theorem of_commit {found : List String} {catalog : Catalog} {before after : List Moment}
    (h : Leads stored (before ++ .commits found catalog :: after) stored') :
    Leads (.ok catalog) after stored' := by
  induction before generalizing stored with
  | nil =>
    cases h with
    | commits _ rest => exact rest
  | cons m before ih =>
    cases h with
    | rebuilds rest => exact ih rest
    | discovers _ rest => exact ih rest
    | commits _ rest => exact ih rest

/-- A table is listed in the end if it is found and then kept, or if it was listed and is kept. -/
theorem mem_tables_iff {before after : Catalog} (h : Leads (.ok before) log (.ok after))
    (table : String) :
    .text table ∈ after.tables ↔
      Returns table log ∨ .text table ∈ before.tables ∧ ∀ m ∈ log, m.Keeps table := by
  generalize hstored : (.ok before : Except Fault Catalog) = stored at h
  generalize hstored' : (.ok after : Except Fault Catalog) = stored' at h
  induction h generalizing before with
  | nil =>
    obtain rfl := Except.ok.inj (hstored.trans hstored'.symm)
    simp [Returns]
  | rebuilds _ ih | discovers _ _ ih =>
    rw [ih hstored hstored', returns_cons]
    simp [Finds, Keeps]
  | @commits before' after' found _ log step _ ih =>
    obtain rfl := Except.ok.inj hstored
    have hmem : .text table ∈ after'.tables ↔
        table ∈ found ∨ .text table ∈ before.tables ∧ .text table ∈ after'.tables := by
      constructor
      · intro hafter
        exact (step.known table hafter).imp_right fun hbefore => ⟨hbefore, hafter⟩
      · rintro (hfound | ⟨-, hafter⟩)
        · exact step.listed table hfound
        · exact hafter
    rw [ih rfl hstored', returns_cons, hmem]
    simp only [Finds, Keeps, List.mem_cons, forall_eq_or_imp]
    grind

theorem bare {before after : Catalog} (h : Leads (.ok before) log (.ok after)) {table : String}
    (hbare : after.Bare table) : before.Bare table := by
  generalize hstored : (.ok before : Except Fault Catalog) = stored at h
  generalize hstored' : (.ok after : Except Fault Catalog) = stored' at h
  induction h generalizing before with
  | nil =>
    obtain rfl := Except.ok.inj (hstored.trans hstored'.symm)
    exact hbare
  | rebuilds _ ih | discovers _ _ ih => exact ih hstored hstored'
  | commits step _ ih =>
    obtain rfl := Except.ok.inj hstored
    exact step.bare table (ih rfl hstored')

end Leads

end Moment

end RowAccess
