import RowAccess.Proofs.Schema.Run
import RowAccess.Proofs.Sql.Database

/-
  RowAccess/Proofs/Sql/Discovery.lean
  ===================================
  **Discoveries leave the table as it is.**  All that the discovery of a schema sends to the database
  begins like a selection, and a selection only reads.  So a call for a schema keeps the table,
  whether it discovers the schema or not (`spans_schema`).
-/

namespace RowAccess.Sql

open Outcome

/-! ## Selections only read -/

theorem Command.items_of_isReading {c : Command} (hc : Grammar.IsReading c) {values : List Value}
    {t u : Items} {a : Answer} (h : c.run values t = .ok (u, a)) : u = t := by
  obtain ⟨-, h⟩ := Command.run_eq_ok h
  cases hc with
  | select q =>
    obtain ⟨answer, -, h⟩ := bind_eq_ok_iff.1 h
    cases h
    rfl
  | combine first others =>
    obtain ⟨answer, -, h⟩ := bind_eq_ok_iff.1 h
    cases h
    rfl

variable {backendSchema : Option String} {o : Operation} {d : Database}

/-- An operation whose statement only reads keeps the table, whether it succeeds or not. -/
theorem Database.items_run
    (h : ∀ s p u a, Statement.ofOperation backendSchema o = .ok s → s.prepared = .ok p →
      runStatement s p d.items = .ok (u, a) → u = d.items) :
    (d.run backendSchema o).2.items = d.items := by
  unfold Database.run
  split
  · rfl
  · next s hbuilt =>
    split
    · rfl
    · next p hprepared =>
      dsimp only
      split
      · rfl
      · next items answer hrun =>
        exact h s p items answer (Statement.ofOperation_of_built hbuilt) hprepared hrun

/-! ## Queries of the dialects -/

/-- Does a query of several lines begin with the word for a selection? -/
def IsSelection (text : String) : Prop :=
  ∃ cs, text.toList = "\n        SELECT".toList ++ ' ' :: cs

theorem isSelection_block {line : String}
    (h : ∃ cs, line.toList = "SELECT".toList ++ ' ' :: cs) (lines : List String) :
    IsSelection (Dialect.block (line :: lines)) := by
  obtain ⟨cs, hline⟩ := h
  simp only [IsSelection, Dialect.block, List.map_cons, String.toList_append, String.toList_join,
    List.flatMap_cons, List.append_assoc, hline]
  exact ⟨_, rfl⟩

theorem isSelection_columnsQuery {dialect : Dialect} (h : dialect = .oracle ∨ dialect = .mysql) :
    IsSelection dialect.columnsQuery := by
  rcases h with rfl | rfl
  · exact isSelection_block ⟨_, rfl⟩ _
  · exact isSelection_block ⟨_, rfl⟩ _

theorem isSelection_primaryKeyQuery {dialect : Dialect} (h : dialect = .oracle ∨ dialect = .mysql) :
    IsSelection dialect.primaryKeyQuery := by
  rcases h with rfl | rfl
  · exact isSelection_block ⟨_, rfl⟩ _
  · exact isSelection_block ⟨_, rfl⟩ _

/-- The parameters of a query stand behind the first word. -/
theorem exists_placeholders (cs : List Char) :
    ∃ rest, (placeholders ' ' ("\n        SELECT".toList ++ ' ' :: cs) 0).1 =
      "\n        SELECT".toList ++ ' ' :: rest :=
  ⟨_, rfl⟩

theorem lexes_selection (cs : List Char) :
    Lexes ("\n        SELECT".toList ++ ' ' :: cs) [⟨.word, "SELECT"⟩] (' ' :: cs) := rfl

theorem items_run_raw {text : String} (htext : IsSelection text) (parameters : Fields) :
    (d.run backendSchema (.raw text parameters)).2.items = d.items := by
  refine Database.items_run fun s p u a hs hprepared hrun => ?_
  obtain ⟨w, hw, hs⟩ := bind_eq_ok_iff.1 hs
  cases hs
  obtain ⟨values, -, hw⟩ := bind_eq_ok_iff.1 hw
  cases hw
  cases hprepared
  obtain ⟨cs, hcs⟩ := htext
  obtain ⟨rest, hrest⟩ := exists_placeholders cs
  have hfirst : Token.ofText (String.ofList (placeholders ' ' text.toList 0).1) =
      ⟨.word, "SELECT"⟩ :: Token.scan (' ' :: rest) 0 := by
    rw [Token.ofText, String.toList_ofList, hcs, hrest]
    exact lexes_selection rest
  unfold runStatement at hrun
  split at hrun
  · cases hrun
  · obtain ⟨understood, hread, -, hrun⟩ := runText_eq_ok hrun
    obtain ⟨r, hcommand⟩ := Grammar.read_eq_ok hread
    dsimp only at hcommand
    rw [hfirst] at hcommand
    have hreading := Grammar.isReading_command
      (r := ⟨[], 0, [], values.map fun v => (Cell.ofValue v).toOption.getD .null, none⟩) rfl hcommand
    exact Command.items_of_isReading hreading hrun

/-! ## The first row -/

/-- The selection of the first row. -/
def Selection.first (table : TableName) : Selection :=
  ⟨.all, table, none, [], some 1⟩

theorem isDirect_first {table : TableName} (htable : table.target.isItems = true) :
    (Statement.select (.first table)).isDirect = true := by
  have hwords : IsClean ("SELECT " ++ "*" ++ " \nFROM " ++ table.text) :=
    .append (by decide) (isClean_table htable)
  have hlimit : IsClean "\n LIMIT " := by decide
  have hoffset : IsClean " OFFSET " := by decide
  have hplain : (Statement.select (.first table)).draft.isPlain = true := by
    refine Draft.isPlain_of_nodup ?_ ?_
    · intro p hp
      simp only [Statement.draft, Selection.draft, Selection.first, List.isEmpty_nil, if_true,
        List.append_nil, List.cons_append, List.nil_append, List.mem_cons, List.not_mem_nil,
        or_false] at hp
      rcases hp with rfl | rfl | rfl | rfl | rfl
      · exact hwords
      · exact hlimit
      · trivial
      · exact hoffset
      · trivial
    · show ["param_1", "param_2"].Nodup
      decide
  have hnames : (Statement.select (.first table)).names = table.names := by
    simp [Statement.names, Selection.first, Columns.names]
  rw [Statement.isDirect, hplain, hnames, Statement.areReadable_table htable]
  rfl

theorem items_run_first {table : Value}
    (htable : (tableName backendSchema table).target.isItems = true) :
    (d.run backendSchema (.tableScan table [] (.int 1))).2.items = d.items := by
  refine Database.items_run fun s p u a hs hprepared hrun => ?_
  obtain ⟨limit, hlimit, hs⟩ := bind_eq_ok_iff.1 hs
  obtain ⟨⟨⟩, -, hs⟩ := bind_eq_ok_iff.1 hs
  cases hlimit
  obtain rfl : Statement.select (.first (tableName backendSchema table)) = s := Except.ok.inj hs
  have hrun := runStatement_eq_ok rfl hrun
  rw [if_pos (isDirect_first htable)] at hrun
  exact Command.items_of_isReading (.select _) hrun

/-! ## Schemas -/

/-- Does the site hold the table of the other one? -/
def KeepsItems (s s' : Site Database) : Prop :=
  s'.outside.items = s.outside.items

theorem execute_backend (o : Operation) (s : Site Database) :
    (backend backendSchema o).execute s =
      ((s.outside.run backendSchema o).1,
        { s with outside := (s.outside.run backendSchema o).2 }) := rfl

theorem coversDiscovery_keepsItems {cache : Cache Database}
    (hbackend : cache.backend = backend backendSchema)
    (hdialect : cache.config.dialect = .oracle ∨ cache.config.dialect = .mysql) {table : Value}
    (htable : (tableName backendSchema table).target.isItems = true) :
    cache.CoversDiscovery table KeepsItems where
  refl := fun _ => rfl
  trans := fun _ _ _ h h' => h'.trans h
  columns := by
    rw [hbackend]
    exact fun parameters s => items_run_raw (isSelection_columnsQuery hdialect) parameters
  keys := by
    rw [hbackend]
    exact fun parameters s => items_run_raw (isSelection_primaryKeyQuery hdialect) parameters
  sample := by
    rw [hbackend]
    exact fun s => items_run_first htable

/-- **A call for the schema of the table keeps the table.** -/
theorem spans_schema {cache : Cache Database} (hbackend : cache.backend = backend backendSchema)
    (hdialect : cache.config.dialect = .oracle ∨ cache.config.dialect = .mysql) {table : Value}
    (htable : (tableName backendSchema table).target.isItems = true) (overwrite : Bool) :
    Stateful.Spans KeepsItems (cache.schema table overwrite) :=
  (coversDiscovery_keepsItems hbackend hdialect htable).schema
    (fun _ _ h => congrArg Database.items h) overwrite

end RowAccess.Sql
