import RowAccess.Proofs.Outcome
import RowAccess.Proofs.Sql.Tokens
import RowAccess.Sql.Engine
import RowAccess.Sql.Grammar

/-
  RowAccess/Proofs/Sql/Grammar.lean
  =================================
  **What a reader of tokens finds.**  A statement that begins like a selection only reads.  A date that
  stands in a statement is read as a call of a function, wherever it stands: as what a column is
  compared with and as what a column is set to.
-/

namespace RowAccess.Sql.Grammar

open Outcome

variable {α β : Type} {r r' : Reader} {t u : Token} {ts : List Token} {n : Name}

/-! ## Steps of a reader -/

theorem run_bind_eq_ok_iff {x : Scanning α} {f : α → Scanning β} {b : β} :
    (x >>= f).run r = .ok (b, r') ↔
      ∃ a r₁, x.run r = .ok (a, r₁) ∧ (f a).run r₁ = .ok (b, r') := by
  rw [StateT.run_bind, bind_eq_ok_iff]
  constructor
  · rintro ⟨⟨a, r₁⟩, hx, hf⟩
    exact ⟨a, r₁, hx, hf⟩
  · rintro ⟨a, r₁, hx, hf⟩
    exact ⟨(a, r₁), hx, hf⟩

theorem run_bind_of_ok {x : Scanning α} {f : α → Scanning β} {a : α}
    (h : x.run r = .ok (a, r')) : (x >>= f).run r = (f a).run r' := by
  rw [StateT.run_bind, h]
  rfl

theorem run_eatWord (r : Reader) (t : Token) (ts : List Token) (word : String) :
    (eatWord word).run { r with tokens := t :: ts } =
      .ok (t.isWord word, { r with tokens := if t.isWord word then ts else t :: ts }) := by
  have hat : (isAtWord word).run { r with tokens := t :: ts } =
      .ok (t.isWord word, { r with tokens := t :: ts }) := rfl
  rw [eatWord, run_bind_of_ok hat]
  cases t.isWord word with
  | true => rfl
  | false => rfl

theorem run_eatSymbol (r : Reader) (t : Token) (ts : List Token) (symbol : String) :
    (eatSymbol symbol).run { r with tokens := t :: ts } =
      .ok (t.isSymbol symbol, { r with tokens := if t.isSymbol symbol then ts else t :: ts }) := by
  have hat : (isAtSymbol symbol).run { r with tokens := t :: ts } =
      .ok (t.isSymbol symbol, { r with tokens := t :: ts }) := rfl
  rw [eatSymbol, run_bind_of_ok hat]
  cases t.isSymbol symbol with
  | true => rfl
  | false => rfl

theorem run_name (h : t.name? = some n) (r : Reader) (ts : List Token) :
    name.run { r with tokens := t :: ts } = .ok (n, { r with tokens := ts }) := by
  have hpeek : peek?.run { r with tokens := t :: ts } =
      .ok (some t, { r with tokens := t :: ts }) := rfl
  rw [name, run_bind_of_ok hpeek]
  dsimp only
  rw [h]
  rfl

/-! ## Selections -/

/-- Does the command leave the table as it is? -/
inductive IsReading : Command → Prop
  | select (q : Query) : IsReading (.select q)
  | combine (first : Query) (others : List (Combination × Query)) : IsReading (.combine first others)

theorem isReading_selection {fuel : Nat} {c : Command} (h : (selection fuel).run r = .ok (c, r')) :
    IsReading c := by
  obtain ⟨first, r₁, -, h⟩ := run_bind_eq_ok_iff.1 h
  obtain ⟨rest, r₂, -, h⟩ := run_bind_eq_ok_iff.1 h
  have hlast {r₃ : Reader}
      (h : (if rest.isEmpty then (pure (.select (separate first)) : Scanning Command)
        else pure (.combine (separate first) (rest.map fun x => (x.1, separate x.2)))).run r₃ =
          .ok (c, r')) : IsReading c := by
    split at h
    · cases h
      exact .select _
    · cases h
      exact .combine _ _
  dsimp only at h
  split at h
  · exact hlast h
  · obtain ⟨_, r₃, -, h⟩ := run_bind_eq_ok_iff.1 h
    exact hlast h

theorem isReading_command {fuel : Nat} {c : Command} (hword : t.isWord "SELECT" = true)
    (h : (command fuel).run { r with tokens := t :: ts } = .ok (c, r')) : IsReading c := by
  rw [command, run_bind_of_ok (run_eatWord r t ts "SELECT"), hword] at h
  exact isReading_selection h

/-! ## Names -/

/-- Words that begin an expression and are no names. -/
def openingWords : List String :=
  ["NOT", "NULL", "EXISTS", "CASE", "RAISE", "CAST"] ++ Moment.currentNames

theorem run_named (hpoint : u.isSymbol "." = false) (hbracket : u.isSymbol "(" = false)
    (fuel : Nat) (n : Name) (r : Reader) (ts : List Token) :
    (named (fuel + 1) n []).run { r with tokens := u :: ts } =
      .ok (.name n, { r with tokens := u :: ts }) := by
  have hat : (isAtSymbol "(").run { r with tokens := u :: ts } =
      .ok (u.isSymbol "(", { r with tokens := u :: ts }) := rfl
  rw [named, run_bind_of_ok (run_eatSymbol r u ts "."), hpoint]
  simp only [Bool.false_eq_true, if_false]
  rw [run_bind_of_ok hat, hbracket]
  rfl

/-- A name before what is neither a point nor a bracket stands for itself. -/
theorem run_prefixed_name (hname : t.name? = some n)
    (hwords : ∀ word ∈ openingWords, t.isWord word = false)
    (hpoint : u.isSymbol "." = false) (hbracket : u.isSymbol "(" = false) (fuel : Nat) (r : Reader)
    (ts : List Token) :
    (prefixed (fuel + 2)).run { r with tokens := t :: u :: ts } =
      .ok (.name n, { r with tokens := u :: ts }) := by
  have hcurrent : Moment.currentNames.any t.isWord = false := by
    rw [List.any_eq_false]
    intro word hword
    rw [hwords word (List.mem_append_right _ hword)]
    exact Bool.false_ne_true
  have hpeek : peek?.run { r with tokens := t :: u :: ts } =
      .ok (some t, { r with tokens := t :: u :: ts }) := rfl
  have hadvance : advance.run { r with tokens := t :: u :: ts } =
      .ok ((), { r with tokens := u :: ts }) := rfl
  have hnamed : (do advance; named (fuel + 1) n [] : Scanning Expr).run
      { r with tokens := t :: u :: ts } = .ok (.name n, { r with tokens := u :: ts }) :=
    (run_bind_of_ok hadvance).trans (run_named hpoint hbracket fuel n r ts)
  rw [prefixed, run_bind_of_ok hpeek]
  have hopening (word : String) (hword : word ∈ openingWords) := hwords word hword
  obtain ⟨kind, text⟩ := t
  cases kind with
  | word =>
    simp only [hopening "NOT" (by decide), hopening "NULL" (by decide), hopening "EXISTS" (by decide),
      hopening "CASE" (by decide), hopening "RAISE" (by decide), hopening "CAST" (by decide),
      hcurrent, hname, Bool.false_eq_true, if_false]
    exact hnamed
  | name m =>
    cases hname
    exact hnamed
  | _ => cases hname

theorem run_known_name {name : String} (h : IsKnown name) (r : Reader) (ts : List Token) :
    Grammar.name.run { r with tokens := nameToken name :: ts } =
      .ok (⟨Identifier.found name, !Identifier.isPlain name⟩, { r with tokens := ts }) :=
  Grammar.run_name h.name?_nameToken r ts

theorem run_target {table : TableName} (hknown : ∀ name ∈ table.names, IsKnown name)
    (hpoint : u.isSymbol "." = false) (r : Reader) (ts : List Token) :
    target.run { r with tokens := tableTokens table ++ u :: ts } =
      .ok (table.target, { r with tokens := u :: ts }) := by
  obtain ⟨schema, name⟩ := table
  have hname : IsKnown name := hknown name (List.mem_append_right _ List.mem_cons_self)
  cases schema with
  | none =>
    show target.run { r with tokens := nameToken name :: u :: ts } = _
    rw [target, run_bind_of_ok (run_known_name hname r _),
      run_bind_of_ok (run_eatSymbol r u ts "."), hpoint]
    rfl
  | some schema =>
    have hschema : IsKnown schema := hknown schema (List.mem_append_left _ List.mem_cons_self)
    show target.run
      { r with tokens := nameToken schema :: ⟨.symbol, "."⟩ :: nameToken name :: u :: ts } = _
    rw [target, run_bind_of_ok (run_known_name hschema r _),
      run_bind_of_ok (run_eatSymbol r ⟨.symbol, "."⟩ _ ".")]
    exact run_bind_of_ok (run_known_name hname r _)

/-! ## Dates -/

/-- A date in a statement as the reader finds it. -/
def dateExpr (literal format : String) : Expr :=
  .call "TO_DATE" [.literal (.text literal), .literal (.text format)]

theorem check_dateExpr (literal format : String) :
    (dateExpr literal format).check = .error (.noFunction "TO_DATE") := rfl

/-- A column that is compared with a date. -/
theorem run_test_date {c : String} (hc : IsKnown c) (fuel : Nat) (r : Reader)
    (literal format : String) :
    (expr (fuel + 12) 0).run
      { r with tokens := nameToken c :: ⟨.symbol, "="⟩ :: dateTokens literal format } =
      .ok (.compare .eq (Predicate.columnExpr c) (dateExpr literal format),
        { r with tokens := [] }) := by
  have hwords : ∀ word ∈ openingWords, (nameToken c).isWord word = false := by
    intro word hword
    refine hc.isWord_nameToken fun title htitle => ?_
    have hall : ∀ word ∈ openingWords, ∀ title ∈ knownTitles,
        Identifier.same title word = false := by decide
    exact hall word hword title htitle
  rw [expr, run_bind_of_ok (run_prefixed_name hc.name?_nameToken hwords rfl rfl _ r _)]
  rfl

/-- What may stand right behind an operand: a comma, the word before a test, or a bracket. -/
def operandEnds : List Token :=
  [⟨.symbol, ","⟩, ⟨.word, "WHERE"⟩, ⟨.symbol, ")"⟩]

/-- An operand is read up to what stands behind it; one that is not bound is a date. -/
theorem exists_run_operand {o : Operand} (h : OperandTokens o ts) (hu : u ∈ operandEnds) (fuel : Nat)
    (r : Reader) (us : List Token) :
    ∃ (e : Expr) (r' : Reader), (expr (fuel + 12) 0).run { r with tokens := ts ++ u :: us } =
      .ok (e, { r' with tokens := u :: us }) ∧
        (o.isBound = false → ∃ literal format, e = dateExpr literal format) := by
  simp only [operandEnds, List.mem_cons, List.not_mem_nil, or_false] at hu
  cases h with
  | bound p v =>
    refine ⟨.bound (r.cells.getD r.used .null), { r with used := r.used + 1 }, ?_, ?_⟩
    · rcases hu with rfl | rfl | rfl
      · rfl
      · rfl
      · rfl
    · intro hbound
      cases hbound
  | date literal format =>
    refine ⟨dateExpr literal format, r, ?_, fun _ => ⟨literal, format, rfl⟩⟩
    rcases hu with rfl | rfl | rfl
    · rfl
    · rfl
    · rfl

/-- The first entry is read, and what is left of the reader goes on behind it. -/
theorem exists_run_entry {c : String} {o : Operand} (hc : IsKnown c) (h : OperandTokens o ts)
    (hu : u ∈ operandEnds) (fuel : Nat) (r : Reader) (us : List Token) :
    ∃ (e : Expr) (r' : Reader), (o.isBound = false → e.check ≠ .ok ()) ∧
      (entries (fuel + 12 + 1)).run
        { r with tokens := nameToken c :: ⟨.symbol, "="⟩ :: (ts ++ u :: us) } =
      (do
        if ← eatSymbol "," then return (Identifier.found c, e) :: (← entries (fuel + 12))
        else return [(Identifier.found c, e)] : Scanning (List (String × Expr))).run
        { r' with tokens := u :: us } := by
  obtain ⟨e, r', hrun, hdate⟩ := exists_run_operand h hu fuel r us
  refine ⟨e, r', ?_, ?_⟩
  · intro hbound
    obtain ⟨literal, format, rfl⟩ := hdate hbound
    rw [check_dateExpr]
    rintro ⟨⟩
  have hequals : (expectSymbol "=").run { r with tokens := ⟨.symbol, "="⟩ :: (ts ++ u :: us) } =
      .ok ((), { r with tokens := ts ++ u :: us }) := rfl
  rw [entries, run_bind_of_ok (run_known_name hc r _), run_bind_of_ok hequals,
    run_bind_of_ok hrun]

/-- Entries are read one after the other up to the word before the test. -/
theorem exists_run_entries {written : List (String × Operand)} (h : EntryTokens written ts)
    (hknown : ∀ e ∈ written, IsKnown e.1) (fuel : Nat) (r : Reader) (us : List Token) :
    ∃ (es : List (String × Expr)) (r' : Reader),
      (entries (fuel + written.length + 12)).run { r with tokens := ts ++ ⟨.word, "WHERE"⟩ :: us } =
        .ok (es, { r' with tokens := ⟨.word, "WHERE"⟩ :: us }) ∧
      (Statement.areDirect written = false → ∃ e ∈ es, e.2.check ≠ .ok ()) := by
  induction h generalizing fuel r with
  | @last c o ts h =>
    have hc : IsKnown c := hknown (c, o) List.mem_cons_self
    obtain ⟨e, r', hcheck, hrun⟩ :=
      exists_run_entry (u := ⟨.word, "WHERE"⟩) hc h (by decide) fuel r us
    refine ⟨[(Identifier.found c, e)], r', ?_, ?_⟩
    · refine Eq.trans ?_ (hrun.trans rfl)
      rfl
    · intro hdirect
      refine ⟨_, List.mem_cons_self, hcheck ?_⟩
      simpa [Statement.areDirect] using hdirect
  | @more c o ts us' rest h hrest ih =>
    have hc : IsKnown c := hknown (c, o) List.mem_cons_self
    obtain ⟨e, r₁, hcheck, hrun⟩ := exists_run_entry (u := ⟨.symbol, ","⟩) hc h (by decide)
      (fuel + rest.length) r (us' ++ ⟨.word, "WHERE"⟩ :: us)
    obtain ⟨es, r', hes, hrestCheck⟩ := ih (fun e he => hknown e (List.mem_cons_of_mem _ he)) fuel r₁
    refine ⟨(Identifier.found c, e) :: es, r', ?_, ?_⟩
    · have htokens : nameToken c :: ⟨.symbol, "="⟩ :: (ts ++ ⟨.symbol, ","⟩ :: us') ++
          ⟨.word, "WHERE"⟩ :: us = nameToken c :: ⟨.symbol, "="⟩ ::
            (ts ++ ⟨.symbol, ","⟩ :: (us' ++ ⟨.word, "WHERE"⟩ :: us)) := by simp
      have hcomma : (eatSymbol ",").run
          { r₁ with tokens := ⟨.symbol, ","⟩ :: (us' ++ ⟨.word, "WHERE"⟩ :: us) } =
          .ok (true, { r₁ with tokens := us' ++ ⟨.word, "WHERE"⟩ :: us }) := rfl
      rw [htokens]
      refine Eq.trans ?_ (hrun.trans ?_)
      · rfl
      · rw [run_bind_of_ok hcomma, if_pos rfl, run_bind_of_ok hes]
        rfl
    · intro hdirect
      rw [Statement.areDirect, List.all_cons, Bool.and_eq_false_iff] at hdirect
      rcases hdirect with hdirect | hdirect
      · exact ⟨_, List.mem_cons_self, hcheck hdirect⟩
      · obtain ⟨e', he', hfails⟩ := hrestCheck hdirect
        exact ⟨e', List.mem_cons_of_mem _ he', hfails⟩

/-! ## Refused statements -/

theorem check_test_date (n : Name) (literal format : String) :
    (Expr.compare .eq (.name n) (dateExpr literal format)).check ≠ .ok () := by
  have hname : (Expr.name n).walk false none = .ok none ∨
      (Expr.name n).walk false none = .error (.noColumn n.text) := by
    rw [Expr.walk]
    split
    · exact .inl rfl
    · exact .inr rfl
  have hcheck (x : Walk) (hx : (Expr.name n).walk false none = x) :
      (Expr.compare .eq (.name n) (dateExpr literal format)).walk false none =
        x >>= fun remembered => (dateExpr literal format).walk false remembered := by
    rw [← hx]
    rfl
  rw [Expr.check, Expr.checkIn]
  rcases hname with hname | hname
  · rw [hcheck _ hname]
    rintro ⟨⟩
  · rw [hcheck _ hname]
    rintro ⟨⟩

theorem forM_eq_ok {α : Type} {f : α → Except Refusal Unit} {xs : List α}
    (h : xs.forM f = .ok ()) : ∀ x ∈ xs, f x = .ok () := by
  induction xs with
  | nil => exact fun x hx => absurd hx List.not_mem_nil
  | cons x xs ih =>
    obtain ⟨⟨⟩, hx, h⟩ := bind_eq_ok_iff.1 h
    intro y hy
    rcases List.mem_cons.1 hy with rfl | hy
    · exact hx
    · exact ih h y hy

/-- The selection of all columns by a test. -/
def testedQuery (target : Target) (e : Expr) : Query :=
  ⟨none, [target], some e, [], none, [], none, none⟩

theorem check_of_testedQuery {target : Target} {e : Expr}
    (h : (Command.select (testedQuery target e)).checkNames = .ok ()) : e.check = .ok () := by
  obtain ⟨⟨⟩, -, h⟩ := bind_eq_ok_iff.1 h
  obtain ⟨⟨⟩, h, -⟩ := bind_eq_ok_iff.1 h
  obtain ⟨⟨⟩, -, h⟩ := bind_eq_ok_iff.1 h
  obtain ⟨⟨⟩, -, h⟩ := bind_eq_ok_iff.1 h
  simp only [testedQuery, Option.isSome_none, Bool.false_and, Bool.false_eq_true, if_false] at h
  obtain ⟨⟨⟩, -, h⟩ := bind_eq_ok_iff.1 h
  obtain ⟨⟨⟩, h, -⟩ := bind_eq_ok_iff.1 h
  exact forM_eq_ok h e List.mem_cons_self

/-- A selection by a date is read as one. -/
theorem run_selected_date {table : TableName} (hknown : ∀ name ∈ table.names, IsKnown name)
    {c : String} (hc : IsKnown c) (fuel : Nat) (r : Reader) (literal format : String) :
    (selected (fuel + 13)).run
      { r with tokens := ⟨.symbol, "*"⟩ :: ⟨.word, "FROM"⟩ ::
        (tableTokens table ++ ⟨.word, "WHERE"⟩ :: nameToken c :: ⟨.symbol, "="⟩ ::
          dateTokens literal format) } =
      .ok (testedQuery table.target
        (.compare .eq (Predicate.columnExpr c) (dateExpr literal format)),
        { r with tokens := [] }) := by
  have hword (word : String) (ts : List Token)
      (hword : Token.isWord ⟨.symbol, "*"⟩ word = false) :
      (eatWord word).run { r with tokens := ⟨.symbol, "*"⟩ :: ts } =
        .ok (false, { r with tokens := ⟨.symbol, "*"⟩ :: ts }) := rfl
  have hstar (ts : List Token) : (eatSymbol "*").run { r with tokens := ⟨.symbol, "*"⟩ :: ts } =
      .ok (true, { r with tokens := ts }) := rfl
  have hfrom (ts : List Token) : (eatWord "FROM").run { r with tokens := ⟨.word, "FROM"⟩ :: ts } =
      .ok (true, { r with tokens := ts }) := rfl
  have hother (ts : List Token) : otherName.run { r with tokens := ⟨.word, "WHERE"⟩ :: ts } =
      .ok ((), { r with tokens := ⟨.word, "WHERE"⟩ :: ts }) := rfl
  have hjoined (ts : List Token) :
      (joined (fuel + 12)).run { r with tokens := ⟨.word, "WHERE"⟩ :: ts } =
      .ok (([], []), { r with tokens := ⟨.word, "WHERE"⟩ :: ts }) := rfl
  have hwhere (ts : List Token) : (eatWord "WHERE").run { r with tokens := ⟨.word, "WHERE"⟩ :: ts } =
      .ok (true, { r with tokens := ts }) := rfl
  have htest : (some <$> expr (fuel + 12) 0).run
      { r with tokens := nameToken c :: ⟨.symbol, "="⟩ :: dateTokens literal format } =
      .ok (some (.compare .eq (Predicate.columnExpr c) (dateExpr literal format)),
        { r with tokens := [] }) := by
    rw [StateT.run_map, run_test_date hc fuel r literal format]
    rfl
  rw [selected, run_bind_of_ok (hword "DISTINCT" _ rfl), Bool.not_false, if_pos rfl,
    run_bind_of_ok (hword "ALL" _ rfl)]
  dsimp only
  rw [run_bind_of_ok (hstar _), if_pos rfl, pure_bind, run_bind_of_ok (hfrom _), if_pos rfl,
    run_bind_of_ok (run_target hknown rfl r _), run_bind_of_ok (hother _),
    run_bind_of_ok (hjoined _)]
  dsimp only
  rw [pure_bind]
  dsimp only
  rw [run_bind_of_ok (hwhere _), if_pos rfl, run_bind_of_ok htest]
  rfl

/-- A selection by a date is refused. -/
theorem check_select_date {table : TableName} (hknown : ∀ name ∈ table.names, IsKnown name)
    {c : String} (hc : IsKnown c) (fuel : Nat) (r : Reader) (literal format : String)
    {command : Command}
    (h : (Grammar.command (fuel + 13)).run
      { r with tokens := ⟨.word, "SELECT"⟩ :: ⟨.symbol, "*"⟩ :: ⟨.word, "FROM"⟩ ::
        (tableTokens table ++ ⟨.word, "WHERE"⟩ :: nameToken c :: ⟨.symbol, "="⟩ ::
          dateTokens literal format) } = .ok (command, r')) :
    command.checkNames ≠ .ok () := by
  have hselection : (selection (fuel + 13)).run
      { r with tokens := ⟨.symbol, "*"⟩ :: ⟨.word, "FROM"⟩ ::
        (tableTokens table ++ ⟨.word, "WHERE"⟩ :: nameToken c :: ⟨.symbol, "="⟩ ::
          dateTokens literal format) } = .ok (command, r') := h
  rw [selection, run_bind_of_ok (run_selected_date hknown hc fuel r literal format)] at hselection
  cases hselection
  intro hnames
  exact check_test_date _ literal format (check_of_testedQuery hnames)

theorem checkNames_update {es : List (String × Expr)} {target : Target} {test : Option Expr}
    (h : ∃ e ∈ es, e.2.check ≠ .ok ()) : (Command.update target es test).checkNames ≠ .ok () := by
  intro hnames
  obtain ⟨e, he, hcheck⟩ := h
  obtain ⟨⟨⟩, -, hnames⟩ := bind_eq_ok_iff.1 hnames
  obtain ⟨⟨⟩, hentries, -⟩ := bind_eq_ok_iff.1 hnames
  obtain ⟨⟨⟩, hentry, -⟩ := bind_eq_ok_iff.1 (forM_eq_ok hentries e he)
  exact hcheck hentry

/-- An update that sets a column to a date is read and refused. -/
theorem check_update_date {table : TableName} (hknown : ∀ name ∈ table.names, IsKnown name)
    {written : List (String × Operand)} (hwritten : EntryTokens written ts)
    (hentries : ∀ e ∈ written, IsKnown e.1) (hdirect : Statement.areDirect written = false)
    (fuel : Nat) (r : Reader) (us : List Token) {command : Command}
    (h : (Grammar.command (fuel + written.length + 12)).run
      { r with tokens := ⟨.word, "UPDATE"⟩ :: (tableTokens table ++ ⟨.word, "SET"⟩ ::
        (ts ++ ⟨.word, "WHERE"⟩ :: us)) } = .ok (command, r')) :
    command.checkNames ≠ .ok () := by
  obtain ⟨es, r₁, hrun, hcheck⟩ := exists_run_entries hwritten hentries fuel r us
  have hset : (expectWord "SET").run
      { r with tokens := ⟨.word, "SET"⟩ :: (ts ++ ⟨.word, "WHERE"⟩ :: us) } =
      .ok ((), { r with tokens := ts ++ ⟨.word, "WHERE"⟩ :: us }) := rfl
  have hupdate : (update (fuel + written.length + 12)).run
      { r with tokens := tableTokens table ++ ⟨.word, "SET"⟩ ::
        (ts ++ ⟨.word, "WHERE"⟩ :: us) } = .ok (command, r') := h
  rw [update, run_bind_of_ok (run_target hknown rfl r _), run_bind_of_ok hset,
    run_bind_of_ok hrun] at hupdate
  obtain ⟨test, r₂, -, hupdate⟩ := run_bind_eq_ok_iff.1 hupdate
  obtain ⟨cut, r₃, -, hupdate⟩ := run_bind_eq_ok_iff.1 hupdate
  cases hupdate
  exact checkNames_update (hcheck hdirect)

/-- A selection of no columns cannot be read. -/
theorem run_select_nothing (fuel : Nat) (r : Reader) (us : List Token) :
    (Grammar.command (fuel + 4)).run
      { r with tokens := ⟨.word, "SELECT"⟩ :: ⟨.word, "FROM"⟩ :: us } =
        .error (.malformed "FROM") := rfl

/-- An update that sets nothing cannot be read. -/
theorem run_update_nothing {table : TableName} (hknown : ∀ name ∈ table.names, IsKnown name)
    (fuel : Nat) (r : Reader) (us : List Token) :
    (Grammar.command (fuel + 1)).run
      { r with tokens := ⟨.word, "UPDATE"⟩ :: (tableTokens table ++ ⟨.word, "SET"⟩ ::
        ⟨.word, "WHERE"⟩ :: us) } = .error (.malformed "WHERE") := by
  have hset : (expectWord "SET").run
      { r with tokens := ⟨.word, "SET"⟩ :: ⟨.word, "WHERE"⟩ :: us } =
      .ok ((), { r with tokens := ⟨.word, "WHERE"⟩ :: us }) := rfl
  show (update (fuel + 1)).run
    { r with tokens := tableTokens table ++ ⟨.word, "SET"⟩ :: ⟨.word, "WHERE"⟩ :: us } = _
  rw [update, run_bind_of_ok (run_target hknown rfl r _), run_bind_of_ok hset]
  rfl

end RowAccess.Sql.Grammar
