import RowAccess.Proofs.Sql.Sentence

/-
  RowAccess/Proofs/Sql/Values.lean
  ================================
  **Insertions that hold a date.**  Such an insertion is read as a text, like an update that holds one:
  its table, the names of its columns, its values.  The reader finds the call of a function that the
  engine lacks among the values, so the insertion is refused (`runText_insert`).
-/

namespace RowAccess.Sql

open Outcome

/-! ## Cutting the statement into tokens -/

/-- The tokens of names with commas between them. -/
def nameTokens : List String → List Token
  | [] => []
  | [c] => [nameToken c]
  | c :: c' :: cs => nameToken c :: ⟨.symbol, ","⟩ :: nameTokens (c' :: cs)

/-- The tokens of the values of entries with commas between them. -/
inductive ValueTokens : List (String × Operand) → List Token → Prop
  | last {c : String} {o : Operand} {ts : List Token} (h : OperandTokens o ts) :
      ValueTokens [(c, o)] ts
  | more {c : String} {o : Operand} {ts us : List Token} {entries : List (String × Operand)}
      (h : OperandTokens o ts) (hrest : ValueTokens entries us) :
      ValueTokens ((c, o) :: entries) (ts ++ ⟨.symbol, ","⟩ :: us)

/-- Names in the text of an insertion. -/
def namesText (names : List String) : List Char :=
  (", ".intercalate (names.map Identifier.text)).toList

theorem namesText_cons_cons (c c' : String) (cs : List String) :
    namesText (c :: c' :: cs) =
      (Identifier.text c).toList ++ ',' :: ' ' :: namesText (c' :: cs) := by
  simp [namesText, String.toList_intercalate]

/-- The values of entries in the text of an insertion. -/
def valuesText (entries : List (String × Operand)) : List Char :=
  (Draft.text (entryPieces (fun _ => "") entries)).toList

theorem valuesText_singleton (e : String × Operand) :
    valuesText [e] = (e.2.piece (.entry e.1)).text.toList := by
  rw [valuesText, Draft.toList_text]
  simp only [entryPieces, List.flatMap_cons, List.flatMap_nil, List.append_nil]
  rfl

theorem valuesText_cons_cons (e e' : String × Operand) (entries : List (String × Operand)) :
    valuesText (e :: e' :: entries) =
      (e.2.piece (.entry e.1)).text.toList ++ ',' :: ' ' :: valuesText (e' :: entries) := by
  rw [valuesText, AreKnown.entryPieces_cons, Draft.toList_text, valuesText, Draft.toList_text]
  simp only [List.flatMap_cons]
  rfl

section Lexing

variable {names : List String} {entries : List (String × Operand)}

/-- Names are cut off before the bracket behind them, and no blank is in front of them. -/
theorem lexes_names (hne : names ≠ []) (rest : List Char) :
    (∃ b cs, namesText names = b :: cs ∧ isNumberBlank b = false) ∧
      Lexes (namesText names ++ ')' :: rest) (nameTokens names) (')' :: rest) := by
  induction names with
  | nil => exact absurd rfl hne
  | cons c names ih =>
    obtain ⟨b, cs, htext, -, hb⟩ := exists_text_name c
    cases names with
    | nil =>
      have hsingle : namesText [c] = (Identifier.text c).toList := rfl
      rw [hsingle]
      exact ⟨⟨b, cs, htext, hb⟩, lexes_name c (Lexes.endsAt_cons (by decide))⟩
    | cons c' names =>
      obtain ⟨⟨d, ds, hrest, hd⟩, hlexes⟩ := ih (List.cons_ne_nil _ _)
      have hname (cs : List Char) :
          Lexes ((Identifier.text c).toList ++ ',' :: cs) [nameToken c] (',' :: cs) :=
        lexes_name c (Lexes.endsAt_cons (by decide))
      have hcomma (cs : List Char) : Lexes (',' :: cs) [⟨.symbol, ","⟩] cs :=
        .lone (by decide) (by rintro ⟨⟩)
      have hblank : Lexes (' ' :: (namesText (c' :: names) ++ ')' :: rest)) []
          (namesText (c' :: names) ++ ')' :: rest) := by
        rw [hrest]
        exact .blank hd
      rw [namesText_cons_cons]
      refine ⟨⟨b, cs ++ ',' :: ' ' :: namesText (c' :: names), by rw [htext]; rfl, hb⟩, ?_⟩
      rw [List.append_assoc]
      exact (hname _).trans ((hcomma _).trans (hblank.trans hlexes))

/-- Values are cut off before the bracket behind them, and no blank is in front of them. -/
theorem exists_lexes_values (hne : entries ≠ []) (hknown : ∀ e ∈ entries, IsKnown e.1)
    (hdate : ∀ e ∈ entries, e.2.IsPlainDate) (rest : List Char) :
    ∃ ts b cs, ValueTokens entries ts ∧ valuesText entries = b :: cs ∧ isNumberBlank b = false ∧
      Lexes (valuesText entries ++ ')' :: rest) ts (')' :: rest) := by
  induction entries with
  | nil => exact absurd rfl hne
  | cons e entries ih =>
    have hc : IsKnown e.1 := hknown e List.mem_cons_self
    have ho : e.2.IsPlainDate := hdate e List.mem_cons_self
    cases entries with
    | nil =>
      obtain ⟨ts, b, cs, htokens, htext, hb, hlexes⟩ :=
        exists_lexes_operand ho hc.ne_empty (.inr rfl) rest
      rw [valuesText_singleton]
      exact ⟨ts, b, cs, .last htokens, htext, hb, hlexes⟩
    | cons e' entries =>
      obtain ⟨us, d, ds, hrestTokens, hrest, hd, hlexesRest⟩ :=
        ih (List.cons_ne_nil _ _) (fun e he => hknown e (List.mem_cons_of_mem _ he))
          (fun e he => hdate e (List.mem_cons_of_mem _ he))
      obtain ⟨ts, b, cs, htokens, htext, hb, hlexes⟩ :=
        exists_lexes_operand ho hc.ne_empty (.inl rfl)
          (' ' :: (valuesText (e' :: entries) ++ ')' :: rest))
      have hcomma (cs : List Char) : Lexes (',' :: cs) [⟨.symbol, ","⟩] cs :=
        .lone (by decide) (by rintro ⟨⟩)
      have hblank : Lexes (' ' :: (valuesText (e' :: entries) ++ ')' :: rest)) []
          (valuesText (e' :: entries) ++ ')' :: rest) := by
        rw [hrest]
        exact .blank hd
      rw [valuesText_cons_cons]
      refine ⟨_, b, cs ++ ',' :: ' ' :: valuesText (e' :: entries), .more htokens hrestTokens,
        by rw [htext]; rfl, hb, ?_⟩
      rw [List.append_assoc]
      exact hlexes.trans ((hcomma _).trans (hblank.trans hlexesRest))

end Lexing

section Whole

variable {table : TableName} {entries : List (String × Operand)} {returning : Option String}

variable (table returning) in
theorem exists_text_insert (hne : entries ≠ []) :
    ∃ cs, (Statement.insert table entries returning).draft.text.toList =
      "INSERT INTO".toList ++ ' ' :: (table.text.toList ++ ([' '] ++ '(' ::
        (namesText (entries.map (·.1)) ++ ')' :: (' ' :: 'V' :: ("ALUES".toList ++ ' ' :: '(' ::
          (valuesText entries ++ ')' :: cs)))))) := by
  obtain ⟨e, others, rfl⟩ := List.exists_cons_of_ne_nil hne
  refine ⟨(Draft.text (Statement.endPieces returning)).toList, ?_⟩
  have hnames : (", ".intercalate ((e :: others).map fun e => Identifier.text e.1)).toList =
      namesText ((e :: others).map (·.1)) := by
    rw [namesText, List.map_map]
    rfl
  rw [Draft.toList_text, valuesText, Draft.toList_text, Draft.toList_text, ← hnames]
  simp only [Statement.draft_insert, List.isEmpty_cons, Bool.false_eq_true, if_false, List.cons_append,
    List.flatMap_cons, List.flatMap_append, List.flatMap_nil, Piece.text,
    String.toList_append, List.append_assoc]
  rfl

/-- The words of an insertion before its values, and the values. -/
theorem exists_ofText_insert (table : TableName) (returning : Option String) (hne : entries ≠ [])
    (hentries : ∀ e ∈ entries, IsKnown e.1) (hdate : ∀ e ∈ entries, e.2.IsPlainDate) :
    ∃ ts us, ValueTokens entries ts ∧
      Token.ofText (Statement.insert table entries returning).draft.text =
        ⟨.word, "INSERT"⟩ :: ⟨.word, "INTO"⟩ :: (tableTokens table ++ ⟨.symbol, "("⟩ ::
          (nameTokens (entries.map (·.1)) ++ ⟨.symbol, ")"⟩ :: ⟨.word, "VALUES"⟩ ::
            ⟨.symbol, "("⟩ :: (ts ++ ⟨.symbol, ")"⟩ :: us))) := by
  obtain ⟨cs, htext⟩ := exists_text_insert table returning hne
  obtain ⟨ts, b, bs, htokens, hvalues, hb, hlexes⟩ := exists_lexes_values hne hentries hdate cs
  have hsomeNames : entries.map (·.1) ≠ [] := fun h => hne (List.map_eq_nil_iff.1 h)
  have hnames (cs : List Char) := (lexes_names hsomeNames cs).2
  have hfront (cs : List Char) : Lexes ("INSERT INTO".toList ++ ' ' :: cs)
      [⟨.word, "INSERT"⟩, ⟨.word, "INTO"⟩] (' ' :: cs) := rfl
  have htable (cs : List Char) : Lexes (' ' :: (table.text.toList ++ ([' '] ++ '(' :: cs)))
      (tableTokens table) ('(' :: cs) :=
    lexes_table_between table (by decide) rfl (by rintro ⟨⟩)
  have hopening (cs : List Char) : Lexes ('(' :: cs) [⟨.symbol, "("⟩] cs :=
    .lone (by decide) (by rintro ⟨⟩)
  have hclosing (cs : List Char) : Lexes (')' :: cs) [⟨.symbol, ")"⟩] cs :=
    .lone (by decide) (by rintro ⟨⟩)
  have hword (cs : List Char) : Lexes (' ' :: 'V' :: ("ALUES".toList ++ ' ' :: '(' :: cs))
      [⟨.word, "VALUES"⟩] ('(' :: cs) := rfl
  have hwhole := (hfront _).trans <| (htable _).trans <| (hopening _).trans <| (hnames _).trans <|
    (hclosing _).trans <| (hword _).trans <| (hopening _).trans <| hlexes.trans (hclosing cs)
  refine ⟨ts, Token.scan cs 0, htokens, ?_⟩
  rw [Token.ofText, htext]
  refine Eq.trans hwhole ?_
  simp

end Whole

/-! ## Reading the statement -/

namespace Grammar

variable {r r' : Reader} {ts : List Token}

/-- Names are read one after the other up to the bracket. -/
theorem run_names {cs : List String} (hne : cs ≠ []) (hknown : ∀ c ∈ cs, IsKnown c) (fuel : Nat)
    (r : Reader) (us : List Token) :
    (names (fuel + cs.length)).run { r with tokens := nameTokens cs ++ ⟨.symbol, ")"⟩ :: us } =
      .ok (cs.map Identifier.found, { r with tokens := ⟨.symbol, ")"⟩ :: us }) := by
  induction cs with
  | nil => exact absurd rfl hne
  | cons c cs ih =>
    have hc : IsKnown c := hknown c List.mem_cons_self
    cases cs with
    | nil =>
      show (names (fuel + 1)).run { r with tokens := nameToken c :: ⟨.symbol, ")"⟩ :: us } = _
      rw [names, run_bind_of_ok (run_known_name hc r _)]
      rfl
    | cons c' cs =>
      have hcomma : (eatSymbol ",").run
          { r with tokens := ⟨.symbol, ","⟩ :: (nameTokens (c' :: cs) ++ ⟨.symbol, ")"⟩ :: us) } =
          .ok (true, { r with tokens := nameTokens (c' :: cs) ++ ⟨.symbol, ")"⟩ :: us }) := rfl
      have hrest := ih (List.cons_ne_nil _ _) fun c hc => hknown c (List.mem_cons_of_mem _ hc)
      show (names (fuel + (c' :: cs).length + 1)).run { r with tokens := nameToken c ::
        ⟨.symbol, ","⟩ :: (nameTokens (c' :: cs) ++ ⟨.symbol, ")"⟩ :: us) } = _
      rw [names, run_bind_of_ok (run_known_name hc r _), run_bind_of_ok hcomma, if_pos rfl,
        run_bind_of_ok hrest]
      rfl

/-- Values are read one after the other up to the bracket; one that is not bound is a date. -/
theorem exists_run_values {written : List (String × Operand)} (h : ValueTokens written ts)
    (fuel : Nat) (r : Reader) (us : List Token) :
    ∃ (es : List Expr) (r' : Reader),
      (exprs (fuel + written.length + 12)).run { r with tokens := ts ++ ⟨.symbol, ")"⟩ :: us } =
        .ok (es, { r' with tokens := ⟨.symbol, ")"⟩ :: us }) ∧
      (Statement.areDirect written = false → ∃ literal format, dateExpr literal format ∈ es) := by
  induction h generalizing fuel r with
  | @last c o ts h =>
    obtain ⟨e, r', hrun, hdate⟩ := exists_run_operand (u := ⟨.symbol, ")"⟩) h (by decide) fuel r us
    refine ⟨[e], r', ?_, ?_⟩
    · show (exprs (fuel + 12 + 1)).run _ = _
      rw [exprs, run_bind_of_ok hrun]
      rfl
    · intro hdirect
      obtain ⟨literal, format, rfl⟩ := hdate (by simpa [Statement.areDirect] using hdirect)
      exact ⟨literal, format, List.mem_cons_self⟩
  | @more c o ts us' rest h hrest ih =>
    obtain ⟨e, r₁, hrun, hdate⟩ := exists_run_operand (u := ⟨.symbol, ","⟩) h (by decide)
      (fuel + rest.length) r (us' ++ ⟨.symbol, ")"⟩ :: us)
    obtain ⟨es, r', hes, hrestDate⟩ := ih fuel r₁
    have htokens : ts ++ ⟨.symbol, ","⟩ :: us' ++ ⟨.symbol, ")"⟩ :: us =
        ts ++ ⟨.symbol, ","⟩ :: (us' ++ ⟨.symbol, ")"⟩ :: us) := by simp
    have hcomma : (eatSymbol ",").run
        { r₁ with tokens := ⟨.symbol, ","⟩ :: (us' ++ ⟨.symbol, ")"⟩ :: us) } =
        .ok (true, { r₁ with tokens := us' ++ ⟨.symbol, ")"⟩ :: us }) := rfl
    refine ⟨e :: es, r', ?_, ?_⟩
    · rw [htokens]
      show (exprs (fuel + rest.length + 12 + 1)).run _ = _
      rw [exprs, run_bind_of_ok hrun, run_bind_of_ok hcomma, if_pos rfl]
      have hes' : (exprs (fuel + rest.length + 12)).run
          { r₁ with tokens := us' ++ ⟨.symbol, ")"⟩ :: us } = _ := hes
      rw [run_bind_of_ok hes']
      rfl
    · intro hdirect
      rw [Statement.areDirect, List.all_cons, Bool.and_eq_false_iff] at hdirect
      rcases hdirect with hdirect | hdirect
      · obtain ⟨literal, format, rfl⟩ := hdate hdirect
        exact ⟨literal, format, List.mem_cons_self⟩
      · obtain ⟨literal, format, hmem⟩ := hrestDate hdirect
        exact ⟨literal, format, List.mem_cons_of_mem _ hmem⟩

theorem checkNames_insert {target : Target} {columns : List String} {es : List Expr}
    {rows : List (List Expr)} {returning : Option Expr} (hes : es ∈ rows)
    (h : ∃ literal format, dateExpr literal format ∈ es) :
    (Command.insert target columns rows returning).checkNames ≠ .ok () := by
  intro hnames
  obtain ⟨literal, format, hdate⟩ := h
  obtain ⟨⟨⟩, -, hnames⟩ := bind_eq_ok_iff.1 hnames
  obtain ⟨⟨⟩, -, hnames⟩ := bind_eq_ok_iff.1 hnames
  obtain ⟨⟨⟩, hvalues, -⟩ := bind_eq_ok_iff.1 hnames
  have hcheck := forM_eq_ok hvalues (dateExpr literal format) (List.mem_flatten.2 ⟨es, hes, hdate⟩)
  have hdetached : (dateExpr literal format).detached = dateExpr literal format := rfl
  rw [hdetached, check_dateExpr] at hcheck
  cases hcheck

/-- The first row of an insertion is the one that its values make up. -/
theorem mem_of_newRows {fuel : Nat} {us : List Token} {es : List Expr} {r₁ : Reader}
    {rows : List (List Expr)}
    (hrun : (exprs fuel).run { r with tokens := ts ++ ⟨.symbol, ")"⟩ :: us } =
      .ok (es, { r₁ with tokens := ⟨.symbol, ")"⟩ :: us }))
    (h : (newRows (fuel + 1)).run { r with tokens := ⟨.symbol, "("⟩ :: (ts ++ ⟨.symbol, ")"⟩ :: us) } =
      .ok (rows, r')) : es ∈ rows := by
  have hopening : (expectSymbol "(").run
      { r with tokens := ⟨.symbol, "("⟩ :: (ts ++ ⟨.symbol, ")"⟩ :: us) } =
      .ok ((), { r with tokens := ts ++ ⟨.symbol, ")"⟩ :: us }) := rfl
  have hclosing : (expectSymbol ")").run { r₁ with tokens := ⟨.symbol, ")"⟩ :: us } =
      .ok ((), { r₁ with tokens := us }) := rfl
  rw [newRows, run_bind_of_ok hopening, run_bind_of_ok hrun, run_bind_of_ok hclosing] at h
  obtain ⟨more, r₂, -, h⟩ := run_bind_eq_ok_iff.1 h
  cases more with
  | true =>
    obtain ⟨others, r₃, -, h⟩ := run_bind_eq_ok_iff.1 h
    cases h
    exact List.mem_cons_self
  | false =>
    cases h
    exact List.mem_cons_self

/-- An insertion that sets a column to a date is read and refused. -/
theorem check_insert_date {table : TableName} (hknown : ∀ name ∈ table.names, IsKnown name)
    {written : List (String × Operand)} (hwritten : ValueTokens written ts) (hne : written ≠ [])
    (hentries : ∀ e ∈ written, IsKnown e.1) (hdirect : Statement.areDirect written = false)
    (fuel : Nat) (r : Reader) (us : List Token) {command : Command}
    (h : (Grammar.command (fuel + written.length + 13)).run
      { r with tokens := ⟨.word, "INSERT"⟩ :: ⟨.word, "INTO"⟩ :: (tableTokens table ++
        ⟨.symbol, "("⟩ :: (nameTokens (written.map (·.1)) ++ ⟨.symbol, ")"⟩ :: ⟨.word, "VALUES"⟩ ::
          ⟨.symbol, "("⟩ :: (ts ++ ⟨.symbol, ")"⟩ :: us))) } = .ok (command, r')) :
    command.checkNames ≠ .ok () := by
  obtain ⟨es, r₁, hrun, hdate⟩ := exists_run_values hwritten fuel r us
  have hinto (ts : List Token) : (expectWord "INTO").run
      { r with tokens := ⟨.word, "INTO"⟩ :: ts } = .ok ((), { r with tokens := ts }) := rfl
  have hopening (ts : List Token) : (eatSymbol "(").run
      { r with tokens := ⟨.symbol, "("⟩ :: ts } = .ok (true, { r with tokens := ts }) := rfl
  have hnames (ts : List Token) : (names (fuel + written.length + 13)).run
      { r with tokens := nameTokens (written.map (·.1)) ++ ⟨.symbol, ")"⟩ :: ts } =
      .ok ((written.map (·.1)).map Identifier.found, { r with tokens := ⟨.symbol, ")"⟩ :: ts }) := by
    have hfuel : fuel + written.length + 13 = fuel + 13 + (written.map (·.1)).length := by
      rw [List.length_map]
      omega
    rw [hfuel]
    refine run_names (fun h => hne (List.map_eq_nil_iff.1 h)) ?_ _ r ts
    intro c hc
    obtain ⟨e, he, rfl⟩ := List.mem_map.1 hc
    exact hentries e he
  have hclosing (ts : List Token) : (expectSymbol ")").run
      { r with tokens := ⟨.symbol, ")"⟩ :: ts } = .ok ((), { r with tokens := ts }) := rfl
  have hdefault (ts : List Token) : (eatWord "DEFAULT").run
      { r with tokens := ⟨.word, "VALUES"⟩ :: ts } =
      .ok (false, { r with tokens := ⟨.word, "VALUES"⟩ :: ts }) := rfl
  have hvalues (ts : List Token) : (expectWord "VALUES").run
      { r with tokens := ⟨.word, "VALUES"⟩ :: ts } = .ok ((), { r with tokens := ts }) := rfl
  have hinsert : (insert (fuel + written.length + 13)).run
      { r with tokens := ⟨.word, "INTO"⟩ :: (tableTokens table ++
        ⟨.symbol, "("⟩ :: (nameTokens (written.map (·.1)) ++ ⟨.symbol, ")"⟩ :: ⟨.word, "VALUES"⟩ ::
          ⟨.symbol, "("⟩ :: (ts ++ ⟨.symbol, ")"⟩ :: us))) } = .ok (command, r') := h
  rw [insert, run_bind_of_ok (hinto _), run_bind_of_ok (run_target hknown rfl r _),
    run_bind_of_ok (hopening _), if_pos rfl, run_bind_of_ok (hnames _), run_bind_of_ok (hclosing _),
    pure_bind] at hinsert
  dsimp only at hinsert
  rw [run_bind_of_ok (hdefault _), if_neg Bool.false_ne_true, run_bind_of_ok (hvalues _)] at hinsert
  obtain ⟨rows, r₂, hrows, hinsert⟩ := run_bind_eq_ok_iff.1 hinsert
  obtain ⟨⟨⟩, r₃, -, hinsert⟩ := run_bind_eq_ok_iff.1 hinsert
  obtain ⟨returning, r₄, -, hinsert⟩ := run_bind_eq_ok_iff.1 hinsert
  cases hinsert
  exact checkNames_insert (mem_of_newRows hrun hrows) (hdate hdirect)

end Grammar

/-! ## Refused insertions -/

theorem ValueTokens.length_le {entries : List (String × Operand)} {ts : List Token}
    (h : ValueTokens entries ts) : entries.length ≤ ts.length := by
  have hsome {o : Operand} {ts : List Token} (h : OperandTokens o ts) : 1 ≤ ts.length := by
    cases h with
    | bound p v => exact Nat.le_refl 1
    | date literal format => exact Nat.le_add_left 1 5
  induction h with
  | last h => exact hsome h
  | more h hrest ih =>
    have := hsome h
    simp only [List.length_cons, List.length_append]
    omega

/-- An insertion that sets a column to a date does not run. -/
theorem runText_insert {table : TableName} (hknown : ∀ name ∈ table.names, IsKnown name)
    {entries : List (String × Operand)} (hentries : ∀ e ∈ entries, IsKnown e.1)
    (hdate : ∀ e ∈ entries, e.2.IsPlainDate) (hdirect : Statement.areDirect entries = false)
    {returning : Option String} {values : List Value} {t u : Items} {a : Answer} :
    runText ⟨(Statement.insert table entries returning).draft.text, values⟩ t ≠ .ok (u, a) := by
  intro h
  obtain ⟨understood, hread, -, hrun⟩ := runText_eq_ok h
  obtain ⟨hnames, -⟩ := Command.run_eq_ok hrun
  obtain ⟨r, hcommand⟩ := Grammar.read_eq_ok hread
  have hne : entries ≠ [] := by
    rintro rfl
    cases hdirect
  obtain ⟨ts, us, hts, htokens⟩ :=
    exists_ofText_insert table returning hne hentries hdate
  rw [htokens] at hcommand
  have hlength := hts.length_le
  obtain ⟨fuel, hfuel⟩ : ∃ fuel, 8 * (List.length (⟨.word, "INSERT"⟩ :: ⟨.word, "INTO"⟩ ::
      (tableTokens table ++ ⟨.symbol, "("⟩ :: (nameTokens (entries.map (·.1)) ++ ⟨.symbol, ")"⟩ ::
        ⟨.word, "VALUES"⟩ :: ⟨.symbol, "("⟩ :: (ts ++ ⟨.symbol, ")"⟩ :: us))))) + 8 =
          fuel + entries.length + 13 := by
    refine ⟨_, (Nat.sub_add_cancel ?_).symm.trans (Nat.add_assoc ..).symm⟩
    simp
    omega
  rw [hfuel] at hcommand
  exact Grammar.check_insert_date hknown hts hne hentries hdirect fuel
    ⟨[], 0, [], values.map fun v => (Cell.ofValue v).toOption.getD .null, none⟩ us hcommand hnames

end RowAccess.Sql
