import RowAccess.Proofs.Sql.Direct
import RowAccess.Proofs.Sql.Grammar
import RowAccess.Sql.Database

/-
  RowAccess/Proofs/Sql/Sentence.lean
  ==================================
  **Statements that hold a date.**  Such a statement is read as a text, and the reader finds the call of
  a function that the engine lacks.  So a selection by a date is refused, and so is an update that sets
  a column to one, or that sets nothing (`runText_select_date`, `runText_update`).  A selection that
shows nothing is refused as well (`runText_select_nothing`).
-/

namespace RowAccess.Sql

open Outcome

theorem Draft.toList_text (d : Draft) : d.text.toList = d.flatMap fun p => p.text.toList := by
  rw [Draft.text, String.toList_join, List.flatMap_map]

/-! ## What is read -/

theorem Grammar.read_eq_ok {text : String} {cells : List Cell} {u : Understood}
    (h : Grammar.read text cells = .ok u) :
    ∃ r, (command (8 * (Token.ofText text).length + 8)).run
      ⟨Token.ofText text, 0, [], cells, none⟩ = .ok (u.command, r) := by
  obtain ⟨⟨c, r⟩, hcommand, h⟩ := bind_eq_ok_iff.1 h
  have hunderstood {isFollowed : Bool} (h : Grammar.read.understood c r isFollowed = .ok u) :
      u.command = c := by
    unfold Grammar.read.understood at h
    split at h
    · cases h
    · cases h
      rfl
  refine ⟨r, ?_⟩
  have hc : u.command = c := by
    dsimp only at h
    split at h
    · exact hunderstood h
    · split at h
      · exact hunderstood h
      · cases h
  rw [hc]
  exact hcommand

/-- A text that ran was read to its end as a command in which all names have a meaning, and the command
did what it does. -/
theorem runText_eq_ok {p : Prepared} {t u : Items} {a : Answer} (h : runText p t = .ok (u, a)) :
    ∃ understood : Grammar.Understood,
      Grammar.read p.text (p.values.map fun v => (Cell.ofValue v).toOption.getD .null) =
        .ok understood ∧ understood.isFollowed = false ∧
          understood.command.run p.values t = .ok (u, a) := by
  obtain ⟨understood, hread, h⟩ := bind_eq_ok_iff.1 h
  obtain ⟨⟨⟩, hcheck, h⟩ := bind_eq_ok_iff.1 h
  dsimp only at h
  split at h
  · cases h
  · next hend =>
    split at h
    · cases h
    · refine ⟨understood, hread, Bool.eq_false_iff.2 hend, ?_⟩
      rw [Command.run, hcheck, ok_bind]
      exact h

/-! ## Operands and entries -/

/-- Is the operand a value or a date without quotes and markers? -/
inductive Operand.IsPlainDate : Operand → Prop
  | bound (p : Preparation) (v : Value) : IsPlainDate (.bound p v)
  | date {literal format : String} (hliteral : '\'' ∉ literal.toList)
      (hformat : '\'' ∉ format.toList) (hclean : Sql.IsClean (dateCall literal format)) :
      IsPlainDate (.verbatim (dateCall literal format))

theorem Operand.IsPlainDate.isClean {o : Operand} (h : o.IsPlainDate) : o.IsClean := by
  cases h with
  | bound p v => exact trivial
  | date hliteral hformat hclean => exact hclean

theorem text_piece_bound {c : String} (hc : c ≠ "") (p : Preparation) (v : Value) :
    (Operand.piece (.entry c) (.bound p v)).text = "?" := by
  unfold Operand.piece Piece.text
  split
  · next h => cases h
  · next h =>
    cases h
    exact absurd rfl hc
  · rfl
  · next h => cases h

/-- An operand is cut off before the comma or the bracket behind it, and no blank is in front of it. -/
theorem exists_lexes_operand {o : Operand} (h : o.IsPlainDate) {c : String} (hc : c ≠ "")
    {d : Char} (hd : d = ',' ∨ d = ')') (rest : List Char) :
    ∃ ts b cs, OperandTokens o ts ∧ (o.piece (.entry c)).text.toList = b :: cs ∧
      isNumberBlank b = false ∧
        Lexes ((o.piece (.entry c)).text.toList ++ d :: rest) ts (d :: rest) := by
  cases h with
  | bound p v =>
    rw [text_piece_bound hc]
    refine ⟨_, '?', [], .bound p v, rfl, rfl, ?_⟩
    rcases hd with rfl | rfl
    · rfl
    · rfl
  | @date literal format hliteral hformat hclean =>
    obtain ⟨cs, htext⟩ := exists_dateCall literal format
    exact ⟨_, 'T', 'O' :: cs, .date literal format, htext, rfl, .date hliteral hformat _⟩

/-- What an entry is set to is cut off before the comma or the blank behind it. -/
theorem exists_lexes_setting {o : Operand} (h : o.IsPlainDate) {c : String} (hc : c ≠ "")
    {d : Char} (hd : d = ',' ∨ d = ' ') (rest : List Char) :
    ∃ ts, OperandTokens o ts ∧
      Lexes ('=' :: ((o.piece (.entry c)).text.toList ++ d :: rest)) (⟨.symbol, "="⟩ :: ts)
        (d :: rest) := by
  cases h with
  | bound p v =>
    refine ⟨_, .bound p v, ?_⟩
    rw [text_piece_bound hc]
    rcases hd with rfl | rfl
    · rfl
    · rfl
  | @date literal format hliteral hformat hclean =>
    refine ⟨_, .date literal format, ?_⟩
    have hdate := Lexes.date hliteral hformat (d :: rest)
    have hequals (cs : List Char) : Lexes ('=' :: 'T' :: 'O' :: cs) [⟨.symbol, "="⟩]
        ('T' :: 'O' :: cs) := rfl
    obtain ⟨cs, htext⟩ := exists_dateCall literal format
    show Lexes ('=' :: ((dateCall literal format).toList ++ d :: rest)) _ _
    rw [htext] at hdate ⊢
    exact (hequals _).trans hdate

/-- The entries of an update in its text. -/
def entryText (entries : List (String × Operand)) : List Char :=
  (Draft.text (entryPieces (fun c => Identifier.text c ++ "=") entries)).toList

theorem entryText_cons_cons (e e' : String × Operand) (entries : List (String × Operand)) :
    entryText (e :: e' :: entries) =
      (Identifier.text e.1 ++ "=").toList ++ ((e.2.piece (.entry e.1)).text.toList ++
        ',' :: ' ' :: entryText (e' :: entries)) := by
  rw [entryText, AreKnown.entryPieces_cons, Draft.toList_text, entryText, Draft.toList_text]
  simp only [List.flatMap_cons]
  rfl

theorem exists_entryText (e : String × Operand) (entries : List (String × Operand)) :
    ∃ d cs, entryText (e :: entries) = d :: cs ∧ isNumberBlank d = false := by
  obtain ⟨d, cs, htext, -, hd⟩ := exists_text_name e.1
  have hname : (Identifier.text e.1 ++ "=").toList = d :: (cs ++ ['=']) := by
    rw [String.toList_append, htext]
    rfl
  cases entries with
  | nil =>
    refine ⟨d, cs ++ ['='] ++ (e.2.piece (.entry e.1)).text.toList, ?_, hd⟩
    rw [entryText, Draft.toList_text]
    simp only [entryPieces, List.flatMap_cons, List.flatMap_nil, List.append_nil]
    rw [Piece.text, hname]
    rfl
  | cons e' entries =>
    rw [entryText_cons_cons, hname]
    exact ⟨d, _, rfl, hd⟩

/-- Entries are cut off before the test. -/
theorem exists_lexes_entries {entries : List (String × Operand)} (hne : entries ≠ [])
    (hknown : ∀ e ∈ entries, IsKnown e.1) (hdate : ∀ e ∈ entries, e.2.IsPlainDate)
    (rest : List Char) :
    ∃ ts, EntryTokens entries ts ∧ Lexes (entryText entries ++ ' ' :: rest) ts (' ' :: rest) := by
  induction entries with
  | nil => exact absurd rfl hne
  | cons e entries ih =>
    have hc : IsKnown e.1 := hknown e List.mem_cons_self
    have ho : e.2.IsPlainDate := hdate e List.mem_cons_self
    have hname (cs : List Char) :
        Lexes ((Identifier.text e.1 ++ "=").toList ++ cs) [nameToken e.1] ('=' :: cs) := by
      rw [String.toList_append, List.append_assoc]
      exact lexes_name e.1 (Lexes.endsAt_cons (by decide))
    cases entries with
    | nil =>
      obtain ⟨ts, htokens, hlexes⟩ := exists_lexes_setting ho hc.ne_empty (.inr rfl) rest
      refine ⟨_, .last htokens, ?_⟩
      rw [entryText, Draft.toList_text]
      simp only [entryPieces, List.flatMap_cons, List.flatMap_nil, List.append_nil,
        List.append_assoc]
      exact (hname _).trans hlexes
    | cons e' entries =>
      have hrestKnown (e : String × Operand) (he : e ∈ e' :: entries) : IsKnown e.1 :=
        hknown e (List.mem_cons_of_mem _ he)
      obtain ⟨us, hrestTokens, hrest⟩ := ih (List.cons_ne_nil _ _) hrestKnown
        (fun e he => hdate e (List.mem_cons_of_mem _ he))
      obtain ⟨ts, htokens, hlexes⟩ := exists_lexes_setting ho hc.ne_empty (.inl rfl)
        (' ' :: (entryText (e' :: entries) ++ ' ' :: rest))
      have hcomma : Lexes (',' :: ' ' :: (entryText (e' :: entries) ++ ' ' :: rest))
          [⟨.symbol, ","⟩] (entryText (e' :: entries) ++ ' ' :: rest) := by
        obtain ⟨d, cs, htext, hd⟩ := exists_entryText e' entries
        rw [htext]
        exact (Lexes.lone (by decide) (by rintro ⟨⟩)).trans (.blank hd)
      refine ⟨_, .more htokens hrestTokens, ?_⟩
      rw [entryText_cons_cons, List.append_assoc, List.append_assoc]
      have hwhole := (hname _).trans (hlexes.trans (hcomma.trans hrest))
      simpa using hwhole

/-! ## Whole statements -/

section Whole

variable {table : TableName} {c : String}

theorem ofText_select_date (table : TableName) (c : String) {literal format : String}
    (hliteral : '\'' ∉ literal.toList) (hformat : '\'' ∉ format.toList) :
    Token.ofText (Statement.select
        (.whole table (.compare c .eq (.verbatim (dateCall literal format))))).draft.text =
      ⟨.word, "SELECT"⟩ :: ⟨.symbol, "*"⟩ :: ⟨.word, "FROM"⟩ ::
        (tableTokens table ++ ⟨.word, "WHERE"⟩ :: nameToken c :: ⟨.symbol, "="⟩ ::
          dateTokens literal format) := by
  have hfront (cs : List Char) : Lexes ("SELECT * \nFROM".toList ++ ' ' :: cs)
      [⟨.word, "SELECT"⟩, ⟨.symbol, "*"⟩, ⟨.word, "FROM"⟩] (' ' :: cs) := rfl
  have hwhere (cs : List Char) : Lexes ('W' :: ("HERE".toList ++ ' ' :: cs)) [⟨.word, "WHERE"⟩]
      (' ' :: cs) := rfl
  have hname (cs : List Char) :
      Lexes (' ' :: ((Identifier.text c).toList ++ ([' '] ++ '=' :: cs))) [nameToken c]
        ('=' :: cs) := lexes_name_between c (by decide) rfl (by rintro ⟨⟩)
  have hequals : Lexes ('=' :: ' ' :: (dateCall literal format).toList) [⟨.symbol, "="⟩]
      (dateCall literal format).toList := by
    obtain ⟨cs, htext⟩ := exists_dateCall literal format
    rw [htext]
    rfl
  have hdate := Lexes.date hliteral hformat []
  rw [List.append_nil] at hdate
  have htable (cs : List Char) : Lexes (' ' :: (table.text.toList ++ ([' ', '\n'] ++ 'W' :: cs)))
      (tableTokens table) ('W' :: cs) :=
    lexes_table_between table (by decide) rfl (by rintro ⟨⟩)
  have hlexes := (hfront _).trans <| (htable _).trans <| (hwhere _).trans <| (hname _).trans <|
    hequals.trans hdate
  have htext : (Statement.select
      (.whole table (.compare c .eq (.verbatim (dateCall literal format))))).draft.text.toList =
      "SELECT * \nFROM".toList ++ ' ' :: (table.text.toList ++ ([' ', '\n'] ++ 'W' ::
        ("HERE".toList ++ ' ' :: ((Identifier.text c).toList ++ ([' '] ++ '=' :: ' ' ::
          (dateCall literal format).toList))))) := by
    rw [Draft.toList_text, Statement.draft_whole]
    simp only [Predicate.pieces, Operand.piece, List.flatMap_cons, List.flatMap_nil, Piece.text,
      String.toList_append, List.append_assoc, List.append_nil]
    rfl
  rw [Token.ofText, htext]
  refine Eq.trans hlexes ?_
  simp [Token.scan]

/-- A selection begins with its word. -/
theorem exists_ofText_select (s : Selection) :
    ∃ ts, Token.ofText (Statement.select s).draft.text = ⟨.word, "SELECT"⟩ :: ts := by
  have htext : ∃ cs, (Statement.select s).draft.text.toList = "SELECT".toList ++ ' ' :: cs := by
    rw [Draft.toList_text, Statement.draft, Selection.draft, List.cons_append, List.cons_append,
      List.flatMap_cons]
    simp only [Piece.text, String.toList_append, List.append_assoc]
    exact ⟨_, rfl⟩
  obtain ⟨cs, hcs⟩ := htext
  have hlexes : Lexes ("SELECT".toList ++ ' ' :: cs) [⟨.word, "SELECT"⟩] (' ' :: cs) := rfl
  rw [Token.ofText, hcs]
  exact ⟨_, hlexes⟩

theorem ofText_select_nothing {s : Selection} (hs : s.columns = .named []) :
    ∃ us, Token.ofText (Statement.select s).draft.text =
      ⟨.word, "SELECT"⟩ :: ⟨.word, "FROM"⟩ :: us := by
  have htext : ∃ cs, (Statement.select s).draft.text.toList = "SELECT  \nFROM".toList ++ ' ' :: cs := by
    rw [Draft.toList_text, Statement.draft, Selection.draft, hs, List.cons_append, List.cons_append,
      List.flatMap_cons]
    simp only [Piece.text, String.toList_append, List.append_assoc]
    exact ⟨_, rfl⟩
  obtain ⟨cs, hcs⟩ := htext
  have hlexes : Lexes ("SELECT  \nFROM".toList ++ ' ' :: cs)
      [⟨.word, "SELECT"⟩, ⟨.word, "FROM"⟩] (' ' :: cs) := rfl
  rw [Token.ofText, hcs]
  exact ⟨_, hlexes⟩

variable {entries : List (String × Operand)} {p : Predicate}

variable (table entries p) in
theorem exists_text_update : ∃ cs, (Statement.update table entries p).draft.text.toList =
    "UPDATE".toList ++ ' ' :: (table.text.toList ++ ([' '] ++ 'S' ::
      ("ET".toList ++ ' ' :: (entryText entries ++ ' ' :: ('W' :: ("HERE".toList ++ ' ' :: cs)))))) := by
  refine ⟨p.pieces.flatMap fun q => q.text.toList, ?_⟩
  rw [Draft.toList_text, entryText, Draft.toList_text]
  simp only [Statement.draft, List.cons_append, List.flatMap_cons, List.flatMap_append, Piece.text,
    String.toList_append, List.append_assoc]
  rfl

theorem lexes_update (table : TableName) (rest : List Char) :
    Lexes ("UPDATE".toList ++ ' ' :: (table.text.toList ++ ([' '] ++ 'S' ::
      ("ET".toList ++ ' ' :: rest)))) (⟨.word, "UPDATE"⟩ :: (tableTokens table ++ [⟨.word, "SET"⟩]))
      (' ' :: rest) := by
  have hfront (cs : List Char) : Lexes ("UPDATE".toList ++ ' ' :: cs) [⟨.word, "UPDATE"⟩]
      (' ' :: cs) := rfl
  have hset : Lexes ('S' :: ("ET".toList ++ ' ' :: rest)) [⟨.word, "SET"⟩] (' ' :: rest) := rfl
  have htable (cs : List Char) : Lexes (' ' :: (table.text.toList ++ ([' '] ++ 'S' :: cs)))
      (tableTokens table) ('S' :: cs) :=
    lexes_table_between table (by decide) rfl (by rintro ⟨⟩)
  exact (hfront _).trans <| (htable _).trans hset

theorem lexes_where (rest : List Char) :
    Lexes (' ' :: ('W' :: ("HERE".toList ++ ' ' :: rest))) [⟨.word, "WHERE"⟩] (' ' :: rest) := rfl

theorem ofText_update (table : TableName) (p : Predicate) (hne : entries ≠ [])
    (hentries : ∀ e ∈ entries, IsKnown e.1) (hdate : ∀ e ∈ entries, e.2.IsPlainDate) :
    ∃ ts us, EntryTokens entries ts ∧
      Token.ofText (Statement.update table entries p).draft.text =
        ⟨.word, "UPDATE"⟩ :: (tableTokens table ++ ⟨.word, "SET"⟩ :: (ts ++ ⟨.word, "WHERE"⟩ :: us)) := by
  obtain ⟨cs, htext⟩ := exists_text_update table entries p
  obtain ⟨ts, htokens, hlexes⟩ :=
    exists_lexes_entries hne hentries hdate ('W' :: ("HERE".toList ++ ' ' :: cs))
  have hblank : Lexes (' ' :: (entryText entries ++ ' ' :: ('W' :: ("HERE".toList ++ ' ' :: cs)))) []
      (entryText entries ++ ' ' :: ('W' :: ("HERE".toList ++ ' ' :: cs))) := by
    obtain ⟨e, others, rfl⟩ := List.exists_cons_of_ne_nil hne
    obtain ⟨d, ds, hd, hblank⟩ := exists_entryText e others
    rw [hd]
    exact .blank hblank
  have hwhole := (lexes_update table _).trans <| hblank.trans <| hlexes.trans (lexes_where cs)
  refine ⟨ts, Token.scan (' ' :: cs) 0, htokens, ?_⟩
  rw [Token.ofText, htext]
  refine Eq.trans hwhole ?_
  simp

theorem ofText_update_nothing (table : TableName) (p : Predicate) :
    ∃ us, Token.ofText (Statement.update table [] p).draft.text =
      ⟨.word, "UPDATE"⟩ :: (tableTokens table ++ ⟨.word, "SET"⟩ :: ⟨.word, "WHERE"⟩ :: us) := by
  obtain ⟨cs, htext⟩ := exists_text_update table [] p
  have hblanks : Lexes (' ' :: (entryText [] ++ ' ' :: ('W' :: ("HERE".toList ++ ' ' :: cs))))
      [⟨.word, "WHERE"⟩] (' ' :: cs) := rfl
  refine ⟨Token.scan (' ' :: cs) 0, ?_⟩
  rw [Token.ofText, htext]
  refine Eq.trans ((lexes_update table _).trans hblanks) ?_
  simp

/-! ## Refused statements -/

/-- A selection by a date does not run. -/
theorem runText_select_date (hknown : ∀ name ∈ table.names, IsKnown name) (hc : IsKnown c)
    {literal format : String} (hliteral : '\'' ∉ literal.toList) (hformat : '\'' ∉ format.toList)
    {values : List Value} {t u : Items} {a : Answer} :
    runText ⟨(Statement.select
      (.whole table (.compare c .eq (.verbatim (dateCall literal format))))).draft.text, values⟩ t ≠
        .ok (u, a) := by
  intro h
  obtain ⟨understood, hread, -, hrun⟩ := runText_eq_ok h
  obtain ⟨hnames, -⟩ := Command.run_eq_ok hrun
  obtain ⟨r, hcommand⟩ := Grammar.read_eq_ok hread
  rw [ofText_select_date table c hliteral hformat] at hcommand
  obtain ⟨fuel, hfuel⟩ : ∃ fuel, 8 * (List.length (⟨.word, "SELECT"⟩ :: ⟨.symbol, "*"⟩ ::
      ⟨.word, "FROM"⟩ :: (tableTokens table ++ ⟨.word, "WHERE"⟩ :: nameToken c :: ⟨.symbol, "="⟩ ::
        dateTokens literal format))) + 8 = fuel + 13 := by
    refine Nat.exists_eq_add_of_le' ?_
    simp
    omega
  rw [hfuel] at hcommand
  exact Grammar.check_select_date hknown hc fuel
    ⟨[], 0, [], values.map fun v => (Cell.ofValue v).toOption.getD .null, none⟩ literal format hcommand
    hnames

/-- A selection of no columns does not run. -/
theorem runText_select_nothing {s : Selection} (hs : s.columns = .named []) {values : List Value}
    {t u : Items} {a : Answer} :
    runText ⟨(Statement.select s).draft.text, values⟩ t ≠ .ok (u, a) := by
  intro h
  obtain ⟨understood, hread, -⟩ := runText_eq_ok h
  obtain ⟨r, hcommand⟩ := Grammar.read_eq_ok hread
  obtain ⟨us, htokens⟩ := ofText_select_nothing hs
  rw [htokens] at hcommand
  have hmalformed := Grammar.run_select_nothing (8 * us.length + 20)
    ⟨[], 0, [], values.map fun v => (Cell.ofValue v).toOption.getD .null, none⟩ us
  have hfuel : 8 * (List.length (⟨.word, "SELECT"⟩ :: ⟨.word, "FROM"⟩ :: us)) + 8 =
      8 * us.length + 20 + 4 := by
    simp only [List.length_cons]
    omega
  rw [hfuel, hmalformed] at hcommand
  cases hcommand

theorem EntryTokens.length_le {ts : List Token} (h : EntryTokens entries ts) :
    entries.length ≤ ts.length := by
  induction h with
  | last h => simp
  | more h hrest ih =>
    simp
    omega

/-- An update that sets nothing, or that sets a column to a date, does not run. -/
theorem runText_update (hknown : ∀ name ∈ table.names, IsKnown name)
    (hentries : ∀ e ∈ entries, IsKnown e.1) (hdate : ∀ e ∈ entries, e.2.IsPlainDate)
    (hnone : entries = [] ∨ Statement.areDirect entries = false) {values : List Value} {t u : Items}
    {a : Answer} :
    runText ⟨(Statement.update table entries p).draft.text, values⟩ t ≠ .ok (u, a) := by
  intro h
  obtain ⟨understood, hread, -, hrun⟩ := runText_eq_ok h
  obtain ⟨hnames, -⟩ := Command.run_eq_ok hrun
  obtain ⟨r, hcommand⟩ := Grammar.read_eq_ok hread
  let start : Reader := ⟨[], 0, [], values.map fun v => (Cell.ofValue v).toOption.getD .null, none⟩
  by_cases hne : entries = []
  · subst hne
    obtain ⟨us, htokens⟩ := ofText_update_nothing table p
    rw [htokens] at hcommand
    have hmalformed := Grammar.run_update_nothing hknown
      (8 * (List.length (⟨.word, "UPDATE"⟩ :: (tableTokens table ++ ⟨.word, "SET"⟩ ::
        ⟨.word, "WHERE"⟩ :: us))) + 7) start us
    rw [hmalformed] at hcommand
    cases hcommand
  · have hdirect := hnone.resolve_left hne
    obtain ⟨ts, us, hts, htokens⟩ := ofText_update table p hne hentries hdate
    rw [htokens] at hcommand
    have hlength := hts.length_le
    obtain ⟨fuel, hfuel⟩ : ∃ fuel, 8 * (List.length (⟨.word, "UPDATE"⟩ :: (tableTokens table ++
        ⟨.word, "SET"⟩ :: (ts ++ ⟨.word, "WHERE"⟩ :: us)))) + 8 = fuel + entries.length + 12 := by
      refine ⟨_, (Nat.sub_add_cancel ?_).symm.trans (Nat.add_assoc ..).symm⟩
      simp
      omega
    rw [hfuel] at hcommand
    exact Grammar.check_update_date hknown hts hentries hdirect fuel start us hcommand hnames

end Whole

end RowAccess.Sql
