import RowAccess.Proofs.Sql.Barred
import RowAccess.Proofs.Sql.Binding

/-
  RowAccess/Proofs/Sql/Mention.lean
  =================================
  **Every name of a selection is a token of its text.**  The text is made of phrases with blanks,
  commas and brackets between them, and each of these is cut into tokens by itself (`IsPhrase`).  So a
  name with a null character brings it into the text, and a name that is a word of the engine makes
  the text one that no reader goes through (`isReadable_names`).
-/

namespace RowAccess.Sql

open Token

/-! ## Phrases -/

/-- What stands behind a phrase: nothing, a blank, a comma or a bracket. -/
inductive Stops : List Char → Prop
  | nil : Stops []
  | blank (cs : List Char) : Stops (' ' :: cs)
  | line (cs : List Char) : Stops ('\n' :: cs)
  | comma (cs : List Char) : Stops (',' :: cs)
  | bracket (cs : List Char) : Stops (')' :: cs)

theorem Stops.endsAt {rest : List Char} (h : Stops rest) : Lexes.EndsAt rest := by
  cases h with
  | nil => exact Lexes.endsAt_nil
  | blank cs => exact Lexes.endsAt_cons (by decide)
  | line cs => exact Lexes.endsAt_cons (by decide)
  | comma cs => exact Lexes.endsAt_cons (by decide)
  | bracket cs => exact Lexes.endsAt_cons (by decide)

/-- Is the text cut into tokens by itself, the names among them?  No blank is in front of it, and all
characters of the names are in it. -/
structure IsPhrase (cs : List Char) (names : List String) : Prop where
  bare : ∃ c ds, cs = c :: ds ∧ isNumberBlank c = false
  mentions : ∀ rest, Stops rest →
    ∃ ts, Lexes (cs ++ rest) ts rest ∧ ∀ n ∈ names, nameToken n ∈ ts
  holds : ∀ n ∈ names, n.toList ⊆ cs

/-- What stands between two phrases. -/
def gaps : List (List Char) :=
  [[' '], [' ', '\n'], ['\n', ' '], [',', ' ']]

namespace IsPhrase

variable {cs ds : List Char} {ns ms : List String}

/-- A phrase and a gap lead on to the next phrase. -/
theorem append {g : List Char} (h : IsPhrase cs ns) (hgap : g ∈ gaps) (h' : IsPhrase ds ms) :
    IsPhrase (cs ++ (g ++ ds)) (ns ++ ms) := by
  constructor
  · obtain ⟨c, rest, rfl, hc⟩ := h.bare
    exact ⟨c, _, rfl, hc⟩
  · intro rest hrest
    obtain ⟨us, hus, hms⟩ := h'.mentions rest hrest
    have hbetween : Stops (g ++ ds ++ rest) ∧
        ∃ ts, Lexes (g ++ ds ++ rest) ts (ds ++ rest) := by
      obtain ⟨d, es, rfl, hd⟩ := h'.bare
      have hblanks (bs : List Char) (hbs : ∀ c ∈ bs, isBlankStart c = true) :
          Lexes (bs ++ d :: (es ++ rest)) [] (d :: (es ++ rest)) := .blanks hbs hd
      simp only [gaps, List.mem_cons, List.not_mem_nil, or_false] at hgap
      rcases hgap with rfl | rfl | rfl | rfl
      · exact ⟨.blank _, [], hblanks [' '] (by decide)⟩
      · exact ⟨.blank _, [], hblanks [' ', '\n'] (by decide)⟩
      · exact ⟨.line _, [], hblanks ['\n', ' '] (by decide)⟩
      · exact ⟨.comma _, _, (Lexes.lone (by decide) (by rintro ⟨⟩)).trans (.blank hd)⟩
    obtain ⟨hstops, vs, hvs⟩ := hbetween
    obtain ⟨ts, hts, hns⟩ := h.mentions _ hstops
    refine ⟨ts ++ (vs ++ us), ?_, fun n hn => ?_⟩
    · rw [List.append_assoc]
      exact hts.trans (hvs.trans hus)
    · rcases List.mem_append.1 hn with hn | hn
      · exact List.mem_append_left _ (hns n hn)
      · exact List.mem_append_right _ (List.mem_append_right _ (hms n hn))
  · intro n hn c hc
    rcases List.mem_append.1 hn with hn | hn
    · exact List.mem_append_left _ (h.holds n hn hc)
    · exact List.mem_append_right _ (List.mem_append_right _ (h'.holds n hn hc))

theorem bracketed (h : IsPhrase cs ns) : IsPhrase ('(' :: (cs ++ [')'])) ns := by
  refine ⟨⟨'(', _, rfl, rfl⟩, fun rest _ => ?_, fun n hn c hc =>
    List.mem_cons_of_mem _ (List.mem_append_left _ (h.holds n hn hc))⟩
  obtain ⟨ts, hts, hns⟩ := h.mentions (')' :: rest) (.bracket rest)
  have hopening : Lexes ('(' :: (cs ++ ')' :: rest)) [⟨.symbol, "("⟩] (cs ++ ')' :: rest) :=
    .lone (by decide) (by rintro ⟨⟩)
  have hclosing : Lexes (')' :: rest) [⟨.symbol, ")"⟩] rest := .lone (by decide) (by rintro ⟨⟩)
  refine ⟨[⟨.symbol, "("⟩] ++ (ts ++ [⟨.symbol, ")"⟩]), ?_,
    fun n hn => List.mem_append_right _ (List.mem_append_left _ (hns n hn))⟩
  rw [List.cons_append, List.append_assoc]
  exact hopening.trans (hts.trans hclosing)

theorem of_eq (h : IsPhrase cs ns) (hds : ds = cs) (hms : ms ⊆ ns) : IsPhrase ds ms := by
  rw [hds]
  refine ⟨h.bare, fun rest hrest => ?_, fun n hn => h.holds n (hms hn)⟩
  obtain ⟨ts, hts, hns⟩ := h.mentions rest hrest
  exact ⟨ts, hts, fun n hn => hns n (hms hn)⟩

end IsPhrase

theorem subset_text (name : String) : name.toList ⊆ (Identifier.text name).toList := by
  unfold Identifier.text
  split
  · exact List.Subset.refl _
  · rw [toList_quoted]
    exact fun c hc => List.mem_cons_of_mem _ (List.mem_append_left _ (Lexes.mem_doubled hc))

theorem isPhrase_name (name : String) : IsPhrase (Identifier.text name).toList [name] := by
  constructor
  · obtain ⟨c, ds, htext, -, hc⟩ := exists_text_name name
    exact ⟨c, ds, htext, hc⟩
  · intro rest hrest
    refine ⟨[nameToken name], lexes_name name hrest.endsAt, fun n hn => ?_⟩
    rw [List.mem_singleton.1 hn]
    exact List.mem_singleton_self _
  · intro n hn
    rw [List.mem_singleton.1 hn]
    exact subset_text name

theorem isPhrase_table (table : TableName) : IsPhrase table.text.toList table.names := by
  obtain ⟨schema, name⟩ := table
  have hmentions : ∀ n ∈ TableName.names ⟨schema, name⟩,
      nameToken n ∈ tableTokens ⟨schema, name⟩ := by
    cases schema with
    | none => simp [TableName.names, tableTokens]
    | some schema => simp [TableName.names, tableTokens]
  refine ⟨exists_text_table _, fun rest hrest => ⟨_, lexes_table _ hrest.endsAt, hmentions⟩, ?_⟩
  cases schema with
  | none =>
    intro n hn
    rw [List.mem_singleton.1 hn]
    exact subset_text name
  | some schema =>
    show ∀ n ∈ [schema, name], n.toList ⊆ (Identifier.text schema ++ "." ++ Identifier.text name).toList
    rw [String.toList_append, String.toList_append]
    intro n hn c hc
    simp only [List.mem_cons, List.not_mem_nil, or_false] at hn
    rcases hn with rfl | rfl
    · exact List.mem_append_left _ (List.mem_append_left _ (subset_text _ hc))
    · exact List.mem_append_right _ (subset_text _ hc)

/-! ### Words, symbols and placeholders -/

/-- A text without names that is one token is a phrase. -/
theorem isPhrase_of_token {c : Char} {cs : List Char} {t : Token} (hc : isNumberBlank c = false)
    (h : ∀ rest, Stops rest → Lexes (c :: cs ++ rest) [t] rest) : IsPhrase (c :: cs) [] :=
  ⟨⟨c, cs, rfl, hc⟩, fun rest hrest => ⟨[t], h rest hrest, fun _ hn => absurd hn List.not_mem_nil⟩,
    fun _ hn => absurd hn List.not_mem_nil⟩

theorem isPhrase_word {s : String} (hstart : s.toList.head?.any isWordStart = true)
    (hparts : s.toList.all isWordPart = true) : IsPhrase s.toList [] := by
  cases hs : s.toList with
  | nil =>
    rw [hs] at hstart
    cases hstart
  | cons c w =>
    rw [hs] at hstart hparts
    refine isPhrase_of_token (t := ⟨.word, String.ofList (c :: w)⟩)
      (isNumberBlank_of_isWordStart hstart) fun _ hrest => ?_
    exact .word hstart (fun b hb => List.all_eq_true.1 hparts b (List.mem_cons_of_mem _ hb))
      hrest.endsAt

theorem isPhrase_star : IsPhrase ['*'] [] :=
  isPhrase_of_token rfl fun _ _ => .lone (by decide) (by rintro ⟨⟩)

theorem isPhrase_placeholder : IsPhrase ['?'] [] := by
  refine isPhrase_of_token rfl (t := ⟨.parameter, "?"⟩) fun rest hrest => ?_
  cases hrest with
  | nil => rfl
  | blank cs => rfl
  | line cs => rfl
  | comma cs => rfl
  | bracket cs => rfl

theorem numberLength_digit {d : Char} {rest : List Char} (hd : d.isDigit = true) (h : Stops rest) :
    numberLength (d :: rest) = 1 := by
  unfold numberLength
  rw [List.takeWhile_cons_of_pos hd]
  cases h with
  | nil => rfl
  | blank cs | line cs | comma cs | bracket cs =>
    rcases cs with _ | ⟨a, _ | ⟨b, cs⟩⟩
    · rfl
    · simp
    · simp

theorem front_digit {d : Char} {rest : List Char} (hd : d ∈ ['0', '1']) (h : Stops rest) :
    front (d :: rest) = (⟨.literal (leading [d]).cell, String.ofList [d]⟩, 1) := by
  have hdigits : ∀ d ∈ ['0', '1'], d.isDigit = true := by decide
  have hnumber := numberLength_digit (hdigits d hd) h
  have hword : rest.takeWhile isWordPart = [] := by
    cases h with
    | nil => rfl
    | blank cs | line cs | comma cs | bracket cs => rfl
  simp only [List.mem_cons, List.not_mem_nil, or_false] at hd
  have hat : front (d :: rest) = numberAt (d :: rest) := by
    rcases hd with rfl | rfl
    · rfl
    · rfl
  rw [hat]
  unfold numberAt
  rcases hd with rfl | rfl
  · cases h with
    | nil => simp [hnumber, take]
    | blank cs | line cs | comma cs | bracket cs => simp [hnumber, hword, take]
  · simp [hnumber, hword, take]

theorem isPhrase_digit {d : Char} (hd : d ∈ ['0', '1']) : IsPhrase [d] [] := by
  have hfacts : ∀ d ∈ ['0', '1'], d ≠ '-' ∧ d ≠ '/' ∧ isBlankStart d = false ∧
      isNumberBlank d = false := by decide
  obtain ⟨hdash, hslash, hblank, hbare⟩ := hfacts d hd
  exact isPhrase_of_token hbare fun rest hrest =>
    .of_front (Lexes.gap_of_ne hdash hslash hblank rest) (List.cons_ne_nil _ _)
      (front_digit hd hrest)

theorem triples_of_ne {c : Char} (hc : c ≠ '-') (cs : List Char) :
    triples.contains (String.ofList (c :: cs)) = false := by
  rw [Bool.eq_false_iff]
  intro hmem
  have hfront : String.ofList (c :: cs) = "->>" := List.mem_singleton.1 (List.contains_iff_mem.1 hmem)
  have hhead := congrArg (fun s => s.toList.head?) hfront
  rw [String.toList_ofList] at hhead
  exact hc (Option.some.inj hhead)

theorem symbolAt_relation (r : Relation) {rest : List Char} (h : Stops rest) :
    symbolAt (r.symbol.toList ++ rest) = (⟨.symbol, r.symbol⟩, r.symbol.toList.length) := by
  have htriple {c : Char} (hc : c ≠ '-') (cs : List Char) : symbolAt (c :: cs) =
      if pairs.contains (String.ofList ((c :: cs).take 2)) then take (fun _ => .symbol) (c :: cs) 2
      else take (fun ds => if ds.all singles.contains then .symbol else .stray) (c :: cs) 1 := by
    rw [symbolAt, List.take_succ_cons, triples_of_ne hc, if_neg Bool.false_ne_true]
  cases r with
  | ne => exact htriple (by decide) _
  | le => exact htriple (by decide) _
  | ge => exact htriple (by decide) _
  | eq =>
    refine (htriple (by decide) _).trans ?_
    cases h <;> rfl
  | gt =>
    refine (htriple (by decide) _).trans ?_
    cases h <;> rfl
  | lt =>
    refine (htriple (by decide) _).trans ?_
    cases h <;> rfl

theorem isPhrase_relation (r : Relation) : IsPhrase r.symbol.toList [] := by
  obtain ⟨c, cs, hsymbol, hc⟩ : ∃ c cs, r.symbol.toList = c :: cs ∧ c ∈ ['=', '!', '>', '<'] := by
    cases r <;> exact ⟨_, _, rfl, by decide⟩
  have hfacts : ∀ c ∈ ['=', '!', '>', '<'], c ≠ '-' ∧ c ≠ '/' ∧ isBlankStart c = false ∧
      isNumberBlank c = false := by decide
  obtain ⟨hdash, hslash, hblank, hbare⟩ := hfacts c hc
  have hat (rest : List Char) : front (c :: rest) = symbolAt (c :: rest) := by
    simp only [List.mem_cons, List.not_mem_nil, or_false] at hc
    rcases hc with rfl | rfl | rfl | rfl <;> rfl
  have hphrase (rest : List Char) (hrest : Stops rest) :
      Lexes (r.symbol.toList ++ rest) [⟨.symbol, r.symbol⟩] rest := by
    have hsym := symbolAt_relation r hrest
    rw [hsymbol, List.cons_append, ← hat] at hsym
    rw [hsymbol, List.cons_append]
    have hlexes := Lexes.of_front (Lexes.gap_of_ne hdash hslash hblank _) (List.cons_ne_nil _ _) hsym
    rwa [List.drop_succ_cons, List.drop_left] at hlexes
  rw [hsymbol] at hphrase ⊢
  exact isPhrase_of_token hbare hphrase

/-! ## Lists -/

/-- Phrases with commas between them. -/
theorem isPhrase_intercalate {α : Type} {text : α → String} {f : α → List String} {xs : List α}
    (hne : xs ≠ []) (h : ∀ x ∈ xs, IsPhrase (text x).toList (f x)) :
    IsPhrase (", ".intercalate (xs.map text)).toList (xs.flatMap f) := by
  induction xs with
  | nil => exact absurd rfl hne
  | cons x xs ih =>
    have hx := h x List.mem_cons_self
    cases xs with
    | nil =>
      refine hx.of_eq ?_ (by simp)
      simp
    | cons y ys =>
      have hrest := ih (List.cons_ne_nil _ _) fun z hz => h z (List.mem_cons_of_mem _ hz)
      refine (hx.append (g := [',', ' ']) (by decide) hrest).of_eq ?_ (by simp)
      simp [String.toList_intercalate]

/-! ## Conditions -/

theorem isPhrase_operand {o : Operand} (ho : Choices.isDirect (.apart [o]) = true) (c : String) :
    IsPhrase (o.piece (.ofColumn c)).text.toList [] := by
  cases o with
  | bound p v =>
    have htext : (Operand.piece (.ofColumn c) (.bound p v)).text = "?" := rfl
    rw [htext]
    exact isPhrase_placeholder
  | verbatim s => cases ho
  | truth b =>
    cases b with
    | false =>
      show IsPhrase "0".toList []
      exact isPhrase_digit (by decide)
    | true =>
      show IsPhrase "1".toList []
      exact isPhrase_digit (by decide)

/-- Nothing but brackets. -/
theorem isPhrase_brackets : IsPhrase ['(', ')'] [] := by
  refine ⟨⟨'(', [')'], rfl, rfl⟩, fun rest _ => ?_, fun _ hn => absurd hn List.not_mem_nil⟩
  have hopening : Lexes ('(' :: ')' :: rest) [⟨.symbol, "("⟩] (')' :: rest) :=
    .lone (by decide) (by rintro ⟨⟩)
  have hclosing : Lexes (')' :: rest) [⟨.symbol, ")"⟩] rest := .lone (by decide) (by rintro ⟨⟩)
  exact ⟨_, hopening.trans hclosing, fun _ hn => absurd hn List.not_mem_nil⟩

theorem text_listPieces (l : Label) (os : List Operand) :
    Draft.text (listPieces l os) = ", ".intercalate (os.map fun o => (o.piece l).text) := by
  rw [← String.toList_inj]
  induction os with
  | nil => rfl
  | cons o os ih =>
    cases os with
    | nil => simp [listPieces, Draft.toList_text]
    | cons o' os =>
      rw [Draft.toList_text] at ih ⊢
      rw [listPieces, List.flatMap_cons, List.flatMap_cons, ih]
      · simp [Piece.text, String.toList_intercalate]
      · rintro ⟨⟩

theorem isDirect_of_mem {o : Operand} {os : List Operand} (h : Choices.isDirect (.apart os) = true)
    (ho : o ∈ os) : Choices.isDirect (.apart [o]) = true := by
  have hall := List.all_eq_true.1 h o ho
  simpa [Choices.isDirect] using hall

/-- What is looked up in stands in brackets. -/
theorem isPhrase_choices {choices : Choices} (h : choices.isDirect = true) (c : String) :
    IsPhrase ('(' :: ((Draft.text (choices.pieces c)).toList ++ [')'])) [] := by
  cases choices with
  | together p vs =>
    have hrows : Piece.isRows vs = false := by simpa [Choices.isDirect] using h
    have htext : Draft.text (Choices.pieces c (.together p vs)) =
        ", ".intercalate ((List.replicate vs.length ()).map fun _ => "?") := by
      simp [Choices.pieces, Draft.text, Piece.text, Piece.listText, hrows, Piece.marks]
    rw [htext]
    cases vs with
    | nil => exact isPhrase_brackets
    | cons v vs =>
      refine (isPhrase_intercalate (f := fun _ => []) (List.cons_ne_nil _ _) ?_).bracketed.of_eq
        rfl (by simp)
      exact fun _ _ => isPhrase_placeholder
  | apart os =>
    rw [Choices.pieces, text_listPieces]
    cases os with
    | nil => exact isPhrase_brackets
    | cons o os =>
      refine (isPhrase_intercalate (f := fun _ => []) (List.cons_ne_nil _ _) ?_).bracketed.of_eq
        rfl (by simp)
      exact fun o' ho' => isPhrase_operand (isDirect_of_mem h ho') c

theorem isPhrase_notText (negated : Bool) {s : String} (h : IsPhrase s.toList []) :
    IsPhrase (Predicate.notText negated ++ s).toList [] := by
  cases negated with
  | false => exact h.of_eq (by simp [Predicate.notText]) (by simp)
  | true =>
    have hnot : IsPhrase "NOT".toList [] := isPhrase_word rfl rfl
    exact (hnot.append (g := [' ']) (by decide) h).of_eq (by simp [Predicate.notText]) (by simp)

theorem isPhrase_predicate {p : Predicate} (hp : p.isDirect = true) :
    IsPhrase (Draft.text p.pieces).toList [p.column] := by
  have hbehind (c : String) {cs ds : List Char} (h : IsPhrase cs []) (h' : IsPhrase ds []) :
      IsPhrase ((Identifier.text c).toList ++ ([' '] ++ (cs ++ ([' '] ++ ds)))) [c] :=
    ((isPhrase_name c).append (by decide) (h.append (by decide) h')).of_eq rfl (by simp)
  have hword {s : String} (hstart : s.toList.head?.any isWordStart = true)
      (hparts : s.toList.all isWordPart = true) (negated : Bool) :
      IsPhrase (Predicate.notText negated ++ s).toList [] :=
    isPhrase_notText negated (isPhrase_word hstart hparts)
  rw [Draft.toList_text]
  cases p with
  | compare c r o =>
    refine (hbehind c (isPhrase_relation r) (isPhrase_operand hp c)).of_eq ?_ (List.Subset.refl _)
    simp [Predicate.pieces, Piece.text]
  | absent n c =>
    refine (hbehind c (isPhrase_word (s := "IS") rfl rfl) (hword (s := "NULL") rfl rfl n)).of_eq ?_
      (List.Subset.refl _)
    simp [Predicate.pieces, Piece.text]
  | like n c o =>
    refine (hbehind c (hword (s := "LIKE") rfl rfl n) (isPhrase_operand hp c)).of_eq ?_
      (List.Subset.refl _)
    simp [Predicate.pieces, Piece.text]
  | oneOf n c choices =>
    have hlist := hbehind c (hword (s := "IN") rfl rfl n) (isPhrase_choices hp c)
    cases n with
    | false =>
      refine hlist.of_eq ?_ (List.Subset.refl _)
      simp [Predicate.pieces, Piece.text, Draft.toList_text]
    | true =>
      refine hlist.bracketed.of_eq ?_ (List.Subset.refl _)
      simp [Predicate.pieces, Piece.text, Draft.toList_text]
  | between n c low high =>
    have hlow := isPhrase_operand (isDirect_of_mem hp List.mem_cons_self) c
    have hhigh := isPhrase_operand (isDirect_of_mem hp (List.mem_cons_of_mem _ List.mem_cons_self)) c
    have hand : IsPhrase "AND".toList [] := isPhrase_word rfl rfl
    have hbounds := hlow.append (g := [' ']) (by decide) (hand.append (g := [' ']) (by decide) hhigh)
    refine (hbehind c (hword (s := "BETWEEN") rfl rfl n) hbounds).of_eq ?_ (List.Subset.refl _)
    simp [Predicate.pieces, Piece.text]

theorem isPhrase_condition {c : Condition} (hc : c.predicates.all Predicate.isDirect = true) :
    IsPhrase c.text.toList (c.predicates.map Predicate.column) := by
  have hinner {c : Condition} {ns : List String} (h : IsPhrase c.text.toList ns) :
      IsPhrase (Draft.text c.innerPieces).toList ns := by
    unfold Condition.innerPieces
    split
    · refine h.bracketed.of_eq ?_ (List.Subset.refl _)
      simp [Condition.text, Draft.toList_text, Piece.text]
    · exact h
  have hjoin {cs ds : List Char} {ns ms : List String} {s : String}
      (hstart : s.toList.head?.any isWordStart = true) (hparts : s.toList.all isWordPart = true)
      (h : IsPhrase cs ns) (h' : IsPhrase ds ms) :
      IsPhrase (cs ++ ([' '] ++ (s.toList ++ ([' '] ++ ds)))) (ns ++ ms) :=
    h.append (by decide) ((isPhrase_word hstart hparts).append (by decide) h')
  induction c with
  | atom p =>
    rw [Condition.text, Condition.pieces_atom]
    exact isPhrase_predicate (List.all_eq_true.1 hc p List.mem_cons_self)
  | both c d ihc ihd =>
    rw [Condition.predicates, List.all_append, Bool.and_eq_true] at hc
    have hboth := hjoin (s := "AND") rfl rfl (hinner (ihc hc.1)) (hinner (ihd hc.2))
    refine hboth.of_eq ?_ (by simp [Condition.predicates])
    rw [Condition.text, Condition.pieces_both]
    simp [Draft.toList_text, Piece.text]
  | either c d ihc ihd =>
    rw [Condition.predicates, List.all_append, Bool.and_eq_true] at hc
    have heither := hjoin (s := "OR") rfl rfl (ihc hc.1) (ihd hc.2)
    refine heither.of_eq ?_ (by simp [Condition.predicates])
    rw [Condition.text, Condition.pieces_either]
    simp [Condition.text, Draft.toList_text, Piece.text]

/-! ## Selections -/

theorem isPhrase_columns {columns : Columns} (h : columns ≠ .named []) :
    IsPhrase columns.text.toList columns.names := by
  cases columns with
  | all => exact isPhrase_star
  | named names =>
    have hne : names ≠ [] := fun heq => h (congrArg Columns.named heq)
    refine (isPhrase_intercalate hne fun n _ => isPhrase_name n).of_eq rfl ?_
    simp [Columns.names]

theorem isPhrase_sortColumn (t : SortColumn) : IsPhrase t.text.toList [t.column] := by
  obtain ⟨column, direction⟩ := t
  have hbehind {s : String} (hstart : s.toList.head?.any isWordStart = true)
      (hparts : s.toList.all isWordPart = true) :
      IsPhrase ((Identifier.text column).toList ++ ([' '] ++ s.toList)) [column] :=
    ((isPhrase_name column).append (by decide) (isPhrase_word hstart hparts)).of_eq rfl (by simp)
  cases direction with
  | ascending =>
    refine (hbehind (s := "ASC") rfl rfl).of_eq ?_ (List.Subset.refl _)
    simp [SortColumn.text]
  | descending =>
    refine (hbehind (s := "DESC") rfl rfl).of_eq ?_ (List.Subset.refl _)
    simp [SortColumn.text]

section Clauses

variable {d : Draft} {ns ms : List String} {cs : List Char}

/-- A clause behind a draft: its first words and what they are about. -/
theorem isPhrase_clause {s : String} {g : List Char} (h : IsPhrase d.text.toList ns)
    (hgap : g ∈ gaps) (hs : IsPhrase s.toList []) (hcs : IsPhrase cs ms) :
    IsPhrase (d.text.toList ++ (g ++ (s.toList ++ ([' '] ++ cs)))) (ns ++ ms) :=
  h.append hgap (hs.append (by decide) hcs)

theorem isPhrase_where (h : IsPhrase d.text.toList ns) (condition : Option Condition) :
    ((condition.map Condition.predicates).getD []).all Predicate.isDirect = true →
    IsPhrase (Draft.text (d ++ match condition with
        | none => []
        | some c => .words " \nWHERE " :: c.pieces)).toList
      (ns ++ ((condition.map Condition.predicates).getD []).map Predicate.column) := by
  intro hdirect
  cases condition with
  | none => exact h.of_eq (by simp) (by simp)
  | some c =>
    refine (isPhrase_clause (s := "WHERE") (g := [' ', '\n']) h (by decide) (isPhrase_word rfl rfl)
      (isPhrase_condition hdirect)).of_eq ?_ (List.Subset.refl _)
    simp [Draft.toList_text, Condition.text, Piece.text]

theorem isPhrase_order (h : IsPhrase d.text.toList ns) (order : List SortColumn) :
    IsPhrase (Draft.text (d ++ if order.isEmpty then []
        else [.words (" ORDER BY " ++ ", ".intercalate (order.map SortColumn.text))])).toList
      (ns ++ order.map SortColumn.column) := by
  cases order with
  | nil => exact h.of_eq (by simp) (by simp)
  | cons t ts =>
    have hwords : IsPhrase "ORDER BY".toList [] :=
      (isPhrase_word (s := "ORDER") rfl rfl).append (g := [' ']) (by decide)
        (isPhrase_word (s := "BY") rfl rfl)
    have hterms := isPhrase_intercalate (List.cons_ne_nil t ts) fun t _ => isPhrase_sortColumn t
    rw [← List.map_eq_flatMap] at hterms
    refine (isPhrase_clause (g := [' ']) h (by decide) hwords hterms).of_eq ?_
      (List.Subset.refl _)
    simp [Draft.toList_text, Piece.text]

theorem isPhrase_limit (h : IsPhrase d.text.toList ns) (limit : Option Int) :
    IsPhrase (Draft.text (d ++ match limit with
        | none => []
        | some n => [.words "\n LIMIT ", .single .ofLimit .plain (.int n), .words " OFFSET ",
          .single .ofLimit .plain (.int 0)])).toList ns := by
  cases limit with
  | none => exact h.of_eq (by simp) (List.Subset.refl _)
  | some n =>
    have hoffset := (isPhrase_word (s := "OFFSET") rfl rfl).append (g := [' ']) (by decide)
      isPhrase_placeholder
    have hcount := isPhrase_placeholder.append (g := [' ']) (by decide) hoffset
    refine (isPhrase_clause (s := "LIMIT") (g := ['\n', ' ']) h (by decide) (isPhrase_word rfl rfl)
      hcount).of_eq ?_ (by simp)
    have hmark (v : Value) : (Piece.single .ofLimit .plain v).text = "?" := rfl
    have hwords (s : String) : (Piece.words s).text = s := rfl
    simp [Draft.toList_text, hmark, hwords]

end Clauses

/-- The text of a selection is a phrase with its names. -/
theorem isPhrase_select {s : Selection} (hcolumns : s.columns ≠ .named [])
    (hdirect : ((s.condition.map Condition.predicates).getD []).all Predicate.isDirect = true) :
    IsPhrase (Statement.select s).draft.text.toList (Statement.select s).names := by
  have hfront : IsPhrase (Draft.text
      [.words ("SELECT " ++ s.columns.text ++ " \nFROM " ++ s.table.text)]).toList
      (s.columns.names ++ s.table.names) := by
    have hselect := (isPhrase_word (s := "SELECT") rfl rfl).append (g := [' ']) (by decide)
      (isPhrase_columns hcolumns)
    have hfrom := (isPhrase_word (s := "FROM") rfl rfl).append (g := [' ']) (by decide)
      (isPhrase_table s.table)
    refine (hselect.append (g := [' ', '\n']) (by decide) hfrom).of_eq ?_ (by simp)
    simp [Draft.toList_text, Piece.text]
  exact isPhrase_limit (isPhrase_order (isPhrase_where hfront s.condition hdirect) s.order) s.limit

/-! ## Names that are found -/

/-- **A selection that is sent and read holds no name that the engine does not find**: a null
character is refused, and so is a word of the engine where a name stands. -/
theorem isReadable_names {s : Selection} (hcolumns : s.columns ≠ .named [])
    (hdirect : ((s.condition.map Condition.predicates).getD []).all Predicate.isDirect = true)
    {values : List Value} {t u : Items} {a : Answer}
    (hnull : ∀ c ∈ (Statement.select s).draft.text.toList, c.toNat ≠ 0)
    (h : runText ⟨(Statement.select s).draft.text, values⟩ t = .ok (u, a)) :
    (Statement.select s).names.all Statement.isReadable = true := by
  obtain ⟨understood, hread, hend, -⟩ := runText_eq_ok h
  obtain ⟨us, hselect⟩ := exists_ofText_select s
  have hbarred := Grammar.not_mem_of_read hselect hread hend
  have hphrase := isPhrase_select hcolumns hdirect
  obtain ⟨ts, hlexes, hmentions⟩ := hphrase.mentions [] .nil
  have htokens : Token.ofText (Statement.select s).draft.text = ts := by
    rw [List.append_nil] at hlexes
    exact Eq.trans hlexes (List.append_nil ts)
  have hwords : ∀ n ∈ Statement.engineWords, nameToken n ∈ Grammar.barred := by decide
  refine List.all_eq_true.2 fun n hn => ?_
  rw [Statement.isReadable, Bool.and_eq_true]
  constructor
  · by_cases hword : n ∈ Statement.engineWords
    · exact absurd (htokens ▸ hmentions n hn) (hbarred _ (hwords n hword))
    · simpa using hword
  · exact List.all_eq_true.2 fun c hc => bne_iff_ne.2 (hnull c (hphrase.holds n hn hc))

end RowAccess.Sql
