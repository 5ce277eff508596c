import RowAccess.Proofs.Sql.Names
import RowAccess.Sql.Token

/-
  RowAccess/Proofs/Sql/Tokens.lean
  ================================
  **How a statement is cut into tokens.**  A front of a text is cut off together with the characters
  behind it, so that no word or number is split (`Lexes`); fronts of a text follow one another.  Every
  name is cut off whole, in quotes or without, and so is what stands in quotes (`lexes_name`).
-/

namespace RowAccess.Sql

open Token

/-- A text is cut into tokens and a rest, at which a new token begins. -/
def Lexes (cs : List Char) (ts : List Token) (rest : List Char) : Prop :=
  Token.scan cs 0 = ts ++ Token.scan rest 0

namespace Lexes

variable {cs rest rest' : List Char} {ts us : List Token}

theorem refl (cs : List Char) : Lexes cs [] cs := rfl

theorem trans (h : Lexes cs ts rest) (h' : Lexes rest us rest') : Lexes cs (ts ++ us) rest' := by
  rw [Lexes, h, h', List.append_assoc]

theorem scan_skip (cs : List Char) (skip : Nat) :
    Token.scan cs skip = Token.scan (cs.drop skip) 0 := by
  induction cs generalizing skip with
  | nil => cases skip <;> simp [Token.scan]
  | cons c cs ih =>
    cases skip with
    | zero => rfl
    | succ skip => exact ih skip

theorem of_gap {n : Nat} (h : gap cs = n + 1) : Lexes cs [] (cs.drop (n + 1)) := by
  cases cs with
  | nil => cases h
  | cons c cs =>
    unfold Lexes
    rw [Token.scan, h]
    exact scan_skip cs n

theorem of_front {t : Token} {n : Nat} (hgap : gap cs = 0) (hcs : cs ≠ [])
    (h : front cs = (t, n + 1)) : Lexes cs [t] (cs.drop (n + 1)) := by
  cases cs with
  | nil => exact absurd rfl hcs
  | cons c cs =>
    unfold Lexes
    rw [Token.scan, hgap]
    dsimp only
    rw [h, Nat.add_sub_cancel, scan_skip cs n]
    rfl

theorem isBlankStart_cases {c : Char} (h : isBlankStart c = true) :
    c ∈ [' ', '\t', '\n', Char.ofNat 12, '\r'] := by
  simp only [isBlankStart, Bool.or_eq_true, beq_iff_eq] at h
  rcases h with (((rfl | rfl) | rfl) | hfeed) | rfl
  · decide
  · decide
  · decide
  · rw [← Char.ofNat_toNat c, hfeed]
    decide
  · decide

theorem isNumberBlank_of_isBlankStart {c : Char} (h : isBlankStart c = true) :
    isNumberBlank c = true := by
  have hblanks : ∀ c ∈ [' ', '\t', '\n', Char.ofNat 12, '\r'], isNumberBlank c = true := by decide
  exact hblanks c (isBlankStart_cases h)

theorem gap_cons {c : Char} (hdash : c ≠ '-') (hslash : c ≠ '/') (cs : List Char) :
    gap (c :: cs) = if isBlankStart c then 1 + (cs.takeWhile isNumberBlank).length else 0 := by
  unfold gap
  split
  · next heq => exact absurd (List.cons.inj heq).1 hdash
  · next heq => exact absurd (List.cons.inj heq).1 hslash
  · next heq =>
    obtain ⟨rfl, rfl⟩ := List.cons.inj heq
    rfl
  · next heq => cases heq

/-- Blanks before what is none are passed over. -/
theorem blanks {bs : List Char} {d : Char} (hbs : ∀ c ∈ bs, isBlankStart c = true)
    (hd : isNumberBlank d = false) : Lexes (bs ++ d :: rest) [] (d :: rest) := by
  cases bs with
  | nil => exact .refl _
  | cons c bs =>
    have hc := hbs c List.mem_cons_self
    have hline : (bs ++ d :: rest).takeWhile isNumberBlank = bs := by
      rw [List.takeWhile_append_of_pos fun b hb => isNumberBlank_of_isBlankStart
        (hbs b (List.mem_cons_of_mem _ hb)), List.takeWhile_cons_of_neg (by simp [hd]),
        List.append_nil]
    have hgap : gap (c :: bs ++ d :: rest) = bs.length + 1 := by
      rw [List.cons_append, gap_cons, if_pos hc, hline, Nat.add_comm]
      · rintro rfl
        cases hc
      · rintro rfl
        cases hc
    have hlexes := of_gap hgap
    rwa [List.cons_append, List.drop_succ_cons, List.drop_left] at hlexes

theorem blank {d : Char} (hd : isNumberBlank d = false) : Lexes (' ' :: d :: rest) [] (d :: rest) := by
  have hspace : ∀ c ∈ [' '], isBlankStart c = true := by decide
  have hlexes : Lexes ([' '] ++ d :: rest) [] (d :: rest) := blanks hspace hd
  exact hlexes

/-! ## What stands behind a token -/

/-- May the character stand right behind a word or a name in quotes? -/
structure Ends (d : Char) : Prop where
  wordPart : isWordPart d = false
  single : d ≠ '\''
  double : d ≠ '"'
  blank : isNumberBlank d = true → isBlankStart d = true

instance (d : Char) : Decidable (Ends d) :=
  decidable_of_iff
    (isWordPart d = false ∧ d ≠ '\'' ∧ d ≠ '"' ∧ (isNumberBlank d = true → isBlankStart d = true))
    ⟨fun h => ⟨h.1, h.2.1, h.2.2.1, h.2.2.2⟩, fun h => ⟨h.wordPart, h.single, h.double, h.blank⟩⟩

/-- May the text stand right behind a word or a name in quotes? -/
def EndsAt (rest : List Char) : Prop :=
  ∀ d ∈ rest.head?, Ends d

theorem endsAt_nil : EndsAt [] :=
  fun _ h => absurd h (by rintro ⟨⟩)

theorem endsAt_cons {d : Char} (h : Ends d) : EndsAt (d :: rest) := by
  rintro _ ⟨⟩
  exact h

theorem ends_of_isBlankStart {c : Char} (h : isBlankStart c = true) : Ends c := by
  have hblanks : ∀ c ∈ [' ', '\t', '\n', Char.ofNat 12, '\r'], Ends c := by decide
  exact hblanks c (isBlankStart_cases h)

/-- Blanks end a word, and so does what stands behind them if there are none. -/
theorem endsAt_blanks {bs : List Char} {d : Char} (hbs : ∀ c ∈ bs, isBlankStart c = true)
    (hnext : bs = [] → Ends d) : EndsAt (bs ++ d :: rest) := by
  cases bs with
  | nil => exact endsAt_cons (hnext rfl)
  | cons b bs => exact endsAt_cons (ends_of_isBlankStart (hbs b List.mem_cons_self))

/-- A line feed is passed over together with the blanks behind it. -/
theorem line (hends : EndsAt rest) : Lexes ('\n' :: rest) [] rest := by
  cases rest with
  | nil => rfl
  | cons d rest =>
    cases hd : isNumberBlank d with
    | false =>
      have hline : ∀ c ∈ ['\n'], isBlankStart c = true := by decide
      have hlexes : Lexes (['\n'] ++ d :: rest) [] (d :: rest) := blanks hline hd
      exact hlexes
    | true =>
      have hstart : isBlankStart d = true := (hends d rfl).blank hd
      have hgap : gap (d :: rest) = (rest.takeWhile isNumberBlank).length + 1 := by
        rw [gap_cons, if_pos hstart, Nat.add_comm]
        · rintro rfl
          cases hstart
        · rintro rfl
          cases hstart
      have hwhole : gap ('\n' :: d :: rest) = (rest.takeWhile isNumberBlank).length + 1 + 1 := by
        rw [gap_cons (by decide) (by decide), if_pos (by decide), List.takeWhile_cons_of_pos hd,
          List.length_cons, Nat.add_comm]
      have hskipped : Lexes ('\n' :: d :: rest) []
          ((d :: rest).drop ((rest.takeWhile isNumberBlank).length + 1)) := of_gap hwhole
      exact hskipped.trans (of_gap hgap).symm

/-! ## Words -/

theorem isWordStart_ne {c d : Char} (hc : isWordStart c = true) (hd : isWordStart d = false) :
    c ≠ d := by
  rintro rfl
  rw [hd] at hc
  cases hc

theorem gap_of_ne {c : Char} (hdash : c ≠ '-') (hslash : c ≠ '/') (hblank : isBlankStart c = false)
    (cs : List Char) : gap (c :: cs) = 0 := by
  rw [gap_cons hdash hslash, hblank, if_neg Bool.false_ne_true]

theorem isBlankStart_of_isWordStart {c : Char} (hc : isWordStart c = true) :
    isBlankStart c = false := by
  have hblanks : ∀ c ∈ [' ', '\t', '\n', Char.ofNat 12, '\r'], isWordStart c = false := by decide
  rw [Bool.eq_false_iff]
  intro hblank
  rw [hblanks c (isBlankStart_cases hblank)] at hc
  cases hc

theorem isWordPart_of_isWordStart {c : Char} (hc : isWordStart c = true) : isWordPart c = true := by
  simp only [isWordStart, isWordPart, Char.isAlphanum, Bool.or_eq_true] at hc ⊢
  rcases hc with (h | h) | h
  · exact .inl (.inl (.inl (.inl h)))
  · exact .inl (.inl (.inr h))
  · exact .inr h

/-- A word ends before a character that is no part of it. -/
theorem word {c : Char} {w : List Char} (hc : isWordStart c = true)
    (hw : ∀ b ∈ w, isWordPart b = true) (hends : EndsAt rest) :
    Lexes (c :: w ++ rest) [⟨.word, String.ofList (c :: w)⟩] rest := by
  have hgap : gap (c :: w ++ rest) = 0 :=
    gap_of_ne (isWordStart_ne hc rfl) (isWordStart_ne hc rfl) (isBlankStart_of_isWordStart hc) _
  have hhead : (w ++ rest).head? ≠ some '\'' := by
    cases w with
    | nil => exact fun heq => (hends _ heq).single rfl
    | cons b w =>
      intro heq
      have hb := hw b List.mem_cons_self
      rw [Option.some.inj heq] at hb
      cases hb
  have hbehind : rest.takeWhile isWordPart = [] := by
    cases rest with
    | nil => rfl
    | cons d rest => exact List.takeWhile_cons_of_neg (by rw [(hends d rfl).wordPart]; rintro ⟨⟩)
  have hparts : (c :: w ++ rest).takeWhile isWordPart = c :: w := by
    have hall : ∀ b ∈ c :: w, isWordPart b = true := by
      intro b hb
      rcases List.mem_cons.1 hb with rfl | hb
      · exact isWordPart_of_isWordStart hc
      · exact hw b hb
    rw [List.takeWhile_append_of_pos hall, hbehind, List.append_nil]
  have hfront : front (c :: w ++ rest) = (⟨.word, String.ofList (c :: w)⟩, w.length + 1) := by
    rw [List.cons_append] at hparts ⊢
    unfold front
    dsimp only
    rw [if_neg fun h => hhead h.2, if_pos hc, hparts]
    simp [take]
  have hlexes := of_front hgap (List.cons_ne_nil _ _) hfront
  rwa [List.cons_append, List.drop_succ_cons, List.drop_left] at hlexes

/-! ## Quotes -/

/-- Characters as they stand between quotes: a quote among them is written twice. -/
def doubled (q : Char) (cs : List Char) : List Char :=
  cs.flatMap fun c => if c = q then [q, q] else [c]

section Quotes

variable {q c : Char} {cs : List Char}

theorem doubled_cons_self (q : Char) (cs : List Char) :
    doubled q (q :: cs) = q :: q :: doubled q cs := by
  rw [doubled, List.flatMap_cons, if_pos rfl]
  rfl

theorem doubled_cons_of_ne (hc : c ≠ q) (cs : List Char) :
    doubled q (c :: cs) = c :: doubled q cs := by
  rw [doubled, List.flatMap_cons, if_neg hc]
  rfl

theorem doubled_of_not_mem (hcs : q ∉ cs) : doubled q cs = cs := by
  induction cs with
  | nil => rfl
  | cons c cs ih =>
    rw [List.mem_cons, not_or] at hcs
    rw [doubled_cons_of_ne (Ne.symm hcs.1), ih hcs.2]

theorem mem_doubled (h : c ∈ cs) : c ∈ doubled q cs := by
  refine List.mem_flatMap.2 ⟨c, h, ?_⟩
  split
  · next heq =>
    rw [heq]
    exact List.mem_cons_self
  · exact List.mem_singleton_self c

theorem quotedLength?_doubled (hrest : rest.head? ≠ some q) :
    quotedLength? q (doubled q cs ++ q :: rest) = some ((doubled q cs).length + 1) := by
  induction cs with
  | nil =>
    cases rest with
    | nil => exact if_pos rfl
    | cons d rest =>
      have hd : d ≠ q := fun heq => hrest (congrArg some heq)
      show quotedLength? q (q :: d :: rest) = some 1
      rw [quotedLength?, if_pos rfl, if_neg hd]
  | cons c cs ih =>
    by_cases hc : c = q
    · subst hc
      rw [doubled_cons_self, List.cons_append, List.cons_append, quotedLength?, if_pos rfl,
        if_pos rfl, ih]
      rfl
    · rw [doubled_cons_of_ne hc, List.cons_append]
      cases hbehind : doubled q cs ++ q :: rest with
      | nil => simp at hbehind
      | cons b behind =>
        rw [quotedLength?, if_neg hc, ← hbehind, ih]
        rfl

theorem unquoted_doubled (q : Char) (cs : List Char) : unquoted q (doubled q cs) = cs := by
  induction cs with
  | nil => rfl
  | cons c cs ih =>
    by_cases hc : c = q
    · subst hc
      rw [doubled_cons_self, unquoted, ih]
      simp
    · rw [doubled_cons_of_ne hc]
      cases hbehind : doubled q cs with
      | nil =>
        rw [hbehind] at ih
        rw [← ih]
        simp [unquoted, hc]
      | cons b behind =>
        rw [hbehind] at ih
        simp [unquoted, hc, ih]

/-- What stands in quotes is cut off whole. -/
theorem quoted (hq : q = '\'' ∨ q = '"') (cs : List Char) (hends : EndsAt rest) :
    Lexes (q :: doubled q cs ++ q :: rest)
      [⟨if q = '\'' then .literal (.text (String.ofList cs))
        else .name ⟨String.ofList cs, q = '"'⟩, String.ofList (q :: doubled q cs ++ [q])⟩]
      rest := by
  have hgap : gap (q :: doubled q cs ++ q :: rest) = 0 := by
    rcases hq with rfl | rfl
    · exact gap_of_ne (by decide) (by decide) (by decide) _
    · exact gap_of_ne (by decide) (by decide) (by decide) _
  have hat : front (q :: doubled q cs ++ q :: rest) =
      quotedAt q (q :: doubled q cs ++ q :: rest) := by
    rcases hq with rfl | rfl
    · rfl
    · rfl
  have hrest : rest.head? ≠ some q := by
    intro heq
    rcases hq with rfl | rfl
    · exact (hends _ heq).single rfl
    · exact (hends _ heq).double rfl
  have hinside : (doubled q cs ++ q :: rest).take ((doubled q cs).length + 1 - 1) =
      doubled q cs := by simp
  have hwhole : (q :: doubled q cs ++ q :: rest).take ((doubled q cs).length + 1 + 1) =
      q :: doubled q cs ++ [q] := by
    rw [List.append_cons]
    exact List.take_left' (by simp)
  have hfront : front (q :: doubled q cs ++ q :: rest) =
      (⟨if q = '\'' then .literal (.text (String.ofList cs))
        else .name ⟨String.ofList cs, q = '"'⟩, String.ofList (q :: doubled q cs ++ [q])⟩,
        (doubled q cs).length + 1 + 1) := by
    rw [hat]
    unfold quotedAt
    rw [List.cons_append, List.drop_one, List.tail_cons, quotedLength?_doubled hrest]
    dsimp only
    rw [hinside, unquoted_doubled, take, ← List.cons_append, hwhole]
  have hlexes := of_front hgap (List.cons_ne_nil _ _) hfront
  have hdrop : (q :: doubled q cs ++ q :: rest).drop ((doubled q cs).length + 1 + 1) = rest := by
    simp
  rwa [hdrop] at hlexes

end Quotes

/-! ## Symbols -/

/-- Symbols that are part of no longer one. -/
def loneSymbols : List Char := ['(', ')', ',', '.', '*']

theorem symbolAt_lone {c : Char} (hc : c ∈ loneSymbols) (rest : List Char) :
    symbolAt (c :: rest) = (⟨.symbol, String.ofList [c]⟩, 1) := by
  have hlonger : ∀ s ∈ triples ++ pairs, ∀ c ∈ loneSymbols, s.toList.head? ≠ some c := by decide
  have hnone (n : Nat) (strings : List String) (hmem : ∀ s ∈ strings, s ∈ triples ++ pairs) :
      strings.contains (String.ofList ((c :: rest).take (n + 1))) = false := by
    rw [Bool.eq_false_iff]
    intro hcontains
    refine hlonger _ (hmem _ (List.contains_iff_mem.1 hcontains)) c hc ?_
    rw [String.toList_ofList]
    rfl
  have hsingle : ([c].all singles.contains) = true := by
    have hall : ∀ c ∈ loneSymbols, [c].all singles.contains = true := by decide
    exact hall c hc
  rw [symbolAt, hnone 2 triples (fun s hs => List.mem_append_left _ hs), if_neg Bool.false_ne_true,
    hnone 1 pairs (fun s hs => List.mem_append_right _ hs), if_neg Bool.false_ne_true, take,
    List.take_succ_cons, List.take_zero, if_pos hsingle]

/-- A symbol is cut off, except for a point before a digit. -/
theorem lone {c : Char} (hc : c ∈ loneSymbols)
    (hdigit : c = '.' → ∀ d ∈ rest.head?, d.isDigit = false) :
    Lexes (c :: rest) [⟨.symbol, String.ofList [c]⟩] rest := by
  have hfacts : ∀ c ∈ loneSymbols, c ≠ '-' ∧ c ≠ '/' ∧ isBlankStart c = false ∧
      isWordStart c = false ∧ c.isDigit = false ∧ ¬ (c = 'x' ∨ c = 'X') ∧
      ¬ (c = '\'' ∨ c = '"' ∨ c.toNat = 96) ∧ c ≠ '[' ∧
      ¬ (c = '?' ∨ c = ':' ∨ c = '@' ∨ c = '$' ∨ c = '#') := by decide
  obtain ⟨hdash, hslash, hblank, hword, hnumber, hbytes, hquote, hbracket, hparameter⟩ :=
    hfacts c hc
  have hpoint : (decide (c = '.') && (rest.head?.map Char.isDigit).getD false) = false := by
    rw [Bool.and_eq_false_iff]
    by_cases heq : c = '.'
    · refine .inr ?_
      cases hhead : rest.head? with
      | none => rfl
      | some d => exact hdigit heq d hhead
    · exact .inl (decide_eq_false heq)
  have hfront : front (c :: rest) = (⟨.symbol, String.ofList [c]⟩, 0 + 1) := by
    unfold front
    dsimp only
    rw [if_neg fun h => hbytes h.1, hword, if_neg Bool.false_ne_true, hnumber, hpoint, Bool.or_false,
      if_neg Bool.false_ne_true, if_neg hquote, if_neg hbracket, if_neg hparameter,
      symbolAt_lone hc]
  exact of_front (gap_of_ne hdash hslash hblank rest) (List.cons_ne_nil _ _) hfront

end Lexes

/-! ## Names -/

theorem toNat_of_isWordStart {c : Char} (h : isWordStart c = true) : 57 < c.toNat := by
  have hothers : ∀ n ≤ 57, isWordStart (Char.ofNat n) = false := by decide
  rcases Nat.lt_or_ge 57 c.toNat with hlt | hle
  · exact hlt
  · rw [← Char.ofNat_toNat c, hothers c.toNat hle] at h
    cases h

theorem isNumberBlank_of_isWordStart {c : Char} (h : isWordStart c = true) :
    isNumberBlank c = false := by
  have hnumber := toNat_of_isWordStart h
  have hspace : c ≠ ' ' := Lexes.isWordStart_ne h (by decide)
  simp [isNumberBlank, hspace]
  omega

/-- The token of a name in a statement. -/
def nameToken (name : String) : Token :=
  if Identifier.isPlain name then ⟨.word, Identifier.found name⟩
  else ⟨.name ⟨Identifier.found name, true⟩, Identifier.quoted name⟩

section Names

variable {name : String} {rest : List Char}

theorem isWordPart_of_isPlainChar {c : Char} (h : Identifier.isPlainChar c = true) :
    isWordPart c = true := by
  have halpha : c.isAlpha = (c.isUpper || c.isLower) := rfl
  simp only [Identifier.isPlainChar, Bool.or_eq_true, beq_iff_eq] at h
  rcases h with ((((h | h) | h) | h) | h) | h
  all_goals simp [isWordPart, Char.isAlphanum, halpha, h]

theorem isWordStart_of_isPlainChar {c : Char} (h : Identifier.isPlainChar c = true)
    (hdigit : c.isDigit = false) (hdollar : c ≠ '$') : isWordStart c = true := by
  have halpha : c.isAlpha = (c.isUpper || c.isLower) := rfl
  simp only [Identifier.isPlainChar, Bool.or_eq_true, beq_iff_eq, hdigit, hdollar] at h
  rcases h with ((((h | h) | h) | h) | h) | h
  all_goals simp [isWordStart, halpha] at h ⊢
  all_goals simp [h]

/-- A name that needs no quotes is found as a word. -/
theorem exists_found (h : Identifier.isPlain name = true) :
    ∃ c w, (Identifier.found name).toList = c :: w ∧ isWordStart c = true ∧
      ∀ b ∈ w, isWordPart b = true := by
  rw [Identifier.found, if_pos h, String.toList_ofList]
  unfold Identifier.isPlain at h
  split at h
  · cases h
  · next c r hbody =>
    simp only [Bool.and_eq_true, Bool.not_eq_true', bne_iff_ne, List.all_cons] at h
    obtain ⟨⟨⟨hdigit, hdollar⟩, hc, hr⟩, -⟩ := h
    exact ⟨c, r, hbody, isWordStart_of_isPlainChar hc hdigit hdollar, fun b hb =>
      isWordPart_of_isPlainChar (List.all_eq_true.1 hr b hb)⟩

theorem toList_quoted (name : String) :
    (Identifier.quoted name).toList = '"' :: Lexes.doubled '"' name.toList ++ ['"'] := by
  simp only [Identifier.quoted, String.toList_append, String.toList_ofList]
  rfl

/-- **A name is cut off whole.** -/
theorem lexes_name (name : String) (hends : Lexes.EndsAt rest) :
    Lexes ((Identifier.text name).toList ++ rest) [nameToken name] rest := by
  unfold Identifier.text nameToken
  by_cases hplain : Identifier.isPlain name = true
  · rw [if_pos hplain, if_pos hplain]
    obtain ⟨c, w, hfound, hc, hw⟩ := exists_found hplain
    have hword {rest : List Char} (hends : Lexes.EndsAt rest) :
        Lexes ((Identifier.found name).toList ++ rest) [⟨.word, Identifier.found name⟩] rest := by
      rw [← String.ofList_toList (s := Identifier.found name), String.toList_ofList, hfound]
      exact .word hc hw hends
    rcases IsKnown.toList_name name with hname | ⟨-, hname⟩
    · rw [hname] at hword ⊢
      exact hword hends
    · rw [hname, List.append_assoc]
      exact (hword (Lexes.endsAt_cons (by decide))).trans (.line hends)
  · rw [if_neg hplain, if_neg hplain, toList_quoted, List.append_assoc]
    have hlexes : Lexes ('"' :: Lexes.doubled '"' name.toList ++ '"' :: rest) _ rest :=
      .quoted (.inr rfl) name.toList hends
    rw [← toList_quoted, String.ofList_toList, String.ofList_toList, if_neg (by decide)] at hlexes
    rw [Identifier.found, if_neg hplain]
    exact hlexes

/-- No name begins with a digit or a blank in a statement. -/
theorem exists_text_name (name : String) :
    ∃ c cs, (Identifier.text name).toList = c :: cs ∧ c.isDigit = false ∧
      isNumberBlank c = false := by
  unfold Identifier.text
  split
  · next hplain =>
    obtain ⟨c, w, hfound, hc, -⟩ := exists_found hplain
    have hnumber := toNat_of_isWordStart hc
    have hdigit : c.isDigit = false := by
      rw [Bool.eq_false_iff]
      intro hdigit
      have hbounds : 48 ≤ c.toNat ∧ c.toNat ≤ 57 := Char.isDigit_iff_toNat.1 hdigit
      omega
    have hblank := isNumberBlank_of_isWordStart hc
    rcases IsKnown.toList_name name with hname | ⟨-, hname⟩
    · rw [hname] at hfound
      exact ⟨c, w, hfound, hdigit, hblank⟩
    · exact ⟨c, w ++ ['\n'], by rw [hname, hfound]; rfl, hdigit, hblank⟩
  · rw [toList_quoted]
    exact ⟨'"', _, rfl, rfl, rfl⟩

/-- Blanks around a name are passed over. -/
theorem lexes_name_between (name : String) {bs : List Char} {d : Char}
    (hbs : ∀ c ∈ bs, isBlankStart c = true) (hd : isNumberBlank d = false)
    (hnext : bs = [] → Lexes.Ends d) :
    Lexes (' ' :: ((Identifier.text name).toList ++ (bs ++ d :: rest))) [nameToken name]
      (d :: rest) := by
  obtain ⟨b, cs, htext, -, hb⟩ := exists_text_name name
  have hblank : Lexes (' ' :: ((Identifier.text name).toList ++ (bs ++ d :: rest))) []
      ((Identifier.text name).toList ++ (bs ++ d :: rest)) := by
    rw [htext]
    exact .blank hb
  exact hblank.trans ((lexes_name name (Lexes.endsAt_blanks hbs hnext)).trans (.blanks hbs hd))

end Names

namespace IsKnown

variable {name : String}

/-- A known name is no word that no known name is. -/
theorem isWord_nameToken (h : IsKnown name) {word : String}
    (hword : ∀ title ∈ knownTitles, Identifier.same title word = false) :
    (nameToken name).isWord word = false := by
  obtain ⟨title, htitle, hsame⟩ := h
  unfold nameToken
  split
  · have hne := hword title htitle
    rw [Identifier.same, beq_eq_false_iff_ne, beq_iff_eq.1 hsame] at hne
    rw [isWord, Identifier.same, beq_eq_false_iff_ne.2 hne, Bool.and_false]
  · rfl

theorem name?_nameToken (h : IsKnown name) :
    (nameToken name).name? = some ⟨Identifier.found name, !Identifier.isPlain name⟩ := by
  obtain ⟨title, htitle, hsame⟩ := h
  unfold nameToken
  split
  · next hplain =>
    have hreserved : ∀ word ∈ reserved, ∀ title ∈ knownTitles,
        Identifier.same word title = false := by decide
    have hnone : (reserved.any fun word => Identifier.same word (Identifier.found name)) = false := by
      rw [List.any_eq_false]
      intro word hword hmatch
      have hne := hreserved word hword title htitle
      rw [Identifier.same, beq_eq_false_iff_ne] at hne
      exact hne ((beq_iff_eq.1 hmatch).trans (beq_iff_eq.1 hsame).symm)
    rw [name?, hnone, hplain]
    rfl
  · next hplain =>
    rw [Bool.not_eq_true] at hplain
    rw [name?, hplain]
    rfl

end IsKnown

/-! ## Tables -/

/-- The tokens of a table in a statement. -/
def tableTokens (table : TableName) : List Token :=
  match table.schema with
  | none => [nameToken table.name]
  | some schema => [nameToken schema, ⟨.symbol, "."⟩, nameToken table.name]

section Tables

variable {rest : List Char}

theorem exists_text_table (table : TableName) :
    ∃ c cs, table.text.toList = c :: cs ∧ isNumberBlank c = false := by
  obtain ⟨schema, name⟩ := table
  cases schema with
  | none =>
    obtain ⟨c, cs, htext, -, hblank⟩ := exists_text_name name
    exact ⟨c, cs, htext, hblank⟩
  | some schema =>
    obtain ⟨c, cs, htext, -, hblank⟩ := exists_text_name schema
    refine ⟨c, cs ++ '.' :: (Identifier.text name).toList, ?_, hblank⟩
    show (Identifier.text schema ++ "." ++ Identifier.text name).toList = _
    rw [String.toList_append, String.toList_append, htext, List.append_assoc]
    rfl

theorem lexes_table (table : TableName) (hends : Lexes.EndsAt rest) :
    Lexes (table.text.toList ++ rest) (tableTokens table) rest := by
  obtain ⟨schema, name⟩ := table
  cases schema with
  | none => exact lexes_name name hends
  | some schema =>
    show Lexes ((Identifier.text schema ++ "." ++ Identifier.text name).toList ++ rest) _ _
    rw [String.toList_append, String.toList_append, List.append_assoc, List.append_assoc]
    obtain ⟨c, cs, htext, hc, -⟩ := exists_text_name name
    have hpoint : Lexes ('.' :: ((Identifier.text name).toList ++ rest)) [⟨.symbol, "."⟩]
        ((Identifier.text name).toList ++ rest) := by
      refine .lone (by decide) fun _ b hb => ?_
      rw [htext] at hb
      cases hb
      exact hc
    exact (lexes_name schema (Lexes.endsAt_cons (by decide))).trans
      (hpoint.trans (lexes_name name hends))

/-- Blanks around a table are passed over. -/
theorem lexes_table_between (table : TableName) {bs : List Char} {d : Char}
    (hbs : ∀ c ∈ bs, isBlankStart c = true) (hd : isNumberBlank d = false)
    (hnext : bs = [] → Lexes.Ends d) :
    Lexes (' ' :: (table.text.toList ++ (bs ++ d :: rest))) (tableTokens table) (d :: rest) := by
  obtain ⟨b, cs, htext, hb⟩ := exists_text_table table
  have hblank : Lexes (' ' :: (table.text.toList ++ (bs ++ d :: rest))) []
      (table.text.toList ++ (bs ++ d :: rest)) := by
    rw [htext]
    exact .blank hb
  have hlexes := hblank.trans
    ((lexes_table table (Lexes.endsAt_blanks hbs hnext)).trans (.blanks hbs hd))
  rwa [List.nil_append, List.append_nil] at hlexes

end Tables

/-! ## Dates -/

/-- A date as a call of a function in a statement. -/
def dateCall (literal format : String) : String :=
  "TO_DATE('" ++ literal ++ "', '" ++ format ++ "')"

theorem exists_dateCall (literal format : String) :
    ∃ cs, (dateCall literal format).toList = 'T' :: 'O' :: cs := by
  simp only [dateCall, String.toList_append, List.append_assoc]
  exact ⟨_, rfl⟩

/-- The tokens of such a call. -/
def dateTokens (literal format : String) : List Token :=
  [⟨.word, "TO_DATE"⟩, ⟨.symbol, "("⟩, ⟨.literal (.text literal), "'" ++ literal ++ "'"⟩,
    ⟨.symbol, ","⟩, ⟨.literal (.text format), "'" ++ format ++ "'"⟩, ⟨.symbol, ")"⟩]

theorem Lexes.date {literal format : String} (hliteral : '\'' ∉ literal.toList)
    (hformat : '\'' ∉ format.toList) (rest : List Char) :
    Lexes ((dateCall literal format).toList ++ rest) (dateTokens literal format) rest := by
  have htext : (dateCall literal format).toList ++ rest = 'T' :: "O_DATE".toList ++ '(' ::
      ('\'' :: literal.toList ++ '\'' :: ',' ::
        (' ' :: ('\'' :: format.toList ++ '\'' :: ')' :: rest))) := by
    simp only [dateCall, String.toList_append, List.append_assoc, List.cons_append]
    rfl
  have hword (cs : List Char) :
      Lexes ('T' :: "O_DATE".toList ++ '(' :: cs) [⟨.word, "TO_DATE"⟩] ('(' :: cs) :=
    .word rfl (by decide) (endsAt_cons (by decide))
  have hopening (cs : List Char) : Lexes ('(' :: cs) [⟨.symbol, "("⟩] cs :=
    .lone (by decide) (by rintro ⟨⟩)
  have hcomma (cs : List Char) : Lexes (',' :: cs) [⟨.symbol, ","⟩] cs :=
    .lone (by decide) (by rintro ⟨⟩)
  have hclosing : Lexes (')' :: rest) [⟨.symbol, ")"⟩] rest :=
    .lone (by decide) (by rintro ⟨⟩)
  have hblank (cs : List Char) : Lexes (' ' :: ('\'' :: cs)) [] ('\'' :: cs) :=
    .blank rfl
  have hquoted {s : String} (hs : '\'' ∉ s.toList) {d : Char} (hd : Ends d) (cs : List Char) :
      Lexes ('\'' :: s.toList ++ '\'' :: d :: cs) [⟨.literal (.text s), "'" ++ s ++ "'"⟩]
        (d :: cs) := by
    have hlexes : Lexes ('\'' :: doubled '\'' s.toList ++ '\'' :: d :: cs) _ (d :: cs) :=
      .quoted (.inl rfl) s.toList (endsAt_cons hd)
    rw [doubled_of_not_mem hs] at hlexes
    have htoken : String.ofList ('\'' :: s.toList ++ ['\'']) = "'" ++ s ++ "'" := by
      rw [← String.toList_inj, String.toList_ofList, String.toList_append, String.toList_append]
      rfl
    rwa [if_pos rfl, String.ofList_toList, htoken] at hlexes
  rw [htext]
  exact (hword _).trans <| (hopening _).trans <| (hquoted hliteral (by decide) _).trans <|
    (hcomma _).trans <| (hblank _).trans <| (hquoted hformat (by decide) _).trans hclosing

/-- What stands for an operand of an entry in a statement: a placeholder or a date. -/
inductive OperandTokens : Operand → List Token → Prop
  | bound (p : Preparation) (v : Value) : OperandTokens (.bound p v) [⟨.parameter, "?"⟩]
  | date (literal format : String) :
      OperandTokens (.verbatim (dateCall literal format)) (dateTokens literal format)

/-- The tokens of entries with commas between them. -/
inductive EntryTokens : List (String × Operand) → List Token → Prop
  | last {c : String} {o : Operand} {ts : List Token} (h : OperandTokens o ts) :
      EntryTokens [(c, o)] (nameToken c :: ⟨.symbol, "="⟩ :: ts)
  | more {c : String} {o : Operand} {ts us : List Token} {entries : List (String × Operand)}
      (h : OperandTokens o ts) (hrest : EntryTokens entries us) :
      EntryTokens ((c, o) :: entries)
        (nameToken c :: ⟨.symbol, "="⟩ :: (ts ++ ⟨.symbol, ","⟩ :: us))

end RowAccess.Sql
