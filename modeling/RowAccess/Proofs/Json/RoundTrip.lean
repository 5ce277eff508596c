import RowAccess.Proofs.Json.Scalar
import RowAccess.Proofs.Keyed
import RowAccess.Proofs.Outcome

/-
  RowAccess/Proofs/Json/RoundTrip.lean
  ====================================
  **A document is read as it was written.**  The written form of a value spells it: wherever the
  form stands, before anything that cannot continue a number, the reader takes the value and stops
  behind the form (`Json.Spells`).  Containers are spelled entry by entry with any white space
  between, so by induction on the value every plain one is spelled (`Json.exists_write`), and a
  document gives it back (`Json.read_write`).
-/

namespace RowAccess.Json

/-! ## Values -/

/-- The characters start with a token other than a closing bracket. -/
def Opens (cs : List Char) : Prop :=
  ∃ c r, cs = c :: r ∧ isSpace c = false ∧ c ≠ ']' ∧ c ≠ '\x7d' ∧ c.toNat ≠ 0xFEFF

/-- The characters spell the value: wherever they stand, the reader takes the value and stops behind
them. -/
structure Spells (cs : List Char) (v : Value) : Prop where
  opens : Opens cs
  reads : ∀ fuel index r, cs.length < fuel → Closes r →
    ∃ j, readValue fuel ⟨cs ++ r, index⟩ = .ok (v, ⟨r, j⟩)

/-- A word is read as the value it stands for. -/
theorem spells_null : Spells "null".toList .null := by
  refine ⟨⟨'n', "ull".toList, rfl, rfl, by decide, by decide⟩, ?_⟩
  intro fuel index r hf _
  cases fuel with
  | zero => simp at hf
  | succ fuel => exact ⟨_, rfl⟩

theorem spells_bool (b : Bool) : Spells (if b then "true" else "false").toList (.bool b) := by
  cases b with
  | true =>
    refine ⟨⟨'t', "rue".toList, rfl, rfl, by decide, by decide⟩, ?_⟩
    intro fuel index r hf _
    cases fuel with
    | zero => simp at hf
    | succ fuel => exact ⟨_, rfl⟩
  | false =>
    refine ⟨⟨'f', "alse".toList, rfl, rfl, by decide, by decide⟩, ?_⟩
    intro fuel index r hf _
    cases fuel with
    | zero => simp at hf
    | succ fuel => exact ⟨_, rfl⟩

theorem spells_text (s : String) : Spells (writeString s).toList (.text s) := by
  constructor
  · have h := toList_writeString s []
    rw [List.append_nil] at h
    exact ⟨_, _, h, rfl, by decide, by decide⟩
  · intro fuel index r hf _
    cases fuel with
    | zero => simp at hf
    | succ fuel =>
      have hlen : s.toList.length < ('"' :: (stringBody s.toList ++ '"' :: r)).length + 1 := by
        have := length_le_stringBody s.toList
        simp only [List.length_cons, List.length_append]
        omega
      obtain ⟨j, hj⟩ := readString_stringBody index s.toList r [] _ (index + 1) hlen
      refine ⟨j, ?_⟩
      rw [toList_writeString, readValue]
      simp only [Cursor.skip, List.drop_succ_cons, List.drop_zero, hj]
      simp [bind, Except.bind, pure, Except.pure]

theorem readValue_number {fuel index : Nat} {c : Char} {r : List Char} (hquote : c ≠ '"')
    (hbrace : c ≠ '\x7b') (hbracket : c ≠ '[') (hword : word? (c :: r) = none) :
    readValue (fuel + 1) ⟨c :: r, index⟩ = readNumber ⟨c :: r, index⟩ := by
  rw [readValue]
  split
  next h => cases h
  next h => exact absurd (List.cons.inj h).1 hquote
  next h => exact absurd (List.cons.inj h).1 hbrace
  next h => exact absurd (List.cons.inj h).1 hbracket
  next => simp only [hword]

theorem digitChar_opens : ∀ d < 10, isSpace d.digitChar = false ∧ d.digitChar ≠ ']' ∧
    d.digitChar ≠ '\x7d' ∧ d.digitChar.toNat ≠ 0xFEFF ∧ d.digitChar ≠ '"' ∧ d.digitChar ≠ '[' ∧
      d.digitChar ≠ '\x7b' := by decide

theorem digitChar_opens_no_word : ∀ d < 10, d.digitChar ≠ 'n' ∧ d.digitChar ≠ 't' ∧
    d.digitChar ≠ 'f' ∧ d.digitChar ≠ 'N' ∧ d.digitChar ≠ 'I' ∧ d.digitChar ≠ '-' := by decide

theorem word?_digit {d : Nat} (hd : d < 10) (r : List Char) : word? (d.digitChar :: r) = none := by
  obtain ⟨hn, ht, hf, hN, hI, hm⟩ := digitChar_opens_no_word d hd
  simp [word?, words, List.isPrefixOf, hn.symm, ht.symm, hf.symm, hN.symm, hI.symm, hm.symm]

theorem word?_minus {d : Nat} (hd : d < 10) (r : List Char) :
    word? ('-' :: d.digitChar :: r) = none := by
  obtain ⟨-, -, -, -, hI, -⟩ := digitChar_opens_no_word d hd
  simp [word?, words, List.isPrefixOf, hI.symm]

theorem toDigits_eq_cons (n : Nat) : ∃ d r, d < 10 ∧ Nat.toDigits 10 n = d.digitChar :: r := by
  obtain ⟨c, r, hcs⟩ := List.exists_cons_of_ne_nil (Text.toDigits_ne_nil n)
  obtain ⟨d, hd, rfl⟩ := Text.mem_toDigits (n := n) (c := c) (by rw [hcs]; simp)
  exact ⟨d, r, hd, hcs⟩

/-- A digit, or a minus and a digit, opens the text of an integer. -/
theorem decimalInt_opens (n : Int) : ∃ c cs, (Text.decimalInt n).toList = c :: cs ∧
    (isSpace c = false ∧ c ≠ ']' ∧ c ≠ '\x7d' ∧ c.toNat ≠ 0xFEFF) ∧
      c ≠ '"' ∧ c ≠ '[' ∧ c ≠ '\x7b' ∧ ∀ r, word? (c :: (cs ++ r)) = none := by
  cases n with
  | ofNat n =>
    obtain ⟨d, cs, hd, hcs⟩ := toDigits_eq_cons n
    obtain ⟨h1, h2, h3, h4, h5, h6, h7⟩ := digitChar_opens d hd
    exact ⟨d.digitChar, cs, by simp [Text.decimalInt, Text.decimal, hcs], ⟨h1, h2, h3, h4⟩, h5, h6,
      h7, fun r => word?_digit hd _⟩
  | negSucc n =>
    obtain ⟨d, cs, hd, hcs⟩ := toDigits_eq_cons (n + 1)
    exact ⟨'-', d.digitChar :: cs, by simp [Text.decimalInt, Text.decimal, hcs], by decide,
      by decide, by decide, by decide, fun r => word?_minus hd _⟩

theorem spells_int {n : Int} (hn : IsShort n) : Spells (Text.decimalInt n).toList (.int n) := by
  obtain ⟨c, cs, hlist, hopens, hquote, hbracket, hbrace, hword⟩ := decimalInt_opens n
  refine ⟨⟨c, cs, hlist, hopens⟩, ?_⟩
  intro fuel index r hf hr
  cases fuel with
  | zero => simp at hf
  | succ fuel =>
    obtain ⟨j, hj⟩ := readNumber_decimalInt hn hr index
    rw [hlist, List.cons_append] at hj ⊢
    exact ⟨j, by rw [readValue_number hquote hbrace hbracket (hword r), hj]⟩

/-! ## Containers -/

/-- The white space between tokens: spaces and line feeds. -/
def Blank (cs : List Char) : Prop :=
  ∀ c ∈ cs, c = ' ' ∨ c = '\n'

theorem Blank.isSpace {cs : List Char} (h : Blank cs) : ∀ c ∈ cs, isSpace c = true := by
  intro c hc
  rcases h c hc with rfl | rfl <;> rfl

theorem Blank.noReturn {cs : List Char} (h : Blank cs) : NoReturn cs := by
  intro hr
  rcases h _ hr with h | h <;> exact absurd h (by decide)

theorem blank_nil : Blank [] := by
  intro c hc
  cases hc

/-- White space is skipped up to the next token. -/
theorem skipSpace_blank {gap r : List Char} (hgap : Blank gap) {c : Char} {r' : List Char}
    (hr : r = c :: r') (hc : isSpace c = false) (index : Nat) :
    (Cursor.mk (gap ++ r) index).skipSpace = ⟨r, index + gap.length⟩ := by
  have htake : (gap ++ r).takeWhile isSpace = gap := by
    rw [List.takeWhile_append_of_pos hgap.isSpace, hr, List.takeWhile_cons_of_neg (by simp [hc]),
      List.append_nil]
  simp only [Cursor.skipSpace, Cursor.skip, htake, List.drop_left]

theorem skipSpace_token {c : Char} (hc : isSpace c = false) (r : List Char) (index : Nat) :
    (Cursor.mk (c :: r) index).skipSpace = ⟨c :: r, index⟩ :=
  skipSpace_blank blank_nil rfl hc index

theorem closes_blank {last r : List Char} (hlast : Blank last) {c : Char}
    (hc : c = ',' ∨ c = ']' ∨ c = '\x7d') : Closes (last ++ c :: r) := by
  intro x r' h
  cases last with
  | nil =>
    obtain ⟨rfl, -⟩ := List.cons.inj h
    rcases hc with hc | hc | hc
    · exact .inl hc
    · exact .inr (.inl hc)
    · exact .inr (.inr (.inl hc))
  | cons y last =>
    obtain ⟨rfl, -⟩ := List.cons.inj h
    exact .inr (.inr (.inr (hlast.isSpace y List.mem_cons_self)))

theorem Opens.append {cs : List Char} (h : Opens cs) (r : List Char) : Opens (cs ++ r) := by
  obtain ⟨c, r', rfl, hc⟩ := h
  exact ⟨c, r' ++ r, rfl, hc⟩

theorem closes_comma (r : List Char) : Closes (',' :: r) :=
  closes_blank blank_nil (.inl rfl)

/-- A sequence starts with its first text. -/
theorem opens_intercalate (separator : List Char) {texts : List (List Char)} (hne : texts ≠ [])
    (h : ∀ cs ∈ texts, Opens cs) : Opens (separator.intercalate texts) := by
  cases texts with
  | nil => exact absurd rfl hne
  | cons cs texts =>
    have hcs : Opens cs := h cs List.mem_cons_self
    cases texts with
    | nil => rwa [List.intercalate_singleton]
    | cons cs' texts =>
      rw [List.intercalate_cons_cons, List.append_assoc]
      exact hcs.append _

/-- White space is skipped up to the next token. -/
theorem Opens.skipSpace {gap cs : List Char} (h : Opens cs) (hgap : Blank gap) (index : Nat) :
    (Cursor.mk (gap ++ cs) index).skipSpace = ⟨cs, index + gap.length⟩ := by
  obtain ⟨c, r, hcs, hc, -⟩ := h
  exact skipSpace_blank hgap hcs hc index

theorem readEntries_spelled {gap last : List Char} (hgap : Blank gap) (hlast : Blank last)
    (es : List (List Char × Value)) (hes : ∀ e ∈ es, Spells e.1 e.2) (hne : es ≠ [])
    (fuel : Nat) (done : List Value) (index : Nat) (r : List Char)
    (hf : ((',' :: gap).intercalate (es.map (·.1)) ++ last).length + 1 < fuel) :
    ∃ j, readEntries fuel done
        ⟨(',' :: gap).intercalate (es.map (·.1)) ++ (last ++ ']' :: r), index⟩ =
      .ok (.list (done.reverse ++ es.map (·.2)), ⟨r, j⟩) := by
  induction es generalizing fuel done index with
  | nil => exact absurd rfl hne
  | cons e es ih =>
    obtain ⟨cs, v⟩ := e
    have hcs : Spells cs v := hes (cs, v) List.mem_cons_self
    cases fuel with
    | zero => simp at hf
    | succ fuel =>
      cases es with
      | nil =>
        simp only [List.map_cons, List.map_nil, List.intercalate_singleton, List.length_append]
          at hf ⊢
        obtain ⟨j, hj⟩ := hcs.reads fuel index (last ++ ']' :: r) (by omega)
          (closes_blank hlast (.inr (.inl rfl)))
        have hskip : (Cursor.mk (last ++ ']' :: r) j).skipSpace = ⟨']' :: r, j + last.length⟩ :=
          skipSpace_blank hlast rfl rfl j
        refine ⟨j + last.length + 1, ?_⟩
        rw [readEntries, hj]
        simp [bind, Except.bind, pure, Except.pure, hskip, Cursor.skip]
      | cons e' es =>
        have hrest : (',' :: gap).intercalate (((cs, v) :: e' :: es).map (·.1)) =
            cs ++ ',' :: (gap ++ (',' :: gap).intercalate ((e' :: es).map (·.1))) := by
          simp [List.intercalate_cons_cons]
        have htexts : ∀ cs ∈ (e' :: es).map (·.1), Opens cs := by
          intro cs hcs
          obtain ⟨e, he, rfl⟩ := List.mem_map.1 hcs
          exact (hes e (List.mem_cons_of_mem _ he)).opens
        have hopens := opens_intercalate (',' :: gap) (by simp) htexts
        rw [hrest] at hf ⊢
        generalize hbody : (',' :: gap).intercalate ((e' :: es).map (·.1)) = body at *
        simp only [List.length_append, List.length_cons] at hf
        obtain ⟨j, hj⟩ := hcs.reads fuel index (',' :: (gap ++ (body ++ (last ++ ']' :: r))))
          (by omega) (closes_comma _)
        have hcomma : ∀ r, (Cursor.mk (',' :: r) j).skipSpace = ⟨',' :: r, j⟩ :=
          fun r => skipSpace_token rfl r j
        have hskip := (hopens.append (last ++ ']' :: r)).skipSpace hgap (j + 1)
        obtain ⟨j', hj'⟩ := ih (fun e he => hes e (List.mem_cons_of_mem _ he)) (by simp) fuel
          (v :: done) (j + 1 + gap.length) (by rw [List.length_append]; omega)
        refine ⟨j', ?_⟩
        rw [List.append_assoc, List.cons_append, List.append_assoc, readEntries, hj]
        simp only [bind, Except.bind, hcomma, Cursor.skip, List.drop_succ_cons, List.drop_zero,
          hskip, hj']
        simp

/-- The characters of a field: its name, a colon and its value. -/
def fieldBody (name : String) (cs : List Char) : List Char :=
  (writeString name).toList ++ ':' :: ' ' :: cs

theorem opens_fieldBody (name : String) (cs : List Char) : Opens (fieldBody name cs) := by
  rw [fieldBody, toList_writeString]
  exact ⟨_, _, rfl, rfl, by decide, by decide⟩

/-- A field is read up to what follows it. -/
theorem readFields_field (name : String) {cs : List Char} {v : Value} (hcs : Spells cs v)
    (fuel : Nat) (done : Fields) (index : Nat) {r : List Char} (hr : Closes r)
    (hf : (fieldBody name cs).length < fuel) :
    ∃ j, readFields (fuel + 1) done ⟨fieldBody name cs ++ r, index⟩ =
      let k := (Cursor.mk r j).skipSpace
      match k.rest with
      | '\x7d' :: _ => .ok (.object (Keyed.put done name v), k.skip 1)
      | ',' :: _ => readFields fuel (Keyed.put done name v) (k.skip 1).skipSpace
      | _ => .error (.at .comma k.index) := by
  have hbody : fieldBody name cs ++ r =
      '"' :: (stringBody name.toList ++ '"' :: ':' :: ' ' :: (cs ++ r)) := by
    rw [fieldBody, toList_writeString]
    simp
  have hlen : name.toList.length <
      ('"' :: (stringBody name.toList ++ '"' :: ':' :: ' ' :: (cs ++ r))).length + 1 := by
    have := length_le_stringBody name.toList
    simp only [List.length_cons, List.length_append]
    omega
  have hcolon : ∀ r i, (Cursor.mk (':' :: r) i).skipSpace = ⟨':' :: r, i⟩ :=
    fun r i => skipSpace_token rfl r i
  have hgap : Blank [' '] := by simp [Blank]
  have hblank : ∀ i, (Cursor.mk (' ' :: (cs ++ r)) i).skipSpace = ⟨cs ++ r, i + 1⟩ :=
    fun i => (hcs.opens.append r).skipSpace hgap i
  obtain ⟨j, hj⟩ := readString_stringBody index name.toList (':' :: ' ' :: (cs ++ r)) [] _
    (index + 1) hlen
  rw [List.reverse_nil, List.nil_append, String.ofList_toList] at hj
  obtain ⟨j', hj'⟩ := hcs.reads fuel (j + 1 + 1) r
    (by simp only [fieldBody, List.length_append, List.length_cons] at hf; omega) hr
  refine ⟨j', ?_⟩
  rw [hbody, readFields]
  simp only [bind, Except.bind, Cursor.skip, List.drop_succ_cons, List.drop_zero, hj, hcolon,
    hblank, hj']
  rfl

theorem readFields_spelled {gap last : List Char} (hgap : Blank gap) (hlast : Blank last)
    (es : List (String × List Char × Value)) (hes : ∀ e ∈ es, Spells e.2.1 e.2.2) (hne : es ≠ [])
    (fuel : Nat) (done : Fields) (index : Nat) (r : List Char)
    (hkeys : (Keyed.keys done ++ es.map (·.1)).Nodup)
    (hf : ((',' :: gap).intercalate (es.map fun e => fieldBody e.1 e.2.1) ++ last).length + 1 <
      fuel) :
    ∃ j, readFields fuel done
        ⟨(',' :: gap).intercalate (es.map fun e => fieldBody e.1 e.2.1) ++ (last ++ '\x7d' :: r),
          index⟩ =
      .ok (.object (done ++ es.map fun e => (e.1, e.2.2)), ⟨r, j⟩) := by
  induction es generalizing fuel done index with
  | nil => exact absurd rfl hne
  | cons e es ih =>
    obtain ⟨name, cs, v⟩ := e
    have hcs : Spells cs v := hes (name, cs, v) List.mem_cons_self
    have hnew : name ∉ Keyed.keys done := by
      intro hmem
      exact (List.nodup_append.1 hkeys).2.2 name hmem name (by simp) rfl
    have hput : Keyed.put done name v = done ++ [(name, v)] :=
      (Keyed.exact_of_lawful name).put_of_not_mem hnew v
    cases fuel with
    | zero => simp at hf
    | succ fuel =>
      cases es with
      | nil =>
        simp only [List.map_cons, List.map_nil, List.intercalate_singleton, List.length_append]
          at hf ⊢
        obtain ⟨j, hj⟩ := readFields_field name hcs fuel done index
          (closes_blank (r := r) hlast (.inr (.inr rfl))) (by omega)
        have hskip : (Cursor.mk (last ++ '\x7d' :: r) j).skipSpace =
            ⟨'\x7d' :: r, j + last.length⟩ := skipSpace_blank hlast rfl rfl j
        refine ⟨j + last.length + 1, ?_⟩
        rw [hj, hskip, hput]
        rfl
      | cons e' es =>
        have hrest : (',' :: gap).intercalate
            (((name, cs, v) :: e' :: es).map fun e => fieldBody e.1 e.2.1) =
            fieldBody name cs ++ ',' :: (gap ++
              (',' :: gap).intercalate ((e' :: es).map fun e => fieldBody e.1 e.2.1)) := by
          simp [List.intercalate_cons_cons]
        have htexts : ∀ cs ∈ (e' :: es).map (fun e => fieldBody e.1 e.2.1), Opens cs := by
          intro cs hcs
          obtain ⟨e, -, rfl⟩ := List.mem_map.1 hcs
          exact opens_fieldBody e.1 e.2.1
        have hopens := opens_intercalate (',' :: gap) (by simp) htexts
        rw [hrest] at hf ⊢
        generalize hbody : (',' :: gap).intercalate
          ((e' :: es).map fun e => fieldBody e.1 e.2.1) = body at *
        simp only [List.length_append, List.length_cons] at hf
        obtain ⟨j, hj⟩ := readFields_field name hcs fuel done index
          (closes_comma (gap ++ (body ++ (last ++ '\x7d' :: r)))) (by omega)
        have hcomma : ∀ r, (Cursor.mk (',' :: r) j).skipSpace = ⟨',' :: r, j⟩ :=
          fun r => skipSpace_token rfl r j
        have hskip := (hopens.append (last ++ '\x7d' :: r)).skipSpace hgap (j + 1)
        obtain ⟨j', hj'⟩ := ih (fun e he => hes e (List.mem_cons_of_mem _ he)) (by simp) fuel
          (done ++ [(name, v)]) (j + 1 + gap.length) (by simpa [Keyed.keys] using hkeys)
          (by rw [List.length_append]; omega)
        refine ⟨j', ?_⟩
        rw [List.append_assoc, List.cons_append, List.append_assoc, hj, hput]
        simp only [hcomma, Cursor.skip, List.drop_succ_cons, List.drop_zero, hskip, hj']
        simp

/-- Brackets, white space and separators around the entries of a container. -/
theorem exists_toList_enclose (opening closing : String) (indent : Option Nat) :
    ∃ first gap last, Blank first ∧ Blank gap ∧ Blank last ∧ ∀ texts : List String, texts ≠ [] →
      (enclose opening closing indent texts).toList =
        opening.toList ++ (first ++ ((',' :: gap).intercalate (texts.map String.toList) ++
          (last ++ closing.toList))) := by
  have hline : ∀ d : Nat, Blank ('\n' :: List.replicate (2 * d) ' ') := by
    intro d c hc
    rcases List.mem_cons.1 hc with rfl | hc
    · exact .inr rfl
    · exact .inl (List.eq_of_mem_replicate hc)
  cases indent with
  | none =>
    refine ⟨[], [' '], [], blank_nil, by simp [Blank], blank_nil, ?_⟩
    intro texts hne
    have hempty : texts.isEmpty = false := by simpa using hne
    simp [enclose, hempty, String.toList_intercalate]
  | some depth =>
    refine ⟨_, _, _, hline (depth + 1), hline (depth + 1), hline depth, ?_⟩
    intro texts hne
    have hempty : texts.isEmpty = false := by simpa using hne
    simp [enclose, hempty, String.toList_intercalate]

theorem NoReturn.intercalate {separator : List Char} (hs : NoReturn separator)
    {texts : List (List Char)} (h : ∀ cs ∈ texts, NoReturn cs) :
    NoReturn (separator.intercalate texts) := by
  induction texts with
  | nil => simp [NoReturn]
  | cons cs texts ih =>
    have hcs : NoReturn cs := h cs List.mem_cons_self
    cases texts with
    | nil => simpa using hcs
    | cons cs' texts =>
      rw [List.intercalate_cons_cons]
      exact (hcs.append hs).append (ih fun ds hds => h ds (List.mem_cons_of_mem _ hds))

theorem noReturn_enclose {opening closing : String} (hopening : NoReturn opening.toList)
    (hclosing : NoReturn closing.toList) (indent : Option Nat) {texts : List String}
    (h : ∀ s ∈ texts, NoReturn s.toList) :
    NoReturn (enclose opening closing indent texts).toList := by
  by_cases hne : texts = []
  · subst hne
    simpa [enclose] using hopening.append hclosing
  · obtain ⟨first, gap, last, hfirst, hgap, hlast, hlist⟩ :=
      exists_toList_enclose opening closing indent
    have hcomma : NoReturn [','] := by simp [NoReturn]
    have hbody : NoReturn ((',' :: gap).intercalate (texts.map String.toList)) := by
      refine (hcomma.append hgap.noReturn).intercalate ?_
      intro cs hcs
      obtain ⟨s, hs, rfl⟩ := List.mem_map.1 hcs
      exact h s hs
    rw [hlist texts hne]
    exact hopening.append (hfirst.noReturn.append (hbody.append (hlast.noReturn.append hclosing)))

/-- Behind an opening bracket the entries start at the first token that does not close it. -/
theorem readValue_bracket {first cs : List Char} (hfirst : Blank first) (hcs : Opens cs)
    (fuel index : Nat) :
    readValue (fuel + 1) ⟨'[' :: (first ++ cs), index⟩ =
      readEntries fuel [] ⟨cs, index + 1 + first.length⟩ := by
  have hskip := hcs.skipSpace hfirst (index + 1)
  obtain ⟨c, r, rfl, -, hc, -⟩ := hcs
  rw [readValue]
  simp only [Cursor.skip, List.drop_succ_cons, List.drop_zero, hskip]
  split
  next h => exact absurd (List.cons.inj h).1 hc
  next => rfl

theorem readValue_brace {first cs : List Char} (hfirst : Blank first) (hcs : Opens cs)
    (fuel index : Nat) :
    readValue (fuel + 1) ⟨'\x7b' :: (first ++ cs), index⟩ =
      readFields fuel [] ⟨cs, index + 1 + first.length⟩ := by
  have hskip := hcs.skipSpace hfirst (index + 1)
  obtain ⟨c, r, rfl, -, -, hc, -⟩ := hcs
  rw [readValue]
  simp only [Cursor.skip, List.drop_succ_cons, List.drop_zero, hskip]
  split
  next h => exact absurd (List.cons.inj h).1 hc
  next => rfl

/-- The written form of a list spells the list. -/
theorem spells_list (indent : Option Nat) (es : List (String × Value))
    (h : ∀ e ∈ es, Spells e.1.toList e.2) :
    Spells (enclose "[" "]" indent (es.map (·.1))).toList (.list (es.map (·.2))) := by
  by_cases hne : es = []
  · subst hne
    have hlist : (enclose "[" "]" indent []).toList = ['[', ']'] := by simp [enclose]
    rw [List.map_nil, hlist]
    refine ⟨⟨'[', [']'], rfl, by decide⟩, ?_⟩
    intro fuel index r hf _
    cases fuel with
    | zero => simp at hf
    | succ fuel => exact ⟨_, rfl⟩
  obtain ⟨first, gap, last, hfirst, hgap, hlast, hlist⟩ := exists_toList_enclose "[" "]" indent
  have hspells : ∀ e ∈ es.map fun e => (e.1.toList, e.2), Spells e.1 e.2 := by
    intro e' he'
    obtain ⟨e, he, rfl⟩ := List.mem_map.1 he'
    exact h e he
  have hopens :
      Opens ((',' :: gap).intercalate ((es.map fun e => (e.1.toList, e.2)).map (·.1))) := by
    refine opens_intercalate _ (by simpa using hne) ?_
    intro cs hcs
    obtain ⟨e, he, rfl⟩ := List.mem_map.1 hcs
    exact (hspells e he).opens
  have htexts : (es.map (·.1)).map String.toList =
      (es.map fun e => (e.1.toList, e.2)).map (·.1) := by
    simp
  have hvalues : es.map (·.2) = (es.map fun e => (e.1.toList, e.2)).map (·.2) := by
    simp
  rw [hlist _ (by simpa using hne), htexts, hvalues]
  generalize es.map (fun e => (e.1.toList, e.2)) = es' at *
  refine ⟨⟨'[', _, rfl, by decide⟩, ?_⟩
  intro fuel index r hf _
  cases fuel with
  | zero => simp at hf
  | succ fuel =>
    have hlen : ((',' :: gap).intercalate (es'.map (·.1)) ++ last).length + 1 < fuel := by
      have hone : "[".toList.length = 1 ∧ "]".toList.length = 1 := ⟨rfl, rfl⟩
      simp only [List.length_append, hone] at hf ⊢
      omega
    obtain ⟨j, hj⟩ := readEntries_spelled hgap hlast es' hspells
      (by rintro rfl; exact hne (by simpa using htexts)) fuel [] (index + 1 + first.length) r hlen
    refine ⟨j, ?_⟩
    have hassoc : "[".toList ++ (first ++ ((',' :: gap).intercalate (es'.map (·.1)) ++
        (last ++ "]".toList))) ++ r =
        '[' :: (first ++ ((',' :: gap).intercalate (es'.map (·.1)) ++ (last ++ ']' :: r))) := by
      simp
    rw [hassoc, readValue_bracket hfirst (hopens.append _), hj]
    rfl

theorem spells_object (indent : Option Nat) (es : List (String × String × Value))
    (hkeys : (es.map (·.1)).Nodup) (h : ∀ e ∈ es, Spells e.2.1.toList e.2.2) :
    Spells (enclose "\x7b" "\x7d" indent
        (es.map fun e => writeString e.1 ++ ": " ++ e.2.1)).toList
      (.object (es.map fun e => (e.1, e.2.2))) := by
  by_cases hne : es = []
  · subst hne
    have hlist : (enclose "\x7b" "\x7d" indent []).toList = ['\x7b', '\x7d'] := by simp [enclose]
    rw [List.map_nil, hlist]
    refine ⟨⟨'\x7b', ['\x7d'], rfl, by decide⟩, ?_⟩
    intro fuel index r hf _
    cases fuel with
    | zero => simp at hf
    | succ fuel => exact ⟨_, rfl⟩
  obtain ⟨first, gap, last, hfirst, hgap, hlast, hlist⟩ :=
    exists_toList_enclose "\x7b" "\x7d" indent
  have hspells : ∀ e ∈ es.map fun e => (e.1, e.2.1.toList, e.2.2), Spells e.2.1 e.2.2 := by
    intro e' he'
    obtain ⟨e, he, rfl⟩ := List.mem_map.1 he'
    exact h e he
  have hopens : Opens ((',' :: gap).intercalate
      ((es.map fun e => (e.1, e.2.1.toList, e.2.2)).map fun e => fieldBody e.1 e.2.1)) := by
    refine opens_intercalate _ (by simpa using hne) ?_
    intro cs hcs
    obtain ⟨e, -, rfl⟩ := List.mem_map.1 hcs
    exact opens_fieldBody e.1 e.2.1
  have htexts : (es.map fun e => writeString e.1 ++ ": " ++ e.2.1).map String.toList =
      (es.map fun e => (e.1, e.2.1.toList, e.2.2)).map fun e => fieldBody e.1 e.2.1 := by
    simp [fieldBody]
  have hvalues : (es.map fun e => (e.1, e.2.2)) =
      (es.map fun e => (e.1, e.2.1.toList, e.2.2)).map fun e => (e.1, e.2.2) := by
    simp
  have hnames : es.map (·.1) = (es.map fun e => (e.1, e.2.1.toList, e.2.2)).map (·.1) := by
    simp
  rw [hlist _ (by simpa using hne), htexts, hvalues]
  rw [hnames] at hkeys
  generalize es.map (fun e => (e.1, e.2.1.toList, e.2.2)) = es' at *
  refine ⟨⟨'\x7b', _, rfl, by decide⟩, ?_⟩
  intro fuel index r hf _
  cases fuel with
  | zero => simp at hf
  | succ fuel =>
    have hlen : ((',' :: gap).intercalate (es'.map fun e => fieldBody e.1 e.2.1) ++ last).length +
        1 < fuel := by
      have hone : "\x7b".toList.length = 1 ∧ "\x7d".toList.length = 1 := ⟨rfl, rfl⟩
      simp only [List.length_append, hone] at hf ⊢
      omega
    obtain ⟨j, hj⟩ := readFields_spelled hgap hlast es' hspells
      (by rintro rfl; exact hne (by simpa using hnames)) fuel [] (index + 1 + first.length) r
      (by simpa [Keyed.keys] using hkeys) hlen
    refine ⟨j, ?_⟩
    have hassoc : "\x7b".toList ++ (first ++ ((',' :: gap).intercalate
        (es'.map fun e => fieldBody e.1 e.2.1) ++ (last ++ "\x7d".toList))) ++ r =
        '\x7b' :: (first ++ ((',' :: gap).intercalate (es'.map fun e => fieldBody e.1 e.2.1) ++
          (last ++ '\x7d' :: r))) := by
      simp
    rw [hassoc, readValue_brace hfirst (hopens.append _), hj]
    rfl

/-! ## Documents -/

/-- The values of a document without fractions, with integers of one sort.  The names of an object
are distinct. -/
inductive MadeOf (sort : Int → Prop) : Value → Prop
  | null : MadeOf sort .null
  | bool (b : Bool) : MadeOf sort (.bool b)
  | int {n : Int} (h : sort n) : MadeOf sort (.int n)
  | text (s : String) : MadeOf sort (.text s)
  | list {xs : List Value} (h : ∀ x ∈ xs, MadeOf sort x) : MadeOf sort (.list xs)
  | object {fields : Fields} (hkeys : (Keyed.keys fields).Nodup)
    (h : ∀ f ∈ fields, MadeOf sort f.2) : MadeOf sort (.object fields)

/-- The values of a document without fractions. -/
abbrev Built : Value → Prop :=
  MadeOf fun _ => True

/-- The values that a document gives back as they were. -/
abbrev Plain : Value → Prop :=
  MadeOf IsShort

theorem writeInt_of_isShort {n : Int} (hn : IsShort n) : writeInt n = .ok (Text.decimalInt n) :=
  if_pos hn

theorem exists_writeEntries {indent : Option Nat} {P : String → Value → Prop} {xs : List Value}
    (h : ∀ x ∈ xs, ∃ s, write indent x = .ok s ∧ P s x) :
    ∃ es : List (String × Value), writeEntries indent xs = .ok (es.map (·.1)) ∧
      es.map (·.2) = xs ∧ ∀ e ∈ es, P e.1 e.2 := by
  induction xs with
  | nil => exact ⟨[], rfl, rfl, by simp⟩
  | cons x xs ih =>
    obtain ⟨s, hs, hP⟩ := h x List.mem_cons_self
    obtain ⟨es, hes, hvalues, hall⟩ := ih fun y hy => h y (List.mem_cons_of_mem _ hy)
    refine ⟨(s, x) :: es, ?_, by simp [hvalues], ?_⟩
    · rw [writeEntries, hs, hes]
      rfl
    · intro e he
      rcases List.mem_cons.1 he with rfl | he
      · exact hP
      · exact hall e he

theorem exists_writeFields {indent : Option Nat} {P : String → Value → Prop} {fields : Fields}
    (h : ∀ f ∈ fields, ∃ s, write indent f.2 = .ok s ∧ P s f.2) :
    ∃ es : List (String × String × Value),
      writeFields indent fields = .ok (es.map fun e => writeString e.1 ++ ": " ++ e.2.1) ∧
        es.map (fun e => (e.1, e.2.2)) = fields ∧ ∀ e ∈ es, P e.2.1 e.2.2 := by
  induction fields with
  | nil => exact ⟨[], rfl, rfl, by simp⟩
  | cons f fields ih =>
    obtain ⟨s, hs, hP⟩ := h f List.mem_cons_self
    obtain ⟨es, hes, hvalues, hall⟩ := ih fun g hg => h g (List.mem_cons_of_mem _ hg)
    refine ⟨(f.1, s, f.2) :: es, ?_, by simp [hvalues], ?_⟩
    · obtain ⟨name, v⟩ := f
      rw [writeFields, hs, hes]
      rfl
    · intro e he
      rcases List.mem_cons.1 he with rfl | he
      · exact hP
      · exact hall e he

/-- A plain value has a written form without carriage returns, and the form spells the value. -/
theorem exists_write {v : Value} (h : Plain v) (indent : Option Nat) :
    ∃ s, write indent v = .ok s ∧ Spells s.toList v ∧ NoReturn s.toList := by
  induction h generalizing indent with
  | null => exact ⟨_, rfl, spells_null, by simp [NoReturn]⟩
  | bool b => exact ⟨_, rfl, spells_bool b, by cases b <;> simp [NoReturn]⟩
  | int hn => exact ⟨_, writeInt_of_isShort hn, spells_int hn, noReturn_decimalInt _⟩
  | text s => exact ⟨_, rfl, spells_text s, noReturn_writeString s⟩
  | @list xs _ ih =>
    obtain ⟨es, hes, rfl, hall⟩ := exists_writeEntries fun x hx => ih x hx (deeper indent)
    refine ⟨_, by rw [write, hes]; rfl, spells_list indent es fun e he => (hall e he).1, ?_⟩
    refine noReturn_enclose (by simp [NoReturn]) (by simp [NoReturn]) indent ?_
    intro s hs
    obtain ⟨e, he, rfl⟩ := List.mem_map.1 hs
    exact (hall e he).2
  | @object fields hkeys _ ih =>
    obtain ⟨es, hes, rfl, hall⟩ := exists_writeFields
      (P := fun s v => Spells s.toList v ∧ NoReturn s.toList) fun f hf => ih f hf (deeper indent)
    have hkeys : (es.map (·.1)).Nodup := by
      simpa only [Keyed.keys, List.map_map, Function.comp_def] using hkeys
    refine ⟨_, by rw [write, hes]; rfl,
      spells_object indent es hkeys fun e he => (hall e he).1, ?_⟩
    refine noReturn_enclose (by simp [NoReturn]) (by simp [NoReturn]) indent ?_
    intro s hs
    obtain ⟨e, he, rfl⟩ := List.mem_map.1 hs
    have hcolon : NoReturn ": ".toList := by simp [NoReturn]
    rw [String.toList_append, String.toList_append]
    exact ((noReturn_writeString e.1).append hcolon).append (hall e he).2

/-- A document is read as the value that its whole text spells. -/
theorem Spells.read {cs : List Char} {v : Value} (h : Spells cs v) : read cs = .ok v := by
  obtain ⟨c, r, hcs, hspace, -, -, hmark⟩ := h.opens
  obtain ⟨j, hj⟩ := h.reads (cs.length + 1) 0 [] (Nat.lt_succ_self _) (by intro c r h; cases h)
  rw [List.append_nil, hcs] at hj
  rw [hcs, Json.read]
  simp only [hmark, if_false, skipSpace_token hspace, hj]
  rfl

/-- A plain value has a written form, in any layout, and reading the form gives the value back. -/
theorem read_write {v : Value} (h : Plain v) (indent : Option Nat) :
    ∃ s, write indent v = .ok s ∧ read s.toList = .ok v := by
  obtain ⟨s, hs, hspells, -⟩ := exists_write h indent
  exact ⟨s, hs, hspells.read⟩

theorem exists_write_of_writeEntries {indent : Option Nat} {xs : List Value} {ss : List String}
    (h : writeEntries indent xs = .ok ss) : ∀ x ∈ xs, ∃ s, write indent x = .ok s := by
  induction xs generalizing ss with
  | nil => simp
  | cons x xs ih =>
    rw [writeEntries] at h
    obtain ⟨s, hs, h⟩ := Outcome.bind_eq_ok_iff.1 h
    obtain ⟨r, hr, -⟩ := Outcome.bind_eq_ok_iff.1 h
    exact List.forall_mem_cons.2 ⟨⟨s, hs⟩, ih hr⟩

theorem exists_write_of_writeFields {indent : Option Nat} {fields : Fields} {ss : List String}
    (h : writeFields indent fields = .ok ss) : ∀ f ∈ fields, ∃ s, write indent f.2 = .ok s := by
  induction fields generalizing ss with
  | nil => simp
  | cons f fields ih =>
    obtain ⟨name, v⟩ := f
    rw [writeFields] at h
    obtain ⟨s, hs, h⟩ := Outcome.bind_eq_ok_iff.1 h
    obtain ⟨r, hr, -⟩ := Outcome.bind_eq_ok_iff.1 h
    exact List.forall_mem_cons.2 ⟨⟨s, hs⟩, ih hr⟩

/-- Only a value whose integers are short has a written form. -/
theorem MadeOf.plain {sort : Int → Prop} {v : Value} (h : MadeOf sort v) {indent : Option Nat}
    {s : String} (hs : write indent v = .ok s) : Plain v := by
  induction h generalizing indent s with
  | null => exact .null
  | bool b => exact .bool b
  | int =>
    rw [write, writeInt] at hs
    split at hs
    next hn => exact .int hn
    next => cases hs
  | text t => exact .text t
  | list _ ih =>
    rw [write] at hs
    obtain ⟨ss, hss, -⟩ := Outcome.map_eq_ok_iff.1 hs
    refine .list fun x hx => ?_
    obtain ⟨s, hs⟩ := exists_write_of_writeEntries hss x hx
    exact ih x hx hs
  | object hkeys _ ih =>
    rw [write] at hs
    obtain ⟨ss, hss, -⟩ := Outcome.map_eq_ok_iff.1 hs
    refine .object hkeys fun f hf => ?_
    obtain ⟨s, hs⟩ := exists_write_of_writeFields hss f hf
    exact ih f hf hs

theorem MadeOf.read_eq {sort : Int → Prop} {v : Value} (h : MadeOf sort v) {indent : Option Nat}
    {s : String} (hs : write indent v = .ok s) : read s.toList = .ok v := by
  obtain ⟨s', hs', hread⟩ := read_write (h.plain hs) indent
  rw [hs] at hs'
  cases hs'
  exact hread

end RowAccess.Json
