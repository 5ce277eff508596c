import RowAccess.Json.Reader
import RowAccess.Json.Writer
import RowAccess.Proofs.Text.Digit

/-
  RowAccess/Proofs/Json/Scalar.lean
  =================================
  **Strings and integers are read as they were written.**  A character of a string is written in one
  of four ways (`Json.EscapeForm`), and each is read as the character; so the reader passes the
  written characters of a string up to the closing quote and no further.  The decimal text of an
  integer is read up to whatever closes it.
-/

namespace RowAccess.Json

/-! ## Strings -/

/-- Four hexadecimal digits give their number back. -/
theorem hex4?_paddedHex {n : Nat} (hn : n < 0x10000) (r : List Char) :
    hex4? ((Text.paddedHex 4 n).toList ++ r) = some n := by
  rw [Text.toList_paddedHex_four hn]
  simp only [List.cons_append, List.nil_append, hex4?,
    Text.hexValue?_hexDigit (n / 16 / 16 / 16) (by omega),
    Text.hexValue?_hexDigit _ (Nat.mod_lt _ (by omega : 0 < 16))]
  show some _ = some _
  congr 1
  omega

theorem length_paddedHex {n : Nat} (hn : n < 0x10000) : (Text.paddedHex 4 n).toList.length = 4 := by
  rw [Text.toList_paddedHex_four hn]
  rfl

theorem drop_paddedHex {n : Nat} (hn : n < 0x10000) (r : List Char) :
    ((Text.paddedHex 4 n).toList ++ r).drop 4 = r := by
  rw [Text.toList_paddedHex_four hn]
  rfl

/-- The escape of a character of the basic plane gives the character, whatever follows. -/
theorem unicodeEscape_basic {c : Char} (hn : c.toNat < 0x10000) {r : List Char} (hr : r ≠ [])
    (index : Nat) :
    unicodeEscape ((Text.paddedHex 4 c.toNat).toList ++ r) index = .ok (c, 4) := by
  have hlen : ¬ ((Text.paddedHex 4 c.toNat).toList ++ r).length < 5 := by
    have := List.length_pos_iff.2 hr
    rw [List.length_append, length_paddedHex hn]
    omega
  have hv : c.toNat < 0xD800 ∨ 0xDFFF < c.toNat ∧ c.toNat < 0x110000 := c.valid
  have hhalf : isHighHalf c.toNat = false := by
    simp only [isHighHalf, Bool.and_eq_false_iff, decide_eq_false_iff_not]
    omega
  have hpoint : ofCodePoint c.toNat = c := by
    rw [ofCodePoint, if_neg (by omega), Char.ofNat_toNat]
  simp only [unicodeEscape, hlen, if_false, hex4?_paddedHex hn, drop_paddedHex hn, hhalf,
    Bool.false_and, Bool.false_eq_true, hpoint]
  split <;> rfl

theorem highHalf_lt {n : Nat} (h : isHighHalf n = true) : n < 0x10000 := by
  simp only [isHighHalf, Bool.and_eq_true, decide_eq_true_eq] at h
  omega

theorem lowHalf_lt {n : Nat} (h : isLowHalf n = true) : n < 0x10000 := by
  simp only [isLowHalf, Bool.and_eq_true, decide_eq_true_eq] at h
  omega

/-- The escapes of two halves give the character of the pair. -/
theorem unicodeEscape_pair {high low : Nat} (hhigh : isHighHalf high = true)
    (hlow : isLowHalf low = true) {r : List Char} (hr : r ≠ []) (index : Nat) :
    unicodeEscape ((Text.paddedHex 4 high).toList ++
      '\\' :: 'u' :: ((Text.paddedHex 4 low).toList ++ r)) index =
      .ok (Char.ofNat (0x10000 + (high - 0xD800) * 0x400 + (low - 0xDC00)), 10) := by
  have hh := highHalf_lt hhigh
  have hl := lowHalf_lt hlow
  have hlen : 5 ≤ ((Text.paddedHex 4 low).toList ++ r).length := by
    have := List.length_pos_iff.2 hr
    rw [List.length_append, length_paddedHex hl]
    omega
  have hfull : ¬ ((Text.paddedHex 4 high).toList ++
      '\\' :: 'u' :: ((Text.paddedHex 4 low).toList ++ r)).length < 5 := by
    rw [List.length_append, length_paddedHex hh, List.length_cons, List.length_cons]
    omega
  simp only [unicodeEscape, hfull, if_false, hex4?_paddedHex hh, drop_paddedHex hh, hhigh, hlen,
    decide_true, Bool.and_self, if_true, hex4?_paddedHex hl, hlow]

theorem readString_short {start fuel index : Nat} {done r : List Char} {c e : Char}
    (hc : c ≠ 'u') (he : shortEscape? c = some e) :
    readString start (fuel + 1) done ⟨'\\' :: c :: r, index⟩ =
      readString start fuel (e :: done) ⟨r, index + 2⟩ := by
  rw [readString]
  simp only [he, Cursor.skip, List.drop_succ_cons, List.drop_zero]

theorem readString_numeric {start fuel index size : Nat} {done r : List Char} {c : Char}
    (he : unicodeEscape r (index + 1) = .ok (c, size)) :
    readString start (fuel + 1) done ⟨'\\' :: 'u' :: r, index⟩ =
      readString start fuel (c :: done) ⟨r.drop size, index + (2 + size)⟩ := by
  rw [readString]
  simp only [he, Cursor.skip, Nat.add_comm 2 size, List.drop_succ_cons]

theorem readString_plain {start fuel index : Nat} {done r : List Char} {c : Char}
    (hquote : c ≠ '"') (hslash : c ≠ '\\') (hc : 32 ≤ c.toNat) :
    readString start (fuel + 1) done ⟨c :: r, index⟩ =
      readString start fuel (c :: done) ⟨r, index + 1⟩ := by
  rw [readString]
  split
  next h => cases h
  next h => exact absurd (List.cons.inj h).1 hquote
  next h => exact absurd (List.cons.inj h).1 hslash
  next h => exact absurd (List.cons.inj h).1 hslash
  next h => exact absurd (List.cons.inj h).1 hslash
  next h =>
    obtain ⟨rfl, rfl⟩ := List.cons.inj h
    rw [if_neg (Nat.not_lt.2 hc)]
    rfl

/-- The four ways to write a character: by a letter, as it is, by its number, or by the numbers of
two halves. -/
inductive EscapeForm (c : Char) : List Char → Prop
  | letter {e : Char} (he : shortEscape? e = some c) (hu : e ≠ 'u') (hr : e ≠ '\r') :
    EscapeForm c ['\\', e]
  | plain (hquote : c ≠ '"') (hslash : c ≠ '\\') (hc : 32 ≤ c.toNat) : EscapeForm c [c]
  | basic (hc : c.toNat < 0x10000) :
    EscapeForm c ('\\' :: 'u' :: (Text.paddedHex 4 c.toNat).toList)
  | pair {high low : Nat} (hhigh : isHighHalf high = true) (hlow : isLowHalf low = true)
    (hc : 0x10000 + (high - 0xD800) * 0x400 + (low - 0xDC00) = c.toNat) :
    EscapeForm c ('\\' :: 'u' :: ((Text.paddedHex 4 high).toList ++
      '\\' :: 'u' :: (Text.paddedHex 4 low).toList))

theorem escapeForm_escapeChar (c : Char) : EscapeForm c (escapeChar c).toList := by
  unfold escapeChar
  split
  · exact .letter rfl (by decide) (by decide)
  · exact .letter rfl (by decide) (by decide)
  · exact .letter rfl (by decide) (by decide)
  · exact .letter rfl (by decide) (by decide)
  · exact .letter rfl (by decide) (by decide)
  next hquote hslash _ _ _ =>
    have hc : Char.ofNat c.toNat = c := Char.ofNat_toNat c
    dsimp only
    by_cases h8 : c.toNat = 8
    · rw [if_pos h8, ← hc, h8]
      exact .letter rfl (by decide) (by decide)
    by_cases h12 : c.toNat = 12
    · rw [if_neg h8, if_pos h12, ← hc, h12]
      exact .letter rfl (by decide) (by decide)
    rw [if_neg h8, if_neg h12]
    by_cases hprint : 32 ≤ c.toNat ∧ c.toNat < 127
    · rw [if_pos (by simpa using hprint), String.toList_singleton]
      exact .plain hquote hslash hprint.1
    rw [if_neg (by simpa using hprint)]
    by_cases hbasic : c.toNat < 0x10000
    · rw [if_pos hbasic, numericEscape, String.toList_append]
      exact .basic hbasic
    · have hv : c.toNat < 0xD800 ∨ 0xDFFF < c.toNat ∧ c.toNat < 0x110000 := c.valid
      obtain ⟨m, hm⟩ := Nat.exists_eq_add_of_le (Nat.le_of_not_lt hbasic)
      have hsub : c.toNat - 0x10000 = m := by rw [hm, Nat.add_sub_cancel_left]
      rw [if_neg hbasic, hsub]
      generalize hhigh : 0xD800 + m / 0x400 = high
      generalize hlow : 0xDC00 + m % 0x400 = low
      have hhalf : isHighHalf high = true := by
        simp only [isHighHalf, Bool.and_eq_true, decide_eq_true_eq]
        omega
      have hhalf' : isLowHalf low = true := by
        simp only [isLowHalf, Bool.and_eq_true, decide_eq_true_eq]
        omega
      have hlist : (numericEscape high ++ numericEscape low).toList =
          '\\' :: 'u' :: ((Text.paddedHex 4 high).toList ++
            '\\' :: 'u' :: (Text.paddedHex 4 low).toList) := by
        simp [numericEscape]
      rw [hlist]
      exact .pair hhalf hhalf' (by omega)

theorem readString_escapeForm {c : Char} {cs : List Char} (h : EscapeForm c cs)
    (start fuel : Nat) (done : List Char) {r : List Char} (hr : r ≠ []) (index : Nat) :
    ∃ j, readString start (fuel + 1) done ⟨cs ++ r, index⟩ =
      readString start fuel (c :: done) ⟨r, j⟩ := by
  cases h with
  | letter he hu _ => exact ⟨_, readString_short hu he⟩
  | plain hquote hslash hc => exact ⟨_, readString_plain hquote hslash hc⟩
  | basic hc =>
    rw [List.cons_append, List.cons_append, readString_numeric (unicodeEscape_basic hc hr _),
      drop_paddedHex hc]
    exact ⟨_, rfl⟩
  | @pair high low hhigh hlow hc =>
    have hdrop : ((Text.paddedHex 4 high).toList ++
        '\\' :: 'u' :: ((Text.paddedHex 4 low).toList ++ r)).drop 10 = r := by
      rw [Text.toList_paddedHex_four (highHalf_lt hhigh),
        Text.toList_paddedHex_four (lowHalf_lt hlow)]
      rfl
    rw [List.cons_append, List.cons_append, List.append_assoc, List.cons_append, List.cons_append,
      readString_numeric (unicodeEscape_pair hhigh hlow hr _), hdrop, hc, Char.ofNat_toNat]
    exact ⟨_, rfl⟩

def stringBody (cs : List Char) : List Char :=
  cs.flatMap fun c => (escapeChar c).toList

theorem escapeChar_ne_nil (c : Char) : (escapeChar c).toList ≠ [] := by
  intro h
  have hform := escapeForm_escapeChar c
  rw [h] at hform
  cases hform

/-- No carriage return is among the characters, so a reader of lines leaves them as they are. -/
def NoReturn (cs : List Char) : Prop :=
  '\r' ∉ cs

theorem NoReturn.append {cs ds : List Char} (hcs : NoReturn cs) (hds : NoReturn ds) :
    NoReturn (cs ++ ds) := by
  intro h
  rcases List.mem_append.1 h with h | h
  · exact hcs h
  · exact hds h

theorem noReturn_paddedHex {n : Nat} (hn : n < 0x10000) :
    NoReturn (Text.paddedHex 4 n).toList := by
  have hdigit : ∀ d < 16, Text.hexDigit d ≠ '\r' := by decide
  rw [Text.toList_paddedHex_four hn]
  simp only [NoReturn, List.mem_cons, List.not_mem_nil, or_false, not_or]
  exact ⟨(hdigit _ (by omega)).symm, (hdigit _ (by omega)).symm, (hdigit _ (by omega)).symm,
    (hdigit _ (by omega)).symm⟩

theorem EscapeForm.noReturn {c : Char} {cs : List Char} (h : EscapeForm c cs) : NoReturn cs := by
  have hmark : NoReturn ['\\', 'u'] := by simp [NoReturn]
  have hescape : ∀ {n : Nat}, n < 0x10000 → NoReturn ('\\' :: 'u' :: (Text.paddedHex 4 n).toList) :=
    fun hn => hmark.append (noReturn_paddedHex hn)
  cases h with
  | letter _ _ hr => simp [NoReturn, hr.symm]
  | plain _ _ hc =>
    intro h
    rw [← List.mem_singleton.1 h] at hc
    exact absurd hc (by decide)
  | basic hc => exact hescape hc
  | pair hhigh hlow _ =>
    exact (hescape (highHalf_lt hhigh)).append (hescape (lowHalf_lt hlow))

theorem length_le_stringBody (cs : List Char) : cs.length ≤ (stringBody cs).length := by
  induction cs with
  | nil => exact Nat.le_refl 0
  | cons c cs ih =>
    have := List.length_pos_iff.2 (escapeChar_ne_nil c)
    simp only [stringBody, List.flatMap_cons, List.length_append, List.length_cons] at ih ⊢
    omega

/-- The characters of a string are read up to its closing quote. -/
theorem readString_stringBody (start : Nat) (cs r done : List Char) (fuel index : Nat)
    (hf : cs.length < fuel) :
    ∃ j, readString start fuel done ⟨stringBody cs ++ '"' :: r, index⟩ =
      .ok (String.ofList (done.reverse ++ cs), ⟨r, j⟩) := by
  induction cs generalizing done fuel index with
  | nil =>
    cases fuel with
    | zero => simp at hf
    | succ fuel => exact ⟨index + 1, by simp [stringBody, readString, Cursor.skip]⟩
  | cons c cs ih =>
    cases fuel with
    | zero => simp at hf
    | succ fuel =>
      obtain ⟨j, hj⟩ := readString_escapeForm (escapeForm_escapeChar c) start fuel done
        (r := stringBody cs ++ '"' :: r) (by simp) index
      obtain ⟨j', hj'⟩ := ih (c :: done) fuel j (by simpa using hf)
      have hcons : stringBody (c :: cs) = (escapeChar c).toList ++ stringBody cs :=
        List.flatMap_cons
      refine ⟨j', ?_⟩
      rw [hcons, List.append_assoc, hj, hj']
      simp

theorem toList_writeString (s : String) (r : List Char) :
    (writeString s).toList ++ r = '"' :: (stringBody s.toList ++ '"' :: r) := by
  simp [writeString, stringBody, List.flatMap_map, String.toList_join]

theorem noReturn_writeString (s : String) : NoReturn (writeString s).toList := by
  have h := toList_writeString s []
  rw [List.append_nil] at h
  rw [h]
  intro hr
  simp only [stringBody, List.mem_cons, List.mem_append, List.mem_flatMap, List.not_mem_nil,
    or_false] at hr
  rcases hr with hr | ⟨c, -, hc⟩ | hr
  · exact absurd hr (by decide)
  · exact (escapeForm_escapeChar c).noReturn hc
  · exact absurd hr (by decide)

/-! ## Numbers -/

/-- What may follow a value: nothing, or a character that continues no number. -/
def Closes (r : List Char) : Prop :=
  ∀ c r', r = c :: r' → c = ',' ∨ c = ']' ∨ c = '\x7d' ∨ isSpace c = true

theorem Closes.head {c : Char} {r : List Char} (h : Closes (c :: r)) :
    Text.asciiDigit? c = none ∧ c ≠ '.' ∧ c ≠ 'e' ∧ c ≠ 'E' := by
  have hc : c = ',' ∨ c = ']' ∨ c = '\x7d' ∨ c = ' ' ∨ c = '\t' ∨ c = '\n' ∨ c = '\r' := by
    rcases h c r rfl with h | h | h | h
    · exact .inl h
    · exact .inr (.inl h)
    · exact .inr (.inr (.inl h))
    · simp only [isSpace, Bool.or_eq_true, beq_iff_eq, or_assoc] at h
      exact .inr (.inr (.inr h))
  rcases hc with rfl | rfl | rfl | rfl | rfl | rfl | rfl <;> decide

theorem fractionPart_closes {r : List Char} (h : Closes r) : fractionPart r = (none, r) := by
  cases r with
  | nil => rfl
  | cons c r =>
    rw [fractionPart]
    intro r' hr
    exact h.head.2.1 (List.cons.inj hr).1

theorem exponentPart_closes {r : List Char} (h : Closes r) : exponentPart r = (none, r) := by
  cases r with
  | nil => rfl
  | cons c r =>
    rw [exponentPart, if_neg]
    rintro (he | hE)
    · exact h.head.2.2.1 he
    · exact h.head.2.2.2 hE

/-- The digits of a number are taken up to what closes it. -/
theorem spanDigits_toDigits (n : Nat) {r : List Char} (h : Closes r) :
    spanDigits (Nat.toDigits 10 n ++ r) = (Text.digitValues n, r) := by
  have htake : (Nat.toDigits 10 n ++ r).takeWhile (fun c => (Text.asciiDigit? c).isSome) =
      Nat.toDigits 10 n := by
    rw [List.takeWhile_append_of_pos fun c hc => Text.asciiDigit?_isSome_of_mem_toDigits hc]
    cases r with
    | nil => simp
    | cons c r => simp [h.head.1]
  simp only [spanDigits, htake, List.drop_left]
  rfl

theorem wholePart?_toDigits (n : Nat) {r : List Char} (h : Closes r) :
    wholePart? (Nat.toDigits 10 n ++ r) = some (Text.digitValues n, r) := by
  have hspan := spanDigits_toDigits n h
  obtain ⟨c, cs, hcs⟩ := List.exists_cons_of_ne_nil (Text.toDigits_ne_nil n)
  have hvalues : Text.digitValues n ≠ [] := by
    intro hnil
    have hlen := Text.length_digitValues n
    rw [hnil, hcs] at hlen
    cases hlen
  cases n with
  | zero => rfl
  | succ n =>
    have hzero : c ≠ '0' := by
      have hhead := Text.head?_toDigits_ne_zero (Nat.succ_pos n)
      rw [hcs] at hhead
      intro hc
      exact hhead (by rw [hc]; rfl)
    rw [hcs] at hspan ⊢
    rw [List.cons_append, wholePart?]
    · rw [← List.cons_append, hspan]
      split
      next heq => exact absurd (congrArg Prod.fst heq) hvalues
      next => rfl
    · intro r' hr
      exact hzero (List.cons.inj hr).1

/-- Integers that the reader takes: those of at most so many digits. -/
def IsShort (n : Int) : Prop :=
  Number.isWritten n = true

theorem readNumber_decimalInt {n : Int} (hn : IsShort n) {r : List Char} (h : Closes r)
    (index : Nat) :
    ∃ j, readNumber ⟨(Text.decimalInt n).toList ++ r, index⟩ = .ok (.int n, ⟨r, j⟩) := by
  have hshort : ¬ Number.digitLimit < (Text.digitValues n.natAbs).length := by
    rw [Text.length_digitValues]
    exact Nat.not_lt.2 (of_decide_eq_true hn)
  have hwhole := wholePart?_toDigits n.natAbs h
  have hdrop : ∀ cs : List Char, (cs ++ r).drop ((cs ++ r).length - r.length) = r := by
    intro cs
    rw [List.length_append, Nat.add_sub_cancel, List.drop_left]
  cases n with
  | ofNat n =>
    obtain ⟨c, cs, hcs⟩ := List.exists_cons_of_ne_nil (Text.toDigits_ne_nil n)
    have hminus : c ≠ '-' := by
      obtain ⟨d, hd, hc⟩ := Text.mem_toDigits (n := n) (c := c) (by rw [hcs]; simp)
      rw [hc]
      revert hd
      exact (by decide : ∀ d < 10, d.digitChar ≠ '-') d
    have hlist : (Text.decimalInt (.ofNat n)).toList = Nat.toDigits 10 n := by
      simp [Text.decimalInt, Text.decimal]
    have hwhole : wholePart? (Nat.toDigits 10 n ++ r) = some (Text.digitValues n, r) := hwhole
    have hshort : ¬ Number.digitLimit < (Text.digitValues n).length := hshort
    have hdrop := hdrop (Nat.toDigits 10 n)
    rw [hcs, List.cons_append] at hwhole hdrop
    rw [hlist, hcs, List.cons_append, readNumber]
    simp only [List.cons.injEq, hminus, false_and, imp_false, not_false_eq_true, implies_true,
      hwhole, fractionPart_closes h, exponentPart_closes h, Option.isSome_none,
      Bool.or_self, Bool.false_eq_true, if_false, hshort, Text.ofDigits_digitValues, Cursor.skip,
      hdrop]
    exact ⟨_, rfl⟩
  | negSucc n =>
    have hlist : (Text.decimalInt (.negSucc n)).toList ++ r =
        '-' :: (Nat.toDigits 10 (n + 1) ++ r) := by
      simp [Text.decimalInt, Text.decimal]
    have hdrop' := hdrop ('-' :: Nat.toDigits 10 (n + 1))
    rw [List.cons_append] at hdrop'
    have hwhole : wholePart? (Nat.toDigits 10 (n + 1) ++ r) =
        some (Text.digitValues (n + 1), r) := hwhole
    have hshort : ¬ Number.digitLimit < (Text.digitValues (n + 1)).length := hshort
    rw [hlist, readNumber]
    simp only [hwhole, fractionPart_closes h, exponentPart_closes h, Option.isSome_none,
      Bool.or_self, Bool.false_eq_true, if_false, hshort, Text.ofDigits_digitValues, Cursor.skip,
      hdrop']
    exact ⟨_, rfl⟩

theorem noReturn_decimalInt (n : Int) : NoReturn (Text.decimalInt n).toList := by
  have hdigits : ∀ n : Nat, NoReturn (Nat.toDigits 10 n) := by
    intro n h
    obtain ⟨d, hd, hc⟩ := Text.mem_toDigits h
    revert hc
    exact (by decide : ∀ d < 10, '\r' ≠ d.digitChar) d hd
  cases n with
  | ofNat n => simpa [Text.decimalInt, Text.decimal] using hdigits n
  | negSucc n => simpa [Text.decimalInt, Text.decimal, NoReturn] using hdigits (n + 1)

end RowAccess.Json
