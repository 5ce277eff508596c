import Mathlib.Algebra.Group.Nat.Defs
import RowAccess.Number.Reading

/-
  RowAccess/Proofs/Text/Digit.lean
  ================================
  **Digits are read as they were written.**  The digits of a number in a base are those of its
  quotient and one more for its remainder; every fact here is an induction along that rule
  (`Text.digits_induction`).  A decimal text gives its number back, and so do the four hexadecimal
  digits of a number that has no more.
-/

namespace RowAccess.Text

/-- What holds of one digit and survives another digit at the end holds of the digits of every
number. -/
theorem digits_induction {b : Nat} (hb : 1 < b) {motive : Nat → List Char → Prop}
    (one : ∀ d, d < b → motive d [d.digitChar])
    (more : ∀ n d cs, 0 < n → d < b → motive n cs → motive (b * n + d) (cs ++ [d.digitChar]))
    (n : Nat) : motive n (Nat.toDigits b n) := by
  induction n using Nat.strongRecOn with
  | ind n ih =>
    by_cases hn : n < b
    · rw [Nat.toDigits_of_lt_base hn]
      exact one n hn
    · have hq : 0 < n / b := Nat.div_pos (Nat.le_of_not_lt hn) (by omega)
      have hd : n % b < b := Nat.mod_lt n (by omega)
      have h := more (n / b) (n % b) _ hq hd (ih _ (Nat.div_lt_self (by omega) hb))
      rw [← Nat.toDigits_of_lt_base hd, Nat.toDigits_append_toDigits hb hq hd,
        Nat.div_add_mod] at h
      exact h

theorem toDigits_ne_nil (n : Nat) : Nat.toDigits 10 n ≠ [] := by
  refine digits_induction (by omega) (motive := fun _ cs => cs ≠ []) ?_ ?_ n
  · intro d _ h
    cases h
  · intro n d cs _ _ _ h
    simp at h

/-! ## Decimal digits -/

theorem asciiDigit?_digitChar : ∀ d < 10, asciiDigit? d.digitChar = some d := by decide

theorem decimalValue?_digitChar : ∀ d < 10, decimalValue? d.digitChar = some d := by decide

theorem digitChar_ne_underscore : ∀ d < 10, d.digitChar ≠ '_' := by decide

def digitValues (n : Nat) : List Nat :=
  (Nat.toDigits 10 n).filterMap asciiDigit?

theorem ofDigits_snoc (ds : List Nat) (d : Nat) : ofDigits (ds ++ [d]) = 10 * ofDigits ds + d := by
  simp [ofDigits, List.foldl_append]

/-- The digits of a number spell it. -/
theorem ofDigits_digitValues (n : Nat) : ofDigits (digitValues n) = n := by
  refine digits_induction (by omega)
    (motive := fun n cs => ofDigits (cs.filterMap asciiDigit?) = n) ?_ ?_ n
  · intro d hd
    simp [asciiDigit?_digitChar d hd, ofDigits]
  · intro n d cs _ hd ih
    simp only [List.filterMap_append, List.filterMap_cons, asciiDigit?_digitChar d hd,
      List.filterMap_nil]
    rw [ofDigits_snoc, ih]

/-- Every character of a decimal text is a digit. -/
theorem mem_toDigits {n : Nat} {c : Char} (hc : c ∈ Nat.toDigits 10 n) :
    ∃ d < 10, c = d.digitChar := by
  have h := digits_induction (b := 10) (by omega)
    (motive := fun _ cs => ∀ c ∈ cs, ∃ d < 10, c = d.digitChar)
    (fun d hd c hc => ⟨d, hd, List.mem_singleton.1 hc⟩)
    (fun n d cs _ hd ih c hc => by
      rcases List.mem_append.1 hc with hc | hc
      · exact ih c hc
      · exact ⟨d, hd, List.mem_singleton.1 hc⟩)
  exact h n c hc

theorem toList_decimal (n : Nat) : (decimal n).toList = Nat.toDigits 10 n :=
  String.toList_ofList

theorem decimal_injective {m n : Nat} (h : decimal m = decimal n) : m = n := by
  have hdigits : Nat.toDigits 10 m = Nat.toDigits 10 n := by
    rw [← toList_decimal, h, toList_decimal]
  rw [← ofDigits_digitValues m, ← ofDigits_digitValues n, digitValues, digitValues, hdigits]

theorem asciiDigit?_isSome_of_mem_toDigits {n : Nat} {c : Char} (hc : c ∈ Nat.toDigits 10 n) :
    (asciiDigit? c).isSome = true := by
  obtain ⟨d, hd, rfl⟩ := mem_toDigits hc
  rw [asciiDigit?_digitChar d hd]
  rfl

theorem length_digitValues (n : Nat) : (digitValues n).length = (Nat.toDigits 10 n).length := by
  rw [digitValues, List.length_filterMap_eq_countP, List.countP_eq_length]
  intro c hc
  exact asciiDigit?_isSome_of_mem_toDigits hc

/-- Only zero starts with a zero. -/
theorem head?_toDigits_ne_zero {n : Nat} (hn : 0 < n) : (Nat.toDigits 10 n).head? ≠ some '0' := by
  have h := digits_induction (b := 10) (by omega)
    (motive := fun n cs => 0 < n → cs ≠ [] ∧ cs.head? ≠ some '0')
    (fun d hd hpos => by
      refine ⟨by simp, ?_⟩
      simp only [List.head?_cons, ne_eq, Option.some.injEq, Nat.digitChar_eq_zero]
      omega)
    (fun n d cs hn _ ih _ => by
      obtain ⟨hne, hhead⟩ := ih hn
      obtain ⟨c, r, rfl⟩ := List.exists_cons_of_ne_nil hne
      exact ⟨by simp, hhead⟩)
  exact (h n hn).2

/-! ## The order of digits -/

theorem foldl_digits (ds : List Nat) (n : Nat) :
    ds.foldl (fun n d => 10 * n + d) n = 10 ^ ds.length * n + ofDigits ds := by
  induction ds generalizing n with
  | nil => simp [ofDigits]
  | cons d ds ih =>
    rw [ofDigits, List.foldl_cons, List.foldl_cons, ih, ih (10 * 0 + d), List.length_cons,
      Nat.pow_succ, Nat.mul_add, Nat.mul_assoc, Nat.add_assoc, Nat.mul_zero, Nat.zero_add]

theorem ofDigits_cons (d : Nat) (ds : List Nat) :
    ofDigits (d :: ds) = 10 ^ ds.length * d + ofDigits ds := by
  rw [ofDigits, List.foldl_cons, foldl_digits, Nat.mul_zero, Nat.zero_add]

theorem ofDigits_lt {ds : List Nat} (h : ∀ d ∈ ds, d < 10) : ofDigits ds < 10 ^ ds.length := by
  induction ds with
  | nil => decide
  | cons d ds ih =>
    obtain ⟨hd, hds⟩ := List.forall_mem_cons.1 h
    have hrest := ih hds
    have hfirst : 10 ^ ds.length * d ≤ 10 ^ ds.length * 9 :=
      Nat.mul_le_mul_left _ (Nat.le_of_lt_succ hd)
    rw [ofDigits_cons, List.length_cons, Nat.pow_succ]
    omega

/-- Of two numbers below a power the places above it decide first. -/
theorem add_lt_add_iff_of_lt {power m n r s : Nat} (hr : r < power) (hs : s < power) :
    power * m + r < power * n + s ↔ m < n ∨ m = n ∧ r < s := by
  rcases Nat.lt_trichotomy m n with hlt | rfl | hgt
  · have hstep : power * (m + 1) ≤ power * n := Nat.mul_le_mul_left _ hlt
    rw [Nat.mul_succ] at hstep
    omega
  · simp
  · have hstep : power * (n + 1) ≤ power * m := Nat.mul_le_mul_left _ hgt
    rw [Nat.mul_succ] at hstep
    omega

theorem digitChar_lt_iff : ∀ d < 10, ∀ e < 10, (d.digitChar < e.digitChar ↔ d < e) := by decide

theorem digitChar_injective : ∀ d < 10, ∀ e < 10, d.digitChar = e.digitChar → d = e := by decide

/-- Digits at as many places stand in the order of the numbers that they spell. -/
theorem digits_lt_iff {ds es : List Nat} (hds : ∀ d ∈ ds, d < 10) (hes : ∀ e ∈ es, e < 10)
    (hlength : ds.length = es.length) :
    ds.map Nat.digitChar < es.map Nat.digitChar ↔ ofDigits ds < ofDigits es := by
  induction ds generalizing es with
  | nil =>
    rw [List.length_eq_zero_iff.1 hlength.symm]
    simp
  | cons d ds ih =>
    obtain ⟨e, es, rfl⟩ := List.exists_cons_of_length_eq_add_one hlength.symm
    obtain ⟨hd, hds⟩ := List.forall_mem_cons.1 hds
    obtain ⟨he, hes⟩ := List.forall_mem_cons.1 hes
    have hlengths : ds.length = es.length := Nat.succ.inj hlength
    have hheads : d.digitChar = e.digitChar ↔ d = e :=
      ⟨digitChar_injective d hd e he, congrArg Nat.digitChar⟩
    have hrest := ofDigits_lt hds
    rw [hlengths] at hrest
    rw [List.map_cons, List.map_cons, List.cons_lt_cons_iff, digitChar_lt_iff d hd e he, hheads,
      ih hds hes hlengths, ofDigits_cons, ofDigits_cons, hlengths,
      add_lt_add_iff_of_lt hrest (ofDigits_lt hes)]

/-! ## Padded digits -/

def paddedDigits (b width n : Nat) : List Char :=
  List.replicate (width - (Nat.toDigits b n).length) '0' ++ Nat.toDigits b n

theorem paddedDigits_one {b n : Nat} (hn : n < b) : paddedDigits b 1 n = [n.digitChar] := by
  simp [paddedDigits, Nat.toDigits_of_lt_base hn]

/-- One more place takes the remainder. -/
theorem paddedDigits_succ {b : Nat} (hb : 1 < b) (width n : Nat) :
    paddedDigits b (width + 2) n = paddedDigits b (width + 1) (n / b) ++ [(n % b).digitChar] := by
  have hd : n % b < b := Nat.mod_lt n (by omega)
  by_cases hn : n < b
  · rw [paddedDigits, paddedDigits, Nat.div_eq_of_lt hn, Nat.mod_eq_of_lt hn,
      Nat.toDigits_of_lt_base hn, Nat.toDigits_zero]
    have hz : List.replicate (width + 1) '0' = List.replicate width '0' ++ ['0'] :=
      List.replicate_succ'
    simp [hz]
  · have hq : 0 < n / b := Nat.div_pos (Nat.le_of_not_lt hn) (by omega)
    have h := Nat.toDigits_append_toDigits hb hq hd
    rw [Nat.div_add_mod, Nat.toDigits_of_lt_base hd] at h
    simp only [paddedDigits, ← h, List.length_append, List.length_singleton, ← List.append_assoc]
    congr 3
    omega

theorem digitChar_eq_hexDigit : ∀ d < 16, d.digitChar = hexDigit d := by decide

/-- The four hexadecimal digits of a number that has no more. -/
theorem toList_paddedHex_four {n : Nat} (hn : n < 0x10000) :
    (paddedHex 4 n).toList =
      [hexDigit (n / 16 / 16 / 16), hexDigit (n / 16 / 16 % 16), hexDigit (n / 16 % 16),
        hexDigit (n % 16)] := by
  have h : (paddedHex 4 n).toList = paddedDigits 16 4 n := String.toList_ofList
  rw [h, paddedDigits_succ (by omega), paddedDigits_succ (by omega), paddedDigits_succ (by omega),
    paddedDigits_one (by omega), digitChar_eq_hexDigit _ (by omega),
    digitChar_eq_hexDigit _ (by omega), digitChar_eq_hexDigit _ (by omega),
    digitChar_eq_hexDigit _ (by omega)]
  rfl

end RowAccess.Text

namespace RowAccess.Number

open Text

/-! ## Integers -/

/-- The digits of a number are a digit sequence, whose values are theirs. -/
theorem digitSequence?_toDigits (n : Nat) :
    digitSequence? (Nat.toDigits 10 n) = some (digitValues n) := by
  have general : ∀ cs : List Char, cs ≠ [] → (∀ c ∈ cs, ∃ d < 10, c = d.digitChar) →
      digitSequence? cs = some (cs.filterMap asciiDigit?) := by
    intro cs
    induction cs with
    | nil =>
      intro h _
      exact absurd rfl h
    | cons c r ih =>
      intro _ hc
      obtain ⟨d, hd, rfl⟩ := hc c List.mem_cons_self
      cases r with
      | nil =>
        simp [digitSequence?, decimalValue?_digitChar d hd, asciiDigit?_digitChar d hd]
      | cons c' r =>
        obtain ⟨d', hd', hc'⟩ := hc c' (by simp)
        have hrest := ih (by simp) fun x hx => hc x (List.mem_cons_of_mem _ hx)
        have hne : c' ≠ '_' := by
          rw [hc']
          exact digitChar_ne_underscore d' hd'
        rw [digitSequence?, hrest, decimalValue?_digitChar d hd]
        · simp [asciiDigit?_digitChar d hd]
        · simp
        · intro r' h
          exact hne (List.cons.inj h).1
  exact general _ (toDigits_ne_nil n) fun c hc => mem_toDigits hc

end RowAccess.Number
