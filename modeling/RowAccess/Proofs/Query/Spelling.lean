import RowAccess.Operation.Storage
import RowAccess.Proofs.Calendar.Iso
import RowAccess.Proofs.Capture
import RowAccess.Proofs.Json.Scalar
import RowAccess.Proofs.Query.Record

/-
  RowAccess/Proofs/Query/Spelling.lean
  ====================================
  **An integer and its decimal text stand for the same number.**  The text is read as the integer,
  blanks around it apart, and it is present and single as the integer is.  Some texts of integers
  also spell a date: such a bound of a range stays a text until it meets its column, and a column of
  numbers makes the integer of it.  No text of an integer has a time of day, so none leads past the
  calendar.
-/

namespace RowAccess

open Outcome

namespace Text

/-- Does the text spell the integer, with blanks around it or none? -/
structure SpellsInt (s : String) (n : Int) : Prop where
  short : Json.IsShort n
  padded : ∃ before after : List Char, before.all isBlank = true ∧ after.all isBlank = true ∧
    s.toList = before ++ (decimalInt n).toList ++ after

/-- A minus or a digit, of which an integer is written. -/
theorem mem_decimalInt {n : Int} {c : Char} (hc : c ∈ (decimalInt n).toList) :
    c = '-' ∨ ∃ d < 10, c = d.digitChar := by
  cases n with
  | ofNat n =>
    have hdigit : c ∈ Nat.toDigits 10 n := by simpa [decimalInt, decimal] using hc
    exact .inr (mem_toDigits hdigit)
  | negSucc n =>
    have hdigit : c = '-' ∨ c ∈ Nat.toDigits 10 (n + 1) := by
      simpa [decimalInt, decimal] using hc
    exact hdigit.imp_right mem_toDigits

theorem isDense_decimalInt (n : Int) : IsDense (decimalInt n) := by
  intro c hc
  rcases mem_decimalInt hc with rfl | ⟨d, hd, rfl⟩
  · rfl
  · exact (by decide : ∀ d < 10, isBlank d.digitChar = false) d hd

theorem not_isTimeStart_decimalInt (n : Int) :
    ∀ c ∈ (decimalInt n).toList, Iso.isTimeStart c = false := by
  intro c hc
  rcases mem_decimalInt hc with rfl | ⟨d, hd, rfl⟩
  · rfl
  · exact (by decide : ∀ d < 10, Iso.isTimeStart d.digitChar = false) d hd

theorem toList_decimalInt_ne_nil (n : Int) : (decimalInt n).toList ≠ [] := by
  cases n with
  | ofNat n => simp [decimalInt, decimal]
  | negSucc n => simp [decimalInt]

namespace SpellsInt

variable {s : String} {n : Int}

theorem trim (h : SpellsInt s n) : trim s.toList = (decimalInt n).toList := by
  obtain ⟨before, after, hbefore, hafter, hs⟩ := h.padded
  rw [hs]
  exact trim_padded hbefore hafter (isDense_decimalInt n)

theorem strip (h : SpellsInt s n) : strip s = decimalInt n := by
  rw [Text.strip, h.trim, String.ofList_toList]

theorem isBlankText (h : SpellsInt s n) : isBlankText s = false := by
  obtain ⟨before, after, -, -, hs⟩ := h.padded
  obtain ⟨c, cs, hcs⟩ := List.exists_cons_of_ne_nil (toList_decimalInt_ne_nil n)
  have hc : isBlank c = false := isDense_decimalInt n c (by rw [hcs]; exact List.mem_cons_self)
  rw [Text.isBlankText, hs, hcs]
  simp [hc]

end SpellsInt

end Text

namespace Number

open Text

/-- The decimal text of an integer is read as the integer. -/
theorem readInt_decimalInt {n : Int} (hn : Json.IsShort n) :
    readInt (decimalInt n).toList = .ok n := by
  have hshort : ¬ digitLimit < (digitValues n.natAbs).length := by
    rw [length_digitValues]
    exact Nat.not_lt.2 (of_decide_eq_true hn)
  have hsign : ∀ d < 10, d.digitChar ≠ '-' ∧ d.digitChar ≠ '+' := by decide
  cases n with
  | ofNat n =>
    have hlist : (decimalInt (.ofNat n)).toList = Nat.toDigits 10 n := by
      simp [decimalInt, decimal]
    have hsplit : splitSign (Nat.toDigits 10 n) = (false, Nat.toDigits 10 n) := by
      obtain ⟨c, cs, hcs⟩ := List.exists_cons_of_ne_nil (toDigits_ne_nil n)
      obtain ⟨d, hd, rfl⟩ := mem_toDigits (n := n) (c := c) (by rw [hcs]; exact List.mem_cons_self)
      obtain ⟨hminus, hplus⟩ := hsign d hd
      rw [hcs, splitSign]
      · simp [hminus]
      · simp [hplus]
    have hshort : ¬ digitLimit < (digitValues n).length := hshort
    rw [hlist, readInt, hsplit]
    simp only [digitSequence?_toDigits, if_neg hshort, ofDigits_digitValues]
    rfl
  | negSucc n =>
    have hlist : (decimalInt (.negSucc n)).toList = '-' :: Nat.toDigits 10 (n + 1) := by
      simp [decimalInt, decimal]
    have hshort : ¬ digitLimit < (digitValues (n + 1)).length := hshort
    rw [hlist, readInt, splitSign]
    simp only [digitSequence?_toDigits, if_neg hshort, ofDigits_digitValues]
    rfl

end Number

/-! ## Values -/

/-- The same value, or an integer and a text that spells it. -/
inductive Value.Respelled : Value → Value → Prop
  | same (v : Value) : Respelled v v
  | spelled {s : String} {n : Int} (h : Text.SpellsInt s n) : Respelled (.int n) (.text s)

namespace Text.SpellsInt

variable {s : String} {n : Int}

theorem numeral? (h : SpellsInt s n) : (Value.text s).numeral? = some (.int n) := by
  rw [Value.numeral?, Numeral.ofText?, h.trim, Number.readInt_decimalInt h.short]

/-- A text of an integer spells a naive timestamp or spells none. -/
theorem exists_isTimestampText (h : SpellsInt s n) :
    ∃ b, Conversion.isTimestampText (.text s) = .ok b := by
  have hcalendar := Iso.inCalendar_read (not_isTimeStart_decimalInt n)
  rw [Validation.isTimestampText_text, h.strip]
  split
  next t _ => exact ⟨t.isNaive, rfl⟩
  next hpast => exact absurd rfl (hcalendar _ hpast)
  next => exact ⟨false, rfl⟩

/-- As a bound of a range the text stays as it is or becomes the integer. -/
theorem boundOf_text (h : SpellsInt s n) (key : Key) :
    Validation.boundOf key (.text s) = .ok (.text s) ∨
      Validation.boundOf key (.text s) = .ok (.int n) := by
  obtain ⟨b, hb⟩ := h.exists_isTimestampText
  unfold Validation.boundOf
  rw [hb, ok_bind]
  cases b with
  | true => exact .inl rfl
  | false =>
    rw [if_neg Bool.false_ne_true, h.numeral?]
    exact .inr rfl

end Text.SpellsInt

namespace Value.Respelled

open Storage Validation

variable {v w : Value}

theorem numeral?_eq (h : v.Respelled w) : v.numeral? = w.numeral? := by
  cases h with
  | same => rfl
  | spelled h => rw [h.numeral?, numeral?]

theorem isMissing_eq (h : v.Respelled w) : isMissing v = isMissing w := by
  cases h with
  | same => rfl
  | spelled h => exact h.isBlankText.symm

theorem isNested_eq (h : v.Respelled w) :
    (v.isList || v.isObject) = (w.isList || w.isObject) := by
  cases h with
  | same => rfl
  | spelled h => rfl

theorem isEntry_eq (h : v.Respelled w) : isEntry v = isEntry w := by
  cases h with
  | same => rfl
  | spelled h =>
    rw [isEntry, isEntry, (spelled h).isMissing_eq]
    rfl

/-- An integer that a text spells has no more digits than are written. -/
theorem isWritable_eq (h : v.Respelled w) : v.isWritable = w.isWritable := by
  cases h with
  | same => rfl
  | spelled h => exact h.short

theorem all_isWritable_eq {vs ws : List Value} (h : List.Forall₂ Value.Respelled vs ws) :
    vs.all Value.isWritable = ws.all Value.isWritable := by
  induction h with
  | nil => rfl
  | cons hvw _ ih => rw [List.all_cons, List.all_cons, hvw.isWritable_eq, ih]

/-- A column of numbers stores the integer, however it is spelled. -/
theorem numberValue_eq (h : v.Respelled w) : numberValue v = numberValue w := by
  cases h with
  | same => rfl
  | spelled h =>
    rw [numberValue, numberValue, h.numeral?]
    rfl

theorem alike_boundOf (h : v.Respelled w) (key : Key) :
    Alike Fault.SameClass (fun a b => numberValue a = numberValue b) (boundOf key v)
      (boundOf key w) := by
  cases h with
  | same v =>
    refine Alike.refl Fault.SameClass.same ?_ _
    intro a
    rfl
  | @spelled s n h =>
    rw [show boundOf key (.int n) = .ok (.int n) from rfl]
    rcases h.boundOf_text key with htext | hint
    · rw [htext]
      exact .ok (spelled h).numberValue_eq
    · rw [hint]
      exact .ok rfl

/-- A limit is the number that it is, however it is spelled. -/
theorem alike_limitOf (h : v.Respelled w) :
    Alike Fault.SameClass (fun m n => m = n) (limitOf v) (limitOf w) := by
  unfold limitOf
  rw [h.numeral?_eq]
  have hwritable : (Fault.validation (.limit v)).isWritable =
      (Fault.validation (.limit w)).isWritable :=
    all_isWritable_eq (.cons h .nil)
  rcases w.numeral?.bind Numeral.toInt? with _ | _ | n
  · exact .error (.kind rfl rfl hwritable)
  · exact .ok rfl
  · exact .error (.kind rfl rfl hwritable)

end Value.Respelled

end RowAccess
