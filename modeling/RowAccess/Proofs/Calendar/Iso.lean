import Mathlib.Algebra.Group.Nat.Defs
import RowAccess.Calendar.Iso
import RowAccess.Proofs.Outcome
import RowAccess.Proofs.Text.Blank
import RowAccess.Proofs.Text.Digit

/-
  RowAccess/Proofs/Calendar/Iso.lean
  ==================================
  **ISO texts are read as they were written.**  The digits of a field spell its number and end
  where the next separator stands, so a date and a time of day are read field by field
  (`Iso.readDate_text`, `Iso.readTime_text`).  A date and a naive timestamp are given back whole; a
  text with an offset is read, if at all, as a timestamp with an offset.  A text without a time of
  day does not lead past the calendar (`Iso.inCalendar_read`).
-/

namespace RowAccess

open Outcome

/-! ## Padded numbers -/

namespace Text

/-- The padded digits of a number are digits that spell it, as many as there are places. -/
theorem exists_digits_of_paddedDigits (width : Nat) {n : Nat} (hn : n < 10 ^ (width + 1)) :
    ∃ ds : List Nat, paddedDigits 10 (width + 1) n = ds.map Nat.digitChar ∧ (∀ d ∈ ds, d < 10) ∧
      ds.length = width + 1 ∧ ofDigits ds = n := by
  induction width generalizing n with
  | zero => exact ⟨[n], by simpa using paddedDigits_one hn, by simpa using hn, rfl, by simp [ofDigits]⟩
  | succ width ih =>
    obtain ⟨ds, hds, hlt, hlength, hvalue⟩ := ih (n := n / 10) (by omega)
    refine ⟨ds ++ [n % 10], ?_, ?_, by simp [hlength], ?_⟩
    · rw [paddedDigits_succ (by omega), hds]
      simp
    · intro d hd
      rcases List.mem_append.1 hd with hd | hd
      · exact hlt d hd
      · rw [List.mem_singleton.1 hd]
        exact Nat.mod_lt n (by omega)
    · rw [ofDigits_snoc, hvalue]
      omega

theorem toList_padded (width n : Nat) : (padded width n).toList = paddedDigits 10 width n :=
  String.toList_ofList

theorem exists_digitChar_of_mem_padded {width n : Nat} {c : Char} (hc : c ∈ (padded width n).toList) :
    ∃ d < 10, c = d.digitChar := by
  rw [toList_padded, paddedDigits, List.mem_append] at hc
  rcases hc with hc | hc
  · exact ⟨0, by decide, (List.mem_replicate.1 hc).2⟩
  · obtain ⟨d, hd, rfl⟩ := mem_toDigits hc
    exact ⟨d, hd, rfl⟩

theorem isDense_padded (width n : Nat) : IsDense (padded width n) := by
  have hdigit : ∀ d < 10, isBlank d.digitChar = false := by decide
  intro c hc
  obtain ⟨d, hd, rfl⟩ := exists_digitChar_of_mem_padded hc
  exact hdigit d hd

theorem toNat_digitChar_ne_zero : ∀ d < 10, d.digitChar.toNat ≠ 0 := by decide

end Text

/-! ## Texts of dates and times -/

open Text in
theorem Date.isDense_text (d : Date) : Text.IsDense d.text := by
  have hhyphen : Text.IsDense "-" := by decide
  have hyear := (isDense_padded 4 d.year).append hhyphen
  exact ((hyear.append (isDense_padded 2 d.month)).append hhyphen).append (isDense_padded 2 d.day)

namespace Timestamp

open Text

theorem isDense_timeText (t : Timestamp) : Text.IsDense t.timeText := by
  have hcolon : Text.IsDense ":" := by decide
  have hpoint : Text.IsDense "." := by decide
  have hminute := ((isDense_padded 2 t.hour).append hcolon).append (isDense_padded 2 t.minute)
  have hsecond := (hminute.append hcolon).append (isDense_padded 2 t.second)
  unfold timeText
  split
  · exact hsecond.append (by decide)
  · exact hsecond.append (hpoint.append (isDense_padded 6 t.micro))

theorem isDense_offsetText (offset : Int) : Text.IsDense (offsetText offset) := by
  have hcolon : Text.IsDense ":" := by decide
  have hsign : Text.IsDense (if offset < 0 then "-" else "+") := by
    split <;> decide
  have hseconds : Text.IsDense (if offset.natAbs % 60 = 0 then "" else
      ":" ++ Text.padded 2 (offset.natAbs % 60)) := by
    split
    · decide
    · exact hcolon.append (isDense_padded 2 _)
  have hhours := (hsign.append (isDense_padded 2 (offset.natAbs / 3600))).append hcolon
  exact (hhours.append (isDense_padded 2 (offset.natAbs / 60 % 60))).append hseconds

theorem isDense_isoText (t : Timestamp) : Text.IsDense t.isoText := by
  unfold isoText textWith
  have hnaive := (t.date.isDense_text.append (by decide : Text.IsDense "T")).append
    t.isDense_timeText
  cases t.offset with
  | none => exact hnaive.append (by decide)
  | some offset => exact hnaive.append (isDense_offsetText offset)

end Timestamp

theorem Date.day_le (d : Date) : d.day ≤ 31 := by
  have hday := d.exists_day
  have hmonth : daysInMonth d.year d.month ≤ 31 := by
    unfold daysInMonth
    split <;> try omega
    split <;> omega
  omega

theorem Date.day_lt (d : Date) : d.day < 10 ^ 2 :=
  Nat.lt_of_le_of_lt d.day_le (by decide)

namespace Iso

open Text

/-! ## Fields -/

theorem advance_cons (c : Char) (r : List Char) (i : Nat) :
    Cursor.advance ⟨c :: r, i⟩ = ⟨r, i + c.utf8Size⟩ := rfl

theorem sees_cons {c : Char} (hc : c.toNat ≠ 0) (r : List Char) (i : Nat) (p : Char → Bool) :
    Cursor.sees ⟨c :: r, i⟩ p = p c := by
  rw [Cursor.sees, Cursor.head?]
  simp only [if_neg hc]

theorem continues_cons {c : Char} (hc : c.toNat ≠ 0) (r : List Char) (i : Nat) (stop : Char → Bool) :
    Cursor.continues ⟨c :: r, i⟩ stop = !stop c := by
  rw [Cursor.continues, Cursor.head?]
  simp only [if_neg hc]

theorem readSeparator_cons {c : Char} (hc : c.toNat ≠ 0) (field : String) {p : Char → Bool}
    (hp : p c = true) (r : List Char) (i : Nat) :
    readSeparator field p ⟨c :: r, i⟩ = .ok ⟨r, i + c.utf8Size⟩ := by
  rw [readSeparator, Cursor.head?]
  simp only [if_neg hc, if_pos hp, advance_cons]

@[simp] theorem head?_digit {d : Nat} (hd : d < 10) (r : List Char) (i : Nat) :
    Cursor.head? ⟨d.digitChar :: r, i⟩ = some d.digitChar := by
  rw [Cursor.head?]
  exact if_neg (toNat_digitChar_ne_zero d hd)

theorem readDigits_map (field : String) {ds : List Nat} (hds : ∀ d ∈ ds, d < 10) (value : Nat)
    (r : List Char) (i : Nat) :
    ∃ j, readDigits field ds.length value ⟨ds.map Nat.digitChar ++ r, i⟩ =
      .ok (ds.foldl (fun n d => 10 * n + d) value, ⟨r, j⟩) := by
  induction ds generalizing value i with
  | nil => exact ⟨i, rfl⟩
  | cons d ds ih =>
    have hd := hds d List.mem_cons_self
    obtain ⟨j, hj⟩ := ih (fun e he => hds e (List.mem_cons_of_mem _ he)) (10 * value + d)
      (i + d.digitChar.utf8Size)
    refine ⟨j, ?_⟩
    rw [List.length_cons, List.map_cons, List.cons_append, readDigits, head?_digit hd]
    simp only [asciiDigit?_digitChar d hd]
    exact hj

/-- A field of a number is read as the number. -/
theorem readDigits_padded (field : String) (width : Nat) {n : Nat} (hn : n < 10 ^ (width + 1))
    (r : List Char) (i : Nat) :
    ∃ j, readDigits field (width + 1) 0 ⟨(padded (width + 1) n).toList ++ r, i⟩ =
      .ok (n, ⟨r, j⟩) := by
  obtain ⟨ds, hds, hlt, hlength, hvalue⟩ := exists_digits_of_paddedDigits width hn
  obtain ⟨j, hj⟩ := readDigits_map field hlt 0 r i
  refine ⟨j, ?_⟩
  rw [toList_padded, hds, ← hlength, hj, ← ofDigits, hvalue]

/-- What does not go on with a digit. -/
def EndsDigits (r : List Char) : Prop :=
  ∀ c ∈ r.head?, asciiDigit? c = none

theorem fractionDigits_map {ds : List Nat} (hds : ∀ d ∈ ds, d < 10) (value : Nat) {r : List Char}
    (hr : EndsDigits r) (i : Nat) :
    ∃ j, fractionDigits ds.length value (ds.map Nat.digitChar ++ r) i =
      (ds.foldl (fun n d => 10 * n + d) value, ⟨r, j⟩) := by
  induction ds generalizing value i with
  | nil =>
    refine ⟨i, ?_⟩
    cases r with
    | nil => simp [fractionDigits]
    | cons c r => simp [fractionDigits, hr c rfl]
  | cons d ds ih =>
    have hd := hds d List.mem_cons_self
    obtain ⟨j, hj⟩ := ih (fun e he => hds e (List.mem_cons_of_mem _ he)) (10 * value + d) (i + 1)
    refine ⟨j, ?_⟩
    rw [List.length_cons, List.map_cons, List.cons_append, fractionDigits]
    simp only [asciiDigit?_digitChar d hd]
    exact hj

/-- Six digits are the whole fraction where no other digit follows. -/
theorem readFraction_padded {n : Nat} (hn : n < 10 ^ 6) {r : List Char} (hr : EndsDigits r)
    (i : Nat) : ∃ j, readFraction ⟨(padded 6 n).toList ++ r, i⟩ = .ok (n, ⟨r, j⟩) := by
  obtain ⟨ds, hds, hlt, hlength, hvalue⟩ := exists_digits_of_paddedDigits 5 hn
  obtain ⟨d, ds, rfl⟩ := List.exists_cons_of_length_eq_add_one hlength
  have hd := hlt d List.mem_cons_self
  have hone : ∀ e ∈ [d], e < 10 := by simpa using hd
  obtain ⟨j, hj⟩ := readDigits_map "subsecond" hone 0
    (ds.map Nat.digitChar ++ r) i
  obtain ⟨k, hk⟩ := fractionDigits_map (fun e he => hlt e (List.mem_cons_of_mem _ he)) d hr j
  have hlength : ds.length = 5 := by simpa using hlength
  have hvalue : ds.foldl (fun n d => 10 * n + d) d = n := by simpa [ofDigits] using hvalue
  refine ⟨k, ?_⟩
  rw [hlength, hvalue] at hk
  rw [readFraction, toList_padded, hds]
  simp only [List.map_cons, List.map_nil, List.cons_append, List.nil_append, List.length_cons,
    List.length_nil, List.foldl_cons, List.foldl_nil, Nat.mul_zero, Nat.zero_add] at hj ⊢
  rw [hj]
  exact congrArg Except.ok hk

/-- A number starts with a digit, which is not in the class. -/
theorem sees_padded {p : Char → Bool} (hp : ∀ d < 10, p d.digitChar = false) (width : Nat) {n : Nat}
    (hn : n < 10 ^ (width + 1)) (r : List Char) (i : Nat) :
    Cursor.sees ⟨(padded (width + 1) n).toList ++ r, i⟩ p = false := by
  obtain ⟨ds, hds, hlt, hlength, -⟩ := exists_digits_of_paddedDigits width hn
  obtain ⟨d, ds, rfl⟩ := List.exists_cons_of_length_eq_add_one hlength
  have hd := hlt d List.mem_cons_self
  rw [toList_padded, hds, List.map_cons, List.cons_append, Cursor.sees, head?_digit hd]
  exact hp d hd

/-! ## Dates -/

theorem toList_text (d : Date) :
    d.text.toList = (padded 4 d.year).toList ++ '-' :: ((padded 2 d.month).toList ++
      '-' :: (padded 2 d.day).toList) := by
  simp [Date.text]

/-- The text of a date is read as the date, whatever follows it. -/
theorem readDate_text (d : Date) (r : List Char) :
    ∃ j, readDate ⟨d.text.toList ++ r, 0⟩ = .ok ⟨d.year, d.month, d.day, true, ⟨r, j⟩⟩ := by
  have hyear : d.year < 10 ^ 4 := by
    have := d.exists_year
    omega
  have hmonth : d.month < 10 ^ 2 := by
    have := d.exists_month
    omega
  rw [toList_text]
  simp only [List.append_assoc, List.cons_append]
  obtain ⟨i, hi⟩ := readDigits_padded "year" 3 hyear
    ('-' :: ((padded 2 d.month).toList ++ '-' :: ((padded 2 d.day).toList ++ r))) 0
  obtain ⟨k, hk⟩ := readDigits_padded "month" 1 hmonth ('-' :: ((padded 2 d.day).toList ++ r))
    (i + '-'.utf8Size)
  obtain ⟨j, hj⟩ := readDigits_padded "day" 1 d.day_lt r (k + '-'.utf8Size)
  have hweek := sees_padded (p := (· == 'W')) (by decide) 1 hmonth
    ('-' :: ((padded 2 d.day).toList ++ r)) (i + '-'.utf8Size)
  have hhyphen : '-'.toNat ≠ 0 := by decide
  have hstop : isTimeStart '-' = false := by decide
  refine ⟨j, ?_⟩
  rw [readDate, hi, ok_bind]
  simp only [sees_cons hhyphen, beq_self_eq_true, if_true, advance_cons]
  rw [readExtendedDate, hweek, hk]
  simp only [Bool.false_eq_true, if_false, ok_bind, continues_cons hhyphen, hstop, Bool.not_false,
    if_true, sees_cons hhyphen, beq_self_eq_true, advance_cons, hj]
  rfl

/-! ## Times -/

/-- What may follow a time of day: nothing, or the sign of an offset. -/
def IsZoneText (r : List Char) : Prop :=
  ∀ c ∈ r.head?, c = '+' ∨ c = '-'

theorem IsZoneText.endsDigits {r : List Char} (h : IsZoneText r) : EndsDigits r := by
  intro c hc
  rcases h c hc with rfl | rfl <;> decide

theorem IsZoneText.sees_fraction {r : List Char} (h : IsZoneText r) (i : Nat) :
    Cursor.sees ⟨r, i⟩ isFractionStart = false := by
  cases r with
  | nil => rfl
  | cons c r => rcases h c rfl with rfl | rfl <;> rfl

/-- The fraction of a second, where there is one. -/
def fractionText (micro : Nat) : List Char :=
  if micro = 0 then [] else '.' :: (padded 6 micro).toList

theorem toList_timeText (t : Timestamp) :
    t.timeText.toList = (padded 2 t.hour).toList ++ ':' :: ((padded 2 t.minute).toList ++
      ':' :: ((padded 2 t.second).toList ++ fractionText t.micro)) := by
  unfold Timestamp.timeText fractionText
  split <;> simp

theorem readSeconds_text {second micro : Nat} (hsecond : second < 10 ^ 2) (hmicro : micro < 10 ^ 6)
    (hour minute : Nat) {r : List Char} (hr : IsZoneText r) (i : Nat) :
    ∃ j, readSeconds hour minute ⟨(padded 2 second).toList ++ (fractionText micro ++ r), i⟩ =
      .ok ⟨hour, minute, second, micro, ⟨r, j⟩⟩ := by
  obtain ⟨k, hk⟩ := readDigits_padded "second" 1 hsecond (fractionText micro ++ r) i
  rw [readSeconds, hk, ok_bind, fractionText]
  by_cases hzero : micro = 0
  · refine ⟨k, ?_⟩
    simp only [hzero, if_true, List.nil_append, hr.sees_fraction, Bool.false_eq_true, if_false]
    rfl
  · obtain ⟨j, hj⟩ := readFraction_padded hmicro hr.endsDigits (k + '.'.utf8Size)
    have hpoint : isFractionStart '.' = true := by decide
    refine ⟨j, ?_⟩
    simp only [if_neg hzero, List.cons_append, sees_cons (c := '.') (by decide), hpoint, if_true,
      advance_cons, hj, ok_bind]
    rfl

/-- The text of a time of day is read as the time, whatever zone follows it. -/
theorem readTime_text (t : Timestamp) {r : List Char} (hr : IsZoneText r) (i : Nat) :
    ∃ j, readTime true ⟨t.timeText.toList ++ r, i⟩ =
      .ok ⟨t.hour, t.minute, t.second, t.micro, ⟨r, j⟩⟩ := by
  obtain ⟨hhour, hminute, hsecond, hmicro⟩ := t.exists_time
  rw [toList_timeText]
  simp only [List.append_assoc, List.cons_append]
  obtain ⟨k, hk⟩ := readDigits_padded "hour" 1 (n := t.hour) (by omega)
    (':' :: ((padded 2 t.minute).toList ++
      ':' :: ((padded 2 t.second).toList ++ (fractionText t.micro ++ r)))) i
  obtain ⟨l, hl⟩ := readDigits_padded "minute" 1 (n := t.minute) (by omega)
    (':' :: ((padded 2 t.second).toList ++ (fractionText t.micro ++ r))) (k + ':'.utf8Size)
  have hplaces : t.second < 10 ^ 2 := by omega
  obtain ⟨j, hj⟩ := readSeconds_text hplaces hmicro t.hour t.minute hr (l + ':'.utf8Size)
  have hcolon : ':'.toNat ≠ 0 := by decide
  have hstop : isZoneStart ':' = false := by decide
  have hseparator (r : List Char) (field : String) :
      readSeparator field (· == ':') ⟨':' :: r, l⟩ = .ok ⟨r, l + ':'.utf8Size⟩ :=
    readSeparator_cons hcolon field (by decide) r l
  refine ⟨j, ?_⟩
  rw [readTime, hk, ok_bind]
  simp only [continues_cons hcolon, hstop, Bool.not_false, if_true, sees_cons hcolon,
    beq_self_eq_true, advance_cons]
  rw [readExtendedTime, hl, ok_bind]
  simp only [continues_cons hcolon, hstop, Bool.not_false, if_true, hseparator, ok_bind, hj]
  rfl

/-! ## Whole texts -/

theorem assemble_self (t : Timestamp) (extended : Bool) (k l : Cursor) (offset : Option Int) :
    assemble ⟨t.date.year, t.date.month, t.date.day, extended, k⟩
      ⟨t.hour, t.minute, t.second, t.micro, l⟩ offset = .ok { t with offset := offset } := by
  obtain ⟨hyear, hyear'⟩ := t.date.exists_year
  obtain ⟨hmonth, hmonth'⟩ := t.date.exists_month
  have htime := t.exists_time
  unfold assemble
  rw [if_neg (by simp only; omega), if_neg (by simp only; omega), Date.of?_self]
  simp only
  rw [if_neg (by omega), if_neg (by omega), Timestamp.of?, dif_pos htime]

/-- A date is read as its midnight. -/
theorem read_text (d : Date) : read d.text = .ok (Timestamp.midnight d) := by
  obtain ⟨j, hj⟩ := readDate_text d []
  rw [List.append_nil] at hj
  rw [read, hj]
  exact assemble_self (Timestamp.midnight d) true ⟨[], j⟩ ⟨[], j⟩ none

/-- The text of the offset, where there is one. -/
def zoneText : Option Int → List Char
  | none => []
  | some offset => (Timestamp.offsetText offset).toList

theorem zoneText_some (offset : Int) :
    ∃ r, zoneText (some offset) = (if offset < 0 then '-' else '+') :: r := by
  refine ⟨(zoneText (some offset)).tail, ?_⟩
  rw [zoneText, Timestamp.offsetText]
  split <;> simp

theorem isZoneText_zoneText (offset : Option Int) : IsZoneText (zoneText offset) := by
  intro c hc
  cases offset with
  | none => cases hc
  | some offset =>
    obtain ⟨r, hr⟩ := zoneText_some offset
    rw [hr] at hc
    cases hc
    split <;> simp

theorem toList_isoText (t : Timestamp) :
    t.isoText.toList = t.date.text.toList ++ 'T' :: (t.timeText.toList ++ zoneText t.offset) := by
  unfold Timestamp.isoText Timestamp.textWith
  cases t.offset <;> simp [zoneText]

/-- After the date and the time of day only the zone is left to be read. -/
theorem read_isoText (t : Timestamp) :
    ∃ j, read t.isoText = readZone ⟨zoneText t.offset, j⟩ >>= fun (offset, k) =>
      readEnd k >>= fun _ => .ok { t with offset := offset } := by
  obtain ⟨i, hi⟩ := readDate_text t.date ('T' :: (t.timeText.toList ++ zoneText t.offset))
  obtain ⟨j, hj⟩ := readTime_text t (isZoneText_zoneText t.offset) (i + 'T'.utf8Size)
  refine ⟨j, ?_⟩
  have hseparator (r : List Char) (field : String) :
      readSeparator field isTimeStart ⟨'T' :: r, i⟩ = .ok ⟨r, i + 'T'.utf8Size⟩ :=
    readSeparator_cons (by decide) field (by decide) r i
  have hmore (r : List Char) : (Cursor.head? ⟨'T' :: r, i⟩).isSome = true := rfl
  have hhour : ¬ (t.hour = 24 ∧ t.minute = 0 ∧ t.second = 0 ∧ t.micro = 0) := by
    have := t.exists_time
    omega
  rw [read, toList_isoText, hi, ok_bind]
  simp only [hmore, if_true, hseparator, ok_bind, hj, if_neg hhour, assemble_self]

/-- A naive timestamp is given back. -/
theorem read_isoText_naive {t : Timestamp} (h : t.isNaive = true) : read t.isoText = .ok t := by
  obtain ⟨j, hj⟩ := read_isoText t
  have hoffset : t.offset = none := Option.isNone_iff_eq_none.1 h
  rw [hj, hoffset]
  cases t
  cases hoffset
  rfl

/-! ## Offsets -/

/-- A flaw other than the end of the calendar. -/
def InCalendar (flaw : Flaw) : Prop :=
  flaw ≠ .pastCalendar

theorem inCalendar_readDigits (field : String) (n value : Nat) (k : Cursor) :
    Only InCalendar (readDigits field n value k) := by
  induction n generalizing value k with
  | zero => exact .ok _
  | succ n ih =>
    rw [readDigits]
    split
    · exact .error (by simp [InCalendar])
    · split
      · exact ih _ _
      · exact .error (by simp [InCalendar])

theorem inCalendar_readEnd (k : Cursor) : Only InCalendar (readEnd k) := by
  rw [readEnd]
  split
  · exact .error (by simp [InCalendar])
  · split
    · exact .ok _
    · exact .error (by simp [InCalendar])

theorem inCalendar_readOffset (negative : Bool) (k : Cursor) :
    Only InCalendar (readOffset negative k) := by
  unfold readOffset
  refine (inCalendar_readDigits _ _ _ _).bind fun ⟨hours, k⟩ => ?_
  dsimp only
  -- The minutes follow a colon, or the hours, or there are none.
  split
  case' isFalse => split
  all_goals
    refine Only.bind ?_ fun ⟨minutes, k⟩ => ?_
    · first | exact inCalendar_readDigits _ _ _ _ | exact .ok _
    · dsimp only
      split
      · exact .error (by simp [InCalendar])
      · split
        · exact .error (by simp [InCalendar])
        · exact .ok _

/-- The sign of an offset starts a zone. -/
theorem readZone_some (offset : Int) (i : Nat) :
    ∃ r, readZone ⟨zoneText (some offset), i⟩ =
      readOffset (decide (offset < 0)) ⟨r, i + 1⟩ >>= fun (seconds, k) => pure (some seconds, k) := by
  obtain ⟨r, hr⟩ := zoneText_some offset
  refine ⟨r, ?_⟩
  rw [hr]
  by_cases hnegative : offset < 0
  · rw [if_pos hnegative, decide_eq_true hnegative]
    rfl
  · rw [if_neg hnegative, decide_eq_false hnegative]
    rfl

/-- A text with an offset is read as a timestamp with an offset, if at all. -/
theorem read_isoText_zoned {t : Timestamp} (h : t.isNaive = false) :
    (∃ u, read t.isoText = .ok u ∧ u.isNaive = false) ∨
      ∃ flaw, read t.isoText = .error flaw ∧ flaw ≠ .pastCalendar := by
  obtain ⟨j, hj⟩ := read_isoText t
  obtain ⟨offset, hoffset⟩ := Option.ne_none_iff_exists'.1 fun hnone =>
    Bool.false_ne_true (h.symm.trans (Option.isNone_iff_eq_none.2 hnone))
  obtain ⟨r, hr⟩ := readZone_some offset j
  have hoffset' := inCalendar_readOffset (decide (offset < 0)) ⟨r, j + 1⟩
  rw [hj, hoffset, hr]
  cases hread : readOffset (decide (offset < 0)) ⟨r, j + 1⟩ with
  | error flaw => exact .inr ⟨flaw, rfl, hoffset' flaw hread⟩
  | ok zone =>
    obtain ⟨seconds, k⟩ := zone
    simp only [ok_bind, pure_bind]
    cases hend : readEnd k with
    | error flaw => exact .inr ⟨flaw, rfl, inCalendar_readEnd k flaw hend⟩
    | ok _ => exact .inl ⟨{ t with offset := some seconds }, rfl, rfl⟩

/-! ## Texts without a time -/

section Dates

variable {r : List Char} {k : Cursor}

theorem suffix_advance (h : k.rest <:+ r) : k.advance.rest <:+ r := by
  obtain ⟨rest, i⟩ := k
  cases rest with
  | nil => exact h
  | cons c cs => exact (List.suffix_cons c cs).trans h

/-- What is left after digits stood in the text, and no flaw of theirs is the end of the calendar. -/
theorem ends_readDigits (field : String) (n value : Nat) (h : k.rest <:+ r) :
    Ends (fun read => read.2.rest <:+ r) InCalendar (readDigits field n value k) := by
  induction n generalizing value k with
  | zero => exact h
  | succ n ih =>
    rw [readDigits]
    split
    · simp [Ends, InCalendar]
    · split
      · exact ih _ (suffix_advance h)
      · simp [Ends, InCalendar]

theorem ends_readSeparator (field : String) (p : Char → Bool) (h : k.rest <:+ r) :
    Ends (fun k => k.rest <:+ r) InCalendar (readSeparator field p k) := by
  rw [readSeparator]
  split
  · simp [Ends, InCalendar]
  · split
    · exact suffix_advance h
    · simp [Ends, InCalendar]

theorem ends_ofOrdinal (year count : Nat) (extended : Bool) (h : k.rest <:+ r) :
    Ends (fun d => d.cursor.rest <:+ r) InCalendar (ofOrdinal year count extended k) := by
  unfold ofOrdinal
  split
  · simp [Ends, InCalendar]
  · split
    · simp [Ends, InCalendar]
    · exact h

theorem ends_ofWeek (year week weekday : Nat) (extended : Bool) (h : k.rest <:+ r) :
    Ends (fun d => d.cursor.rest <:+ r) InCalendar (ofWeek year week weekday extended k) := by
  unfold ofWeek
  split
  · simp [Ends, InCalendar]
  · exact h

theorem ends_readExtendedDate (year : Nat) (h : k.rest <:+ r) :
    Ends (fun d => d.cursor.rest <:+ r) InCalendar (readExtendedDate year k) := by
  unfold readExtendedDate
  split
  · refine (ends_readDigits _ _ _ (suffix_advance h)).bind ?_
    rintro ⟨week, k⟩ h
    dsimp only
    split
    · refine (ends_readSeparator _ _ h).bind fun k h => ?_
      refine (ends_readDigits _ _ _ h).bind ?_
      rintro ⟨weekday, k⟩ h
      exact ends_ofWeek _ _ _ _ h
    · exact ends_ofWeek _ _ _ _ h
  · refine (ends_readDigits _ _ _ h).bind ?_
    rintro ⟨month, k⟩ h
    dsimp only
    split
    · split
      · refine (ends_readDigits _ _ _ (suffix_advance h)).bind ?_
        rintro ⟨day, k⟩ h
        exact h
      · refine (ends_readDigits _ _ _ h).bind ?_
        rintro ⟨count, k⟩ h
        exact ends_ofOrdinal _ _ _ h
    · exact h

theorem ends_readBasicDate (year : Nat) (h : k.rest <:+ r) :
    Ends (fun d => d.cursor.rest <:+ r) InCalendar (readBasicDate year k) := by
  unfold readBasicDate
  split
  · refine (ends_readDigits _ _ _ (suffix_advance h)).bind ?_
    rintro ⟨week, k⟩ h
    dsimp only
    split
    · refine (ends_readDigits _ _ _ h).bind ?_
      rintro ⟨weekday, k⟩ h
      exact ends_ofWeek _ _ _ _ h
    · exact ends_ofWeek _ _ _ _ h
  · refine (ends_readDigits _ _ _ h).bind ?_
    rintro ⟨month, k⟩ h
    refine (ends_readDigits _ _ _ h).bind ?_
    rintro ⟨third, k⟩ h
    dsimp only
    split
    · refine (ends_readDigits _ _ _ h).bind ?_
      rintro ⟨day, k⟩ h
      exact h
    · exact ends_ofOrdinal _ _ _ h

theorem ends_readDate (h : k.rest <:+ r) :
    Ends (fun d => d.cursor.rest <:+ r) InCalendar (readDate k) := by
  unfold readDate
  refine (ends_readDigits _ _ _ h).bind ?_
  rintro ⟨year, k⟩ h
  dsimp only
  split
  · exact ends_readExtendedDate _ (suffix_advance h)
  · exact ends_readBasicDate _ h

end Dates

theorem mem_of_head? {k : Cursor} {c : Char} (h : k.head? = some c) : c ∈ k.rest := by
  unfold Cursor.head? at h
  split at h
  · cases h
  next d cs hrest =>
    split at h
    · cases h
    · rw [hrest, Option.some.inj h]
      exact List.mem_cons_self

theorem inCalendar_assemble (d : DatePart) (t : TimePart) (offset : Option Int) :
    Only InCalendar (assemble d t offset) := by
  unfold assemble
  repeat' split
  all_goals first
    | exact .ok _
    | exact .error (by simp [InCalendar])

/-- Only twenty-four o'clock leads past the calendar: a text without a time of day does not. -/
theorem inCalendar_read {s : String} (h : ∀ c ∈ s.toList, isTimeStart c = false) :
    Only InCalendar (read s) := by
  have hdate := ends_readDate (k := ⟨s.toList, 0⟩) List.suffix_rfl
  unfold read
  cases hread : readDate ⟨s.toList, 0⟩ with
  | error flaw =>
    rw [hread] at hdate
    exact .error hdate
  | ok d =>
    rw [hread] at hdate
    rw [ok_bind]
    split
    · -- What follows the date starts no time, so that the separator is missing.
      next hmore =>
      obtain ⟨c, hc⟩ := Option.isSome_iff_exists.1 hmore
      have hstart : isTimeStart c = false := h c (hdate.subset (mem_of_head? hc))
      rw [readSeparator, hc]
      dsimp only
      rw [hstart]
      exact .error (by simp [InCalendar])
    · exact (inCalendar_readEnd _).bind fun _ => inCalendar_assemble _ _ _

end Iso

end RowAccess
