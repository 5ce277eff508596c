import Mathlib.Algebra.GroupWithZero.Nat
import RowAccess.Proofs.Calendar.Chronology
import RowAccess.Proofs.Operation.Neutral

/-
  RowAccess/Proofs/Operation/LiteralOrder.lean
  ============================================
  **Literals say what time it is.**  A dialect writes each part of a date or a time at so many places,
  so that a literal is equal to another where all parts are, and texts of parts that are digits stand
  in the order of their numbers, the first part deciding first (`Conversion.fill_eq_iff`,
  `Conversion.fill_lt_iff`).  So stored literals are told apart to the second, compared ones by the
  day, and the literals of the second dialect are in order of time (`literals_faithful`).
-/

namespace RowAccess

open Conversion

/-! ## Texts of one length -/

/-- Fronts of one length decide the order first. -/
theorem append_lt_append_iff {as bs cs ds : List Char} (h : as.length = bs.length) :
    as ++ cs < bs ++ ds ↔ as < bs ∨ as = bs ∧ cs < ds := by
  induction as generalizing bs with
  | nil =>
    rw [List.length_eq_zero_iff.1 h.symm]
    simp
  | cons a as ih =>
    obtain ⟨b, bs, rfl⟩ := List.exists_cons_of_length_eq_add_one h.symm
    rw [List.cons_append, List.cons_append, List.cons_lt_cons_iff, ih (Nat.succ.inj h),
      List.cons_lt_cons_iff, List.cons.injEq]
    constructor
    · rintro (hlt | ⟨heq, hlt | ⟨heqs, hlt⟩⟩)
      · exact .inl (.inl hlt)
      · exact .inl (.inr ⟨heq, hlt⟩)
      · exact .inr ⟨⟨heq, heqs⟩, hlt⟩
    · rintro ((hlt | ⟨heq, hlt⟩) | ⟨⟨heq, heqs⟩, hlt⟩)
      · exact .inl hlt
      · exact .inr ⟨heq, .inl hlt⟩
      · exact .inr ⟨heq, .inr ⟨heqs, hlt⟩⟩

namespace IsNumeral

variable {places m n : Nat} {s t : String}

theorem length_eq (h : IsNumeral places n s) : s.toList.length = places := by
  obtain ⟨ds, -, hlength, -, hs⟩ := h
  rw [hs, List.length_map, hlength]

/-- Numerals of as many places stand in the order of their numbers. -/
theorem lt_iff (hs : IsNumeral places m s) (ht : IsNumeral places n t) :
    s.toList < t.toList ↔ m < n := by
  obtain ⟨ds, hds, hlength, rfl, hs⟩ := hs
  obtain ⟨es, hes, hlength', rfl, ht⟩ := ht
  rw [hs, ht, Text.digits_lt_iff hds hes (hlength.trans hlength'.symm)]

theorem number_eq (hs : IsNumeral places m s) (ht : IsNumeral places n s) : m = n :=
  Option.some.inj ((DateLiteral.number?_of_isNumeral hs).symm.trans
    (DateLiteral.number?_of_isNumeral ht))

end IsNumeral

/-! ## Parts -/

namespace LiteralPart

/-- The number of characters that a part takes. -/
def places : LiteralPart → Nat
  | .year => 4
  | .monthName => 3
  | .month | .day | .hour | .minute | .second => 2
  | .text s => s.toList.length

/-- The number that a part spells, or whose token it is. -/
def number (t : Timestamp) : LiteralPart → Nat
  | .year => t.date.year
  | .month | .monthName => t.date.month
  | .day => t.date.day
  | .hour => t.hour
  | .minute => t.minute
  | .second => t.second
  | .text _ => 0

/-- Is the part written in digits? -/
def isNumeric : LiteralPart → Bool
  | .monthName | .text _ => false
  | _ => true

theorem isNumeral_fillPart (t : Timestamp) {p : LiteralPart} (hp : p.isNumeric = true) :
    IsNumeral p.places (p.number t) (fillPart t p) := by
  obtain ⟨hhour, hminute, hsecond, -⟩ := t.exists_time
  cases p with
  | monthName => cases hp
  | text s => cases hp
  | year => exact isNumeral_padded 3 (Nat.lt_of_le_of_lt t.date.exists_year.2 (by decide))
  | month => exact isNumeral_padded 1 (Nat.lt_of_le_of_lt t.date.exists_month.2 (by decide))
  | day => exact isNumeral_padded 1 t.date.day_lt
  | hour => exact isNumeral_padded 1 (Nat.lt_trans hhour (by decide))
  | minute => exact isNumeral_padded 1 (Nat.lt_trans hminute (by decide))
  | second => exact isNumeral_padded 1 (Nat.lt_trans hsecond (by decide))

end LiteralPart

namespace Conversion

variable {a b : Timestamp} {p : LiteralPart}

theorem length_monthName : ∀ month < 13, 1 ≤ month → (monthName month).toList.length = 3 := by
  decide

theorem monthName_injective :
    ∀ m < 13, ∀ n < 13, 1 ≤ m → 1 ≤ n → monthName m = monthName n → m = n := by decide

theorem length_fillPart (t : Timestamp) (p : LiteralPart) :
    (fillPart t p).toList.length = p.places := by
  cases hp : p.isNumeric with
  | true => exact (LiteralPart.isNumeral_fillPart t hp).length_eq
  | false =>
    cases p with
    | monthName =>
      exact length_monthName _ (Nat.lt_succ_of_le t.date.exists_month.2) t.date.exists_month.1
    | text s => rfl
    | _ => cases hp

/-- A part is written alike where it has one number, and only there. -/
theorem fillPart_eq_iff : fillPart a p = fillPart b p ↔ p.number a = p.number b := by
  constructor
  · intro h
    cases hp : p.isNumeric with
    | true =>
      have ha := LiteralPart.isNumeral_fillPart a hp
      rw [h] at ha
      exact ha.number_eq (LiteralPart.isNumeral_fillPart b hp)
    | false =>
      cases p with
      | monthName =>
        exact monthName_injective _ (Nat.lt_succ_of_le a.date.exists_month.2) _
          (Nat.lt_succ_of_le b.date.exists_month.2) a.date.exists_month.1 b.date.exists_month.1 h
      | text s => rfl
      | _ => cases hp
  · intro h
    cases p with
    | year => exact congrArg (Text.padded 4) h
    | monthName => exact congrArg monthName h
    | text s => rfl
    | _ => exact congrArg (Text.padded 2) h

/-- Parts in digits, and fixed texts, stand in the order of their numbers. -/
theorem fillPart_lt_iff (hp : p ≠ .monthName) :
    (fillPart a p).toList < (fillPart b p).toList ↔ p.number a < p.number b := by
  cases hnumeric : p.isNumeric with
  | true =>
    exact (LiteralPart.isNumeral_fillPart a hnumeric).lt_iff
      (LiteralPart.isNumeral_fillPart b hnumeric)
  | false =>
    cases p with
    | monthName => exact absurd rfl hp
    | text s => exact iff_of_false (List.lt_irrefl _) (Nat.lt_irrefl _)
    | _ => cases hnumeric

/-! ## Literals -/

theorem fill_cons (p : LiteralPart) (parts : List LiteralPart) (t : Timestamp) :
    fill (p :: parts) t = fillPart t p ++ fill parts t := by
  rw [fill, List.map_cons, String.join_cons, fill]

theorem fill_append (parts more : List LiteralPart) (t : Timestamp) :
    fill (parts ++ more) t = fill parts t ++ fill more t := by
  induction parts with
  | nil => simp [fill, String.join_nil]
  | cons p parts ih => rw [List.cons_append, fill_cons, fill_cons, ih, String.append_assoc]

theorem length_fill (parts : List LiteralPart) (t : Timestamp) :
    (fill parts t).toList.length = (parts.map LiteralPart.places).sum := by
  induction parts with
  | nil => rfl
  | cons p parts ih =>
    rw [fill_cons, String.toList_append, List.length_append, length_fillPart, ih, List.map_cons,
      List.sum_cons]

/-- Two literals are equal where every part has one number in both. -/
theorem fill_eq_iff (parts : List LiteralPart) :
    fill parts a = fill parts b ↔ ∀ p ∈ parts, p.number a = p.number b := by
  induction parts with
  | nil => simp [fill]
  | cons p parts ih =>
    rw [List.forall_mem_cons, ← ih, ← fillPart_eq_iff, fill_cons, fill_cons]
    constructor
    · intro h
      have hlists := congrArg String.toList h
      rw [String.toList_append, String.toList_append] at hlists
      obtain ⟨hp, hparts⟩ := List.append_inj hlists
        ((length_fillPart a p).trans (length_fillPart b p).symm)
      exact ⟨String.toList_inj.1 hp, String.toList_inj.1 hparts⟩
    · rintro ⟨hp, hparts⟩
      rw [hp, hparts]

/-- Literals in digits stand in the order of their numbers, the first part deciding first. -/
theorem fill_lt_iff (parts : List LiteralPart) (hparts : ∀ p ∈ parts, p ≠ .monthName) :
    fill parts a < fill parts b ↔
      parts.map (LiteralPart.number a) < parts.map (LiteralPart.number b) := by
  rw [String.lt_iff]
  induction parts with
  | nil => simp [fill]
  | cons p parts ih =>
    obtain ⟨hp, hparts⟩ := List.forall_mem_cons.1 hparts
    rw [fill_cons, fill_cons, String.toList_append, String.toList_append,
      append_lt_append_iff ((length_fillPart a p).trans (length_fillPart b p).symm),
      fillPart_lt_iff hp, String.toList_inj, fillPart_eq_iff, ih hparts, List.map_cons,
      List.map_cons, List.cons_lt_cons_iff]

/-- A wrapping tells literals apart as the literals themselves do. -/
theorem wrapLiteral_eq_iff (c : Config) (wrapping : Option Wrapping) {s t : String} :
    wrapLiteral c wrapping s = wrapLiteral c wrapping t ↔ s = t := by
  refine ⟨?_, congrArg _⟩
  intro h
  unfold wrapLiteral at h
  split at h
  · split at h
    · have htext := congrArg (fun l => l.text.toList) h
      simpa [String.toList_inj] using htext
    · exact congrArg DateLiteral.text h
  · exact congrArg DateLiteral.text h

/-! ## What literals tell apart -/

theorem toSecond_eq_iff (ha : a.isNaive = true) (hb : b.isNaive = true) :
    toSecond a = toSecond b ↔ a.seconds = b.seconds := by
  have hoffset : a.offset = b.offset :=
    (Option.isNone_iff_eq_none.1 ha).trans (Option.isNone_iff_eq_none.1 hb).symm
  rw [Timestamp.seconds_eq_iff]
  simp only [toSecond, Timestamp.mk.injEq, hoffset, and_true]

theorem elapsed_toSecond (t : Timestamp) : (toSecond t).elapsed = t.seconds * 1000000 := by
  simp only [Timestamp.elapsed, Timestamp.seconds, toSecond, Nat.add_zero]

variable {c : Config}

section Dialects

variable (hdialect : c.dialect = .oracle ∨ c.dialect = .mysql)

include hdialect

theorem storedTimestamp_eq_iff :
    storedTimestamp c a = storedTimestamp c b ↔ a.seconds = b.seconds := by
  rw [storedTimestamp, storedTimestamp, wrapLiteral_eq_iff, fill_eq_iff, Timestamp.seconds_eq_iff,
    Date.eq_iff]
  rcases hdialect with h | h
  · simp only [h, Dialect.oracle, Dialect.clockParts, List.cons_append, List.nil_append,
      List.forall_mem_cons, LiteralPart.number]
    tauto
  · simp only [h, Dialect.mysql, Dialect.clockParts, List.cons_append, List.nil_append,
      List.forall_mem_cons, LiteralPart.number]
    tauto

theorem comparedDate_eq_iff : comparedDate c a = comparedDate c b ↔ a.date = b.date := by
  rw [comparedDate, comparedDate, wrapLiteral_eq_iff, fill_eq_iff, Date.eq_iff]
  rcases hdialect with h | h
  · simp only [h, Dialect.oracle, List.forall_mem_cons, LiteralPart.number]
    tauto
  · simp only [h, Dialect.mysql, List.forall_mem_cons, LiteralPart.number]
    tauto

end Dialects

/-! ## The second dialect -/

theorem timestampLiteral_mysql :
    Dialect.mysql.timestampLiteral = Dialect.mysql.dateLiteral ++ Dialect.clockParts := rfl

section Mysql

variable (hmysql : c.dialect = .mysql)

include hmysql

theorem storedTimestamp_of_mysql (t : Timestamp) :
    storedTimestamp c t = ⟨fill Dialect.mysql.timestampLiteral t, false⟩ := by
  rw [storedTimestamp, hmysql]
  rfl

theorem comparedDate_of_mysql (t : Timestamp) :
    comparedDate c t = ⟨fill Dialect.mysql.dateLiteral t, false⟩ := by
  rw [comparedDate, hmysql]
  rfl

theorem storedTimestamp_lt_iff :
    (storedTimestamp c a).text < (storedTimestamp c b).text ↔ a.seconds < b.seconds := by
  have hparts : ∀ p ∈ Dialect.mysql.timestampLiteral, p ≠ .monthName := by decide
  rw [storedTimestamp_of_mysql hmysql, storedTimestamp_of_mysql hmysql, fill_lt_iff _ hparts,
    ← Timestamp.secondRank_lt_iff, Timestamp.secondRank_lt_iff_fields]
  simp only [Dialect.mysql, Dialect.clockParts, List.cons_append, List.nil_append, List.map_cons,
    List.map_nil, LiteralPart.number, List.cons_lt_cons_iff, Nat.lt_irrefl, List.lt_irrefl, false_or,
    true_and, and_false, or_false]

theorem comparedDate_lt_iff :
    (comparedDate c a).text < (comparedDate c b).text ↔ a.date.ordinal < b.date.ordinal := by
  have hparts : ∀ p ∈ Dialect.mysql.dateLiteral, p ≠ .monthName := by decide
  rw [comparedDate_of_mysql hmysql, comparedDate_of_mysql hmysql, fill_lt_iff _ hparts,
    ← Date.rank_lt_iff, Date.rank_lt_iff_fields]
  simp only [Dialect.mysql, List.map_cons, List.map_nil, LiteralPart.number, List.cons_lt_cons_iff,
    Nat.lt_irrefl, List.lt_irrefl, false_or, true_and, and_false, or_false]

theorem length_comparedDate (t : Timestamp) : (comparedDate c t).text.toList.length = 10 := by
  rw [comparedDate_of_mysql hmysql]
  exact length_fill Dialect.mysql.dateLiteral t

/-- A stored literal starts with the literal of its day, which the time of day follows. -/
theorem storedTimestamp_eq_append (t : Timestamp) :
    (storedTimestamp c t).text = (comparedDate c t).text ++ fill Dialect.clockParts t := by
  rw [storedTimestamp_of_mysql hmysql, comparedDate_of_mysql hmysql, timestampLiteral_mysql,
    fill_append]

theorem take_storedTimestamp (t : Timestamp) :
    (storedTimestamp c t).text.toList.take 10 = (comparedDate c t).text.toList := by
  rw [storedTimestamp_eq_append hmysql, String.toList_append, ← length_comparedDate hmysql t,
    List.take_left]

end Mysql

/-! ## Texts -/

/-- A text is converted as the timestamp that it is read as. -/
theorem timestampOf_text_eq_ok_iff {s : String} {t u : Timestamp}
    (h : Iso.read (Text.strip s) = .ok t) :
    timestampOf (.text s) = .ok u ↔ timestampOf (.timestamp t) = .ok u := by
  simp only [timestampOf, timestampOfText, h, Outcome.ok_bind]
  split
  · exact Iff.rfl
  · exact iff_of_false (by rintro ⟨⟩) (by rintro ⟨⟩)

theorem map_eq_ok_congr {α β : Type} {x y : Except Fault α} (h : ∀ u, x = .ok u ↔ y = .ok u)
    (f : α → β) (v : β) : x.map f = .ok v ↔ y.map f = .ok v := by
  simp only [Outcome.map_eq_ok_iff, h]

end Conversion

/-- **Literals say what time it is.**  In either dialect, raw or not, two naive timestamps are stored
by one literal where they agree to the second, and compared by one where they are on one day.  In the
second dialect the texts of the stored literals are in order of the seconds, those of the compared
ones in order of the days, and the ten characters of a date start the stored literal.  A text that
reads as a timestamp has the literals of that timestamp, and none where that has none; but where a
formatter is configured, it writes what is stored for a text. -/
theorem literals_faithful (c : Config) (hdialect : c.dialect = .oracle ∨ c.dialect = .mysql)
    {a b : Timestamp} (ha : a.isNaive = true) (hb : b.isNaive = true) :
    timestampIn c (.timestamp a) = .ok (storedTimestamp c a) ∧
      comparisonDate c (.timestamp a) = .ok (comparedDate c a) ∧
      (storedTimestamp c a = storedTimestamp c b ↔ toSecond a = toSecond b) ∧
      (comparedDate c a = comparedDate c b ↔ a.date = b.date) ∧
      (c.dialect = .mysql →
        ((storedTimestamp c a).text < (storedTimestamp c b).text ↔
          (toSecond a).elapsed < (toSecond b).elapsed) ∧
        ((comparedDate c a).text < (comparedDate c b).text ↔ a.date.ordinal < b.date.ordinal) ∧
        (comparedDate c a).text.toList.length = 10 ∧
        (storedTimestamp c a).text.toList.take 10 = (comparedDate c a).text.toList) ∧
      ∀ s t, Iso.read (Text.strip s) = .ok t → ∀ l,
        (comparisonDate c (.text s) = .ok l ↔ comparisonDate c (.timestamp t) = .ok l) ∧
        (timestampIn c (.text s) = .ok l ↔
          match c.timestampFormatter with
          | none => timestampIn c (.timestamp t) = .ok l
          | some format => l = ⟨format s, false⟩) := by
  have hnaive := timestampOf_naive ha
  refine ⟨?_, ?_, ?_, comparedDate_eq_iff hdialect, ?_, ?_⟩
  · cases hformatter : c.timestampFormatter <;> simp only [timestampIn, hformatter, hnaive] <;> rfl
  · rw [comparisonDate, hnaive]
    rfl
  · rw [storedTimestamp_eq_iff hdialect, toSecond_eq_iff ha hb]
  · intro hmysql
    refine ⟨?_, comparedDate_lt_iff hmysql, length_comparedDate hmysql a,
      take_storedTimestamp hmysql a⟩
    rw [storedTimestamp_lt_iff hmysql, elapsed_toSecond, elapsed_toSecond]
    exact (Nat.mul_lt_mul_right (by decide)).symm
  · intro s t hs l
    have hread (u : Timestamp) := timestampOf_text_eq_ok_iff (u := u) hs
    refine ⟨map_eq_ok_congr hread _ l, ?_⟩
    cases hformatter : c.timestampFormatter with
    | none =>
      rw [timestampIn_of_none hformatter, timestampIn_of_none hformatter]
      exact map_eq_ok_congr hread _ l
    | some format =>
      simp only [timestampIn, hformatter, Except.ok.injEq]
      exact eq_comm

/-! ## At the end of a leap day -/

/-- The second dialect, with a formatter that puts another sign before the time of day. -/
def stampedConfig : Config :=
  { Facade.storeConfig.over .mysql with
    timestampFormatter :=
      some fun s => String.ofList (s.toList.map fun ch => if ch = 'T' then '@' else ch) }

/-- The midnight after a leap day. -/
def marchMorning : Timestamp :=
  Timestamp.midnight (Facade.leapEvening.date.next?.getD Facade.leapEvening.date)

theorem literals_faithful_leapEvening :
    (stampedConfig.dialect = .oracle ∨ stampedConfig.dialect = .mysql) ∧
      Facade.leapEvening.isNaive = true ∧ marchMorning.isNaive = true ∧
        (storedTimestamp stampedConfig Facade.leapEvening).text <
          (storedTimestamp stampedConfig marchMorning).text ∧
        comparedDate stampedConfig Facade.leapEvening ≠ comparedDate stampedConfig marchMorning := by
  obtain ⟨-, -, -, hdays, horder, -⟩ := literals_faithful stampedConfig (.inr rfl)
    (a := Facade.leapEvening) (b := marchMorning) (by decide) (by decide)
  refine ⟨.inr rfl, rfl, rfl, (horder rfl).1.2 (by decide), ?_⟩
  intro h
  exact absurd (hdays.1 h) (by decide)

/-- What a formatter writes for a text is not the literal of the timestamp that it reads as. -/
theorem timestampIn_stampedConfig :
    ¬ ∀ (c : Config) (s : String) (t : Timestamp), c.dialect = .oracle ∨ c.dialect = .mysql →
      Iso.read (Text.strip s) = .ok t → t.isNaive = true →
        timestampIn c (.text s) = timestampIn c (.timestamp t) := by
  intro h
  have heq := h stampedConfig "2020-03-01T00:00:00" marchMorning (.inr rfl) rfl rfl
  have hformatted : timestampIn stampedConfig (.text "2020-03-01T00:00:00") =
    .ok ⟨"2020-03-01@00:00:00", false⟩ := rfl
  have hliteral : timestampIn stampedConfig (.timestamp marchMorning) =
    .ok ⟨"2020-03-01 00:00:00", false⟩ := rfl
  rw [hformatted, hliteral] at heq
  have htexts := congrArg DateLiteral.text (Except.ok.inj heq)
  exact absurd htexts (by decide)

end RowAccess
