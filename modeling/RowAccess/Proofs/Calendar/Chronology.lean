import RowAccess.Proofs.Calendar.Iso

/-
  RowAccess/Proofs/Calendar/Chronology.lean
  =========================================
  **Dates and timestamps stand in the order of time.**  A date has the number of its day, counted
  from the first day of the calendar (`Date.ordinal_next?`), and a timestamp the microseconds that
  have gone by since.  Year, month and day decide which of two days is the earlier one, and with hour,
  minute and second which of two seconds is, as the two ranks of the calendar have it
  (`Date.rank_lt_iff`, `Timestamp.secondRank_lt_iff`).
-/

namespace RowAccess

namespace Date

/-! ## Days -/

/-- The number of days of the year before a month. -/
def daysBeforeMonth (year : Nat) : Nat → Nat
  | 0 => 0
  | month + 1 => daysBeforeMonth year month + daysInMonth year month

/-- The number of a day, the first of January of the year 1 being day 1. -/
def ordinal (d : Date) : Nat :=
  daysBeforeYear d.year + daysBeforeMonth d.year d.month + d.day

theorem daysBeforeMonth_one (year : Nat) : daysBeforeMonth year 1 = 0 := rfl

/-- The twelve months are the year. -/
theorem daysBeforeMonth_thirteen (year : Nat) : daysBeforeMonth year 13 = daysInYear year := by
  simp only [daysBeforeMonth, daysInMonth, daysInYear]
  split <;> rfl

theorem isLeapYear_iff (year : Nat) :
    isLeapYear year = true ↔ 4 ∣ year ∧ (100 ∣ year → 400 ∣ year) := by
  simp only [isLeapYear, Bool.and_eq_true, Bool.or_eq_true, beq_iff_eq, bne_iff_ne, ne_eq,
    ← Nat.dvd_iff_mod_eq_zero, Decidable.imp_iff_not_or]

theorem daysBeforeYear_succ {year : Nat} (h : 1 ≤ year) :
    daysBeforeYear (year + 1) = daysBeforeYear year + daysInYear year := by
  obtain ⟨n, rfl⟩ := Nat.exists_eq_add_of_le' h
  have hcenturies : n / 100 ≤ n / 4 := Nat.div_le_div_left (by decide) (by decide)
  have hfours : 100 ∣ n + 1 → 4 ∣ n + 1 := Nat.dvd_trans (by decide)
  have hcycles : 400 ∣ n + 1 → 100 ∣ n + 1 := Nat.dvd_trans (by decide)
  simp only [daysBeforeYear, daysInYear, isLeapYear_iff, Nat.add_sub_cancel, Nat.succ_div]
  generalize n / 4 = fours at hcenturies ⊢
  generalize n / 100 = centuries at hcenturies ⊢
  by_cases h400 : 400 ∣ n + 1
  · simp only [h400, hcycles h400, hfours (hcycles h400), implies_true, and_self, if_true]
    omega
  · by_cases h100 : 100 ∣ n + 1
    · simp only [h400, h100, hfours h100, forall_const, and_false, if_true, if_false]
      omega
    · by_cases h4 : 4 ∣ n + 1
      · simp only [h400, h100, h4, false_implies, and_self, if_true, if_false]
        omega
      · simp only [h400, h100, h4, false_and, if_false]
        omega

theorem daysBeforeMonth_add_le (year : Nat) {m n : Nat} (h : m < n) :
    daysBeforeMonth year m + daysInMonth year m ≤ daysBeforeMonth year n := by
  induction n with
  | zero => exact absurd h (Nat.not_lt_zero m)
  | succ n ih =>
    rcases Nat.lt_or_eq_of_le (Nat.le_of_lt_succ h) with hlt | rfl
    · exact Nat.le_trans (ih hlt) (Nat.le_add_right _ _)
    · exact Nat.le_refl _

theorem daysBeforeYear_add_le {m n : Nat} (hm : 1 ≤ m) (h : m < n) :
    daysBeforeYear m + daysInYear m ≤ daysBeforeYear n := by
  induction n with
  | zero => exact absurd h (Nat.not_lt_zero m)
  | succ n ih =>
    rcases Nat.lt_or_eq_of_le (Nat.le_of_lt_succ h) with hlt | rfl
    · rw [daysBeforeYear_succ (Nat.le_trans hm (Nat.le_of_lt hlt))]
      exact Nat.le_trans (ih hlt) (Nat.le_add_right _ _)
    · exact Nat.le_of_eq (daysBeforeYear_succ hm).symm

variable (d e : Date)

/-- The day of the year is one of its days. -/
theorem dayOfYear_le : daysBeforeMonth d.year d.month + d.day ≤ daysInYear d.year := by
  have hmonth := daysBeforeMonth_add_le d.year (m := d.month) (n := 13)
    (Nat.lt_succ_of_le d.exists_month.2)
  rw [daysBeforeMonth_thirteen] at hmonth
  have hday := d.exists_day
  omega

variable {d e}

theorem eq_iff : d = e ↔ d.year = e.year ∧ d.month = e.month ∧ d.day = e.day := by
  cases d
  cases e
  simp

theorem rank_lt_iff_fields : d.rank < e.rank ↔
    d.year < e.year ∨ d.year = e.year ∧ (d.month < e.month ∨ d.month = e.month ∧ d.day < e.day) := by
  have hday := d.day_le
  have hday' := e.day_le
  have hmonth := d.exists_month
  have hmonth' := e.exists_month
  unfold rank
  omega

theorem eq_of_rank_eq (h : d.rank = e.rank) : d = e := by
  have hday := d.day_le
  have hday' := e.day_le
  have hmonth := d.exists_month
  have hmonth' := e.exists_month
  unfold rank at h
  exact eq_iff.2 ⟨by omega, by omega, by omega⟩

theorem ordinal_lt_of_rank_lt (h : d.rank < e.rank) : d.ordinal < e.ordinal := by
  have hday := e.exists_day
  unfold ordinal
  rcases rank_lt_iff_fields.1 h with hyear | ⟨hyear, hmonth | ⟨hmonth, hday⟩⟩
  · -- The whole year of the first date comes before the second.
    have hyears := daysBeforeYear_add_le d.exists_year.1 hyear
    have hinside := d.dayOfYear_le
    omega
  · have hmonths := daysBeforeMonth_add_le e.year hmonth
    have hinside := d.exists_day
    rw [hyear] at hinside ⊢
    omega
  · rw [hyear, hmonth]
    omega

/-- Of two dates the one of lower rank is the earlier day. -/
theorem rank_lt_iff : d.rank < e.rank ↔ d.ordinal < e.ordinal := by
  constructor
  · exact ordinal_lt_of_rank_lt
  · intro h
    rcases Nat.lt_trichotomy d.rank e.rank with hlt | heq | hgt
    · exact hlt
    · rw [eq_of_rank_eq heq] at h
      exact absurd h (Nat.lt_irrefl _)
    · exact absurd (ordinal_lt_of_rank_lt hgt) (Nat.lt_asymm h)

theorem ordinal_injective (h : d.ordinal = e.ordinal) : d = e := by
  apply eq_of_rank_eq
  rcases Nat.lt_trichotomy d.rank e.rank with hlt | heq | hgt
  · exact absurd (ordinal_lt_of_rank_lt hlt) (by omega)
  · exact heq
  · exact absurd (ordinal_lt_of_rank_lt hgt) (by omega)

/-! ## The next day -/

theorem fields_of_of? {year month day : Nat} (h : of? year month day = some e) :
    e.year = year ∧ e.month = month ∧ e.day = day := by
  unfold of? at h
  split at h
  · split at h
    · split at h
      · cases h
        exact ⟨rfl, rfl, rfl⟩
      · cases h
    · cases h
  · cases h

theorem daysInMonth_pos {year month : Nat} (h : 1 ≤ month ∧ month ≤ 12) :
    1 ≤ daysInMonth year month := by
  unfold daysInMonth
  split
  case h_13 =>
    simp only [imp_false] at *
    omega
  case h_12 => split <;> decide
  all_goals decide

/-- A day that is not there ends its month. -/
theorem day_eq_of_of?_eq_none (h : of? d.year d.month (d.day + 1) = none) :
    d.day = daysInMonth d.year d.month := by
  have hday := d.exists_day
  by_contra hne
  have hnext : 1 ≤ d.day + 1 ∧ d.day + 1 ≤ daysInMonth d.year d.month := by omega
  rw [of?, dif_pos d.exists_year, dif_pos d.exists_month, dif_pos hnext] at h
  cases h

/-- A month that is not there ends its year. -/
theorem month_eq_of_of?_eq_none (h : of? d.year (d.month + 1) 1 = none) : d.month = 12 := by
  have hmonth := d.exists_month
  by_contra hne
  have hnext : 1 ≤ d.month + 1 ∧ d.month + 1 ≤ 12 := by omega
  rw [of?, dif_pos d.exists_year, dif_pos hnext,
    dif_pos ⟨Nat.le_refl 1, daysInMonth_pos hnext⟩] at h
  cases h

/-- The day after a day has the next number. -/
theorem ordinal_next? (h : d.next? = some e) : e.ordinal = d.ordinal + 1 := by
  unfold next? at h
  split at h
  next hday =>
    -- A day of the same month.
    cases h
    obtain ⟨hy, hm, hd⟩ := fields_of_of? hday
    rw [ordinal, hy, hm, hd, ordinal]
    omega
  next hday =>
    have hlast := day_eq_of_of?_eq_none hday
    split at h
    next hmonth =>
      -- The first of the next month.
      cases h
      obtain ⟨hy, hm, hd⟩ := fields_of_of? hmonth
      rw [ordinal, hy, hm, hd, ordinal, daysBeforeMonth]
      omega
    next hmonth =>
      -- The first of the next year.
      have hdecember := month_eq_of_of?_eq_none hmonth
      obtain ⟨hy, hm, hd⟩ := fields_of_of? h
      have hyear := daysBeforeMonth_thirteen d.year
      rw [daysBeforeMonth, ← hdecember, ← hlast] at hyear
      rw [ordinal, hy, hm, hd, ordinal, daysBeforeYear_succ d.exists_year.1, ← hyear,
        daysBeforeMonth_one]
      omega

end Date

namespace Timestamp

/-! ## Seconds -/

/-- The whole seconds since the midnight of day 0. -/
def seconds (t : Timestamp) : Nat :=
  ((t.date.ordinal * 24 + t.hour) * 60 + t.minute) * 60 + t.second

/-- The microseconds since the midnight of day 0. -/
def elapsed (t : Timestamp) : Nat :=
  t.seconds * 1000000 + t.micro

variable {t u : Timestamp}

theorem seconds_eq_iff : t.seconds = u.seconds ↔
    t.date = u.date ∧ t.hour = u.hour ∧ t.minute = u.minute ∧ t.second = u.second := by
  have htime := t.exists_time
  have htime' := u.exists_time
  constructor
  · intro h
    unfold seconds at h
    exact ⟨Date.ordinal_injective (by omega), by omega, by omega, by omega⟩
  · rintro ⟨hdate, hhour, hminute, hsecond⟩
    rw [seconds, hdate, hhour, hminute, hsecond, seconds]

/-- The first field in which two timestamps differ decides which rank is lower. -/
theorem secondRank_lt_iff_fields : t.secondRank < u.secondRank ↔
    t.date.year < u.date.year ∨ t.date.year = u.date.year ∧
      (t.date.month < u.date.month ∨ t.date.month = u.date.month ∧
        (t.date.day < u.date.day ∨ t.date.day = u.date.day ∧
          (t.hour < u.hour ∨ t.hour = u.hour ∧
            (t.minute < u.minute ∨ t.minute = u.minute ∧ t.second < u.second)))) := by
  have htime := t.exists_time
  have htime' := u.exists_time
  have hdate := Date.rank_lt_iff_fields (d := t.date) (e := u.date)
  have hdate' := Date.rank_lt_iff_fields (d := u.date) (e := t.date)
  unfold secondRank
  omega

/-- Of two timestamps the one of lower rank is the one of the earlier second. -/
theorem secondRank_lt_iff : t.secondRank < u.secondRank ↔ t.seconds < u.seconds := by
  have htime := t.exists_time
  have hdate := Date.rank_lt_iff (d := t.date) (e := u.date)
  have hdate' := Date.rank_lt_iff (d := u.date) (e := t.date)
  have htime' := u.exists_time
  unfold secondRank seconds
  omega

end Timestamp

end RowAccess
