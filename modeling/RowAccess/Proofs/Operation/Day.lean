import RowAccess.Proofs.Facade.RawLiteral

/-
  RowAccess/Proofs/Operation/Day.lean
  ===================================
  **The day that a literal names.**  Each dialect reads its date literals in a form of its own: day,
  token of the month and year, as a text or inside a call that makes a date of it, or year, month and
  day.  The literal that a value is compared by names the day of the value, in either dialect
  (`Conversion.oracleDay?_comparedDate`, `Conversion.mysqlDay?_comparedDate`).
-/

namespace RowAccess

namespace DateLiteral

/-! ## Reading literals -/

/-- The number that digits at so many places spell. -/
def number? (places : Nat) (cs : List Char) : Option Nat :=
  if cs.length = places then (cs.mapM Text.asciiDigit?).map Text.ofDigits else none

/-- The date of day, token of the month and year, parted by hyphens. -/
def dayMonthYear? (cs : List Char) : Option Date :=
  match Text.cut '-' cs with
  | [day, month, year] => do
    let d ← number? 2 day
    let m ← monthTokens.idxOf? (String.ofList month)
    let y ← number? 4 year
    Date.of? y (m + 1) d
  | _ => none

/-- The date of year, month and day, parted by hyphens. -/
def yearMonthDay? (cs : List Char) : Option Date :=
  match Text.cut '-' cs with
  | [year, month, day] => do
    let y ← number? 4 year
    let m ← number? 2 month
    let d ← number? 2 day
    Date.of? y m d
  | _ => none

/-- What stands between the two texts. -/
def between? (before after cs : List Char) : Option (List Char) :=
  let inside := (cs.drop before.length).take (cs.length - before.length - after.length)
  if cs = before ++ inside ++ after then some inside else none

/-- The day of a literal of the first dialect: of its text, or of the text in the call that makes a
date of it. -/
def oracleDay? (l : DateLiteral) : Option Date :=
  if l.raw then
    (between? "TO_DATE('".toList "', 'DD-MON-YYYY')".toList l.text.toList).bind dayMonthYear?
  else dayMonthYear? l.text.toList

/-- The day of a literal of the second dialect, which has no raw ones. -/
def mysqlDay? (l : DateLiteral) : Option Date :=
  if l.raw then none else yearMonthDay? l.text.toList

/-! ## What is read -/

theorem mapM_asciiDigit? {ds : List Nat} (h : ∀ d ∈ ds, d < 10) :
    (ds.map Nat.digitChar).mapM Text.asciiDigit? = some ds := by
  induction ds with
  | nil => rfl
  | cons d ds ih =>
    obtain ⟨hd, hds⟩ := List.forall_mem_cons.1 h
    rw [List.map_cons, List.mapM_cons, Text.asciiDigit?_digitChar d hd, ih hds]
    rfl

theorem number?_of_isNumeral {places n : Nat} {s : String} (h : IsNumeral places n s) :
    number? places s.toList = some n := by
  obtain ⟨ds, hds, hlength, hvalue, hs⟩ := h
  rw [number?, hs, if_pos (by simpa using hlength), mapM_asciiDigit? hds, Option.map_some, hvalue]

theorem not_mem_of_isNumeral {places n : Nat} {s : String} (h : IsNumeral places n s) :
    '-' ∉ s.toList := by
  obtain ⟨ds, hds, -, -, hs⟩ := h
  rw [hs, List.mem_map]
  rintro ⟨d, hd, heq⟩
  have hne : ∀ d < 10, d.digitChar ≠ '-' := by decide
  exact hne d (hds d hd) heq

/-- Three pieces without a hyphen are read back from between the hyphens. -/
theorem cut_hyphens {a b c : String} (ha : '-' ∉ a.toList) (hb : '-' ∉ b.toList)
    (hc : '-' ∉ c.toList) :
    Text.cut '-' (a ++ "-" ++ b ++ "-" ++ c).toList = [a.toList, b.toList, c.toList] := by
  have hparts : (a ++ "-" ++ b ++ "-" ++ c).toList =
      a.toList ++ '-' :: (b.toList ++ '-' :: c.toList) := by
    simp [String.toList_append]
  rw [hparts, Text.cut_append_separator ha, Text.cut_append_separator hb, Text.cut_of_not_mem hc]

theorem dayMonthYear?_of_isDayMonthYear {d : Date} {s : String} (h : IsDayMonthYear d s) :
    dayMonthYear? s.toList = some d := by
  obtain ⟨day, month, year, hday, hmonth, hyear, rfl⟩ := h
  have htokens : ∀ i < 12, ∀ token, monthTokens[i]? = some token →
      '-' ∉ token.toList ∧ monthTokens.idxOf? token = some i := by
    intro i hi token htoken
    have hall : ∀ i : Fin 12, '-' ∉ (monthTokens[i]).toList ∧
        monthTokens.idxOf? monthTokens[i] = some i.1 := by decide
    rw [List.getElem?_eq_getElem (by exact hi)] at htoken
    cases htoken
    exact hall ⟨i, hi⟩
  have hindex : d.month - 1 < 12 := by
    have := d.exists_month
    omega
  obtain ⟨hhyphen, htoken⟩ := htokens _ hindex _ hmonth
  rw [dayMonthYear?, cut_hyphens (not_mem_of_isNumeral hday) hhyphen (not_mem_of_isNumeral hyear)]
  dsimp only
  rw [number?_of_isNumeral hday, String.ofList_toList, htoken, number?_of_isNumeral hyear]
  have hone : d.month - 1 + 1 = d.month := by
    have := d.exists_month
    omega
  show Date.of? d.year (d.month - 1 + 1) d.day = some d
  rw [hone, Date.of?_self]

theorem between?_append (before after cs : List Char) :
    between? before after (before ++ cs ++ after) = some cs := by
  have hinside : ((before ++ cs ++ after).drop before.length).take
      ((before ++ cs ++ after).length - before.length - after.length) = cs := by
    have hlength : (before ++ cs ++ after).length - before.length - after.length = cs.length := by
      simp
    rw [hlength, List.append_assoc, List.drop_left, List.take_left]
  rw [between?, hinside, if_pos rfl]

end DateLiteral

namespace Conversion

open DateLiteral

variable (c : Config)

/-- In the first dialect a value is compared by a literal that names its day. -/
theorem oracleDay?_comparedDate (h : c.dialect = .oracle) (t : Timestamp) :
    oracleDay? (comparedDate c t) = some t.date := by
  have hday := dayMonthYear?_of_isDayMonthYear (isDayMonthYear_fill t)
  have hliteral : comparedDate c t =
      if c.wrapDateLiterals then
        ⟨"TO_DATE('" ++ fill Dialect.oracle.dateLiteral t ++ "', 'DD-MON-YYYY')", true⟩
      else ⟨fill Dialect.oracle.dateLiteral t, false⟩ := by
    rw [comparedDate, h]
    rfl
  rw [hliteral]
  cases c.wrapDateLiterals with
  | true =>
    rw [if_pos rfl, oracleDay?, if_pos rfl]
    dsimp only
    rw [String.toList_append, String.toList_append, between?_append, Option.bind_some, hday]
  | false =>
    rw [if_neg Bool.false_ne_true, oracleDay?, if_neg Bool.false_ne_true, hday]

/-- In the second dialect too. -/
theorem mysqlDay?_comparedDate (h : c.dialect = .mysql) (t : Timestamp) :
    mysqlDay? (comparedDate c t) = some t.date := by
  have hyear := t.date.exists_year
  have hmonth := t.date.exists_month
  have hy : IsNumeral 4 t.date.year (Text.padded 4 t.date.year) := isNumeral_padded 3 (by omega)
  have hm : IsNumeral 2 t.date.month (Text.padded 2 t.date.month) :=
    isNumeral_padded 1 (by omega)
  have hd : IsNumeral 2 t.date.day (Text.padded 2 t.date.day) := isNumeral_padded 1 t.date.day_lt
  have hliteral : comparedDate c t = ⟨Text.padded 4 t.date.year ++ "-" ++
      Text.padded 2 t.date.month ++ "-" ++ Text.padded 2 t.date.day, false⟩ := by
    rw [comparedDate, h]
    simp [wrapLiteral, Dialect.mysql, fill, fillPart, String.join_cons, String.append_assoc]
  rw [hliteral, mysqlDay?, if_neg Bool.false_ne_true, yearMonthDay?,
    cut_hyphens (not_mem_of_isNumeral hy) (not_mem_of_isNumeral hm) (not_mem_of_isNumeral hd)]
  dsimp only
  rw [number?_of_isNumeral hy, number?_of_isNumeral hm, number?_of_isNumeral hd]
  exact t.date.of?_self

end Conversion

end RowAccess
