import RowAccess.Proofs.Operation.LiteralOrder
import RowAccess.Proofs.Sql.CellOrder
import RowAccess.Proofs.Sql.TextTest

/-
  RowAccess/Proofs/Sql/StoredDay.lean
  ===================================
  **Where a stored timestamp stands among days.**  In the second dialect neither a stored timestamp nor
  the literal of a day is a number to the engine, so that both are compared as the texts that they
  are.  A stored timestamp goes on after its day and so stands after the literal of its day and before
  the literal of the next one (`order_stored_day`).  A test of a column by days therefore finds it as
  its day says, but for the day at which the test ends, where it is the other way round
  (`DayTest.truth_predicate`).
-/

namespace RowAccess.Sql

open Conversion

/-! ## Texts that are no numbers -/

theorem trimNumber_eq_self {cs : List Char} (hhead : ∀ c ∈ cs.head?, isNumberBlank c = false)
    (hlast : ∀ c ∈ cs.getLast?, isNumberBlank c = false) : trimNumber cs = cs := by
  have hkeep {ds : List Char} (h : ∀ c ∈ ds.head?, isNumberBlank c = false) :
      ds.dropWhile isNumberBlank = ds := by
    cases ds with
    | nil => rfl
    | cons d ds => exact List.dropWhile_cons_of_neg (by simp [h d rfl])
  rw [trimNumber, hkeep hhead, hkeep (by rwa [List.head?_reverse]), List.reverse_reverse]

/-- Digits that a hyphen follows are no number, unless a blank ends the text. -/
theorem numberOf?_hyphen {s : String} {d : Nat} {ds : List Nat} {rest : List Char}
    (hds : ∀ e ∈ d :: ds, e < 10) (hs : s.toList = (d :: ds).map Nat.digitChar ++ '-' :: rest)
    (hlast : ∀ c ∈ s.toList.getLast?, isNumberBlank c = false) : numberOf? s = none := by
  have hdigits : ∀ e < 10, e.digitChar.isDigit = true ∧ isNumberBlank e.digitChar = false ∧
      e.digitChar ≠ '-' ∧ e.digitChar ≠ '+' := by decide
  obtain ⟨-, hblank, hminus, hplus⟩ := hdigits d (hds d List.mem_cons_self)
  have htrim : trimNumber s.toList = s.toList := by
    refine trimNumber_eq_self ?_ hlast
    rw [hs]
    rintro c ⟨⟩
    exact hblank
  have hall : ∀ c ∈ (d :: ds).map Nat.digitChar, c.isDigit = true := by
    intro c hc
    obtain ⟨e, he, rfl⟩ := List.mem_map.1 hc
    exact (hdigits e (hds e he)).1
  have hwhole : s.toList.takeWhile Char.isDigit = (d :: ds).map Nat.digitChar := by
    rw [hs, List.takeWhile_append_of_pos hall]
    exact List.append_nil _
  have hafter : s.toList.dropWhile Char.isDigit = '-' :: rest := by
    rw [hs, List.dropWhile_append_of_pos hall]
    rfl
  have hsplit : Number.splitSign s.toList = (false, s.toList) := by
    rw [hs, List.map_cons, List.cons_append]
    unfold Number.splitSign
    split
    · next h => exact absurd (List.cons.inj h).1 hminus
    · next h => exact absurd (List.cons.inj h).1 hplus
    · rfl
  unfold numberOf?
  simp only [htrim, hsplit, hwhole, hafter]
  rfl

/-- Is the text one that no column makes a number of? -/
def IsWordy (s : String) : Prop :=
  numberOf? s = none

/-- Parts that begin with a year and a hyphen and end with a numeral are no number. -/
theorem isWordy_fill (parts : List LiteralPart) {p : LiteralPart} (hp : p.isNumeric = true)
    (t : Timestamp) : IsWordy (fill (.year :: .text "-" :: (parts ++ [p])) t) := by
  obtain ⟨ds, hds, hlength, -, hyear⟩ := LiteralPart.isNumeral_fillPart t (p := .year) rfl
  obtain ⟨es, hes, hplaces, -, hnumeral⟩ := LiteralPart.isNumeral_fillPart t hp
  obtain ⟨d, ds, rfl⟩ := List.exists_cons_of_length_eq_add_one hlength
  have hends : (fillPart t p).toList ≠ [] := by
    rw [← List.length_pos_iff, length_fillPart]
    cases p <;> first | decide | cases hp
  have hfill : (fill (.year :: .text "-" :: (parts ++ [p])) t).toList =
      (d :: ds).map Nat.digitChar ++ '-' :: ((fill parts t).toList ++ (fillPart t p).toList) := by
    have hlast : fill [p] t = fillPart t p := by
      rw [fill_cons, fill, List.map_nil, String.join_nil, String.append_empty]
    have hhyphen : (fillPart t (.text "-")).toList = ['-'] := by
      show "-".toList = _
      decide
    rw [fill_cons, fill_cons, fill_append, hlast, String.toList_append, hyear, String.toList_append,
      hhyphen, String.toList_append]
    rfl
  refine numberOf?_hyphen hds hfill ?_
  rw [hfill, ← List.cons_append, ← List.append_assoc, List.getLast?_append_of_ne_nil _ hends,
    hnumeral]
  intro c hc
  obtain ⟨e, he, rfl⟩ := List.mem_map.1 (List.mem_of_getLast? hc)
  have hblanks : ∀ e < 10, isNumberBlank e.digitChar = false := by decide
  exact hblanks e (hes e he)

theorem apply_wordy {s : String} (h : IsWordy s) (a : Affinity) : a.apply (.text s) = .text s := by
  cases a with
  | number =>
    rw [IsWordy] at h
    simp only [Affinity.apply, h, Option.getD_none]
  | _ => rfl

/-! ## Literals as cells -/

section Literals

variable {c : Config} (hmysql : c.dialect = .mysql) (t u : Timestamp)

include hmysql

theorem isWordy_storedTimestamp : IsWordy (storedTimestamp c t).text := by
  rw [storedTimestamp_of_mysql hmysql]
  exact isWordy_fill [.month, .text "-", .day, .text " ", .hour, .text ":", .minute, .text ":"]
    (p := .second) rfl t

theorem isWordy_comparedDate : IsWordy (comparedDate c t).text := by
  rw [comparedDate_of_mysql hmysql]
  exact isWordy_fill [.month, .text "-"] (p := .day) rfl t

/-- Where a stored timestamp stands among days: before every later one and after its own. -/
def dayOrder (d e : Date) : Ordering :=
  if d.ordinal < e.ordinal then .lt else .gt

/-- **A stored timestamp stands after its day**, and before the next one. -/
theorem order_stored_day : Cell.order (.text (storedTimestamp c t).text)
    (.text (comparedDate c u).text) = dayOrder t.date u.date := by
  have hlength : (comparedDate c t).text.toList.length = (comparedDate c u).text.toList.length :=
    (length_comparedDate hmysql t).trans (length_comparedDate hmysql u).symm
  have hclock : [] < (fill Dialect.clockParts t).toList := by
    cases hchars : (fill Dialect.clockParts t).toList with
    | nil =>
      have hnine := length_fill Dialect.clockParts t
      rw [hchars] at hnine
      cases hnine
    | cons d ds => exact List.nil_lt_cons d ds
  have hdays := comparedDate_lt_iff (a := t) (b := u) hmysql
  have hlater := comparedDate_lt_iff (a := u) (b := t) hmysql
  rw [String.lt_iff] at hdays hlater
  show compareChars _ _ = _
  rw [storedTimestamp_eq_append hmysql, String.toList_append, dayOrder,
    ← List.append_nil (comparedDate c u).text.toList]
  split
  · next hlt => exact compareChars_of_lt ((append_lt_append_iff hlength).2 (.inl (hdays.2 hlt)))
  · next hge =>
    rw [compareChars_swap, compareChars_of_lt ((append_lt_append_iff hlength.symm).2 ?_)]
    · rfl
    · rcases Nat.lt_or_eq_of_le (Nat.not_lt.1 hge) with hlt | heq
      · exact .inl (hlater.2 hlt)
      · have hday : u.date = t.date := Date.ordinal_injective heq
        have hsame := (comparedDate_eq_iff (.inr hmysql)).2 hday
        exact .inr ⟨congrArg (fun l => l.text.toList) hsame, hclock⟩

/-- A column whose cell is a stored timestamp compares with a day as the timestamp stands to it. -/
theorem compareTruth_stored_day (a : Affinity) (r : Relation) :
    compareTruth a .binary r (.text (storedTimestamp c t).text) (.text (comparedDate c u).text) =
      .ofBool (r.holds (dayOrder t.date u.date)) := by
  rw [compareTruth, Collation.keyCell_binary, Collation.keyCell_binary, Affinity.compare?,
    apply_wordy (isWordy_storedTimestamp hmysql t), apply_wordy (isWordy_comparedDate hmysql u),
    order_stored_day hmysql]
  rfl

end Literals

/-! ## Tests by days -/

/-- A test of a column of timestamps by days. -/
inductive DayTest where
  | compare (comparator : Comparator) (day : Date)
  | oneOf (day : Date) (days : List Date)
  | between (low high : Date)

/-- The text by which a column is compared with a day. -/
def dayText (c : Config) (day : Date) : String :=
  (comparedDate c (Timestamp.midnight day)).text

def dayOperand (c : Config) (day : Date) : Operand :=
  .bound .plain (.text (dayText c day))

namespace DayTest

/-- Does a day pass the test? -/
def holds (d : Date) : DayTest → Bool
  | .compare .eq e => d = e
  | .compare .gt e => e.ordinal < d.ordinal
  | .compare .lt e => d.ordinal < e.ordinal
  | .oneOf e es => d ∈ e :: es
  | .between low high => low.ordinal ≤ d.ordinal ∧ d.ordinal ≤ high.ordinal

/-- Does the test end at the day: is it one of the days that are asked for, the day after which all
others pass, or the last day of the range? -/
def isEnd (d : Date) : DayTest → Bool
  | .compare .lt _ => false
  | .compare _ e => d = e
  | .oneOf e es => d ∈ e :: es
  | .between low high => low.ordinal ≤ d.ordinal ∧ d = high

/-- The predicate that tests a column by the texts of the days. -/
def predicate (c : Config) (name : String) : DayTest → Predicate
  | .compare comparator e => .compare name (.of comparator) (dayOperand c e)
  | .oneOf e es => .oneOf false name (.together .plain (((e :: es).map (dayText c)).map .text))
  | .between low high => .between false name (dayOperand c low) (dayOperand c high)

theorem isTextTest_predicate (c : Config) (name : String) (test : DayTest) :
    IsTextTest name (test.predicate c name) := by
  cases test with
  | compare comparator e => exact .compare _ _
  | oneOf e es => exact .oneOf false _ _
  | between low high => exact .between false _ _

/-- What stands after its day and before the next one compares with days as its own day does, but for
the day at which the comparison ends. -/
theorem holds_dayOrder (comparator : Comparator) (d e : Date) :
    (Relation.of comparator).holds (dayOrder d e) =
      ((compare comparator e).holds d != (compare comparator e).isEnd d) := by
  have heq : d = e ↔ d.ordinal = e.ordinal := ⟨congrArg _, Date.ordinal_injective⟩
  have hdays := Nat.lt_trichotomy d.ordinal e.ordinal
  cases comparator <;> simp only [Relation.of, Relation.holds, dayOrder, holds, isEnd, heq] <;>
    grind

theorem between_dayOrder (d low high : Date) :
    (Relation.ge.holds (dayOrder d low) && Relation.le.holds (dayOrder d high)) =
      ((between low high).holds d != (between low high).isEnd d) := by
  have heq : d = high ↔ d.ordinal = high.ordinal := ⟨congrArg _, Date.ordinal_injective⟩
  simp only [Relation.holds, dayOrder, holds, isEnd, heq]
  grind

theorem holds_eq_dayOrder (d e : Date) : Relation.eq.holds (dayOrder d e) = false := by
  rw [dayOrder]
  split <;> rfl

theorem any_eq_no {ts : List Truth} (h : ∀ t ∈ ts, t = .no) : Truth.any ts = .no := by
  induction ts with
  | nil => rfl
  | cons t ts ih =>
    obtain ⟨rfl, hts⟩ := List.forall_mem_cons.1 h
    exact (Truth.no_or _).trans (ih hts)

section Truth

variable {c : Config} (hmysql : c.dialect = .mysql) {name : String} {column : ItemColumn}
  (hc : ItemColumn.find? (Identifier.found name) = some column) {t : Timestamp} {i : Item}
  (hi : i.cell column = .text (storedTimestamp c t).text)

include hmysql hc hi

theorem comparison_dayOperand (r : Relation) (e : Date) :
    Expr.comparison (Predicate.columnExpr name) (dayOperand c e).expr r
      ((Predicate.columnExpr name).cell i) ((dayOperand c e).expr.cell i) =
        .ofBool (r.holds (dayOrder t.date e)) := by
  rw [cell_columnExpr hc, hi]
  exact compareTruth_stored_day hmysql t (Timestamp.midnight e) _ r

/-- **A row passes a test of days as the day of its timestamp does**, but for the day at which the test
ends, where it is the other way round. -/
theorem truth_predicate (test : DayTest) :
    (test.predicate c name).truth i = .ofBool (test.holds t.date != test.isEnd t.date) := by
  have hcomparison := comparison_dayOperand hmysql hc hi
  cases test with
  | compare comparator e =>
    rw [← holds_dayOrder, ← hcomparison]
    exact Truth.truth_cell _
  | between low high =>
    have hand (a b : Bool) : (Truth.ofBool a).and (.ofBool b) = .ofBool (a && b) := by
      cases a <;> cases b <;> rfl
    rw [← between_dayOrder, ← hand, ← hcomparison, ← hcomparison]
    exact Truth.truth_cell _
  | oneOf e es =>
    have hcells : Expr.cells i (Choices.together .plain
        (((e :: es).map (dayText c)).map .text)).exprs =
          (e :: es).map fun e => .text (dayText c e) := by
      rw [Expr.cells_eq_map, Choices.exprs, List.map_map, List.map_map, List.map_map]
      rfl
    have hmember : ∀ a, Expr.membership a (Predicate.columnExpr name)
        (.text (storedTimestamp c t).text) ((e :: es).map fun e => .text (dayText c e)) = .no := by
      intro a
      refine any_eq_no fun u hu => ?_
      obtain ⟨cell, hcell, rfl⟩ := List.mem_map.1 hu
      obtain ⟨e', -, rfl⟩ := List.mem_map.1 hcell
      refine (compareTruth_stored_day hmysql t (Timestamp.midnight e') a .eq).trans ?_
      rw [holds_eq_dayOrder]
      rfl
    rw [holds, isEnd, bne_self_eq_false]
    show Cell.truth (negatedIf false (Expr.membership _ (Predicate.columnExpr name)
      ((Predicate.columnExpr name).cell i) (Source.values (Expr.cells i _) .list))).cell = .no
    rw [cell_columnExpr hc, hi, hcells, Truth.truth_cell]
    exact hmember _

end Truth

end DayTest

end RowAccess.Sql
