import Mathlib.Data.List.Forall2
import RowAccess.Facade
import RowAccess.Proofs.Calendar.Iso

/-
  RowAccess/Proofs/Facade/Conversion.lean
  =======================================
  **Rows that go out and come back are stored as they were.**  A value of a column that goes out and
  comes in again is stored as the value itself would be: the sentinels and the bytes as they are, a
  date or a timestamp as its literal down to the second, and an offset is refused before and after.
  The category of every column is known where texts name the columns, so the same holds of whole
  rows (`Facade.rowOut_recordIn`).
-/

namespace RowAccess

open Outcome

namespace Outcome

variable {ε α β : Type} {r : ε → ε → Prop}

/-- Two outcomes that agree, in their value or else in the kind of their errors. -/
inductive Agree (r : ε → ε → Prop) : Except ε α → Except ε α → Prop
  | ok (a : α) : Agree r (.ok a) (.ok a)
  | error {e f : ε} (h : r e f) : Agree r (.error e) (.error f)

theorem Agree.refl (hr : ∀ e, r e e) (x : Except ε α) : Agree r x x := by
  cases x with
  | error e => exact .error (hr e)
  | ok a => exact .ok a

theorem Agree.bind {x y : Except ε α} {f g : α → Except ε β} (h : Agree r x y)
    (hfg : ∀ a, Agree r (f a) (g a)) : Agree r (x >>= f) (y >>= g) := by
  cases h with
  | ok a => exact hfg a
  | error h => exact .error h

theorem Agree.map {x y : Except ε α} (h : Agree r x y) (f : α → β) :
    Agree r (x.map f) (y.map f) := by
  cases h with
  | ok a => exact .ok (f a)
  | error h => exact .error h

end Outcome

/-- Faults of one kind: the same fault, or two faults of coercion. -/
inductive SameKind : Fault → Fault → Prop
  | same (f : Fault) : SameKind f f
  | coercion (a b : CoercionFault) : SameKind (.coercion a) (.coercion b)

namespace Conversion

variable {c : Config}

/-! ## Values -/

theorem sentinel_of_truthOf? {s : String} {b : Bool} (h : c.truthOf? s = some b) :
    c.sentinel b = s := by
  unfold Config.truthOf? at h
  split at h
  · cases h
    simp_all [Config.sentinel]
  · split at h
    · cases h
      simp_all [Config.sentinel]
    · cases h

theorem booleanIn_booleanOut (v : Value) : booleanIn c (booleanOut c v) = booleanIn c v := by
  cases v with
  | text s =>
    rw [booleanOut]
    cases htruth : c.truthOf? s with
    | none => rfl
    | some b => exact congrArg Value.text (sentinel_of_truthOf? htruth)
  | _ => rfl

theorem byteOf_toNat (b : UInt8) : byteOf (.int b.toNat) = .ok b := by
  have hb := b.toNat_lt
  have hrange : (0 : Int) ≤ b.toNat ∧ (b.toNat : Int) < 256 := by omega
  simp [byteOf, hrange]

theorem mapM_byteOf (bs : List UInt8) :
    (bs.map fun b => Value.int b.toNat).mapM byteOf = .ok bs := by
  induction bs with
  | nil => rfl
  | cons b bs ih =>
    rw [List.map_cons, List.mapM_cons, byteOf_toNat, ok_bind, ih]
    rfl

/-- A byte string is taken out of its wrapper again. -/
theorem bufferIn_bufferOut (v : Value) : bufferIn (bufferOut v) = bufferIn v := by
  cases v with
  | bytes bs =>
    have hdata : Keyed.find? [("type", Value.text "Buffer"),
        ("data", .list (bs.map fun b => .int b.toNat))] "data" =
          some (.list (bs.map fun b => .int b.toNat)) := rfl
    have htype : Keyed.find? [("type", Value.text "Buffer"),
        ("data", .list (bs.map fun b => .int b.toNat))] "type" = some (.text "Buffer") := rfl
    simp only [bufferOut, bufferIn, bytesOfWrapper, hdata, htype, mapM_byteOf]
  | _ => rfl

theorem timestampOf_naive {t : Timestamp} (h : t.isNaive = true) :
    timestampOf (.timestamp t) = .ok t := by
  simp only [timestampOf, ok_bind, if_pos h]
  rfl

theorem timestampOf_eq_ok {t u : Timestamp} (h : timestampOf (.timestamp t) = .ok u) : u = t := by
  simp only [timestampOf, ok_bind] at h
  split at h
  · cases h
    rfl
  · cases h

theorem timestampOf_isoText_naive {t : Timestamp} (h : t.isNaive = true) :
    timestampOf (.text t.isoText) = .ok t := by
  simp only [timestampOf, timestampOfText, t.isDense_isoText.strip, Iso.read_isoText_naive h, ok_bind,
    if_pos h]
  rfl

theorem timestampOf_isoText_zoned {t : Timestamp} (h : t.isNaive = false) :
    ∃ cause, timestampOf (.text t.isoText) = .error (.coercion cause) := by
  rcases Iso.read_isoText_zoned h with ⟨u, hu, hzoned⟩ | ⟨flaw, hflaw, hcalendar⟩
  · refine ⟨.zoned (.text t.isoText), ?_⟩
    simp only [timestampOf, timestampOfText, t.isDense_isoText.strip, hu, ok_bind, hzoned,
      Bool.false_eq_true, if_false]
    rfl
  · refine ⟨.timestampText t.isoText flaw, ?_⟩
    simp only [timestampOf, timestampOfText, t.isDense_isoText.strip, hflaw]
    cases flaw
    case pastCalendar => exact absurd rfl hcalendar
    all_goals rfl

theorem timestampOf_date (d : Date) : timestampOf (.date d) = .ok (Timestamp.midnight d) := rfl

theorem timestampOf_text (d : Date) :
    timestampOf (.text d.text) = .ok (Timestamp.midnight d) := by
  simp only [timestampOf, timestampOfText, d.isDense_text.strip, Iso.read_text]
  rfl

/-- A date or a timestamp is stored as its text is: both are refused where there is an offset. -/
theorem timestampOf_timestampOut (v : Value) :
    Agree SameKind (timestampOf (timestampOut v)) (timestampOf v) := by
  cases v with
  | timestamp t =>
    simp only [timestampOut]
    by_cases hnaive : t.isNaive = true
    · rw [timestampOf_isoText_naive hnaive, timestampOf_naive hnaive]
      exact Agree.refl .same _
    · have hzoned := Bool.eq_false_iff.2 hnaive
      obtain ⟨cause, hcause⟩ := timestampOf_isoText_zoned hzoned
      have hdirect : timestampOf (.timestamp t) = .error (.coercion (.zoned (.timestamp t))) := by
        simp only [timestampOf, ok_bind, hzoned, Bool.false_eq_true, if_false]
        rfl
      rw [hcause, hdirect]
      exact .error (.coercion _ _)
  | date d =>
    simp only [timestampOut, timestampOf_text, timestampOf_date]
    exact Agree.refl .same _
  | _ =>
    simp only [timestampOut]
    exact Agree.refl .same _

theorem timestampIn_of_none (h : c.timestampFormatter = none) (v : Value) :
    timestampIn c v = (timestampOf v).map (storedTimestamp c) := by
  simp only [timestampIn, h]

theorem isNull_timestampOut (v : Value) : (timestampOut v).isNull = v.isNull := by
  cases v <;> rfl

theorem isNull_bufferOut (v : Value) : (bufferOut v).isNull = v.isNull := by
  cases v <;> rfl

/-- The same point in time without what is below the second. -/
def toSecond (t : Timestamp) : Timestamp :=
  { t with
    micro := 0
    exists_time := ⟨t.exists_time.1, t.exists_time.2.1, t.exists_time.2.2.1, by decide⟩ }

theorem storedTimestamp_toSecond (t : Timestamp) :
    storedTimestamp c (toSecond t) = storedTimestamp c t := by
  have hparts : fillPart (toSecond t) = fillPart t := by
    funext part
    cases part <;> rfl
  rw [storedTimestamp, fill, hparts, ← fill, ← storedTimestamp]

end Conversion

/-! ## Categories -/

namespace TableSchema

variable {schema : TableSchema}

theorem exists_caselessCategory {entries : List (Value × Category)}
    (h : ∀ e ∈ entries, e.1.isText = true) (lowered : Value) :
    ∃ k, caselessCategory? lowered entries = .ok k := by
  induction entries with
  | nil => exact ⟨none, rfl⟩
  | cons e r ih =>
    obtain ⟨v, k⟩ := e
    have hv : v.isText = true := h (v, k) List.mem_cons_self
    obtain ⟨k', hk'⟩ := ih fun e he => h e (List.mem_cons_of_mem _ he)
    cases v
    case text s =>
      simp only [caselessCategory?, lowered?]
      split
      · exact ⟨some k, rfl⟩
      · exact ⟨k', hk'⟩
    all_goals cases hv

theorem isText_of_mem_entries (h : ∀ k, ∀ v ∈ schema.columns.of k, v.isText = true)
    {e : Value × Category} (he : e ∈ schema.columns.entries) : e.1.isText = true := by
  obtain ⟨k, -, he⟩ := List.mem_flatMap.1 he
  obtain ⟨v, hv, rfl⟩ := List.mem_map.1 he
  exact h k v hv

/-- Where texts name the columns, the category of a column is known, if only as none. -/
theorem exists_category (h : ∀ k, ∀ v ∈ schema.columns.of k, v.isText = true) (column : String) :
    ∃ k, schema.category? column = .ok k := by
  rw [category?, lookup]
  split
  · exact ⟨_, rfl⟩
  · exact exists_caselessCategory (fun e he => isText_of_mem_entries h he) _

end TableSchema

namespace Facade

open Conversion

variable {c : Config} {schema : TableSchema}

/-! ## Rows -/

theorem valueIn_boolean (v : Value) :
    valueIn c (some .boolean) v = .ok (booleanIn c v) := by
  cases v <;> rfl

theorem valueIn_timestamp {v : Value} (h : v.isNull = false) :
    valueIn c (some .timestamp) v = (timestampIn c v).map .dateLiteral := by
  cases v
  case null => cases h
  all_goals rfl

theorem valueIn_buffer {v : Value} (h : v.isNull = false) :
    valueIn c (some .buffer) v = (bufferIn v).map .bytes := by
  cases v
  case null => cases h
  all_goals rfl

/-- What goes out comes in again as if it had stayed. -/
theorem valueIn_valueOut (hformatter : c.timestampFormatter = none) (k : Option Category)
    (v : Value) : Agree SameKind (valueIn c k (valueOut c k v)) (valueIn c k v) := by
  by_cases hnull : v.isNull = true
  · have hout : valueOut c k v = v := by
      cases v
      case null =>
        rcases k with _ | k
        · rfl
        · cases k <;> rfl
      all_goals cases hnull
    rw [hout]
    exact Agree.refl .same _
  · have hne := Bool.eq_false_iff.2 hnull
    rcases k with _ | k
    · exact Agree.refl .same _
    · cases k with
      | boolean =>
        rw [valueOut, valueIn_boolean, valueIn_boolean, booleanIn_booleanOut]
        exact Agree.refl .same _
      | timestamp =>
        rw [valueOut, valueIn_timestamp hne, valueIn_timestamp (by rw [isNull_timestampOut, hne]),
          timestampIn_of_none hformatter, timestampIn_of_none hformatter]
        exact ((timestampOf_timestampOut v).map _).map _
      | buffer =>
        rw [valueOut, valueIn_buffer hne, valueIn_buffer (by rw [isNull_bufferOut, hne]),
          bufferIn_bufferOut]
        exact Agree.refl .same _
      | number => exact Agree.refl .same _
      | string => exact Agree.refl .same _

/-- A row goes out whole, and comes in again entry by entry. -/
theorem exists_rowOut (hformatter : c.timestampFormatter = none)
    (hcolumns : ∀ k, ∀ v ∈ schema.columns.of k, v.isText = true) (row : Fields) :
    ∃ out, rowOut c schema row = .ok out ∧
      Agree SameKind (recordIn c schema out) (recordIn c schema row) := by
  induction row with
  | nil => exact ⟨[], rfl, .ok []⟩
  | cons e row ih =>
    obtain ⟨name, v⟩ := e
    obtain ⟨k, hk⟩ := TableSchema.exists_category hcolumns name
    obtain ⟨out, hout, hagree⟩ := ih
    rw [rowOut] at hout
    refine ⟨(name, valueOut c k v) :: out, ?_, ?_⟩
    · simp only [rowOut, List.mapM_cons, hk, ok_bind, pure_bind, hout]
      rfl
    · simp only [recordIn, List.mapM_cons, hk, ok_bind]
      rw [← recordIn, ← recordIn]
      have hentry := (valueIn_valueOut hformatter k v).bind fun w =>
        Agree.refl SameKind.same (pure (name, w))
      exact hentry.bind fun entry => hagree.bind fun rest => Agree.refl SameKind.same _

/-- How the entry of a row stands in the record that is stored for it. -/
structure Kept (c : Config) (schema : TableSchema) (e stored : String × Value) : Prop where
  name : stored.1 = e.1
  null : e.2 = .null → stored.2 = .null
  sentinel : ∀ b, schema.category? e.1 = .ok (some .boolean) → e.2 = .text (c.sentinel b) →
    stored.2 = e.2
  bytes : ∀ bs, schema.category? e.1 = .ok (some .buffer) → e.2 = .bytes bs → stored.2 = e.2
  date : ∀ d, schema.category? e.1 = .ok (some .timestamp) → e.2 = .date d →
    stored.2 = .dateLiteral (storedTimestamp c (Timestamp.midnight d))
  timestamp : ∀ t, schema.category? e.1 = .ok (some .timestamp) → e.2 = .timestamp t →
    stored.2 = .dateLiteral (storedTimestamp c (toSecond t))
  other : (∀ k ∈ [Category.boolean, .buffer, .timestamp], schema.category? e.1 ≠ .ok (some k)) →
    stored.2 = e.2

theorem kept_valueIn (hformatter : c.timestampFormatter = none) {name : String} {v w : Value} {k : Option Category}
    (hk : schema.category? name = .ok k) (hw : valueIn c k v = .ok w) :
    Kept c schema (name, v) (name, w) := by
  have hcategory {k' : Option Category} (h : schema.category? name = .ok k') : k = k' :=
    Except.ok.inj (hk.symm.trans h)
  constructor
  case name => rfl
  case null =>
    rintro rfl
    cases hw
    rfl
  case sentinel =>
    intro b hb hv
    cases hcategory hb
    cases hv
    cases hw
    rfl
  case bytes =>
    intro bs hbs hv
    cases hcategory hbs
    cases hv
    cases hw
    rfl
  case date =>
    intro d hd hv
    cases hcategory hd
    cases hv
    rw [valueIn_timestamp rfl, timestampIn_of_none hformatter, timestampOf_date] at hw
    cases hw
    rfl
  case timestamp =>
    intro t ht hv
    cases hcategory ht
    cases hv
    rw [valueIn_timestamp rfl, timestampIn_of_none hformatter] at hw
    obtain ⟨l, hl, rfl⟩ := map_eq_ok_iff.1 hw
    obtain ⟨u, hu, rfl⟩ := map_eq_ok_iff.1 hl
    rw [storedTimestamp_toSecond, timestampOf_eq_ok hu]
  case other =>
    intro hother
    rcases k with _ | k
    · cases v <;> cases hw <;> rfl
    · cases k
      case number => cases v <;> cases hw <;> rfl
      case string => cases v <;> cases hw <;> rfl
      all_goals exact absurd hk (hother _ (by simp))

theorem kept_recordIn (hformatter : c.timestampFormatter = none) {row record : Fields}
    (h : recordIn c schema row = .ok record) :
    List.Forall₂ (Kept c schema) row record := by
  induction row generalizing record with
  | nil =>
    cases h
    exact .nil
  | cons e row ih =>
    obtain ⟨name, v⟩ := e
    rw [recordIn, List.mapM_cons, bind_eq_ok_iff] at h
    obtain ⟨entry, hentry, h⟩ := h
    obtain ⟨rest, hrest, h⟩ := bind_eq_ok_iff.1 h
    cases h
    obtain ⟨k, hk, hentry⟩ := bind_eq_ok_iff.1 hentry
    obtain ⟨w, hw, hentry⟩ := bind_eq_ok_iff.1 hentry
    cases hentry
    exact .cons (kept_valueIn hformatter hk hw) (ih hrest)

/-- **Rows that go out and come back are stored as they were.**  Where texts name the columns and
no formatter takes the place of the literals, a row that goes out and comes in again has the outcome
of the row itself, a record or a fault of the same kind; and the record keeps what the row holds. -/
theorem rowOut_recordIn (hformatter : c.timestampFormatter = none)
    (hcolumns : ∀ k, ∀ v ∈ schema.columns.of k, v.isText = true) (row : Fields) :
    Agree SameKind (rowOut c schema row >>= recordIn c schema) (recordIn c schema row) ∧
      ∀ record, recordIn c schema row = .ok record →
        List.Forall₂ (Kept c schema) row record := by
  obtain ⟨out, hout, hagree⟩ := exists_rowOut hformatter hcolumns row
  rw [hout, ok_bind]
  exact ⟨hagree, fun record hrecord => kept_recordIn hformatter hrecord⟩

/-! ## A small store -/

/-- The conventions of a small store. -/
def storeConfig : Config where
  dialect := .oracle
  schemaName := "STORE"
  catalogPath := "c"
  booleanTrue := "T"
  booleanFalse := "F"
  booleanNativeType := none
  wrapDateLiterals := true
  timestampFormatter := none
  debug := false
  schemaName_ne := by decide
  sentinels_ne := by decide

/-- A table with a column of every category. -/
def mixedSchema : TableSchema :=
  ⟨.text "T", .text "ID", some .number,
    ⟨[.text "ACTIVE"], [.text "PAYLOAD"], [.text "CREATED"], [.text "ID"], [.text "NAME"]⟩, rfl⟩

/-- The last microsecond of a leap day. -/
def leapEvening : Timestamp :=
  ⟨⟨2020, 2, 29, by decide, by decide, by decide⟩, 23, 59, 59, 999999, none, by decide⟩

def mixedRow : Fields :=
  [("ID", .int 1), ("active", .text "T"), ("Created", .timestamp leapEvening),
    ("PAYLOAD", .bytes [1, 255]), ("NAME", .null), ("OTHER", .bool true)]

theorem rowOut_recordIn_mixedRow :
    storeConfig.timestampFormatter = none ∧
      (∀ k, ∀ v ∈ mixedSchema.columns.of k, v.isText = true) ∧
        Agree SameKind (rowOut storeConfig mixedSchema mixedRow >>= recordIn storeConfig mixedSchema)
          (recordIn storeConfig mixedSchema mixedRow) := by
  have hcolumns : ∀ k, ∀ v ∈ mixedSchema.columns.of k, v.isText = true := by
    intro k
    cases k <;> decide
  exact ⟨rfl, hcolumns, (rowOut_recordIn rfl hcolumns mixedRow).1⟩

/-- A table one of whose columns is named by a number. -/
def numberedSchema : TableSchema :=
  ⟨.text "T", .null, none, { timestamp := [.text "A", .int 5] }, rfl⟩

theorem rowOut_recordIn_numberedSchema :
    ¬ ∀ (c : Config) (schema : TableSchema) (row : Fields), c.timestampFormatter = none →
      Agree SameKind (rowOut c schema row >>= recordIn c schema) (recordIn c schema row) := by
  intro h
  have hagree := h storeConfig numberedSchema [("A", .text "bad"), ("B", .int 1)] rfl
  have hout : rowOut storeConfig numberedSchema [("A", .text "bad"), ("B", .int 1)] =
    .error .noSuchOperation := rfl
  have hin : recordIn storeConfig numberedSchema [("A", .text "bad"), ("B", .int 1)] =
    .error (.coercion (.timestampText "bad" (.unexpected "year" 'b' 0 false))) := rfl
  rw [hout, hin, error_bind] at hagree
  cases hagree with
  | error h => cases h

end Facade

end RowAccess
