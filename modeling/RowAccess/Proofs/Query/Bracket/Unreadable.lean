import RowAccess.Proofs.Capture
import RowAccess.Proofs.Query.Bracket.Index

/-
  RowAccess/Proofs/Query/Bracket/Unreadable.lean
  ==============================================
  **Indices that spell no number.**  Every name of digit characters marks an index, but only decimal
  digits, and not more of them than are read, spell a number.  So the parameters of a query string
  may build an object that is taken for a list and has no order.  And the words of a refusal show
  what is refused, which may be an integer of more digits than are written.  A client's query that
  is not read fails with a fault of reading in every other case, and with a fault of an argument
  exactly in these two (`clientQuery_escapes_iff`).
-/

namespace RowAccess

open Keyed Outcome

/-! ## Names that are read as numbers -/

namespace Number

theorem splitSign_of_digits {cs : List Char} (h : ∀ c ∈ cs, Text.isDigitLike c = true) :
    splitSign cs = (false, cs) := by
  unfold splitSign
  split
  next r => exact absurd (h '-' List.mem_cons_self) (by decide)
  next r => exact absurd (h '+' List.mem_cons_self) (by decide)
  next => rfl

/-- Is the character a decimal digit? -/
def isDecimal (c : Char) : Bool :=
  (Text.decimalValue? c).isSome

/-- No underscore stands among digit characters, so each of them has to have a value. -/
theorem digitSequence?_of_digits {cs : List Char} (hne : cs ≠ [])
    (h : ∀ c ∈ cs, Text.isDigitLike c = true) :
    digitSequence? cs =
      if cs.all isDecimal then some (cs.filterMap Text.decimalValue?) else none := by
  induction cs with
  | nil => exact absurd rfl hne
  | cons c r ih =>
    cases r with
    | nil => cases hvalue : Text.decimalValue? c <;> simp [digitSequence?, isDecimal, hvalue]
    | cons c' r =>
      have hplain : c' ≠ '_' := by
        rintro rfl
        exact absurd (h '_' (by simp)) (by decide)
      have hrest := ih (by simp) fun x hx => h x (List.mem_cons_of_mem _ hx)
      rw [digitSequence?, hrest, List.all_cons (l := c' :: r)]
      · cases hvalue : Text.decimalValue? c with
        | none => simp [isDecimal, hvalue]
        | some d =>
          cases hall : (c' :: r).all isDecimal <;> simp [isDecimal, hvalue]
      · simp
      · intro r' heq
        exact hplain (List.cons.inj heq).1

theorem length_filterMap_of_all {cs : List Char} (h : cs.all isDecimal = true) :
    (cs.filterMap Text.decimalValue?).length = cs.length := by
  rw [List.length_filterMap_eq_countP, List.countP_eq_length]
  exact fun c hc => List.all_eq_true.1 h c hc

end Number

namespace Bracket

variable {α β : Type} {p q : Prop}

/-! ## Failing as a bad argument -/

/-- Does the outcome fail exactly where the condition holds, and only as a bad argument? -/
structure FailsWhen (x : Except Fault α) (p : Prop) : Prop where
  fails : p → ∃ cause, x = .error (.badArgument cause)
  holds : ¬ p → ∃ a, x = .ok a

namespace FailsWhen

theorem ok (a : α) : FailsWhen (.ok a) False :=
  ⟨False.elim, fun _ => ⟨a, rfl⟩⟩

theorem iff {x : Except Fault α} (h : FailsWhen x p) (hpq : p ↔ q) : FailsWhen x q :=
  ⟨fun hq => h.fails (hpq.2 hq), fun hq => h.holds fun hp => hq (hpq.1 hp)⟩

theorem bind {x : Except Fault α} {f : α → Except Fault β} (h : FailsWhen x p)
    (hf : ∀ a, x = .ok a → FailsWhen (f a) q) : FailsWhen (x >>= f) (p ∨ q) := by
  by_cases hp : p
  · obtain ⟨cause, rfl⟩ := h.fails hp
    exact ⟨fun _ => ⟨cause, rfl⟩, fun hnot => absurd (.inl hp) hnot⟩
  · obtain ⟨a, rfl⟩ := h.holds hp
    exact (hf a rfl).iff ⟨.inr, fun h => h.resolve_left hp⟩

theorem map {x : Except Fault α} (f : α → β) (h : FailsWhen x p) :
    FailsWhen (x >>= fun a => pure (f a)) p :=
  (h.bind fun a _ => ok (f a)).iff (by rw [or_false])

theorem mapM {f : α → Except Fault β} {bad : α → Prop} {xs : List α}
    (h : ∀ x ∈ xs, FailsWhen (f x) (bad x)) : FailsWhen (xs.mapM f) (∃ x ∈ xs, bad x) := by
  induction xs with
  | nil => exact (ok []).iff (by simp)
  | cons x xs ih =>
    rw [List.mapM_cons]
    have hrest := ih fun z hz => h z (List.mem_cons_of_mem _ hz)
    exact ((h x List.mem_cons_self).bind fun y _ => hrest.map (y :: ·)).iff (by simp)

end FailsWhen

/-! ## Numbers of indices -/

/-- A name that the reader of integers takes: decimal digits, and not too many of them. -/
def SpellsNumber (name : String) : Prop :=
  name.toList.all Number.isDecimal = true ∧ name.toList.length ≤ Number.digitLimit

/-- An index is read as a number, or it is no argument for the reader of integers. -/
theorem failsWhen_indexNumber {name : String} (h : Text.isIndexText name = true) :
    FailsWhen (indexNumber name) (¬ SpellsNumber name) := by
  obtain ⟨hempty, hdigits⟩ := Bool.and_eq_true_iff.1 h
  rw [List.all_eq_true] at hdigits
  have hne : name.toList ≠ [] := by
    intro hnil
    rw [String.toList_eq_nil_iff.1 hnil] at hempty
    cases hempty
  unfold indexNumber Number.readInt
  rw [Number.splitSign_of_digits hdigits]
  simp only [Number.digitSequence?_of_digits hne hdigits]
  by_cases hall : name.toList.all Number.isDecimal = true
  · rw [if_pos hall]
    simp only [Number.length_filterMap_of_all hall]
    by_cases hlength : Number.digitLimit < name.toList.length
    · rw [if_pos hlength]
      exact ⟨fun _ => ⟨_, rfl⟩, fun hnot => absurd (fun h => Nat.not_lt.2 h.2 hlength) hnot⟩
    · rw [if_neg hlength]
      exact ⟨fun hnot => absurd ⟨hall, Nat.not_lt.1 hlength⟩ hnot, fun _ => ⟨_, rfl⟩⟩
  · rw [if_neg hall]
    exact ⟨fun _ => ⟨_, rfl⟩, fun hnot => absurd (fun h => hall h.1) hnot⟩

theorem failsWhen_inIndexOrder {fields : Fields} (h : isIndexed fields = true) :
    FailsWhen (inIndexOrder fields) (∃ name ∈ keys fields, ¬ SpellsNumber name) := by
  have hindices := List.all_eq_true.1 (Bool.and_eq_true_iff.1 h).2
  unfold inIndexOrder
  have hnumbers := FailsWhen.mapM fun e he => (failsWhen_indexNumber (hindices e he)).map (·, e.2)
  exact (hnumbers.map _).iff (by simp [keys])

/-! ## Objects without an order -/

/-- Does the value hold, here or further in, an object all of whose names are indices, one of which
spells no number? -/
inductive IsUnordered : Value → Prop
  | here {fields : Fields} {name : String} (indexed : isIndexed fields = true)
    (mem : name ∈ keys fields) (unread : ¬ SpellsNumber name) : IsUnordered (.object fields)
  | inside {fields : Fields} {e : String × Value} (mem : e ∈ fields) (inner : IsUnordered e.2) :
    IsUnordered (.object fields)

theorem isUnordered_object_iff {fields : Fields} :
    IsUnordered (.object fields) ↔ (∃ e ∈ fields, IsUnordered e.2) ∨
      isIndexed fields = true ∧ ∃ name ∈ keys fields, ¬ SpellsNumber name := by
  constructor
  · intro h
    cases h with
    | here indexed mem unread => exact .inr ⟨indexed, _, mem, unread⟩
    | inside mem inner => exact .inl ⟨_, mem, inner⟩
  · rintro (⟨e, mem, inner⟩ | ⟨indexed, name, mem, unread⟩)
    · exact .inside mem inner
    · exact .here indexed mem unread

theorem keys_listedFields {fields listed : Fields} (h : listedFields fields = .ok listed) :
    keys listed = keys fields := by
  induction fields generalizing listed with
  | nil =>
    cases h
    rfl
  | cons e r ih =>
    rw [listedFields, bind_eq_ok_iff] at h
    obtain ⟨w, -, h⟩ := h
    obtain ⟨rest, hrest, h⟩ := bind_eq_ok_iff.1 h
    cases h
    exact congrArg (e.1 :: ·) (ih hrest)

mutual

/-- Numbered objects become lists unless one of them has no order. -/
theorem failsWhen_listed : (v : Value) → FailsWhen (listed v) (IsUnordered v)
  | .object fields => by
    rw [listed]
    refine ((failsWhen_listedFields fields).bind fun listed hlisted => ?_).iff
      isUnordered_object_iff.symm
    have hkeys := keys_listedFields hlisted
    rw [← isIndexed_eq_of_perm (.of_eq hkeys), ← hkeys]
    split
    next hindexed =>
      exact ((failsWhen_inIndexOrder hindexed).map _).iff (by simp [hindexed])
    next hindexed => exact (FailsWhen.ok _).iff (by simp [hindexed])
  | .null | .bool _ | .int _ | .float _ | .text _ | .bytes _ | .date _ | .timestamp _
  | .dateLiteral _ | .list _ => (FailsWhen.ok _).iff ⟨False.elim, fun h => by cases h⟩

theorem failsWhen_listedFields : (fields : List (String × Value)) →
    FailsWhen (listedFields fields) (∃ e ∈ fields, IsUnordered e.2)
  | [] => (FailsWhen.ok []).iff (by simp)
  | (k, v) :: r => by
    rw [listedFields]
    have hrest := failsWhen_listedFields r
    exact ((failsWhen_listed v).bind fun w _ => hrest.map ((k, w) :: ·)).iff (by simp)

end

end Bracket

/-! ## Faults of reading -/

/-- A fault of reading. -/
def IsReading (f : Fault) : Prop :=
  ∃ cause, f = .reading cause

theorem onlyReading_error (cause : ReadingFault) {α : Type} :
    Only IsReading (.error (.reading cause) : Except Fault α) :=
  .error ⟨cause, rfl⟩

namespace Filter

theorem onlyReading_orderTerm (v : Value) : Only IsReading (orderTerm v) := by
  cases v with
  | text s =>
    rw [orderTerm]
    split
    · exact .ok _
    · exact onlyReading_error _
  | _ => exact onlyReading_error _

theorem onlyReading_orderEntries (v : Value) : Only IsReading (orderEntries v) := by
  cases v with
  | text s => exact .ok _
  | list vs => exact .ok _
  | bytes bs => exact .ok _
  | _ => exact onlyReading_error _

/-- Only an order keeps a filter from having a record form. -/
theorem onlyReading_toQuery (filter : Fields) : Only IsReading (toQuery filter) := by
  unfold toQuery
  dsimp only
  split
  · exact .ok _
  · refine (onlyReading_orderEntries _).bind fun entries => ?_
    exact (Only.mapM onlyReading_orderTerm entries).bind fun terms => .ok _

theorem onlyReading_ofJson (text : String) : Only IsReading (ofJson text) := by
  unfold ofJson
  split
  · exact onlyReading_error _
  · exact .ok _
  · exact onlyReading_error _

theorem onlyReading_ofParameter (v : Value) : Only IsReading (ofParameter v) := by
  cases v with
  | text s => exact (onlyReading_ofJson s).bind onlyReading_toQuery
  | object fields => exact onlyReading_toQuery fields
  | _ => exact onlyReading_error _

end Filter

/-! ## Client queries -/

namespace Bracket

/-- What the parameters of a query string build. -/
def nestOf (text : String) : Fields :=
  nest (parameters (text.toList.dropWhile (· == '?')))

/-- The query of what the parameters of a text build, once its lists are made. -/
theorem onlyReading_ofListed (text : String) (v : Value) :
    Only IsReading (do
      match v with
      | .object fields =>
        let query := normalize (drop fields filterName)
        match find? fields filterName with
        | none => return query
        | some filter => return putAll query (← Filter.ofParameter filter)
      | _ => throw (.reading (.noNames text)) : Except Fault Fields) := by
  cases v with
  | object fields =>
    dsimp only
    split
    · exact .ok _
    · exact (Filter.onlyReading_ofParameter _).bind fun _ => .ok _
  | _ => exact onlyReading_error _

theorem parse_of_unordered {text : String} (h : IsUnordered (.object (nestOf text))) :
    ∃ cause, parse text = .error (.badArgument cause) := by
  obtain ⟨cause, hcause⟩ := (failsWhen_listed _).fails h
  exact ⟨cause, by rw [parse, ← nestOf, hcause]; rfl⟩

theorem onlyReading_parse {text : String} (h : ¬ IsUnordered (.object (nestOf text))) :
    Only IsReading (parse text) := by
  obtain ⟨v, hv⟩ := (failsWhen_listed _).holds h
  rw [parse, ← nestOf, hv]
  exact onlyReading_ofListed text v

end Bracket

theorem onlyReading_readQuery_of_ne_text {v : Value} (h : v.isText = false) :
    Only IsReading (readQuery v) := by
  cases v with
  | null => exact .ok _
  | text s => cases h
  | object fields =>
    rw [readQuery]
    split
    · exact (Filter.onlyReading_ofParameter _).bind fun _ => .ok _
    · split
      · exact Filter.onlyReading_toQuery fields
      · exact .ok _
  | _ => exact onlyReading_error _

/-- A client's query is read, or it fails with a fault of reading, or the parameters of its text
build an object that is taken for a list and has no order, or the words of its refusal cannot be
written. -/
theorem clientQuery_escapes_iff (v : Value) :
    ((∃ query, clientQuery v = .ok query) ∨ (∃ cause, clientQuery v = .error (.reading cause)) ∨
      ∃ cause, clientQuery v = .error (.badArgument cause)) ∧
    ((∃ cause, clientQuery v = .error (.badArgument cause)) ↔
      (∃ text, v = .text text ∧ Bracket.IsUnordered (.object (Bracket.nestOf text))) ∨
        ∃ cause, readQuery v = .error (.reading cause) ∧
          (Fault.reading cause).isWritable = false) := by
  by_cases hunordered : ∃ text, v = .text text ∧ Bracket.IsUnordered (.object (Bracket.nestOf text))
  · obtain ⟨text, rfl, hbuilt⟩ := hunordered
    have hfails : ∃ cause, clientQuery (.text text) = .error (.badArgument cause) := by
      obtain ⟨cause, hcause⟩ := Bracket.parse_of_unordered hbuilt
      rw [clientQuery, readQuery, hcause, written_error]
      rcases Fault.raised_eq_or (.badArgument cause) with hraised | hraised <;>
        exact ⟨_, congrArg Except.error hraised⟩
    exact ⟨.inr (.inr hfails), fun _ => .inl ⟨text, rfl, hbuilt⟩, fun _ => hfails⟩
  · have hreading : Only IsReading (readQuery v) := by
      cases v with
      | text s => exact Bracket.onlyReading_parse fun hbuilt => hunordered ⟨s, rfl, hbuilt⟩
      | _ => exact onlyReading_readQuery_of_ne_text rfl
    rw [clientQuery, or_iff_right hunordered]
    cases hquery : readQuery v with
    | ok query => simp [written_ok]
    | error f =>
      obtain ⟨cause, rfl⟩ := hreading f hquery
      rw [written_error]
      cases hwritable : (Fault.reading cause).isWritable with
      | true =>
        rw [Fault.raised_of_isWritable hwritable]
        simp [hwritable]
      | false =>
        rw [Fault.raised_of_not_isWritable hwritable]
        simp [hwritable]

/-- A parameter whose name is a superscript two. -/
def superscriptQuery : Value :=
  .text "²=1"

theorem clientQuery_superscript :
    ¬ ∀ v, (∃ query, clientQuery v = .ok query) ∨
      ∃ cause, clientQuery v = .error (.reading cause) := by
  intro h
  have hescapes : clientQuery superscriptQuery = .error (.badArgument (.integerText "²")) := by
    rfl
  rcases h superscriptQuery with ⟨query, hquery⟩ | ⟨cause, hcause⟩
  · rw [hescapes] at hquery
    cases hquery
  · rw [hescapes] at hcause
    cases hcause

end RowAccess
