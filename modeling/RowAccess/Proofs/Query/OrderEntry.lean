import RowAccess.Proofs.Query.FilterQuery
import RowAccess.Proofs.Query.Parts
import RowAccess.Proofs.Text.Blank

/-
  RowAccess/Proofs/Query/OrderEntry.lean
  ======================================
  **The entries of a filter's order.**  A text is read exactly where it is a column, blanks and a
  direction in capitals, with blanks around them or not, and it can be cut into these parts in one
  way only.  What is read of a filter's order passes the check of queries as it is and gives the
  terms of the typed query, in their order (`Filter.orderEntries_follow_grammar`).
-/

namespace RowAccess

open Keyed Outcome

namespace Filter

/-! ## The direction at the end -/

theorem dropWord?_eq_some_iff {word : String} {cs before : List Char} :
    dropWord? word cs = some before ↔ cs = before ++ word.toList := by
  unfold dropWord?
  extract_lets w
  have hlength : w.length = word.toList.length := List.length_reverse
  constructor
  · intro h
    split at h
    next hprefix =>
      obtain ⟨r, hr⟩ := List.isPrefixOf_iff_prefix.1 hprefix
      cases h
      rw [← hr, List.drop_left, ← List.reverse_inj, List.reverse_append, List.reverse_reverse]
      exact hr.symm
    · cases h
  · intro h
    have hreverse : cs.reverse = w ++ before.reverse := by
      rw [h, List.reverse_append]
    rw [hreverse, if_pos (List.isPrefixOf_iff_prefix.2 (List.prefix_append _ _)), List.drop_left,
      List.reverse_reverse]

theorem splitDirection?_eq_some_iff {cs before : List Char} {direction : Direction} :
    splitDirection? cs = some (before, direction) ↔
      cs = before ++ (directionWord direction).toList := by
  unfold splitDirection?
  cases hup : dropWord? (directionWord .ascending) cs with
  | some b =>
    have hcs := dropWord?_eq_some_iff.1 hup
    dsimp only
    constructor
    · intro h
      cases h
      exact hcs
    · intro h
      rw [hcs] at h
      cases direction with
      | ascending => rw [List.append_cancel_right h]
      | descending =>
        -- The third letter from the end tells the words apart.
        have hlast := congrArg (fun l => l.reverse[2]?) h
        simp [directionWord] at hlast
  | none =>
    dsimp only
    constructor
    · intro h
      obtain ⟨b, hdown, hb⟩ := Option.map_eq_some_iff.1 h
      cases hb
      exact dropWord?_eq_some_iff.1 hdown
    · intro h
      cases direction with
      | ascending =>
        rw [dropWord?_eq_some_iff.2 h] at hup
        cases hup
      | descending =>
        rw [dropWord?_eq_some_iff.2 h]
        rfl

theorem trimBack_word (cs : List Char) (direction : Direction) :
    Text.trimBack (cs ++ (directionWord direction).toList) =
      cs ++ (directionWord direction).toList := by
  apply Text.trimBack_eq_self
  intro c hc
  have hword : (directionWord direction).toList.getLast? = some 'C' := by
    cases direction <;> rfl
  rw [List.getLast?_append, hword] at hc
  cases hc
  decide

/-! ## The column -/

/-- Whether characters are a column name is decided at their ends. -/
instance decidableIsEntryColumn (column : List Char) : Decidable (IsEntryColumn column) :=
  decidable_of_iff (column ≠ [] ∧ '\n' ∉ column ∧ column.head?.any Text.isBlank = false ∧
    column.getLast?.any Text.isBlank = false)
    (by simp only [IsEntryColumn, Option.any_eq_false, Option.mem_def])

namespace IsEntryColumn

variable {column : List Char} (h : IsEntryColumn column)

include h

theorem trimBack_append (before : List Char) :
    Text.trimBack (before ++ column) = before ++ column := by
  apply Text.trimBack_eq_self
  intro c hc
  obtain ⟨last, hlast⟩ := Option.ne_none_iff_exists'.1 (mt List.getLast?_eq_none_iff.1 h.1)
  rw [List.getLast?_append, hlast] at hc
  cases hc
  exact h.2.2.2 _ hlast

theorem trim_between {before between : List Char} (hbefore : before.all Text.isBlank = true)
    (hbetween : between.all Text.isBlank = true) :
    Text.trim (before ++ column ++ between) = column := by
  have hfront : Text.trimFront (column ++ between) = column ++ between := by
    apply Text.trimFront_eq_self
    intro c hc
    obtain ⟨first, rest, hcolumn⟩ := List.exists_cons_of_ne_nil h.1
    rw [hcolumn] at hc
    cases hc
    exact h.2.2.1 _ (by rw [hcolumn]; rfl)
  calc Text.trim (before ++ column ++ between)
      = Text.trimBack (Text.trimFront (column ++ between)) := by
        rw [Text.trim, List.append_assoc, Text.trimFront_append hbefore]
    _ = Text.trimBack column := by rw [hfront, Text.trimBack_append hbetween]
    _ = column := h.trimBack_append []

theorem isBlankText_eq_false : Text.isBlankText (String.ofList column) = false := by
  obtain ⟨first, rest, rfl⟩ := List.exists_cons_of_ne_nil h.1
  simp [Text.isBlankText, h.2.2.1 first rfl]

end IsEntryColumn

/-! ## The parts of an entry -/

namespace EntryParts

/-- What is written before the word. -/
def stem (p : EntryParts) : List Char :=
  p.before ++ p.column ++ p.between

namespace IsEntry

variable {p p' : EntryParts}

theorem trimBack_written (h : p.IsEntry) :
    Text.trimBack p.written = p.stem ++ (directionWord p.direction).toList := by
  rw [written, Text.trimBack_append h.after]
  exact trimBack_word p.stem p.direction

theorem trim_stem (h : p.IsEntry) : Text.trim p.stem = p.column :=
  h.column.trim_between h.before h.between

theorem trimBack_stem (h : p.IsEntry) : Text.trimBack p.stem = p.before ++ p.column := by
  rw [stem, Text.trimBack_append h.between, h.column.trimBack_append]

/-- An entry has one cut into parts. -/
theorem eq_of_written (h : p.IsEntry) (h' : p'.IsEntry) (heq : p.written = p'.written) :
    p = p' := by
  have htrimmed := congrArg Text.trimBack heq
  rw [h.trimBack_written, h'.trimBack_written] at htrimmed
  have hsplit := splitDirection?_eq_some_iff.2 htrimmed
  rw [splitDirection?_eq_some_iff.2 rfl] at hsplit
  obtain ⟨hstem, hdirection⟩ := Prod.mk.inj (Option.some.inj hsplit)
  have hcolumn : p.column = p'.column := by
    rw [← h.trim_stem, ← h'.trim_stem, hstem]
  have hbefore : p.before = p'.before := by
    have hfront := congrArg Text.trimBack hstem
    rw [h.trimBack_stem, h'.trimBack_stem, hcolumn] at hfront
    exact List.append_cancel_right hfront
  have hbetween : p.between = p'.between := by
    rw [stem, stem, hbefore, hcolumn] at hstem
    exact List.append_cancel_left hstem
  have hafter : p.after = p'.after := by
    rw [written, written, hbefore, hcolumn, hbetween, hdirection] at heq
    exact List.append_cancel_left heq
  cases p
  cases p'
  cases hbefore
  cases hcolumn
  cases hbetween
  cases hdirection
  cases hafter
  rfl

/-- An entry is read as the term that its parts spell. -/
theorem orderTerm?_eq (h : p.IsEntry) {s : String} (hs : s.toList = p.written) :
    orderTerm? s = some p.term := by
  have hsplit : splitDirection? (Text.trimBack s.toList) = some (p.stem, p.direction) := by
    rw [hs, h.trimBack_written]
    exact splitDirection?_eq_some_iff.2 rfl
  have hparted : Text.trimBack p.stem ≠ p.stem := by
    rw [h.trimBack_stem]
    intro heq
    exact h.between_ne (List.append_cancel_left (heq.symm.trans (List.append_nil _).symm))
  have hline : '\n' ∉ p.column := h.column.2.1
  unfold orderTerm?
  rw [hsplit]
  simp [h.trim_stem, hparted, h.column.1, hline, term]

end IsEntry

/-- What is read as a term is an entry whose parts spell it. -/
theorem exists_of_orderTerm? {s : String} {t : OrderTerm} (h : orderTerm? s = some t) :
    ∃ p : EntryParts, p.IsEntry ∧ p.written = s.toList ∧ p.term = t := by
  unfold orderTerm? at h
  split at h
  · cases h
  next before direction hsplit =>
    dsimp only at h
    split at h
    · cases h
    next hfits =>
      cases h
      simp only [Bool.or_eq_true, beq_iff_eq, List.isEmpty_iff, List.contains_iff_mem,
        not_or] at hfits
      obtain ⟨⟨hparted, hne⟩, hline⟩ := hfits
      obtain ⟨after, hafter, hs⟩ := Text.exists_trimBack s.toList
      rw [splitDirection?_eq_some_iff.1 hsplit] at hs
      obtain ⟨front, hfront, hbefore⟩ := Text.exists_trimFront before
      obtain ⟨between, hbetween, hback⟩ := Text.exists_trimBack (Text.trimFront before)
      rw [← Text.trim] at hback
      have hcolumn : IsEntryColumn (Text.trim before) :=
        ⟨hne, hline, Text.head?_trim before, Text.getLast?_trimBack _⟩
      have hwhole : before = front ++ Text.trim before ++ between := by
        rw [List.append_assoc, ← hback]
        exact hbefore
      have hbetween_ne : between ≠ [] := by
        rintro rfl
        rw [List.append_nil] at hwhole
        refine hparted ?_
        rw [hwhole]
        exact hcolumn.trimBack_append front
      refine ⟨⟨front, Text.trim before, between, direction, after⟩,
        ⟨hcolumn, hfront, hbetween, hbetween_ne, hafter⟩, ?_, rfl⟩
      rw [written, ← hwhole]
      exact hs.symm

end EntryParts

/-- Is the text an entry of an order? -/
def IsEntryText (s : String) : Prop :=
  ∃ p : EntryParts, p.IsEntry ∧ p.written = s.toList

theorem orderTerm_text_eq_ok_iff {s : String} {t : OrderTerm} :
    orderTerm (.text s) = .ok t ↔
      ∃ p : EntryParts, p.IsEntry ∧ p.written = s.toList ∧ p.term = t := by
  unfold orderTerm
  dsimp only
  constructor
  · intro h
    cases hread : orderTerm? s with
    | none =>
      rw [hread] at h
      cases h
    | some u =>
      rw [hread] at h
      cases h
      exact EntryParts.exists_of_orderTerm? hread
  · rintro ⟨p, hp, hs, rfl⟩
    rw [hp.orderTerm?_eq hs.symm]

/-- Only texts are read as terms. -/
theorem exists_parts_of_orderTerm {v : Value} {t : OrderTerm} (h : orderTerm v = .ok t) :
    ∃ (s : String) (p : EntryParts), v = .text s ∧ p.IsEntry ∧ p.written = s.toList ∧ p.term = t := by
  cases v with
  | text s =>
    obtain ⟨p, hp⟩ := orderTerm_text_eq_ok_iff.1 h
    exact ⟨s, p, rfl, hp⟩
  | _ => cases h

/-! ## The check of an order -/

open Validation
open Stateful (execute)

theorem orderTermOf_term {p : EntryParts} (h : p.IsEntry) (place : Location) :
    orderTermOf place (.object p.term.toRecord) = .ok p.term :=
  orderTermOf_entry place ⟨rfl, _, rfl, h.column.isBlankText_eq_false⟩ rfl

/-- The records of terms that were read are checked as these terms and stay as they are. -/
theorem orderTermsFrom_records {entries : List Value} {terms : List OrderTerm}
    (h : List.Forall₂ (fun e t => orderTerm e = .ok t) entries terms) (i : Nat) :
    orderTermsFrom i (terms.map fun t => .object t.toRecord) =
      (.ok terms, terms.map fun t => .object t.toRecord) := by
  induction h generalizing i with
  | nil => rfl
  | cons hterm _ ih =>
    obtain ⟨s, p, rfl, hp, -, rfl⟩ := exists_parts_of_orderTerm hterm
    rw [List.map_cons, orderTermsFrom, orderTermOf_term hp, ih]
    rfl

/-- The record form of an order. -/
def orderRecord (terms : List OrderTerm) : Value :=
  .list (terms.map fun t => .object t.toRecord)

theorem orderOf_orderRecord {entries : List Value} {terms : List OrderTerm}
    (h : List.Forall₂ (fun e t => orderTerm e = .ok t) entries terms) :
    orderOf (orderRecord terms) = (.ok terms, orderRecord terms) := by
  show ((orderTermsFrom 0 _).1, Value.list (orderTermsFrom 0 _).2) = _
  rw [orderTermsFrom_records h]
  rfl

/-! ## The order of a filter -/

/-- What is made of the order of a filter: its terms, and the query with their records. -/
structure Ordered (filter : Fields) (order : Value) (query : Fields) (terms : List OrderTerm) :
    Prop where
  /-- The terms are those of the entries, one after another. -/
  entries : ∃ vs, orderEntries order = .ok vs ∧
    List.Forall₂ (fun v t => orderTerm v = .ok t) vs terms
  written : find? query Key.order.name = some (orderRecord terms)
  /-- The check of the order gives the terms and changes nothing. -/
  checked : execute checkOrder query = (.ok terms, query)
  /-- The query is checked like that of the filter without an order, and has the terms besides. -/
  validated : ∃ rest, toQuery (drop filter "order") = .ok rest ∧
    (validate (.object query)).1 =
      (validate (.object rest)).1.map (Except.map fun q => { q with order := terms })

theorem unordered_drop (filter : Fields) : unordered (drop filter "order") = unordered filter := by
  have hother : ∀ name, "order" ≠ name → find? (drop filter "order") name = find? filter name :=
    fun name => (exact_of_lawful "order").find?_drop_of_ne filter
  unfold unordered selection conditionWrites limitWrites
  rw [hother "fields" (by decide), hother "where" (by decide), hother "limit" (by decide)]

theorem exists_ordered {filter query : Fields} {order : Value}
    (h : toQuery filter = .ok query) (horder : find? filter "order" = some order) :
    ∃ terms, Ordered filter order query terms := by
  rw [toQuery_eq, horder] at h
  obtain ⟨entries, hentries, h⟩ := bind_eq_ok_iff.1 h
  obtain ⟨terms, hterms, h⟩ := bind_eq_ok_iff.1 h
  have hall := forall₂_of_mapM hterms
  obtain rfl : put (unordered filter) Key.order.name (orderRecord terms) = query := Except.ok.inj h
  have hfind : find? (put (unordered filter) Key.order.name (orderRecord terms)) Key.order.name =
      some (orderRecord terms) := find?_put_self _ _ _
  have hrest : toQuery (drop filter "order") = .ok (unordered filter) := by
    rw [toQuery_eq, find?_drop_self, unordered_drop]
  refine ⟨terms, ⟨entries, hentries, hall⟩, hfind, ?_, unordered filter, hrest, ?_⟩
  · rw [reads_checkOrder.present _ _ hfind, orderOf_orderRecord hall, put_of_find? hfind]
  · rw [validate_object, validate_object, ← capture_map]
    refine congrArg capture (queryOf_put_order ?_ ?_ ?_)
    · exact find?_unordered_eq_none (by decide)
    · intro f
      have hother : Key.aggregate f ∉ Key.select :: .limit :: clauseKeys := by cases f <;> decide
      exact find?_unordered_eq_none hother
    · rw [orderOf_orderRecord hall]

/-- The entries of an order are exactly the texts of the grammar, each cut into its parts in one way
and read as they say; and the order that a filter asks for is what the check of its query gives. -/
theorem orderEntries_follow_grammar :
    (∀ s : String,
      ((∃ t, orderTerm (.text s) = .ok t) ↔ ∃ p : EntryParts, p.IsEntry ∧ p.written = s.toList) ∧
      ∀ p : EntryParts, p.IsEntry → p.written = s.toList →
        (∀ p' : EntryParts, p'.IsEntry → p'.written = s.toList → p' = p) ∧
        ∃ t, orderTerm (.text s) = .ok t ∧
          t.toRecord = [(orderColumnName, .text (String.ofList p.column)),
            (orderDirectionName, .text (Text.lower (directionWord p.direction)))]) ∧
    ∀ filter query, toQuery filter = .ok query →
      (find? filter "order" = none → find? query Key.order.name = none) ∧
      ∀ order, find? filter "order" = some order → ∃ terms, Ordered filter order query terms := by
  refine ⟨?_, ?_⟩
  · intro s
    refine ⟨⟨?_, ?_⟩, ?_⟩
    · rintro ⟨t, ht⟩
      obtain ⟨p, hp, hs, -⟩ := orderTerm_text_eq_ok_iff.1 ht
      exact ⟨p, hp, hs⟩
    · rintro ⟨p, hp, hs⟩
      exact ⟨p.term, orderTerm_text_eq_ok_iff.2 ⟨p, hp, hs, rfl⟩⟩
    · intro p hp hs
      refine ⟨?_, p.term, orderTerm_text_eq_ok_iff.2 ⟨p, hp, hs, rfl⟩, ?_⟩
      · intro p' hp' hs'
        exact hp'.eq_of_written hp (hs'.trans hs.symm)
      · rw [EntryParts.term, OrderTerm.toRecord]
        cases p.direction <;> rfl
  · intro filter query hquery
    constructor
    · intro habsent
      rw [toQuery_eq, habsent] at hquery
      cases hquery
      exact find?_unordered_eq_none (by decide)
    · intro order horder
      exact exists_ordered hquery horder

/-- The last word is the direction, and the words before it are the column. -/
def columnOfTwoWords : EntryParts :=
  ⟨[' '], "NAME ASC".toList, [' ', '\t'], .descending, ['\n']⟩

theorem orderEntries_follow_grammar_columnOfTwoWords :
    columnOfTwoWords.IsEntry ∧ columnOfTwoWords.written = " NAME ASC \tDESC\n".toList ∧
      (∀ p : EntryParts, p.IsEntry → p.written = " NAME ASC \tDESC\n".toList →
        p = columnOfTwoWords) ∧
      orderTerm (.text " NAME ASC \tDESC\n") = .ok ⟨.text "NAME ASC", .descending⟩ ∧
      ∃ terms, Ordered [("order", .text " NAME ASC \tDESC\n")] (.text " NAME ASC \tDESC\n")
        [("ORDER", .list [.object [("column", .text "NAME ASC"), ("order", .text "desc")]])] terms := by
  have hentry : columnOfTwoWords.IsEntry :=
    ⟨by decide, by decide, by decide, by decide, by decide⟩
  have hwritten : columnOfTwoWords.written = " NAME ASC \tDESC\n".toList := by decide
  have ht := orderTerm_text_eq_ok_iff.2 ⟨columnOfTwoWords, hentry, hwritten, rfl⟩
  have hparts := (orderEntries_follow_grammar.1 _).2 columnOfTwoWords hentry hwritten
  refine ⟨hentry, hwritten, hparts.1, ht, ?_⟩
  refine (orderEntries_follow_grammar.2 _ _ ?_).2 _ rfl
  show (do
    let terms ← [Value.text " NAME ASC \tDESC\n"].mapM orderTerm
    return [("ORDER", orderRecord terms)]) = _
  rw [List.mapM_cons, ht]
  rfl

end Filter

end RowAccess
