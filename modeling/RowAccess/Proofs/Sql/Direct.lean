import RowAccess.Proofs.Sql.Command
import RowAccess.Proofs.Sql.Template
import RowAccess.Proofs.Text.Digit

/-
  RowAccess/Proofs/Sql/Direct.lean
  ================================
  **Statements that are read as they are meant.**  The slot of a test has a digit in its name and the
  slot of an entry, which is named after a column, has none.  So the slots of an update on known
  columns have different names, and nothing in its words is taken for a marker.
-/

namespace RowAccess.Sql

/-! ## Drafts without surprises -/

namespace Draft

/-- Words without markers, or a slot of one value. -/
def IsCalm : Piece → Prop
  | .words s => IsClean s
  | .single .. => True
  | .spread .. => False

theorem mem_of_mem_namedSlots {d : Draft} {before : List Label} {e : String × Piece}
    (h : e ∈ namedSlots d before) : e.2 ∈ d := by
  induction d generalizing before with
  | nil => cases h
  | cons p d ih =>
    rw [namedSlots] at h
    split at h
    · exact List.mem_cons_of_mem _ (ih h)
    · rcases List.mem_cons.1 h with rfl | h
      · exact List.mem_cons_self
      · exact List.mem_cons_of_mem _ (ih h)

theorem isPlain_of_nodup {d : Draft} (h : ∀ p ∈ d, IsCalm p)
    (hnames : (d.slots.map fun e => escaped e.1).Nodup) : d.isPlain = true := by
  refine isPlain_of_slots (fun s hs => h _ hs) hnames fun e he hlist => ?_
  have hcalm := h e.2 (mem_of_mem_namedSlots he)
  obtain ⟨n, p⟩ := e
  cases p with
  | words s => cases hlist
  | single l q v => cases hlist
  | spread l q vs => cases hcalm

end Draft

/-! ## Tests of a column -/

/-- Is what the operand puts into the statement free of markers? -/
def Operand.IsClean : Operand → Prop
  | .verbatim s => Sql.IsClean s
  | _ => True

theorem Operand.isCalm_piece {o : Operand} (h : o.IsClean) (l : Label) :
    Draft.IsCalm (o.piece l) := by
  cases o with
  | bound p v => exact trivial
  | verbatim s => exact h
  | truth b =>
    show Sql.IsClean (if b then "1" else "0")
    cases b <;> decide

/-- A test that a known column holds a value, or holds none. -/
inductive IsIdTest : Predicate → Prop
  | absent {c : String} (h : IsKnown c) : IsIdTest (.absent false c)
  | equal {c : String} {o : Operand} (h : IsKnown c) (ho : o.IsClean) :
      IsIdTest (.compare c .eq o)

namespace IsIdTest

variable {p : Predicate}

theorem isKnown (h : IsIdTest p) : IsKnown p.column := by
  cases h with
  | absent h => exact h
  | equal h => exact h

theorem isCalm (h : IsIdTest p) : ∀ q ∈ p.pieces, Draft.IsCalm q := by
  intro q hq
  cases h with
  | @absent c h =>
    obtain rfl := List.mem_singleton.1 hq
    show IsClean (Identifier.text c ++ " IS " ++ Predicate.notText false ++ "NULL")
    exact ((h.isClean.append (by decide)).append (by decide)).append (by decide)
  | @equal c o h ho =>
    rcases List.mem_cons.1 hq with rfl | hq
    · show IsClean (Identifier.text c ++ " " ++ Relation.eq.symbol ++ " ")
      exact ((h.isClean.append (by decide)).append (by decide)).append (by decide)
    · obtain rfl := List.mem_singleton.1 hq
      exact Operand.isCalm_piece ho _

/-- The only slot of the test, if it has one, has a digit in its name. -/
theorem namedSlots (h : IsIdTest p) (before : List Label) :
    Draft.namedSlots p.pieces before = [] ∨
      ∃ stem n q, Draft.namedSlots p.pieces before = [(stem ++ "_" ++ Text.decimal n, q)] := by
  cases h with
  | absent h => exact .inl rfl
  | equal h ho =>
    rename_i c o
    cases o with
    | bound q v => exact .inr ⟨_, _, _, rfl⟩
    | verbatim s => exact .inl rfl
    | truth b => exact .inl rfl

theorem nodup_slots (h : IsIdTest p) (before : List Label) :
    ((Draft.namedSlots p.pieces before).map fun e => Draft.escaped e.1).Nodup := by
  rcases h.namedSlots before with hslots | ⟨stem, n, q, hslots⟩
  · rw [hslots]
    exact List.nodup_nil
  · rw [hslots]
    exact List.nodup_cons.2 ⟨List.not_mem_nil, List.nodup_nil⟩

/-- Words without markers before the test keep it plain. -/
theorem isPlain (h : IsIdTest p) {front behind : String} (hfront : IsClean front)
    (hbehind : IsClean behind) :
    Draft.isPlain (.words front :: .words behind :: p.pieces) = true := by
  refine Draft.isPlain_of_nodup ?_ (h.nodup_slots [])
  intro q hq
  rcases List.mem_cons.1 hq with rfl | hq
  · exact hfront
  · rcases List.mem_cons.1 hq with rfl | hq
    · exact hbehind
    · exact h.isCalm q hq

end IsIdTest

/-! ## Names in the template -/

theorem IsKnown.ne_empty {name : String} (h : IsKnown name) : name ≠ "" := by
  rintro rfl
  obtain ⟨title, htitle, hsame⟩ := h
  have htitles : ∀ title ∈ knownTitles,
      Identifier.same title (Identifier.found "") = false := by decide
  rw [htitles title htitle] at hsame
  cases hsame

/-- A character changes in the template only where it could end or begin a marker. -/
theorem Draft.escapedChar_eq_or (c : Char) :
    escapedChar c = c ∨ c ∈ ['%', '(', ')', ':', '.', '[', ']', ' '] := by
  by_cases hmem : c ∈ ['%', '(', ')', ':', '.', '[', ']', ' ']
  · exact .inr hmem
  · simp only [List.mem_cons, List.not_mem_nil, or_false, not_or] at hmem
    exact .inl (by simp [escapedChar, hmem])

theorem IsKnown.escaped {name : String} (h : IsKnown name) : Draft.escaped name = name := by
  have hchars : name.toList.map Draft.escapedChar = name.toList := by
    refine (List.map_congr_left fun c hc => ?_).trans (List.map_id _)
    rcases Draft.escapedChar_eq_or c with heq | hmem
    · exact heq
    · have hmarks : ∀ d ∈ ['%', '(', ')', ':', '.', '[', ']', ' '], isLetter d = false ∧ d ≠ '\n' := by
        decide
      obtain ⟨hletter, hline⟩ := hmarks c hmem
      exact absurd rfl (h.ne_of_mem hc hletter hline)
  rw [Draft.escaped, hchars, String.ofList_toList]

/-- No known name is the name of a slot of a test. -/
theorem IsKnown.ne_numbered {name : String} (h : IsKnown name) (stem : String) (n : Nat) :
    Draft.escaped (stem ++ "_" ++ Text.decimal n) ≠ name := by
  obtain ⟨c, hc⟩ := List.exists_mem_of_ne_nil _ (Text.toDigits_ne_nil n)
  obtain ⟨d, hd, rfl⟩ := Text.mem_toDigits hc
  have hdigits : ∀ d < 10, isLetter d.digitChar = false ∧ d.digitChar ≠ '\n' ∧
      Draft.escapedChar d.digitChar = d.digitChar := by decide
  obtain ⟨hletter, hline, hescaped⟩ := hdigits d hd
  intro heq
  refine h.ne_of_mem (c := d.digitChar) ?_ hletter hline rfl
  rw [← heq, Draft.escaped, String.toList_ofList, ← hescaped]
  refine List.mem_map_of_mem ?_
  rw [String.toList_append]
  exact List.mem_append_right _ (by rwa [Text.decimal, String.toList_ofList])

/-! ## Entries -/

/-- Entries of different known columns, whose operands are free of markers. -/
structure AreKnown (entries : List (String × Operand)) : Prop where
  known : ∀ e ∈ entries, IsKnown e.1
  clean : ∀ e ∈ entries, e.2.IsClean
  nodup : (entries.map (·.1)).Nodup

namespace AreKnown

variable {entries : List (String × Operand)}

theorem entryPieces_cons (before : String → String) (e e' : String × Operand) :
    entryPieces before (e :: e' :: entries) =
      .words (before e.1) :: e.2.piece (.entry e.1) :: .words ", " ::
        entryPieces before (e' :: entries) := rfl

/-- The slots of entries, one for every value. -/
def slots (entries : List (String × Operand)) : List (String × Piece) :=
  (entries.filter fun e => e.2.isBound).map fun e => (e.1, e.2.piece (.entry e.1))

theorem mem_entryPieces {before : String → String} {p : Piece}
    (h : p ∈ entryPieces before entries) :
    p = .words ", " ∨ ∃ e ∈ entries, p = .words (before e.1) ∨ p = e.2.piece (.entry e.1) := by
  induction entries with
  | nil => cases h
  | cons e rest ih =>
    have hrest (hmem : p ∈ entryPieces before rest) : p = .words ", " ∨ ∃ e' ∈ e :: rest,
        p = .words (before e'.1) ∨ p = e'.2.piece (.entry e'.1) := by
      rcases ih hmem with h | ⟨e', he', h⟩
      · exact .inl h
      · exact .inr ⟨e', List.mem_cons_of_mem _ he', h⟩
    cases rest with
    | nil =>
      simp only [entryPieces, List.mem_cons, List.not_mem_nil, or_false] at h
      exact .inr ⟨e, List.mem_cons_self, h⟩
    | cons e' rest =>
      rw [entryPieces_cons, List.mem_cons, List.mem_cons, List.mem_cons] at h
      rcases h with h | h | h | h
      · exact .inr ⟨e, List.mem_cons_self, .inl h⟩
      · exact .inr ⟨e, List.mem_cons_self, .inr h⟩
      · exact .inl h
      · exact hrest h

theorem label?_entry {c : String} (hc : c ≠ "") (q : Preparation) (v : Value) :
    (Piece.single (.entry c) q v).label? = some (.entry c) := by
  unfold Piece.label?
  split
  · next h => cases h
  · next h =>
    cases h
    exact absurd rfl hc
  · next h =>
    cases h
    rfl
  · next h => cases h

/-- An entry leaves a slot if it is a value. -/
theorem namedSlots_entry {e : String × Operand} (he : e.1 ≠ "") (s : String) (d : Draft)
    (labels : List Label) :
    ∃ labels', Draft.namedSlots (.words s :: e.2.piece (.entry e.1) :: d) labels =
      slots [e] ++ Draft.namedSlots d labels' := by
  obtain ⟨c, o⟩ := e
  cases o with
  | bound q v =>
    have hlabel : (Operand.piece (.entry c) (.bound q v)).label? = some (.entry c) :=
      label?_entry he q v
    refine ⟨.entry c :: labels, ?_⟩
    rw [Draft.namedSlots, Piece.label?, Draft.namedSlots, hlabel]
    rfl
  | verbatim t => exact ⟨labels, rfl⟩
  | truth b => exact ⟨labels, rfl⟩

theorem namedSlots_pieces (hknown : ∀ e ∈ entries, IsKnown e.1) (before : String → String)
    (d : Draft) (labels : List Label) :
    ∃ labels', Draft.namedSlots (entryPieces before entries ++ d) labels =
        slots entries ++ Draft.namedSlots d labels' := by
  induction entries generalizing labels with
  | nil => exact ⟨labels, rfl⟩
  | cons e rest ih =>
    have he : e.1 ≠ "" := (hknown e List.mem_cons_self).ne_empty
    have hrest := ih fun e' he' => hknown e' (List.mem_cons_of_mem _ he')
    have hslots : slots (e :: rest) = slots [e] ++ slots rest := by
      rw [slots, ← List.singleton_append, List.filter_append, List.map_append, ← slots, ← slots]
    cases rest with
    | nil => exact namedSlots_entry he _ d labels
    | cons e' rest =>
      obtain ⟨labels₁, h₁⟩ := namedSlots_entry he (before e.1)
        (.words ", " :: (entryPieces before (e' :: rest) ++ d)) labels
      obtain ⟨labels₂, h₂⟩ := hrest labels₁
      refine ⟨labels₂, ?_⟩
      rw [hslots, List.append_assoc, ← h₂]
      exact h₁

/-- The slots of entries of known columns keep their names in the template, and no two have one. -/
theorem map_escaped_slots (h : AreKnown entries) :
    (slots entries).map (fun e => Draft.escaped e.1) =
      (entries.filter fun e => e.2.isBound).map (·.1) := by
  rw [slots, List.map_map]
  refine List.map_congr_left fun e he => ?_
  exact (h.known e (List.mem_filter.1 he).1).escaped

theorem nodup_bound (h : AreKnown entries) :
    ((entries.filter fun e => e.2.isBound).map (·.1)).Nodup :=
  h.nodup.sublist (List.filter_sublist.map _)

theorem any_isEmpty (h : AreKnown entries) : (entries.any fun e => e.1.isEmpty) = false := by
  rw [List.any_eq_false]
  intro e he hempty
  exact (h.known e he).ne_empty (by simpa using hempty)

theorem all_isReadable (h : AreKnown entries) :
    (entries.map (·.1)).all Statement.isReadable = true := by
  refine List.all_eq_true.2 fun name hname => ?_
  obtain ⟨e, he, rfl⟩ := List.mem_map.1 hname
  exact (h.known e he).isReadable

end AreKnown

/-! ## Statements -/

namespace Statement

variable {table : TableName} {entries : List (String × Operand)} {p : Predicate}

theorem areReadable_table (htable : table.target.isItems = true) :
    table.names.all isReadable = true :=
  List.all_eq_true.2 fun name hname => (isKnown_table htable name hname).isReadable

/-- The words of an insertion behind its values. -/
def endPieces (returning : Option String) : Draft :=
  match returning with
  | none => []
  | some c => [.words (" RETURNING " ++ Identifier.text c)]

theorem draft_insert {returning : Option String} : (insert table entries returning).draft =
    (if entries.isEmpty then [.words ("INSERT INTO " ++ table.text ++ " DEFAULT VALUES")]
      else .words ("INSERT INTO " ++ table.text ++ " (" ++
        ", ".intercalate (entries.map fun (c, _) => Identifier.text c) ++ ") VALUES (") ::
          entryPieces (fun _ => "") entries ++ [.words ")"]) ++ endPieces returning := rfl

theorem draft_whole : (select (.whole table p)).draft =
    .words ("SELECT " ++ "*" ++ " \nFROM " ++ table.text) :: .words " \nWHERE " :: p.pieces := by
  simp [draft, Selection.draft, Selection.whole, Columns.text, Condition.pieces, Condition.words,
    Word.pieces]

theorem isPlain_select (htable : table.target.isItems = true) (hp : IsIdTest p) :
    (select (.whole table p)).draft.isPlain = true := by
  rw [draft_whole]
  exact hp.isPlain (.append (by decide) (isClean_table htable)) (by decide)

theorem isPlain_delete (htable : table.target.isItems = true) (hp : IsIdTest p) :
    (delete table (some p)).draft.isPlain = true := by
  have hfront : IsClean ("DELETE FROM " ++ table.text) :=
    .append (by decide) (isClean_table htable)
  have hbehind : IsClean " WHERE " := by decide
  exact hp.isPlain hfront hbehind

theorem nodup_slots_update (hentries : AreKnown entries) (hp : IsIdTest p) :
    ((update table entries p).draft.slots.map fun e => Draft.escaped e.1).Nodup := by
  obtain ⟨labels, hslots⟩ := AreKnown.namedSlots_pieces hentries.known
    (fun c => Identifier.text c ++ "=") (.words " WHERE " :: p.pieces) []
  have hdraft : (update table entries p).draft.slots =
      AreKnown.slots entries ++ Draft.namedSlots p.pieces labels := hslots
  rw [hdraft, List.map_append, hentries.map_escaped_slots]
  refine List.nodup_append.2 ⟨hentries.nodup_bound, hp.nodup_slots labels, ?_⟩
  intro name hname slot hslot
  obtain ⟨e, he, rfl⟩ := List.mem_map.1 hname
  have hknown := hentries.known e (List.mem_filter.1 he).1
  rcases hp.namedSlots labels with hnone | ⟨stem, n, q, hone⟩
  · rw [hnone] at hslot
    cases hslot
  · rw [hone] at hslot
    rw [List.mem_singleton.1 hslot]
    exact (hknown.ne_numbered stem n).symm

theorem isPlain_update (htable : table.target.isItems = true) (hentries : AreKnown entries)
    (hp : IsIdTest p) : (update table entries p).draft.isPlain = true := by
  have hwords : IsClean ("UPDATE " ++ table.text ++ " SET ") :=
    .append (.append (by decide) (isClean_table htable)) (by decide)
  refine Draft.isPlain_of_nodup ?_ (nodup_slots_update hentries hp)
  intro q hq
  rcases List.mem_cons.1 hq with rfl | hq
  · exact hwords
  rcases List.mem_append.1 hq with hq | hq
  · rcases AreKnown.mem_entryPieces hq with rfl | ⟨e, he, rfl | rfl⟩
    · show IsClean ", "
      decide
    · exact (hentries.known e he).isClean.append (by decide)
    · exact Operand.isCalm_piece (hentries.clean e he) _
  · rcases List.mem_cons.1 hq with rfl | hq
    · show IsClean " WHERE "
      decide
    · exact hp.isCalm q hq

/-! ### Statements of values -/

theorem isDirect_select (htable : table.target.isItems = true) (hp : IsIdTest p)
    (hdirect : p.isDirect = true) : (select (.whole table p)).isDirect = true := by
  have hnames : (select (.whole table p)).names = table.names ++ [p.column] := by
    simp [names, Selection.whole, Columns.names, Condition.predicates]
  have hform : (select (.whole table p)).hasForm = true := by
    simp [hasForm, Selection.whole, Condition.predicates, hdirect]
  rw [isDirect, hform, hnames, List.all_append, areReadable_table htable,
    isPlain_select htable hp]
  simp [hp.isKnown.isReadable]

theorem isDirect_delete (htable : table.target.isItems = true) (hp : IsIdTest p)
    (hdirect : p.isDirect = true) : (delete table (some p)).isDirect = true := by
  have hnames : (delete table (some p)).names = table.names ++ [p.column] := rfl
  have hform : (delete table (some p)).hasForm = true := hdirect
  rw [isDirect, hform, hnames, List.all_append, areReadable_table htable,
    isPlain_delete htable hp]
  simp [hp.isKnown.isReadable]

theorem isDirect_update (htable : table.target.isItems = true) (hentries : AreKnown entries)
    (hp : IsIdTest p) (hne : entries ≠ []) (hbound : areDirect entries = true)
    (hdirect : p.isDirect = true) : (update table entries p).isDirect = true := by
  have hnames : (update table entries p).names =
      table.names ++ entries.map (·.1) ++ [p.column] := rfl
  have hform : (update table entries p).hasForm = true := by
    simp only [hasForm, hbound, hdirect, hentries.any_isEmpty, Bool.not_false, Bool.and_true]
    simpa using hne
  rw [isDirect, hform, hnames, List.all_append, List.all_append, areReadable_table htable,
    hentries.all_isReadable, isPlain_update htable hentries hp]
  simp [hp.isKnown.isReadable]

end Statement

end RowAccess.Sql
