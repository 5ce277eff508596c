import RowAccess.Proofs.Sql.Database

/-
  RowAccess/Proofs/Sql/TextTest.lean
  ==================================
  **Reads that test one column by texts.**  A comparison, a membership or a range of nothing but texts
  that travel beside the statement has slots that are named after the letters of its column and a
  number, so that no marker is misread (`IsTextTest.isPlain`).  Such a read, where it succeeds, shows
  the rows that pass (`run_textTest`).
-/

namespace RowAccess.Sql

open Outcome

/-! ## Names of slots -/

theorem isBlank_of_isLetter {c : Char} (h : isLetter c = true) : Text.isBlank c = false := by
  have hletter : (65 ≤ c.toNat ∧ c.toNat ≤ 90 ∨ 97 ≤ c.toNat ∧ c.toNat ≤ 122) ∨ c.toNat = 95 := by
    rw [isLetter, Bool.or_eq_true, beq_iff_eq] at h
    rcases h with h | rfl
    · have hcase : (c.isUpper || c.isLower) = true := h
      rcases Bool.or_eq_true_iff.1 hcase with hupper | hlower
      · have hbounds : c.val ≥ 65 ∧ c.val ≤ 90 := of_decide_eq_true hupper
        exact .inl (.inl hbounds)
      · have hbounds : (decide (c.val ≥ 97) && decide (c.val ≤ 122)) = true := hlower
        rw [Bool.and_eq_true] at hbounds
        exact .inl (.inr ⟨of_decide_eq_true hbounds.1, of_decide_eq_true hbounds.2⟩)
    · exact .inr rfl
  simp only [Text.isBlank, Bool.or_eq_false_iff, Bool.and_eq_false_iff, beq_eq_false_iff_ne,
    decide_eq_false_iff_not]
  omega

namespace Label

theorem mem_joined {within : Bool} {cs : List Char} {c : Char} (h : c ∈ joined within cs) :
    c ∈ cs ∨ c = '_' := by
  induction cs generalizing within with
  | nil => cases h
  | cons d cs ih =>
    have hrest (b : Bool) (h : c ∈ joined b cs) : c ∈ d :: cs ∨ c = '_' :=
      (ih h).imp_left (List.mem_cons_of_mem d)
    rw [joined] at h
    split at h
    · split at h
      · exact hrest true h
      · rcases List.mem_cons.1 h with h | h
        · exact .inr h
        · exact hrest true h
    · rcases List.mem_cons.1 h with rfl | h
      · exact .inl List.mem_cons_self
      · exact hrest false h

theorem stripped_subset (cs : List Char) : stripped cs ⊆ cs := by
  intro c hc
  have hback := (List.dropWhile_suffix _).subset (List.mem_reverse.1 hc)
  exact (List.dropWhile_suffix _).subset (List.mem_reverse.1 hback)

end Label

/-- The stem of the names of the slots that test a column. -/
def stemOf (column : String) : String :=
  String.ofList (Label.stripped (Label.joined false column.toList))

/-- The name of the slot that comes after so many others of its column. -/
def slotName (column : String) (before : Nat) : String :=
  stemOf column ++ "_" ++ Text.decimal (before + 1)

/-- The name of the slot of a known column holds no blank and nothing that ends the name of a list. -/
theorem isListName_slotName {c : String} {column : ItemColumn}
    (hc : ItemColumn.find? c = some column) (n : Nat) :
    Draft.IsListName (Draft.escaped (slotName c n)).toList := by
  obtain ⟨title, htitle, hsame⟩ := exists_title (Option.isSome_of_eq_some hc)
  have hletters : ∀ d ∈ (stemOf c).toList, isLetter d = true := by
    intro d hd
    rw [stemOf, String.toList_ofList] at hd
    rcases Label.mem_joined (Label.stripped_subset _ hd) with hd | rfl
    · exact isLetter_of_same htitle hsame hd
    · rfl
  have hletter (d : Char) (hd : isLetter d = true) : Text.isBlank (Draft.escapedChar d) = false ∧
      Draft.escapedChar d ≠ '~' ∧ Draft.escapedChar d ≠ ']' := by
    have hne (e : Char) (he : isLetter e = false) : d ≠ e := by
      rintro rfl
      rw [hd] at he
      cases he
    rcases Draft.escapedChar_eq_or d with heq | hmark
    · rw [heq]
      exact ⟨isBlank_of_isLetter hd, hne '~' rfl, hne ']' rfl⟩
    · have hmarks : ∀ d ∈ ['%', '(', ')', ':', '.', '[', ']', ' '], isLetter d = false := by decide
      exact absurd rfl (hne d (hmarks d hmark))
  have hdigits : ∀ d < 10, Text.isBlank (Draft.escapedChar d.digitChar) = false ∧
      Draft.escapedChar d.digitChar ≠ '~' ∧ Draft.escapedChar d.digitChar ≠ ']' := by decide
  rw [Draft.toList_escaped, slotName, String.toList_append, String.toList_append]
  refine ⟨by simp, ?_⟩
  intro e he
  obtain ⟨d, hd, rfl⟩ := List.mem_map.1 he
  rcases List.mem_append.1 hd with hd | hd
  · rcases List.mem_append.1 hd with hd | hd
    · exact hletter d (hletters d hd)
    · rw [List.mem_singleton.1 hd]
      decide
  · rw [Text.toList_decimal] at hd
    obtain ⟨n, hn, rfl⟩ := Text.mem_toDigits hd
    exact hdigits n hn

/-- The two slots of a range have two names. -/
theorem slotName_ne (c : String) :
    Draft.escaped (slotName c 0) ≠ Draft.escaped (slotName c 1) := by
  intro h
  have hlast := congrArg (fun s => s.toList.getLast?) h
  simp only [Draft.toList_escaped, slotName, String.toList_append, List.map_append] at hlast
  have hfirst : (Text.decimal (0 + 1)).toList.map Draft.escapedChar = ['1'] := rfl
  have hsecond : (Text.decimal (1 + 1)).toList.map Draft.escapedChar = ['2'] := rfl
  rw [hfirst, hsecond, List.getLast?_concat, List.getLast?_concat] at hlast
  cases hlast

/-! ## Tests -/

/-- A test of a column by texts that travel beside the statement. -/
inductive IsTextTest (c : String) : Predicate → Prop
  | compare (r : Relation) (s : String) : IsTextTest c (.compare c r (.bound .plain (.text s)))
  | oneOf (negated : Bool) (s : String) (texts : List String) :
    IsTextTest c (.oneOf negated c (.together .plain ((s :: texts).map .text)))
  | between (negated : Bool) (low high : String) :
    IsTextTest c (.between negated c (.bound .plain (.text low)) (.bound .plain (.text high)))

namespace IsTextTest

variable {c : String} {p : Predicate}

theorem column (h : IsTextTest c p) : p.column = c := by
  cases h <;> rfl

theorem isDirect (h : IsTextTest c p) : p.isDirect = true := by
  cases h <;> rfl

theorem negate (h : IsTextTest c p) : IsTextTest c p.negate := by
  cases h with
  | compare r s => exact .compare _ s
  | oneOf n s texts => exact .oneOf _ s texts
  | between n low high => exact .between _ low high

/-- The words of a test of a known column hold no marker. -/
theorem isClean_words (h : IsTextTest c p) (hc : IsKnown c) :
    ∀ s, Piece.words s ∈ p.pieces → IsClean s := by
  have hname := hc.isClean
  cases h with
  | compare r s =>
    have hwords : IsClean (Identifier.text c ++ " " ++ r.symbol ++ " ") :=
      ((hname.append (by decide)).append (by cases r <;> decide)).append (by decide)
    intro s hs
    simp only [Predicate.pieces, Operand.piece, List.mem_cons, List.not_mem_nil, Piece.words.injEq,
      reduceCtorEq, or_false] at hs
    rw [hs]
    exact hwords
  | oneOf n s texts =>
    have hfront : IsClean ((if n then "(" else "") ++ Identifier.text c ++ " " ++
        Predicate.notText n ++ "IN (") := by
      refine .append (.append (.append (.append ?_ hname) (by decide)) ?_) (by decide)
      · cases n <;> decide
      · cases n <;> decide
    have hend : IsClean (if n then "))" else ")") := by
      cases n <;> decide
    intro s hs
    simp only [Predicate.pieces, Choices.pieces, List.cons_append, List.nil_append, List.mem_cons,
      List.not_mem_nil, Piece.words.injEq, reduceCtorEq, false_or, or_false] at hs
    rcases hs with rfl | rfl
    · exact hfront
    · exact hend
  | between n low high =>
    have hfront : IsClean (Identifier.text c ++ " " ++ Predicate.notText n ++ "BETWEEN ") :=
      ((hname.append (by decide)).append (by cases n <;> decide)).append (by decide)
    intro s hs
    simp only [Predicate.pieces, Operand.piece, List.mem_cons, List.not_mem_nil, Piece.words.injEq,
      reduceCtorEq, false_or, or_false] at hs
    rcases hs with rfl | rfl
    · exact hfront
    · decide

variable {column : ItemColumn} (hc : ItemColumn.find? c = some column)

include hc

/-- No marker in a read with such a test is misread. -/
theorem isPlain (h : IsTextTest c p) {front behind : String} (hfront : IsClean front)
    (hbehind : IsClean behind) :
    Draft.isPlain (.words front :: .words behind :: p.pieces) = true := by
  have hknown : IsKnown c := isKnown_of_find? hc
  have hwords : ∀ s, Piece.words s ∈ .words front :: .words behind :: p.pieces → IsClean s := by
    intro s hs
    rcases List.mem_cons.1 hs with heq | hs
    · cases heq
      exact hfront
    rcases List.mem_cons.1 hs with heq | hs
    · cases heq
      exact hbehind
    · exact h.isClean_words hknown s hs
  cases h with
  | compare r s =>
    refine Draft.isPlain_of_slots hwords (List.pairwise_singleton _ _) ?_
    intro e he hlist
    obtain rfl := List.mem_singleton.1 he
    cases hlist
  | oneOf n s texts =>
    refine Draft.isPlain_of_slots hwords (List.pairwise_singleton _ _) ?_
    intro e he _
    obtain rfl := List.mem_singleton.1 he
    exact isListName_slotName hc 0
  | between n low high =>
    have hslots : Draft.slots (.words front :: .words behind :: (Predicate.between n c
        (.bound .plain (.text low)) (.bound .plain (.text high))).pieces) =
          [(slotName c 0, .single (.ofColumn c) .plain (.text low)),
            (slotName c 1, .single (.ofColumn c) .plain (.text high))] := by
      show [((Label.ofColumn c).named 0, _),
        ((Label.ofColumn c).named (List.count _ [Label.ofColumn c]), _)] = _
      rw [List.count_singleton_self]
      rfl
    refine Draft.isPlain_of_slots hwords ?_ ?_
    · rw [hslots]
      simpa using slotName_ne c
    · rw [hslots]
      intro e he hlist
      simp only [List.mem_cons, List.not_mem_nil, or_false] at he
      rcases he with rfl | rfl <;> cases hlist

theorem isDirect_select (h : IsTextTest c p) {table : TableName}
    (htable : table.target.isItems = true) :
    (Statement.select (.whole table p)).isDirect = true := by
  have hknown : IsKnown c := isKnown_of_find? hc
  have hnames : (Statement.select (.whole table p)).names = table.names ++ [c] := by
    simp [Statement.names, Selection.whole, Columns.names, Condition.predicates, h.column]
  have hform : (Statement.select (.whole table p)).hasForm = true := by
    simp [Statement.hasForm, Selection.whole, Condition.predicates, h.isDirect]
  have hplain : (Statement.select (.whole table p)).draft.isPlain = true := by
    rw [Statement.draft_whole]
    exact h.isPlain hc (.append (by decide) (isClean_table htable)) (by decide)
  rw [Statement.isDirect, hform, hnames, hplain, List.all_append, Statement.areReadable_table htable]
  simp [hknown.isReadable]

end IsTextTest

/-! ## Reads -/

/-- **A read by the texts of one column**, where it succeeds, leaves the table as it is and shows the
rows that pass its test. -/
theorem run_textTest {backendSchema : Option String} {d d' : Database} {table v : Value}
    {starter : Starter} {c : String} {p : Predicate} {column : ItemColumn}
    (htable : (tableName backendSchema table).target.isItems = true)
    (hc : ItemColumn.find? c = some column) (hp : Predicate.ofClause starter.clause = .ok p)
    (htest : IsTextTest c p)
    (h : d.run backendSchema (.filteredScan table [.starter starter]) = (.ok v, d')) :
    d'.items = d.items ∧
      v = .list ((d.items.rows.filter
        (passes (some (if starter.kind.isNegated then p.negate else p).expr))).map
          fun i => .object i.fields) := by
  obtain ⟨s, sent, answer, hs, hprepared, hrun, hanswer⟩ := Database.run_eq_ok h
  obtain ⟨p', hp', rfl⟩ := ofOperation_starter (Statement.ofOperation_of_built hs)
  cases hp.symm.trans hp'
  have hkind : IsTextTest c (if starter.kind.isNegated then p.negate else p) := by
    split
    · exact htest.negate
    · exact htest
  have hrun := runStatement_eq_ok rfl hrun
  rw [if_pos (hkind.isDirect_select hc htable)] at hrun
  obtain ⟨hitems, rfl⟩ := run_select hrun
  have hrows := rowsValue_columns (.filteredScan table [.starter starter])
    (d.items.rows.filter
      (passes (some (if starter.kind.isNegated then p.negate else p).expr)))
  exact ⟨hitems, Except.ok.inj (hanswer.symm.trans hrows)⟩

end RowAccess.Sql
