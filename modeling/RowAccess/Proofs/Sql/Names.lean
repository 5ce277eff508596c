import RowAccess.Proofs.Text.Blank
import RowAccess.Sql.Statement

/-
  RowAccess/Proofs/Sql/Names.lean
  ===============================
  **Names that the engine knows.**  The table, its schema and its columns have names of letters and
  underscores, whatever their case.  A statement that names nothing else holds no marker in its words,
  and its names are found as they are written.
-/

namespace RowAccess.Sql

/-! ## Known names -/

def knownTitles : List String :=
  ItemColumn.all.map ItemColumn.title ++ ItemColumn.rowNames ++ [itemsTitle, mainSchema]

/-- Is what a reader of the statement finds for a name the name of the table, of its schema or of a
column? -/
def IsKnown (name : String) : Prop :=
  ∃ title ∈ knownTitles, Identifier.same title (Identifier.found name) = true

/-- The name of a column is a title, whatever its case. -/
theorem exists_title {name : String} (h : (ItemColumn.find? name).isSome = true) :
    ∃ title ∈ knownTitles, Identifier.same title name = true := by
  unfold ItemColumn.find? at h
  split at h
  · next c hc =>
    refine ⟨c.title, ?_, ?_⟩
    · cases c <;> decide
    · exact List.find?_some (p := fun c : ItemColumn => Identifier.same c.title name) hc
  · split at h
    · next hrow =>
      obtain ⟨title, htitle, hsame⟩ := List.any_eq_true.1 hrow
      refine ⟨title, ?_, ?_⟩
      · exact List.mem_append_left _ (List.mem_append_right _ htitle)
      · rw [Identifier.same, beq_iff_eq] at hsame ⊢
        exact hsame.symm
    · cases h

theorem isKnown_column {name : String}
    (h : (ItemColumn.find? (Identifier.found name)).isSome = true) : IsKnown name :=
  exists_title h

theorem isKnown_of_same {name title : String} (htitle : title ∈ knownTitles)
    (h : Identifier.same (Identifier.found name) title = true) : IsKnown name := by
  refine ⟨title, htitle, ?_⟩
  rw [Identifier.same, beq_iff_eq] at h ⊢
  exact h.symm

theorem isKnown_table {table : TableName} (h : table.target.isItems = true) :
    ∀ name ∈ table.names, IsKnown name := by
  rw [Target.isItems, Bool.and_eq_true] at h
  obtain ⟨hname, hschema⟩ := h
  intro name hmem
  rcases List.mem_append.1 hmem with hmem | hmem
  · rw [Option.mem_toList] at hmem
    simp only [TableName.target, hmem, Option.map_some] at hschema
    exact isKnown_of_same (by decide) hschema
  · obtain rfl := List.mem_singleton.1 hmem
    exact isKnown_of_same (by decide) hname

/-! ## Characters of names -/

def isLetter (c : Char) : Bool :=
  c.isAlpha || c == '_'

theorem isLetter_of_toLower {c : Char} (h : isLetter c.toLower = true) : isLetter c = true := by
  unfold Char.toLower at h
  split at h
  · next hupper =>
    have hcapital : c.isUpper = true := decide_eq_true hupper
    have halpha : (c.isUpper || c.isLower) = true := by rw [hcapital, Bool.true_or]
    exact Bool.or_eq_true_iff.2 (.inl halpha)
  · exact h

theorem isLetter_of_same {name title : String} (htitle : title ∈ knownTitles)
    (hsame : Identifier.same title name = true) {c : Char} (hc : c ∈ name.toList) :
    isLetter c = true := by
  have htitles : ∀ title ∈ knownTitles, ∀ d ∈ title.toList.map Char.toLower, isLetter d = true := by
    decide
  refine isLetter_of_toLower (htitles title htitle _ ?_)
  rw [beq_iff_eq.1 hsame]
  exact List.mem_map_of_mem hc

namespace IsKnown

variable {name : String}

theorem isLetter_found (h : IsKnown name) {c : Char} (hc : c ∈ (Identifier.found name).toList) :
    isLetter c = true := by
  obtain ⟨title, htitle, hsame⟩ := h
  exact isLetter_of_same htitle hsame hc

/-- A name is found as it is written, but for a line feed at its end. -/
theorem toList_name (name : String) :
    Identifier.found name = name ∨
      Identifier.isPlain name = true ∧ name.toList = (Identifier.found name).toList ++ ['\n'] := by
  unfold Identifier.found
  split
  · next hplain =>
    unfold Identifier.body
    split
    · next r hr =>
      refine .inr ⟨hplain, ?_⟩
      rw [String.toList_ofList, ← List.reverse_cons, ← hr, List.reverse_reverse]
    · exact .inl (String.ofList_toList)
  · exact .inl rfl

theorem isLetter_or (h : IsKnown name) {c : Char} (hc : c ∈ name.toList) :
    isLetter c = true ∨ c = '\n' := by
  rcases toList_name name with hname | ⟨-, hname⟩
  · rw [← hname] at hc
    exact .inl (h.isLetter_found hc)
  · rw [hname] at hc
    rcases List.mem_append.1 hc with hc | hc
    · exact .inl (h.isLetter_found hc)
    · exact .inr (List.mem_singleton.1 hc)

theorem ne_of_mem (h : IsKnown name) {c d : Char} (hc : c ∈ name.toList)
    (hd : isLetter d = false) (hline : d ≠ '\n') : c ≠ d := by
  rintro rfl
  rcases h.isLetter_or hc with hletter | hc
  · rw [hd] at hletter
    cases hletter
  · exact hline hc

theorem isReadable (h : IsKnown name) : Statement.isReadable name = true := by
  rw [Statement.isReadable, Bool.and_eq_true]
  constructor
  · by_cases hword : name ∈ Statement.engineWords
    · obtain ⟨title, htitle, hsame⟩ := h
      have hwords : ∀ name ∈ Statement.engineWords, ∀ title ∈ knownTitles,
          Identifier.same title (Identifier.found name) = false := by decide
      rw [hwords name hword title htitle] at hsame
      cases hsame
    · simpa using hword
  · refine List.all_eq_true.2 fun c hc => bne_iff_ne.2 fun hzero => ?_
    refine h.ne_of_mem (d := Char.ofNat 0) hc (by decide) (by decide) ?_
    rw [← hzero, Char.ofNat_toNat]

end IsKnown

/-- The name of a column, whatever its case, is found as it is written. -/
theorem found_of_find? {name : String} {column : ItemColumn}
    (h : ItemColumn.find? name = some column) : Identifier.found name = name := by
  rcases IsKnown.toList_name name with hfound | ⟨-, hline⟩
  · exact hfound
  · obtain ⟨title, htitle, hsame⟩ := exists_title (Option.isSome_of_eq_some h)
    have hletter : isLetter '\n' = true := by
      refine isLetter_of_same htitle hsame ?_
      rw [hline]
      exact List.mem_append_right _ List.mem_cons_self
    cases hletter

theorem find?_found {name : String} {column : ItemColumn}
    (h : ItemColumn.find? name = some column) :
    ItemColumn.find? (Identifier.found name) = some column := by
  rwa [found_of_find? h]

theorem isKnown_of_find? {name : String} {column : ItemColumn}
    (h : ItemColumn.find? name = some column) : IsKnown name :=
  isKnown_column (Option.isSome_of_eq_some (find?_found h))

/-! ## Words without markers -/

/-- Does the text hold none of the characters that begin a marker? -/
def IsClean (s : String) : Prop :=
  '%' ∉ s.toList ∧ '[' ∉ s.toList

instance (s : String) : Decidable (IsClean s) :=
  inferInstanceAs (Decidable (_ ∧ _))

namespace IsClean

theorem append {s t : String} (hs : IsClean s) (ht : IsClean t) : IsClean (s ++ t) := by
  rw [IsClean, String.toList_append, List.mem_append, List.mem_append]
  exact ⟨fun h => h.elim hs.1 ht.1, fun h => h.elim hs.2 ht.2⟩

end IsClean

theorem Identifier.mem_text {name : String} {c : Char} (h : c ∈ (Identifier.text name).toList) :
    c ∈ name.toList ∨ c = '"' := by
  unfold Identifier.text at h
  split at h
  · exact .inl h
  · simp only [Identifier.quoted, String.toList_append, String.toList_ofList, List.mem_append,
      List.mem_flatMap] at h
    rcases h with (h | ⟨d, hd, h⟩) | h
    · exact .inr (by simpa using h)
    · split at h
      · exact .inr (by simpa using h)
      · rw [List.mem_singleton] at h
        exact .inl (h ▸ hd)
    · exact .inr (by simpa using h)

/-- Only letters, a line feed and quotes stand in the text of a known name. -/
theorem IsKnown.not_mem_text {name : String} (h : IsKnown name) {d : Char}
    (hd : isLetter d = false) (hmarks : d ∉ ['\n', '"']) : d ∉ (Identifier.text name).toList := by
  simp only [List.mem_cons, List.not_mem_nil, or_false, not_or] at hmarks
  intro hmem
  rcases Identifier.mem_text hmem with hmem | hquote
  · exact h.ne_of_mem hmem hd hmarks.1 rfl
  · exact hmarks.2 hquote

theorem not_mem_table {table : TableName} (h : table.target.isItems = true) {d : Char}
    (hd : isLetter d = false) (hmarks : d ∉ ['\n', '"', '.']) : d ∉ table.text.toList := by
  have hknown := isKnown_table h
  have hname : d ∉ (Identifier.text table.name).toList :=
    (hknown _ (List.mem_append_right _ List.mem_cons_self)).not_mem_text hd (by
      simp only [List.mem_cons, List.not_mem_nil, or_false, not_or] at hmarks ⊢
      exact ⟨hmarks.1, hmarks.2.1⟩)
  unfold TableName.text
  split
  · exact hname
  · next s hs =>
    have hschema : d ∉ (Identifier.text s).toList :=
      (hknown s (List.mem_append_left _ (by simp [hs]))).not_mem_text hd (by
        simp only [List.mem_cons, List.not_mem_nil, or_false, not_or] at hmarks ⊢
        exact ⟨hmarks.1, hmarks.2.1⟩)
    have hpoint : d ∉ ".".toList := by
      intro hmem
      obtain rfl := List.mem_singleton.1 hmem
      exact absurd hmarks (by decide)
    simp only [String.toList_append, List.mem_append, not_or]
    exact ⟨⟨hschema, hpoint⟩, hname⟩

theorem IsKnown.isClean {name : String} (h : IsKnown name) : IsClean (Identifier.text name) :=
  ⟨h.not_mem_text (by decide) (by decide), h.not_mem_text (by decide) (by decide)⟩

theorem isClean_table {table : TableName} (h : table.target.isItems = true) :
    IsClean table.text :=
  ⟨not_mem_table h (by decide) (by decide), not_mem_table h (by decide) (by decide)⟩

/-! ## Texts without a null character -/

/-- Is there no null character in the text? -/
def IsWhole (s : String) : Prop :=
  Char.ofNat 0 ∉ s.toList

instance (s : String) : Decidable (IsWhole s) :=
  inferInstanceAs (Decidable (_ ∉ _))

theorem IsWhole.append {s t : String} (hs : IsWhole s) (ht : IsWhole t) : IsWhole (s ++ t) := by
  rw [IsWhole, String.toList_append, List.mem_append]
  exact fun h => h.elim hs ht

theorem IsWhole.any_eq_false {s : String} (h : IsWhole s) :
    (s.toList.any fun c => c.toNat = 0) = false := by
  rw [List.any_eq_false]
  intro c hc hzero
  have hchar : c = Char.ofNat 0 := by
    rw [← of_decide_eq_true hzero, Char.ofNat_toNat]
  exact h (hchar ▸ hc)

theorem Draft.isWhole_text {d : Draft} (h : ∀ p ∈ d, IsWhole p.text) : IsWhole d.text := by
  rw [IsWhole, text, String.toList_join, List.mem_flatMap]
  rintro ⟨s, hs, hmem⟩
  obtain ⟨p, hp, rfl⟩ := List.mem_map.1 hs
  exact h p hp hmem

theorem IsKnown.isWhole {name : String} (h : IsKnown name) : IsWhole (Identifier.text name) :=
  h.not_mem_text (by decide) (by decide)

theorem isWhole_table {table : TableName} (h : table.target.isItems = true) :
    IsWhole table.text :=
  not_mem_table h (by decide) (by decide)

end RowAccess.Sql
