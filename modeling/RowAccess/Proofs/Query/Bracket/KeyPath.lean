import Mathlib.Data.List.TakeWhile
import RowAccess.Proofs.Query.Bracket.RoundTrip

/-
  RowAccess/Proofs/Query/Bracket/KeyPath.lean
  ===========================================
  **What a key is split into.**  A key that is a name with indices in brackets is split into the
  name and the indices, and any other key is one segment.  So a key can be written back from its
  path, and no two keys share one, with a single exception: a line feed behind the last index is
  left out, and the key is taken for the one without it (`Bracket.keyPath_exact_iff`).
-/

namespace RowAccess.Bracket

/-! ## Names with indices -/

/-- A name that is not empty and the indices behind it, with no bracket inside any of them. -/
structure IndexedName where
  name : String
  indices : List String
  name_ne_empty : name ≠ ""
  name_plain : IsPlainName name
  indices_plain : ∀ i ∈ indices, IsPlainName i

namespace IndexedName

def path (p : IndexedName) : List String :=
  p.name :: p.indices

/-- The name and then every index in brackets. -/
def text (p : IndexedName) : String :=
  renderPath p.path

/-- Is the key the text with a line feed behind its last index? -/
def IsLooseText (p : IndexedName) (key : String) : Prop :=
  p.indices ≠ [] ∧ key = p.text ++ "\n"

theorem path_injective {p q : IndexedName} (h : p.path = q.path) : p = q := by
  obtain ⟨hname, hindices⟩ := List.cons.inj h
  cases p
  cases q
  cases hname
  cases hindices
  rfl

theorem toList_text (p : IndexedName) : p.text.toList = p.name.toList ++ bracketed p.indices :=
  toList_renderPath p.name p.indices

theorem keyPath_text (p : IndexedName) : keyPath p.text = p.path :=
  keyPath_renderPath p.name_ne_empty p.name_plain p.indices_plain

theorem IsLooseText.keyPath_eq {p : IndexedName} {key : String} (h : p.IsLooseText key) :
    keyPath key = p.path := by
  obtain ⟨hindices, rfl⟩ := h
  refine keyPath_of_isEnd p.name_ne_empty p.name_plain p.indices_plain (.inr ⟨rfl, hindices⟩) ?_
  rw [String.toList_append, toList_text, List.append_assoc]
  rfl

end IndexedName

/-! ## Reading -/

theorem isPlainName_takeWhile (cs : List Char) :
    IsPlainName (String.ofList (cs.takeWhile fun c => !isBracket c)) := by
  intro c hc
  rw [String.toList_ofList] at hc
  simpa using List.mem_takeWhile_imp hc

theorem takeWhile_append_drop (cs : List Char) :
    (cs.takeWhile fun c => !isBracket c) ++
      cs.drop (cs.takeWhile fun c => !isBracket c).length = cs :=
  List.prefix_iff_eq_append.1 (List.takeWhile_prefix _)

/-- What is read as indices is made up of them, with at most a line feed at the end. -/
theorem eq_bracketed_of_indices? {fuel : Nat} {cs : List Char} {indices : List String}
    (h : indices? fuel cs = some indices) :
    (∀ i ∈ indices, IsPlainName i) ∧
      ∃ rest, (rest = [] ∨ rest = ['\n']) ∧ cs = bracketed indices ++ rest := by
  -- No fuel is left (1, 2), nothing or the line feed is (3, 4), an index (5), or neither (6, 7).
  fun_induction indices? fuel cs generalizing indices with
  | case1 cs hempty =>
    cases h
    exact ⟨by simp, [], .inl rfl, List.isEmpty_iff.1 hempty⟩
  | case2 => cases h
  | case3 =>
    cases h
    exact ⟨by simp, [], .inl rfl, rfl⟩
  | case4 =>
    cases h
    exact ⟨by simp, ['\n'], .inr rfl, rfl⟩
  | @case5 fuel r inside behind hbehind ih =>
    obtain ⟨indices, hindices, rfl⟩ := Option.map_eq_some_iff.1 h
    obtain ⟨hplain, rest, hrest, rfl⟩ := ih hindices
    refine ⟨List.forall_mem_cons.2 ⟨isPlainName_takeWhile r, hplain⟩, rest, hrest, ?_⟩
    rw [← takeWhile_append_drop r, hbehind]
    simp [bracketed, inside]
  | case6 => cases h
  | case7 => cases h

/-- A line feed behind a name is read as a part of it. -/
theorem drop_takeWhile_ne_lineFeed (cs : List Char) :
    cs.drop (cs.takeWhile fun c => !isBracket c).length ≠ ['\n'] := by
  intro hdrop
  have hcs := takeWhile_append_drop cs
  rw [hdrop] at hcs
  have hall : (cs.takeWhile fun c => !isBracket c) = cs := by
    refine List.takeWhile_eq_self_iff.2 fun c hc => ?_
    rw [← hcs] at hc
    rcases List.mem_append.1 hc with hc | hc
    · simpa using List.mem_takeWhile_imp hc
    · rw [List.mem_singleton.1 hc]
      rfl
  rw [hall, List.drop_length] at hdrop
  cases hdrop

/-- A key is one segment, or it is read as a name with indices that it is the text of. -/
theorem keyPath_cases (key : String) :
    keyPath key = [key] ∨
      ∃ p : IndexedName, keyPath key = p.path ∧ (key = p.text ∨ p.IsLooseText key) := by
  unfold keyPath
  dsimp only
  split
  next => exact .inl rfl
  next hname =>
    split
    next indices hindices =>
      obtain ⟨hplain, rest, hrest, hbehind⟩ := eq_bracketed_of_indices? hindices
      let p : IndexedName :=
        ⟨_, indices, by simpa using hname, isPlainName_takeWhile key.toList, hplain⟩
      have hkey : key.toList = p.text.toList ++ rest := by
        rw [p.toList_text, String.toList_ofList, List.append_assoc, ← hbehind,
          takeWhile_append_drop]
      refine .inr ⟨p, rfl, ?_⟩
      rcases hrest with rfl | rfl
      · exact .inl (String.toList_inj.1 (by rw [hkey, List.append_nil]))
      · refine .inr ⟨?_, String.toList_inj.1 (by rw [hkey, String.toList_append]; rfl)⟩
        -- Without an index the line feed would have been taken into the name.
        intro hnone
        rw [show indices = [] from hnone] at hbehind
        exact drop_takeWhile_ne_lineFeed _ hbehind
    next => exact .inl rfl

theorem renderPath_single (key : String) : renderPath [key] = key := by
  simp [renderPath]

/-- A key has the path of a name with indices exactly where it is the text of it, perhaps with a
line feed behind the last index. -/
theorem keyPath_eq_path_iff (p : IndexedName) (key : String) :
    keyPath key = p.path ↔ key = p.text ∨ p.IsLooseText key := by
  constructor
  · intro hpath
    rcases keyPath_cases key with hwhole | ⟨q, hq, hkey⟩
    · -- One segment is the path of a name without indices, which is its own text.
      refine .inl ?_
      rw [IndexedName.text, ← hpath, hwhole, renderPath_single]
    · rw [IndexedName.path_injective (hpath.symm.trans hq)]
      exact hkey
  · rintro (rfl | hloose)
    · exact p.keyPath_text
    · exact hloose.keyPath_eq

/-! ## Writing back -/

/-- Does a line feed stand behind the last index of the key? -/
def IsLoose (key : String) : Prop :=
  ∃ p : IndexedName, p.IsLooseText key

theorem IndexedName.IsLooseText.eq_written {p : IndexedName} {key : String}
    (h : p.IsLooseText key) :
    key = renderPath (keyPath key) ++ "\n" := by
  rw [h.keyPath_eq]
  exact h.2

theorem ne_append_lineFeed (s : String) : s ≠ s ++ "\n" := by
  intro h
  have hlength := congrArg String.length h
  simp at hlength

/-- A key is written back from its path unless a line feed stands behind its last index. -/
theorem renderPath_keyPath_iff (key : String) :
    renderPath (keyPath key) = key ↔ ¬ IsLoose key := by
  constructor
  · rintro hrender ⟨p, hloose⟩
    have hkey := hloose.eq_written
    rw [hrender] at hkey
    exact ne_append_lineFeed key hkey
  · intro hplain
    rcases keyPath_cases key with hwhole | ⟨p, hp, hkey | hloose⟩
    · rw [hwhole, renderPath_single]
    · rw [hp]
      exact hkey.symm
    · exact absurd ⟨p, hloose⟩ hplain

/-- Is the key split exactly?  It has the path of a name with indices if and only if it is the text
of it, it is one segment if it is the text of none, and it is written back from its path. -/
structure SplitsExactly (key : String) : Prop where
  reads : ∀ p : IndexedName, keyPath key = p.path ↔ key = p.text
  whole : (∀ p : IndexedName, key ≠ p.text) → keyPath key = [key]
  written : renderPath (keyPath key) = key

theorem splitsExactly_iff (key : String) : SplitsExactly key ↔ ¬ IsLoose key := by
  constructor
  · exact fun h => (renderPath_keyPath_iff key).1 h.written
  · intro hplain
    have hreads : ∀ p : IndexedName, keyPath key = p.path ↔ key = p.text := by
      intro p
      rw [keyPath_eq_path_iff, or_iff_left fun hloose => hplain ⟨p, hloose⟩]
    refine ⟨hreads, ?_, (renderPath_keyPath_iff key).2 hplain⟩
    intro hnone
    rcases keyPath_cases key with hwhole | ⟨p, hp, -⟩
    · exact hwhole
    · exact absurd ((hreads p).1 hp) (hnone p)

/-! ## Keys that share a path -/

/-- A line feed behind the last index is not seen. -/
theorem keyPath_append_lineFeed {key : String} (h : IsLoose (key ++ "\n")) :
    keyPath (key ++ "\n") = keyPath key := by
  obtain ⟨p, hloose⟩ := h
  have hkey : key = p.text := (String.append_left_inj "\n").1 hloose.2
  rw [hloose.keyPath_eq, hkey, p.keyPath_text]

/-- A key is what is written back from its path, with or without a line feed. -/
theorem eq_written_or (key : String) :
    key = renderPath (keyPath key) ∨ IsLoose key ∧ key = renderPath (keyPath key) ++ "\n" := by
  by_cases h : IsLoose key
  · obtain ⟨p, hloose⟩ := h
    exact .inr ⟨⟨p, hloose⟩, hloose.eq_written⟩
  · exact .inl ((renderPath_keyPath_iff key).2 h).symm

theorem keyPath_eq_iff (key other : String) :
    keyPath key = keyPath other ↔
      key = other ∨ IsLoose key ∧ key = other ++ "\n" ∨ IsLoose other ∧ other = key ++ "\n" := by
  constructor
  · intro h
    have hother := eq_written_or other
    rw [← h] at hother
    rcases eq_written_or key with hkey | ⟨hloose, hkey⟩
    · rw [← hkey] at hother
      exact hother.imp Eq.symm .inr
    · rcases hother with hother | ⟨-, hother⟩
      · rw [← hother] at hkey
        exact .inr (.inl ⟨hloose, hkey⟩)
      · exact .inl (hkey.trans hother.symm)
  · rintro (rfl | ⟨hloose, rfl⟩ | ⟨hloose, rfl⟩)
    · rfl
    · exact keyPath_append_lineFeed hloose
    · exact (keyPath_append_lineFeed hloose).symm

/-- A key is split exactly unless a line feed stands behind its last index.  That one is left out,
and so the text of a name with indices shares its path with one other key; no other keys share a
path. -/
theorem keyPath_exact_iff (key : String) :
    (SplitsExactly key ↔ ¬ IsLoose key) ∧
    (∀ p : IndexedName, keyPath key = p.path ↔ key = p.text ∨ p.IsLooseText key) ∧
    ∀ other, keyPath key = keyPath other ↔
      key = other ∨ IsLoose key ∧ key = other ++ "\n" ∨ IsLoose other ∧ other = key ++ "\n" :=
  ⟨splitsExactly_iff key, fun p => keyPath_eq_path_iff p key, keyPath_eq_iff key⟩

example : keyPath "AND_WHERE[0][COLUMN]" = ["AND_WHERE", "0", "COLUMN"] := by decide

/-- Of two parameters whose keys differ in a line feed behind the index, one is lost. -/
theorem looseKey_merges :
    ¬ (∀ key, SplitsExactly key) ∧ ¬ (∀ key other, keyPath key = keyPath other → key = other) ∧
    parse "A[0]=x&A[0]%0A=y" = .ok [("A", .list [.text "y"])] := by
  have hpath : keyPath "A[0]\n" = ["A", "0"] := by decide
  refine ⟨?_, ?_, ?_⟩
  · intro h
    have hwritten := (h "A[0]\n").written
    rw [hpath] at hwritten
    exact absurd hwritten (by decide)
  · intro h
    exact absurd (h "A[0]" "A[0]\n" (by decide)) (by decide)
  · have hparameters : parameters ("A[0]=x&A[0]%0A=y".toList.dropWhile (· == '?')) =
        [("A[0]", "x"), ("A[0]\n", "y")] := by decide
    have hnest : nest [("A[0]", "x"), ("A[0]\n", "y")] =
        [("A", .object [("0", .text "y")])] := rfl
    have hnumber : indexNumber "0" = .ok 0 := rfl
    have hindexed : isIndexed [("0", Value.text "y")] = true ∧
        isIndexed [("A", Value.list [.text "y"])] = false := ⟨by decide, by decide⟩
    have hlisted : listed (.object (nest [("A[0]", "x"), ("A[0]\n", "y")])) =
        .ok (.object [("A", .list [.text "y"])]) := by
      rw [hnest]
      simp [listed, listedFields, bind, Except.bind, pure, Except.pure, Except.map,
        inIndexOrder_single, hnumber, hindexed]
    exact parse_eq hparameters hlisted (by decide)

end RowAccess.Bracket
