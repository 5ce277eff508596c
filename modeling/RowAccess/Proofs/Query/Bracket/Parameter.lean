import Mathlib.Data.List.Forall2
import RowAccess.Proofs.Text.Blank
import RowAccess.Proofs.Text.Percent
import RowAccess.Query.Bracket.Printer

/-
  RowAccess/Proofs/Query/Bracket/Parameter.lean
  =============================================
  **Parameters are read as they were written.**  No separator stands in an escaped text, so a query
  string is cut where it was joined, and every parameter comes back
  (`Bracket.parameters_queryString`).  A path whose segments hold no bracket comes back from its
  name (`Bracket.keyPath_renderPath`).
-/

namespace RowAccess.Bracket

open Text

/-! ## Encodings -/

/-- Are the characters the text in percent encoding?  What parts parameters, and the question mark in
front of a query string, stand as escapes. -/
structure Encodes (cs : List Char) (s : String) : Prop where
  decoded : Percent.decodePlus cs = s.toList
  parted : ∀ c ∈ ['&', '=', '?'], c ∉ cs

instance (cs : List Char) (s : String) : Decidable (Encodes cs s) :=
  decidable_of_iff (Percent.decodePlus cs = s.toList ∧ ∀ c ∈ ['&', '=', '?'], c ∉ cs)
    ⟨fun h => ⟨h.1, h.2⟩, fun h => ⟨h.decoded, h.parted⟩⟩

theorem encodes_encode (s : String) : Encodes (Percent.encode s.toList) s := by
  refine ⟨Percent.decodePlus_encode s.toList, ?_⟩
  intro c hc
  have hreserved : ∀ c ∈ ['&', '=', '?'], c ≠ '%' ∧ Percent.isUnreserved c = false := by decide
  exact Percent.not_mem_encode (hreserved c hc).1 (hreserved c hc).2 _

/-- The characters of a parameter. -/
def piece (e : List Char × List Char) : List Char :=
  e.1 ++ '=' :: e.2

/-- Do the characters of a name and a value encode the parameter? -/
def EncodesParameter (e : List Char × List Char) (p : String × String) : Prop :=
  Encodes e.1 p.1 ∧ Encodes e.2 p.2

instance : DecidableRel EncodesParameter := fun e p =>
  inferInstanceAs (Decidable (Encodes e.1 p.1 ∧ Encodes e.2 p.2))

namespace EncodesParameter

variable {e : List Char × List Char} {p : String × String}

theorem not_mem_piece (h : EncodesParameter e p) {c : Char} (hc : c = '&' ∨ c = '?') :
    c ∉ piece e := by
  have hparts : c ∉ e.1 ∧ c ∉ e.2 ∧ c ≠ '=' := by
    rcases hc with rfl | rfl
    · exact ⟨h.1.parted _ (by simp), h.2.parted _ (by simp), by decide⟩
    · exact ⟨h.1.parted _ (by simp), h.2.parted _ (by simp), by decide⟩
  intro hmem
  rcases List.mem_append.1 hmem with hmem | hmem
  · exact hparts.1 hmem
  · rcases List.mem_cons.1 hmem with hmem | hmem
    · exact hparts.2.2 hmem
    · exact hparts.2.1 hmem

theorem splitParameter_piece (h : EncodesParameter e p) : splitParameter (piece e) = e := by
  have hname : ∀ c ∈ e.1, (decide (c ≠ '=')) = true := by
    intro c hc
    refine decide_eq_true ?_
    rintro rfl
    exact h.1.parted _ (by simp) hc
  unfold splitParameter piece
  rw [List.takeWhile_append_of_pos hname, List.dropWhile_append_of_pos hname]
  simp

end EncodesParameter

theorem not_mem_intercalate {c separator : Char} {pieces : List (List Char)}
    (h : ∀ cs ∈ pieces, c ∉ cs) (hc : c ≠ separator) : c ∉ [separator].intercalate pieces := by
  induction pieces with
  | nil => simp
  | cons cs pieces ih =>
    obtain ⟨hcs, hpieces⟩ := List.forall_mem_cons.1 h
    cases pieces with
    | nil => simpa using hcs
    | cons cs' pieces =>
      rw [List.intercalate_cons_cons]
      simp [hcs, hc, ih hpieces]

section Pieces

variable {es : List (List Char × List Char)} {ps : List (String × String)}
  (h : List.Forall₂ EncodesParameter es ps)

include h

theorem not_mem_of_pieces {c : Char} (hc : c = '&' ∨ c = '?') :
    ∀ cs ∈ es.map piece, c ∉ cs := by
  induction h with
  | nil => simp
  | cons he _ ih =>
    rw [List.map_cons]
    exact List.forall_mem_cons.2 ⟨he.not_mem_piece hc, ih⟩

/-- Parameters are read from their encodings. -/
theorem parameters_pieces : parameters (['&'].intercalate (es.map piece)) = ps := by
  have hpieces : (cut '&' (['&'].intercalate (es.map piece))).filter
      (fun cs => !cs.isEmpty) = es.map piece := by
    cases es with
    | nil => rfl
    | cons e es =>
      rw [cut_intercalate (by simp) (not_mem_of_pieces h (.inl rfl))]
      refine List.filter_eq_self.2 fun cs hcs => ?_
      obtain ⟨e', -, rfl⟩ := List.mem_map.1 hcs
      simp [piece]
  unfold parameters
  rw [hpieces, List.map_map]
  clear hpieces
  induction h with
  | nil => rfl
  | cons he _ ih =>
    rw [List.map_cons, ih]
    refine congrArg (· :: _) ?_
    simp [he.splitParameter_piece, he.1.decoded, he.2.decoded]

/-- A question mark in front of parameters changes nothing. -/
theorem dropWhile_pieces :
    (['&'].intercalate (es.map piece)).dropWhile (· == '?') = ['&'].intercalate (es.map piece) := by
  have hmark := not_mem_intercalate (not_mem_of_pieces h (.inr rfl)) (by decide : '?' ≠ '&')
  rcases hchars : ['&'].intercalate (es.map piece) with _ | ⟨c, r⟩
  · rfl
  · rw [hchars, List.mem_cons, not_or] at hmark
    rw [List.dropWhile_cons_of_neg (by simpa using Ne.symm hmark.1)]

end Pieces

/-! ## Query strings -/

/-- The encodings that a query string is written with. -/
def encodings (ps : List (String × String)) : List (List Char × List Char) :=
  ps.map fun p => (Percent.encode p.1.toList, Percent.encode p.2.toList)

theorem forall₂_encodings (ps : List (String × String)) :
    List.Forall₂ EncodesParameter (encodings ps) ps := by
  induction ps with
  | nil => exact .nil
  | cons p ps ih => exact .cons ⟨encodes_encode p.1, encodes_encode p.2⟩ ih

theorem toList_queryString (ps : List (String × String)) :
    (queryString ps).toList = ['&'].intercalate ((encodings ps).map piece) := by
  have hmap : (ps.map parameterText).map String.toList = (encodings ps).map piece := by
    rw [encodings, List.map_map, List.map_map]
    refine List.map_congr_left fun p _ => ?_
    simp [parameterText, escaped, piece]
  rw [queryString, String.toList_intercalate, hmap]
  rfl

/-- A query string gives its parameters back. -/
theorem parameters_queryString (ps : List (String × String)) :
    parameters (queryString ps).toList = ps := by
  rw [toList_queryString]
  exact parameters_pieces (forall₂_encodings ps)

theorem dropWhile_queryString (ps : List (String × String)) :
    (queryString ps).toList.dropWhile (· == '?') = (queryString ps).toList := by
  rw [toList_queryString]
  exact dropWhile_pieces (forall₂_encodings ps)

/-! ## Key paths -/

/-- Is the text free of brackets? -/
def IsPlainName (s : String) : Prop :=
  ∀ c ∈ s.toList, isBracket c = false

/-- A name that stands for itself as a segment of a path. -/
structure IsSegment (s : String) : Prop where
  ne_empty : s ≠ ""
  plain : IsPlainName s

theorem takeWhile_plain {s : String} (hs : IsPlainName s) {c : Char} (hc : isBracket c = true)
    (r : List Char) :
    (s.toList ++ c :: r).takeWhile (fun c => !isBracket c) = s.toList := by
  have hall : ∀ d ∈ s.toList, (!isBracket d) = true := fun d hd => by simp [hs d hd]
  rw [List.takeWhile_append_of_pos hall, List.takeWhile_cons_of_neg (by simp [hc]),
    List.append_nil]

def bracketed (indices : List String) : List Char :=
  indices.flatMap fun i => '[' :: (i.toList ++ [']'])

/-- May the characters stand behind the indices of a key?  Nothing may, and behind an index one line
feed; behind the name alone it is a part of the name. -/
def IsEnd (indices : List String) (rest : List Char) : Prop :=
  rest = [] ∨ rest = ['\n'] ∧ indices ≠ []

theorem indices?_bracketed {indices : List String} (h : ∀ i ∈ indices, IsPlainName i)
    {rest : List Char} (hrest : rest = [] ∨ rest = ['\n']) {fuel : Nat}
    (hfuel : indices.length + rest.length ≤ fuel) :
    indices? fuel (bracketed indices ++ rest) = some indices := by
  induction indices generalizing fuel with
  | nil =>
    cases fuel with
    | zero =>
      have hnil : rest = [] := by simpa using hfuel
      rw [hnil]
      rfl
    | succ fuel => rcases hrest with rfl | rfl <;> rfl
  | cons i indices ih =>
    cases fuel with
    | zero => simp at hfuel
    | succ fuel =>
      have hcons : bracketed (i :: indices) ++ rest =
          '[' :: (i.toList ++ ']' :: (bracketed indices ++ rest)) := by
        simp [bracketed]
      have hinside := takeWhile_plain (h i (by simp)) (c := ']') rfl (bracketed indices ++ rest)
      have hothers : indices? fuel (bracketed indices ++ rest) = some indices := by
        refine ih (fun j hj => h j (List.mem_cons_of_mem _ hj)) ?_
        simp only [List.length_cons] at hfuel
        omega
      rw [hcons, indices?, hinside, List.drop_left]
      show (indices? fuel (bracketed indices ++ rest)).map (String.ofList i.toList :: ·) = _
      rw [hothers, String.ofList_toList]
      rfl

theorem length_le_bracketed (indices : List String) :
    indices.length ≤ (bracketed indices).length := by
  induction indices with
  | nil => exact Nat.le_refl 0
  | cons i indices ih =>
    simp only [bracketed, List.flatMap_cons, List.length_append, List.length_cons] at ih ⊢
    omega

theorem toList_renderPath (name : String) (indices : List String) :
    (renderPath (name :: indices)).toList = name.toList ++ bracketed indices := by
  have hmap : ∀ i : String, ("[" ++ i ++ "]").toList = '[' :: (i.toList ++ [']']) := by
    intro i
    simp
  rw [renderPath, String.toList_append, String.toList_join, List.flatMap_map]
  simp only [hmap, bracketed]

/-- The path of a name with indices, with or without a line feed behind the last of them. -/
theorem keyPath_of_isEnd {name : String} {indices : List String} (hne : name ≠ "")
    (hname : IsPlainName name) (hindices : ∀ i ∈ indices, IsPlainName i) {rest : List Char}
    (hrest : IsEnd indices rest) {key : String}
    (hkey : key.toList = name.toList ++ (bracketed indices ++ rest)) :
    keyPath key = name :: indices := by
  have htake : key.toList.takeWhile (fun c => !isBracket c) = name.toList := by
    rw [hkey]
    cases indices with
    | nil =>
      have hnil : rest = [] := hrest.resolve_right fun h => h.2 rfl
      have hall : ∀ c ∈ name.toList, (!isBracket c) = true := fun c hc => by simp [hname c hc]
      rw [hnil, bracketed, List.flatMap_nil, List.takeWhile_append_of_pos hall]
      simp
    | cons i indices =>
      rw [bracketed, List.flatMap_cons, List.cons_append, List.cons_append]
      exact takeWhile_plain hname rfl _
  have hempty : name.toList.isEmpty = false := by
    cases hchars : name.toList with
    | nil => exact absurd (String.toList_eq_nil_iff.1 hchars) hne
    | cons c cs => rfl
  have hfuel : indices.length + rest.length ≤ key.toList.length + 1 := by
    have hle := length_le_bracketed indices
    rw [hkey, List.length_append, List.length_append]
    omega
  unfold keyPath
  dsimp only
  rw [htake, hempty, hkey, List.drop_left, ← hkey,
    indices?_bracketed hindices (hrest.imp_right And.left) hfuel]
  simp

/-- A path comes back from its name. -/
theorem keyPath_renderPath {name : String} {indices : List String} (hne : name ≠ "")
    (hname : IsPlainName name) (hindices : ∀ i ∈ indices, IsPlainName i) :
    keyPath (renderPath (name :: indices)) = name :: indices :=
  keyPath_of_isEnd hne hname hindices (.inl rfl) (by rw [toList_renderPath, List.append_nil])

/-- A path of segments comes back from its name. -/
theorem keyPath_of_segments {path : List String} (hne : path ≠ [])
    (h : ∀ segment ∈ path, IsSegment segment) : keyPath (renderPath path) = path := by
  cases path with
  | nil => exact absurd rfl hne
  | cons name indices =>
    have hname := h name (by simp)
    exact keyPath_renderPath hname.ne_empty hname.plain
      fun i hi => (h i (List.mem_cons_of_mem _ hi)).plain

end RowAccess.Bracket
