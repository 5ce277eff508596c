import RowAccess.Proofs.Query.Bracket.Index

/-
  RowAccess/Proofs/Query/Bracket/Nest.lean
  ========================================
  **The order of parameters does not matter.**  Inserting at a path touches the first name of the
  path only, so what stands under a name in the end is made of the paths that begin with it, in the
  order in which they came (`Bracket.find?_insertAll`).  Whether texts at their paths spell a value
  does not depend on their order (`Bracket.Spelled.perm`).
-/

namespace RowAccess.Bracket

open Keyed

/-! ## Inserting at paths -/

/-- Puts texts at the ends of their paths, one after another. -/
def insertAll (ls : List (List String × String)) (fields : Fields) : Fields :=
  ls.foldl (fun fields l => insertAt l.1 (.text l.2) fields) fields

theorem nest_eq (ps : List (String × String)) :
    nest ps = insertAll (ps.map fun p => (keyPath p.1, p.2)) [] := by
  rw [nest, insertAll, List.foldl_map]

/-- The texts whose paths begin with a name, at the rest of their paths. -/
def under (k : String) (ls : List (List String × String)) : List (List String × String) :=
  ls.filterMap fun l =>
    match l.1 with
    | name :: rest => if name = k then some (rest, l.2) else none
    | [] => none

theorem under_cons (k name : String) (rest : List String) (s : String)
    (ls : List (List String × String)) :
    under k ((name :: rest, s) :: ls) =
      if name = k then (rest, s) :: under k ls else under k ls := by
  by_cases h : name = k
  · simp [under, h]
  · simp [under, h]

theorem mem_under {k : String} {rest : List String} {s : String}
    {ls : List (List String × String)} :
    (rest, s) ∈ under k ls ↔ (k :: rest, s) ∈ ls := by
  unfold under
  rw [List.mem_filterMap]
  constructor
  · rintro ⟨⟨path, t⟩, hmem, heq⟩
    cases path with
    | nil => cases heq
    | cons name path =>
      dsimp only at heq
      split at heq
      next hname =>
        cases heq
        rwa [← hname]
      next => cases heq
  · intro hmem
    exact ⟨_, hmem, by simp⟩

/-- Does every path begin with a name? -/
def Begins (ls : List (List String × String)) : Prop :=
  ∀ l ∈ ls, ∃ name rest, l.1 = name :: rest ∧ name ≠ ""

theorem Begins.tail {l : List String × String} {ls : List (List String × String)}
    (h : Begins (l :: ls)) : Begins ls :=
  fun l' hl' => h l' (List.mem_cons_of_mem _ hl')

/-- Induction on texts whose paths begin with names. -/
@[elab_as_elim]
theorem Begins.induction {motive : ∀ ls, Begins ls → Prop} (nil : ∀ h, motive [] h)
    (cons : ∀ (name : String) (rest : List String) (s : String) (ls : List (List String × String))
      (h : Begins ((name :: rest, s) :: ls)), name ≠ "" → motive ls h.tail → motive _ h)
    {ls : List (List String × String)} (h : Begins ls) : motive ls h := by
  induction ls with
  | nil => exact nil h
  | cons l ls ih =>
    obtain ⟨path, s⟩ := l
    obtain ⟨name, rest, rfl, hname⟩ := h _ List.mem_cons_self
    exact cons name rest s ls h hname (ih h.tail)

/-- A value is put under the name of the first segment, and the rest of the path behind it. -/
theorem insertAt_cons (segment : String) (rest : List String) (v : Value) (fields : Fields) :
    insertAt (segment :: rest) v fields =
      put fields (segmentName fields segment)
        (if rest = [] then v
          else .object (insertAt rest v (fieldsUnder fields (segmentName fields segment)))) := by
  cases rest with
  | nil => rfl
  | cons second rest =>
    rw [insertAt, if_neg (List.cons_ne_nil _ _)]
    exact List.cons_ne_nil _ _

/-- A text is put under the first name of its path, and the rest of the path behind the name. -/
theorem insertAll_cons {name : String} (hname : name ≠ "") (rest : List String) (s : String)
    (ls : List (List String × String)) (fields : Fields) :
    insertAll ((name :: rest, s) :: ls) fields =
      insertAll ls (put fields name
        (if rest = [] then .text s
          else .object (insertAt rest (.text s) (fieldsUnder fields name)))) := by
  have hempty : name.isEmpty = false := by simpa using hname
  cases rest with
  | nil => simp [insertAll, insertAt, segmentName, hempty]
  | cons segment rest => simp [insertAll, insertAt, segmentName, hempty]

theorem mem_keys_insertAll {ls : List (List String × String)} (hls : Begins ls) {fields : Fields}
    {k : String} : k ∈ keys (insertAll ls fields) ↔ k ∈ keys fields ∨ under k ls ≠ [] := by
  induction hls using Begins.induction generalizing fields with
  | nil => simp [insertAll, under]
  | cons name rest s ls _ hname ih =>
    rw [insertAll_cons hname, ih, keys_put, under_cons]
    by_cases hk : name = k
    · subst hk
      by_cases hmem : name ∈ keys fields <;> simp [hmem]
    · by_cases hmem : name ∈ keys fields
      · simp [hmem, hk]
      · simp [hmem, hk, Ne.symm hk]

theorem nodup_keys_insertAll {ls : List (List String × String)} (hls : Begins ls) {fields : Fields}
    (h : (keys fields).Nodup) : (keys (insertAll ls fields)).Nodup := by
  induction hls using Begins.induction generalizing fields with
  | nil => exact h
  | cons name rest s ls _ hname ih =>
    rw [insertAll_cons hname]
    exact ih (nodup_keys_put h _ _)

/-- Paths that begin with other names leave a name alone. -/
theorem find?_insertAll_of_none {ls : List (List String × String)} (hls : Begins ls)
    {fields : Fields} {k : String} (h : under k ls = []) :
    find? (insertAll ls fields) k = find? fields k := by
  induction hls using Begins.induction generalizing fields with
  | nil => rfl
  | cons name rest s ls _ hname ih =>
    rw [under_cons] at h
    split at h
    next => cases h
    next hk => rw [insertAll_cons hname, ih h, find?_put_of_ne hk]

/-- A single path that ends with a name leaves its text there. -/
theorem find?_insertAll_of_text {ls : List (List String × String)} (hls : Begins ls)
    {fields : Fields} {k s : String} (h : under k ls = [([], s)]) :
    find? (insertAll ls fields) k = some (.text s) := by
  induction hls using Begins.induction generalizing fields with
  | nil => cases h
  | cons name rest t ls hls hname ih =>
    rw [under_cons] at h
    rw [insertAll_cons hname]
    split at h
    next hk =>
      subst hk
      obtain ⟨heq, hnone⟩ := List.cons.inj h
      cases heq
      rw [find?_insertAll_of_none hls.tail hnone, if_pos rfl, find?_put_self]
    next => exact ih h

/-- Paths that go on behind a name build an object there. -/
theorem find?_insertAll_of_object {ls : List (List String × String)} (hls : Begins ls)
    {fields : Fields} {k : String} (h : under k ls ≠ []) (hon : ∀ l ∈ under k ls, l.1 ≠ []) :
    find? (insertAll ls fields) k =
      some (.object (insertAll (under k ls) (fieldsUnder fields k))) := by
  induction hls using Begins.induction generalizing fields with
  | nil => exact absurd rfl h
  | cons name rest s ls hls hname ih =>
    rw [under_cons] at h hon ⊢
    rw [insertAll_cons hname]
    by_cases hk : name = k
    · subst hk
      rw [if_pos rfl] at hon ⊢
      have hne : rest ≠ [] := hon _ List.mem_cons_self
      rw [if_neg hne]
      by_cases hnone : under name ls = []
      · rw [find?_insertAll_of_none hls.tail hnone, find?_put_self, hnone]
        rfl
      · rw [ih hnone fun l hl => hon l (List.mem_cons_of_mem _ hl)]
        simp [fieldsUnder, insertAll]
    · rw [if_neg hk] at h hon ⊢
      rw [ih h hon]
      simp only [fieldsUnder, find?_put_of_ne hk]

/-! ## Texts that spell a value -/

/-- Do the paths begin with these names, and does every name stand at the front of one? -/
structure Fronts (names : List String) (ls : List (List String × String)) : Prop where
  distinct : names.Nodup
  segments : ∀ k ∈ names, IsSegment k
  begin : ∀ l ∈ ls, ∃ name rest, l.1 = name :: rest ∧ name ∈ names
  some_under : ∀ k ∈ names, under k ls ≠ []

namespace Fronts

variable {names : List String} {ls ls' : List (List String × String)}

theorem perm (h : Fronts names ls) (hperm : ls.Perm ls') : Fronts names ls' := by
  constructor
  · exact h.distinct
  · exact h.segments
  · exact fun l hl => h.begin l (hperm.mem_iff.2 hl)
  · intro k hk hnil
    have hunder : (under k ls).Perm (under k ls') := hperm.filterMap _
    rw [hnil] at hunder
    exact h.some_under k hk hunder.eq_nil

theorem begins (h : Fronts names ls) : Begins ls := by
  intro l hl
  obtain ⟨name, rest, hpath, hname⟩ := h.begin l hl
  exact ⟨name, rest, hpath, (h.segments name hname).ne_empty⟩

theorem ne_nil (h : Fronts names ls) (hnames : names ≠ []) : ls ≠ [] := by
  obtain ⟨k, hk⟩ := List.exists_mem_of_ne_nil _ hnames
  rintro rfl
  exact h.some_under k hk rfl

/-- The paths build an object with these names. -/
theorem keys_perm (h : Fronts names ls) : (keys (insertAll ls [])).Perm names := by
  have hnodup : (keys (insertAll ls [])).Nodup := nodup_keys_insertAll h.begins List.nodup_nil
  refine (List.perm_ext_iff_of_nodup hnodup h.distinct).2 ?_
  intro k
  rw [mem_keys_insertAll h.begins]
  constructor
  · rintro (hnil | hsome)
    · cases hnil
    · obtain ⟨⟨rest, s⟩, hl⟩ := List.exists_mem_of_ne_nil _ hsome
      obtain ⟨name, rest', hpath, hname⟩ := h.begin _ (mem_under.1 hl)
      cases hpath
      exact hname
  · intro hk
    exact .inr (h.some_under k hk)

end Fronts

/-- Are these the texts of the value at their paths?  The entries of a list stand under their
indices, and no object is taken for a list. -/
inductive Spelled : List (List String × String) → Value → Prop
  | text (s : String) : Spelled [([], s)] (.text s)
  | object {ls : List (List String × String)} {fs : Fields} (fronts : Fronts (keys fs) ls)
    (unlisted : isIndexed fs = false)
    (inner : ∀ k v, find? fs k = some v → Spelled (under k ls) v) : Spelled ls (.object fs)
  | list {ls : List (List String × String)} {vs : List Value}
    (fronts : Fronts ((List.range vs.length).map Text.decimal) ls) (ne_nil : vs ≠ [])
    (short : vs.length ≤ 10 ^ Number.digitLimit)
    (inner : ∀ (i : Nat) v, vs[i]? = some v → Spelled (under (Text.decimal i) ls) v) :
    Spelled ls (.list vs)

namespace Spelled

variable {ls ls' : List (List String × String)} {v : Value}

theorem perm (h : Spelled ls v) (hperm : ls.Perm ls') : Spelled ls' v := by
  induction h generalizing ls' with
  | text s =>
    rw [List.perm_singleton.1 hperm.symm]
    exact .text s
  | object fronts unlisted _ ih =>
    exact .object (fronts.perm hperm) unlisted fun k v hv => ih k v hv (hperm.filterMap _)
  | list fronts ne_nil short _ ih =>
    exact .list (fronts.perm hperm) ne_nil short fun i v hv => ih i v hv (hperm.filterMap _)

/-- The paths hold nothing but segments. -/
theorem segments (h : Spelled ls v) : ∀ l ∈ ls, ∀ segment ∈ l.1, IsSegment segment := by
  induction h with
  | text s => simp
  | @object ls fs fronts _ _ ih =>
    rintro ⟨path, s⟩ hl segment hsegment
    obtain ⟨name, rest, hpath, hname⟩ := fronts.begin _ hl
    cases hpath
    rcases List.mem_cons.1 hsegment with rfl | hrest
    · exact fronts.segments _ hname
    · obtain ⟨v, hv⟩ := (exact_of_lawful name).exists_find? hname
      exact ih name v hv _ (mem_under.2 hl) segment hrest
  | @list ls vs fronts _ _ _ ih =>
    rintro ⟨path, s⟩ hl segment hsegment
    obtain ⟨name, rest, hpath, hname⟩ := fronts.begin _ hl
    cases hpath
    rcases List.mem_cons.1 hsegment with rfl | hrest
    · exact fronts.segments _ hname
    · obtain ⟨i, hi, rfl⟩ := List.mem_map.1 hname
      have hv := List.getElem?_eq_getElem (List.mem_range.1 hi)
      exact ih i _ hv _ (mem_under.2 hl) segment hrest

theorem ne_nil (h : Spelled ls v) (hv : v ≠ .object []) : ls ≠ [] := by
  cases h with
  | text s => exact List.cons_ne_nil _ _
  | @object ls fs fronts =>
    refine fronts.ne_nil ?_
    intro hnil
    rw [keys, List.map_eq_nil_iff] at hnil
    exact hv (congrArg _ hnil)
  | list fronts ne_nil => exact fronts.ne_nil (by simpa using ne_nil)

theorem text_or_begins (h : Spelled ls v) : (∃ s, ls = [([], s)]) ∨ Begins ls := by
  cases h with
  | text s => exact .inl ⟨s, rfl⟩
  | object fronts => exact .inr fronts.begins
  | list fronts => exact .inr fronts.begins

theorem begins {fs : Fields} (h : Spelled ls (.object fs)) : Begins ls := by
  cases h with
  | object fronts => exact fronts.begins

end Spelled

/-- The value that texts at their paths build: a single text, or an object. -/
def built : List (List String × String) → Value
  | [([], s)] => .text s
  | ls => .object (insertAll ls [])

theorem built_of_begins {ls : List (List String × String)} (h : Begins ls) :
    built ls = .object (insertAll ls []) := by
  unfold built
  split
  next s =>
    obtain ⟨name, rest, hnil, -⟩ := h _ (List.mem_singleton.2 rfl)
    cases hnil
  next => rfl

/-- What stands under a name is built from the texts under it. -/
theorem find?_insertAll {ls : List (List String × String)} (hls : Begins ls) {k : String}
    {v : Value} (hsome : under k ls ≠ []) (h : Spelled (under k ls) v) :
    find? (insertAll ls []) k = some (built (under k ls)) := by
  rcases h.text_or_begins with ⟨s, hs⟩ | hbegins
  · rw [find?_insertAll_of_text hls hs, hs]
    rfl
  · have hon : ∀ l ∈ under k ls, l.1 ≠ [] := by
      intro l hl
      obtain ⟨name, rest, hpath, -⟩ := hbegins l hl
      rw [hpath]
      exact List.cons_ne_nil _ _
    rw [find?_insertAll_of_object hls hsome hon, built_of_begins hbegins]
    rfl

end RowAccess.Bracket
