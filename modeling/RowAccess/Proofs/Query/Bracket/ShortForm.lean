import RowAccess.Proofs.Query.Bracket.RoundTrip
import RowAccess.Proofs.Query.Bracket.Unreadable

/-
  RowAccess/Proofs/Query/Bracket/ShortForm.lean
  =============================================
  **The short form means the long form.**  A condition may be written as its column in brackets with
  a text, or as a column and a text under the names of their fields.  Only what stands under the key
  of the condition differs between the two, in the same place of the object that the parameters
  build, and it is read as the same record.  So both query strings have the same outcome, alone or
  among parameters with other keys (`Bracket.parse_shortForm`).
-/

namespace RowAccess

open Keyed Outcome

/-- The field that holds the text of a condition in the short form under a key. -/
def Key.shortField? : Key → Option ClauseField
  | .starter .whereIn | .starter .whereNotIn | .orWhereIn => some .values
  | .starter .whereBetween | .starter .whereNotBetween => some .values
  | .starter .where_ | .starter .whereNot | .starter .whereLike => some .value
  | .andWhere | .orWhere => some .value
  | .select | .aggregate _ | .limit | .order => none

theorem Key.field_of_shortField? {key : Key} {field : ClauseField}
    (h : key.shortField? = some field) : field = .value ∨ field = .values := by
  unfold Key.shortField? at h
  split at h <;> cases h <;> simp

theorem Key.shortField?_eq (key : Key) : key.shortField? = Bracket.shortField? key.name := by
  have hall : ∀ key ∈ Key.all, key.shortField? = Bracket.shortField? key.name := by decide
  exact hall key (Key.mem_all key)

namespace Bracket

/-! ## Parameters with other keys -/

section Beside

variable {k : String} (hk : Text.isIndexText k = false)

include hk

/-- No segment but the name itself stands for a name that is no index. -/
theorem segmentName_ne {segment : String} (h : segment ≠ k) (fields : Fields) :
    segmentName fields segment ≠ k := by
  unfold segmentName
  split
  · rintro rfl
    rw [isIndexText_decimal] at hk
    cases hk
  · exact h

theorem not_mem_keys_insertAt {path : List String} (hpath : path.head? ≠ some k) (v : Value)
    {fields : Fields} (h : k ∉ keys fields) : k ∉ keys (insertAt path v fields) := by
  cases path with
  | nil => exact h
  | cons segment rest =>
    have hname := segmentName_ne hk (fun e => hpath (congrArg some e)) fields
    rw [insertAt_cons, (exact_of_lawful _).mem_keys_put, not_or]
    exact ⟨h, Ne.symm hname⟩

/-- What stands under a name stays in its place, and nothing else depends on it. -/
theorem insertAt_beside {path : List String} (hpath : path.head? ≠ some k) (v : Value)
    {front : Fields} (hfront : k ∉ keys front) (back : Fields) :
    ∃ front' back', k ∉ keys front' ∧
      ∀ w, insertAt path v (front ++ (k, w) :: back) = front' ++ (k, w) :: back' := by
  cases path with
  | nil => exact ⟨front, back, hfront, fun _ => rfl⟩
  | cons segment rest =>
    let blank : Fields := front ++ (k, .null) :: back
    let name := segmentName blank segment
    let value : Value :=
      if rest = [] then v else .object (insertAt rest v (fieldsUnder blank name))
    have hname : name ≠ k := segmentName_ne hk (fun e => hpath (congrArg some e)) _
    have hinsert : ∀ w, insertAt (segment :: rest) v (front ++ (k, w) :: back) =
        put (front ++ (k, w) :: back) name value := by
      intro w
      have hsame : segmentName (front ++ (k, w) :: back) segment = name := by
        simp [name, blank, segmentName]
      have hunder : fieldsUnder (front ++ (k, w) :: back) name = fieldsUnder blank name := by
        simp [fieldsUnder, blank, find?_append, find?, Ne.symm hname]
      rw [insertAt_cons, hsame, hunder]
    have hexact := exact_of_lawful name
    by_cases hmem : name ∈ keys front
    · refine ⟨put front name value, back, ?_, ?_⟩
      · rwa [hexact.keys_put_of_mem hmem]
      · intro w
        rw [hinsert, hexact.put_append_of_mem hmem]
    · refine ⟨front, put back name value, hfront, ?_⟩
      intro w
      rw [hinsert, hexact.put_append_of_not_mem hmem, put, hexact.right_ne (Ne.symm hname)]
      rfl

variable {ls : List (List String × String)} (hls : ∀ l ∈ ls, l.1.head? ≠ some k)

include hls

theorem not_mem_keys_insertAll {fields : Fields} (h : k ∉ keys fields) :
    k ∉ keys (insertAll ls fields) := by
  induction ls generalizing fields with
  | nil => exact h
  | cons l ls ih =>
    obtain ⟨hl, hls⟩ := List.forall_mem_cons.1 hls
    exact ih hls (not_mem_keys_insertAt hk hl _ h)

theorem insertAll_beside {front : Fields} (hfront : k ∉ keys front) (back : Fields) :
    ∃ front' back', k ∉ keys front' ∧
      ∀ w, insertAll ls (front ++ (k, w) :: back) = front' ++ (k, w) :: back' := by
  induction ls generalizing front back with
  | nil => exact ⟨front, back, hfront, fun _ => rfl⟩
  | cons l ls ih =>
    obtain ⟨hl, hls⟩ := List.forall_mem_cons.1 hls
    obtain ⟨front₁, back₁, hfront₁, hl⟩ := insertAt_beside hk hl (.text l.2) hfront back
    obtain ⟨front₂, back₂, hfront₂, hrest⟩ := ih hls hfront₁ back₁
    refine ⟨front₂, back₂, hfront₂, fun w => ?_⟩
    rw [← hrest w, ← hl w]
    rfl

end Beside

theorem insertAll_append (ls ls' : List (List String × String)) (fields : Fields) :
    insertAll (ls ++ ls') fields = insertAll ls' (insertAll ls fields) :=
  List.foldl_append

/-- The paths of parameters, with their texts. -/
def paths (ps : List (String × String)) : List (List String × String) :=
  ps.map fun p => (keyPath p.1, p.2)

theorem nest_eq_paths (ps : List (String × String)) : nest ps = insertAll (paths ps) [] :=
  nest_eq ps

theorem paths_append (ps qs : List (String × String)) : paths (ps ++ qs) = paths ps ++ paths qs :=
  List.map_append

theorem insertAll_paths (ps : List (String × String)) (p : String × String)
    (qs : List (String × String)) (fields : Fields) :
    insertAll (paths (ps ++ p :: qs)) fields =
      insertAll (paths qs) (insertAt (keyPath p.1) (.text p.2) (insertAll (paths ps) fields)) := by
  rw [paths_append, insertAll_append]
  rfl

theorem head?_paths {k : String} {ps : List (String × String)}
    (h : ∀ p ∈ ps, (keyPath p.1).head? ≠ some k) : ∀ l ∈ paths ps, l.1.head? ≠ some k := by
  intro l hl
  obtain ⟨p, hp, rfl⟩ := List.mem_map.1 hl
  exact h p hp

/-- A path under a name that is not there builds an object at the end. -/
theorem insertAt_new {k : String} (hne : k ≠ "") {rest : List String} (hrest : rest ≠ [])
    (v : Value) {fields : Fields} (h : k ∉ keys fields) :
    insertAt (k :: rest) v fields = fields ++ [(k, .object (insertAt rest v []))] := by
  have hexact := exact_of_lawful k
  have hname : segmentName fields k = k := by simp [segmentName, hne]
  have hunder : fieldsUnder fields k = [] := by
    rw [fieldsUnder, (hexact.find?_eq_none_iff fields).2 h]
  rw [insertAt_cons, hname, hunder, if_neg hrest, hexact.put_of_not_mem h]

/-- A path under a name that holds an object goes on in the object. -/
theorem insertAt_old {k : String} (hne : k ≠ "") {rest : List String} (hrest : rest ≠ [])
    (v : Value) {front : Fields} (h : k ∉ keys front) (inner back : Fields) :
    insertAt (k :: rest) v (front ++ (k, .object inner) :: back) =
      front ++ (k, .object (insertAt rest v inner)) :: back := by
  have hexact := exact_of_lawful k
  have hname : ∀ fields, segmentName fields k = k := fun fields => by simp [segmentName, hne]
  have hunder : fieldsUnder (front ++ (k, .object inner) :: back) k = inner := by
    simp [fieldsUnder, find?_append, (hexact.find?_eq_none_iff front).2 h, find?]
  rw [insertAt_cons, hname, hunder, if_neg hrest, hexact.put_append_of_not_mem h, put, hexact.self]
  rfl

/-! ## Reading what stands under one name -/

theorem listedFields_append (fs gs : Fields) :
    listedFields (fs ++ gs) = (do
      let us ← listedFields fs
      let vs ← listedFields gs
      return us ++ vs) := by
  induction fs with
  | nil =>
    show listedFields gs = (listedFields gs >>= fun vs => pure vs)
    exact (bind_pure _).symm
  | cons e fs ih =>
    obtain ⟨k, v⟩ := e
    simp only [List.cons_append, listedFields, ih, bind_assoc, pure_bind]

/-- Texts under names that stand for no index stay as they are. -/
theorem listed_of_texts {fs : Fields} (hown : ∀ k ∈ keys fs, isOwnName k = true)
    (htexts : ∀ e ∈ fs, ∃ s, e.2 = .text s) : listed (.object fs) = .ok (.object fs) := by
  have hread : ∀ e ∈ fs, listed e.2 = .ok (asListed e.2) ∧ asListed e.2 = e.2 := by
    intro e he
    obtain ⟨s, hs⟩ := htexts e he
    rw [hs]
    exact ⟨rfl, rfl⟩
  have hmap : fs.map (fun e => (e.1, asListed e.2)) = fs :=
    (List.map_congr_left fun e he => by rw [(hread e he).2, id]).trans (List.map_id fs)
  rw [listed_object fun e he => (hread e he).1, isIndexed_of_isOwnName hown, hmap]
  rfl

/-- The query of fields that are read, with a value in its long form in between. -/
def assembled (front : Fields) (k : String) (v : Value) (back : Fields) : Except Fault Fields :=
  let query :=
    normalize (Keyed.drop front filterName) ++ (k, v) :: normalize (Keyed.drop back filterName)
  match find? (front ++ back) filterName with
  | none => return query
  | some filter => return putAll query (← Filter.ofParameter filter)

/-- What stands under a name that is no index counts by its long form alone. -/
theorem parse_eq_assembled {k : String} (hk : Text.isIndexText k = false) (hfilter : k ≠ filterName)
    {text : String} {front back : Fields} {v : Value}
    (hnest : nestOf text = front ++ (k, v) :: back) :
    parse text = (do
      let us ← listedFields front
      let w ← (listed v).map (normalizeValue k)
      let vs ← listedFields back
      assembled us k w vs) := by
  have hindexed : ∀ us vs : Fields, ∀ w, isIndexed (us ++ (k, w) :: vs) = false := by
    intro us vs w
    simp [isIndexed, hk]
  have hdrop : ∀ us vs : Fields, ∀ w, normalize (Keyed.drop (us ++ (k, w) :: vs) filterName) =
      normalize (Keyed.drop us filterName) ++
        (k, normalizeValue k w) :: normalize (Keyed.drop vs filterName) := by
    intro us vs w
    simp [normalize, Keyed.drop, hfilter]
  have hfind : ∀ us vs : Fields, ∀ w,
      find? (us ++ (k, w) :: vs) filterName = find? (us ++ vs) filterName := by
    intro us vs w
    simp [find?_append, find?, hfilter]
  rw [parse, ← nestOf, hnest, listed, listedFields_append, listedFields]
  simp only [bind_assoc, pure_bind, hindexed]
  refine bind_congr fun us => ?_
  cases listed v with
  | error f => rfl
  | ok w =>
    show (listedFields back >>= _) = (listedFields back >>= _)
    refine bind_congr fun vs => ?_
    rw [assembled, ← hdrop, ← hfind us vs w]
    rfl

/-- Where nothing that is built lacks an order, the query holds the long form under the name. -/
theorem exists_parse_of_ordered {k : String} (hk : Text.isIndexText k = false) {text : String}
    {front back : Fields} {v : Value} (hnest : nestOf text = front ++ (k, v) :: back)
    (hfilter : filterName ∉ keys (nestOf text)) (hfront : k ∉ keys front)
    (hordered : ¬ IsUnordered (.object (nestOf text))) :
    ∃ query w, parse text = .ok query ∧ listed v = .ok w ∧
      find? query k = some (normalizeValue k w) := by
  have hentries : ∀ e ∈ nestOf text, ¬ IsUnordered e.2 := fun e he h => hordered (.inside he h)
  rw [hnest] at hfilter hentries
  obtain ⟨us, hus⟩ := (failsWhen_listedFields front).holds
    fun ⟨e, he, h⟩ => hentries e (by simp [he]) h
  obtain ⟨w, hw⟩ := (failsWhen_listed v).holds (hentries (k, v) (by simp))
  obtain ⟨vs, hvs⟩ := (failsWhen_listedFields back).holds
    fun ⟨e, he, h⟩ => hentries e (by simp [he]) h
  have hne : filterName ≠ k := by
    rintro rfl
    exact hfilter (by simp [keys])
  have hexact := exact_of_lawful filterName
  have hnone : find? (us ++ vs) filterName = none := by
    rw [hexact.find?_eq_none_iff, mem_keys_append, keys_listedFields hus, keys_listedFields hvs]
    rintro (h | h)
    · exact hfilter (mem_keys_append.2 (.inl h))
    · exact hfilter (mem_keys_append.2 (.inr (List.mem_cons_of_mem _ h)))
  have hfirst : find? (normalize (Keyed.drop us filterName)) k = none := by
    have hus' : find? us k = none := by
      rw [(exact_of_lawful k).find?_eq_none_iff, keys_listedFields hus]
      exact hfront
    rw [normalize, find?_map_values _ normalizeValue, hexact.find?_drop_of_ne _ hne, hus']
    rfl
  have hparse : parse text = .ok (normalize (Keyed.drop us filterName) ++
      (k, normalizeValue k w) :: normalize (Keyed.drop vs filterName)) := by
    rw [parse_eq_assembled hk hne.symm hnest, hus, hw, hvs]
    show assembled us k (normalizeValue k w) vs = _
    rw [assembled, hnone]
    rfl
  refine ⟨_, w, hparse, hw, ?_⟩
  rw [find?_append, hfirst]
  simp [find?]

/-! ## Conditions in both forms -/

/-- A condition that has a short form: a key that gives it one, an index or none, a column that
stands for itself and for no field of a record, and a text. -/
structure ShortCondition where
  key : Key
  field : ClauseField
  index : Option String
  column : String
  text : String
  short : key.shortField? = some field
  indexed : ∀ i ∈ index, Text.isIndexText i = true
  own : isOwnName column = true
  unreserved : ClauseField.isName column = false

namespace ShortCondition

variable (c : ShortCondition)

/-- The parameter of a name under the key and the index. -/
def parameter (name text : String) : String × String :=
  (renderPath (c.key.name :: (c.index.toList ++ [name])), text)

/-- The condition in one parameter. -/
def shortForm : String × String :=
  c.parameter c.column c.text

/-- The parameter of the column in the long form. -/
def columnForm : String × String :=
  c.parameter ClauseField.column.name c.column

/-- The parameter of the text in the long form. -/
def textForm : String × String :=
  c.parameter c.field.name c.text

/-- What the text stands for: its entries under a field of values. -/
def operand : Value :=
  match c.field with
  | .values => splitValues (.text c.text)
  | _ => .text c.text

/-- The record of the condition. -/
def record : Value :=
  .object [(ClauseField.column.name, .text c.column), (c.field.name, c.operand)]

/-- A value under the key, or the list of it where there is an index. -/
def listOf (v : Value) : Value :=
  match c.index with
  | none => v
  | some _ => .list [v]

/-- What the query holds under the key. -/
def value : Value :=
  c.listOf c.record

/-! ### Paths -/

theorem field_eq : c.field = .value ∨ c.field = .values :=
  Key.field_of_shortField? c.short

theorem isOwnName_field : isOwnName c.field.name = true := by
  rcases c.field_eq with h | h <;> rw [h] <;> decide

theorem isIndexText_key : Text.isIndexText c.key.name = false := by
  have hown := isOwnName_key c.key
  simp only [isOwnName, Bool.and_eq_true, Bool.not_eq_true'] at hown
  exact hown.2

theorem keyPath_parameter {name : String} (hname : isOwnName name = true) (text : String) :
    keyPath (c.parameter name text).1 = c.key.name :: (c.index.toList ++ [name]) := by
  have hkey := isSegment_of_isOwnName (isOwnName_key c.key)
  refine keyPath_renderPath hkey.ne_empty hkey.plain ?_
  intro segment hsegment
  rcases List.mem_append.1 hsegment with hi | hi
  · have hindex := c.indexed segment (by simpa using hi)
    have hbracket : ∀ d, isBracket d = true → Text.isDigitLike d = false := by
      intro d hd
      rcases (by simpa [isBracket] using hd : d = '[' ∨ d = ']') with rfl | rfl <;> decide
    intro d hd
    have hdigit := List.all_eq_true.1 (Bool.and_eq_true_iff.1 hindex).2 d hd
    by_contra hplain
    rw [hbracket d (by simpa using hplain)] at hdigit
    cases hdigit
  · rw [List.mem_singleton.1 hi]
    exact (isSegment_of_isOwnName hname).plain

/-! ### Fields -/

/-- The fields under the key and the index. -/
def placed (fields : Fields) : Fields :=
  match c.index with
  | none => fields
  | some i => [(i, .object fields)]

theorem index_ne_empty {i : String} (h : c.index = some i) : i ≠ "" := by
  rintro rfl
  cases c.indexed "" h

theorem insertAt_first {name : String} (hname : name ≠ "") (v : Value) :
    insertAt (c.index.toList ++ [name]) v [] = c.placed [(name, v)] := by
  unfold placed
  cases hindex : c.index with
  | none => simp [insertAt, segmentName, hname, put]
  | some i => simp [insertAt, segmentName, hname, c.index_ne_empty hindex, fieldsUnder, put]

theorem insertAt_placed {name : String} (hname : name ≠ "") (v : Value) (fields : Fields) :
    insertAt (c.index.toList ++ [name]) v (c.placed fields) = c.placed (put fields name v) := by
  unfold placed
  cases hindex : c.index with
  | none => simp [insertAt, segmentName, hname]
  | some i =>
    simp [insertAt, segmentName, hname, c.index_ne_empty hindex, fieldsUnder, put, find?]

/-- What the short form builds under the key. -/
def shortFields : Fields :=
  c.placed [(c.column, .text c.text)]

/-- What the long form builds under the key. -/
def longFields : Fields :=
  c.placed [(ClauseField.column.name, .text c.column), (c.field.name, .text c.text)]

theorem key_ne_empty : c.key.name ≠ "" :=
  (isSegment_of_isOwnName (isOwnName_key c.key)).ne_empty

theorem nest_shortForm : nest [c.shortForm] = [(c.key.name, .object c.shortFields)] := by
  have hcolumn : c.column ≠ "" := (isSegment_of_isOwnName c.own).ne_empty
  show insertAt (keyPath c.shortForm.1) (.text c.text) [] = _
  rw [shortForm, c.keyPath_parameter c.own,
    insertAt_new c.key_ne_empty (by simp) _ (by simp [keys]), c.insertAt_first hcolumn]
  rfl

/-- Both forms build the same object but for what stands under the key. -/
theorem nest_forms {before between after : List (String × String)}
    (hothers : ∀ p ∈ before ++ (between ++ after), (keyPath p.1).head? ≠ some c.key.name) :
    ∃ front back, c.key.name ∉ keys front ∧
      nest (before ++ c.shortForm :: (between ++ after)) =
        front ++ (c.key.name, .object c.shortFields) :: back ∧
      nest (before ++ c.columnForm :: (between ++ c.textForm :: after)) =
        front ++ (c.key.name, .object c.longFields) :: back := by
  have hk := c.isIndexText_key
  have hne := c.key_ne_empty
  have hfield : c.field.name ≠ "" := (isSegment_of_isOwnName c.isOwnName_field).ne_empty
  have hdistinct : ClauseField.column.name ≠ c.field.name := by
    rcases c.field_eq with h | h <;> rw [h] <;> decide
  let start := insertAll (paths before) []
  have hstart : c.key.name ∉ keys start :=
    not_mem_keys_insertAll hk (head?_paths fun p hp => hothers p (by simp [hp])) (by simp [keys])
  have hbetweenHeads : ∀ l ∈ paths between, l.1.head? ≠ some c.key.name :=
    head?_paths fun p hp => hothers p (by simp [hp])
  have hafterHeads : ∀ l ∈ paths after, l.1.head? ≠ some c.key.name :=
    head?_paths fun p hp => hothers p (by simp [hp])
  obtain ⟨front₁, back₁, hfront₁, hbetween⟩ := insertAll_beside hk hbetweenHeads hstart []
  obtain ⟨front₂, back₂, hfront₂, hafter⟩ := insertAll_beside hk hafterHeads hfront₁ back₁
  have hfirst : ∀ {name text}, isOwnName name = true →
      insertAt (keyPath (c.parameter name text).1) (.text text) start =
        start ++ [(c.key.name, .object (c.placed [(name, .text text)]))] := by
    intro name text hname
    rw [c.keyPath_parameter hname, insertAt_new hne (by simp) _ hstart,
      c.insertAt_first (isSegment_of_isOwnName hname).ne_empty]
  refine ⟨front₂, back₂, hfront₂, ?_, ?_⟩
  · calc nest (before ++ c.shortForm :: (between ++ after))
        = insertAll (paths after) (insertAll (paths between)
            (insertAt (keyPath c.shortForm.1) (.text c.text) start)) := by
          rw [nest_eq_paths, insertAll_paths, paths_append, insertAll_append]
          rfl
      _ = front₂ ++ (c.key.name, .object c.shortFields) :: back₂ := by
          rw [shortForm, hfirst c.own, hbetween, hafter]
          rfl
  · calc nest (before ++ c.columnForm :: (between ++ c.textForm :: after))
        = insertAll (paths after) (insertAt (keyPath c.textForm.1) (.text c.text)
            (insertAll (paths between)
              (insertAt (keyPath c.columnForm.1) (.text c.column) start))) := by
          rw [nest_eq_paths, insertAll_paths, insertAll_paths]
          rfl
      _ = insertAll (paths after) (front₁ ++ (c.key.name, .object (c.placed
            (put [(ClauseField.column.name, .text c.column)] c.field.name (.text c.text)))) ::
              back₁) := by
          rw [columnForm, hfirst (by decide), hbetween, textForm,
            c.keyPath_parameter c.isOwnName_field, insertAt_old hne (by simp) _ hfront₁,
            c.insertAt_placed hfield]
      _ = front₂ ++ (c.key.name, .object c.longFields) :: back₂ := by
          rw [hafter, longFields]
          simp [put, hdistinct]

/-! ### Records -/

/-- Reads the index, where there is one. -/
def readIndex : Except Fault Unit :=
  match c.index with
  | none => .ok ()
  | some i => (indexNumber i).map fun _ => ()

theorem readIndex_of_spelled (h : ∀ i ∈ c.index, SpellsNumber i) : c.readIndex = .ok () := by
  unfold readIndex
  cases hindex : c.index with
  | none => rfl
  | some i =>
    have hspelled := not_not_intro (h i hindex)
    obtain ⟨n, hn⟩ := (failsWhen_indexNumber (c.indexed i hindex)).holds hspelled
    simp only [hn]
    rfl

theorem listed_placed {fields : Fields} (h : listed (.object fields) = .ok (.object fields)) :
    listed (.object (c.placed fields)) = c.readIndex.map fun _ => c.listOf (.object fields) := by
  unfold placed readIndex listOf
  cases hindex : c.index with
  | none => exact h
  | some i =>
    have hindexed : isIndexed [(i, Value.object fields)] = true := by
      simp [isIndexed, c.indexed i hindex]
    rw [listed, listedFields, h]
    show (if isIndexed [(i, Value.object fields)] then _ else _) = _
    rw [hindexed, if_pos rfl, inIndexOrder_single]
    dsimp only
    cases indexNumber i with
    | error f => rfl
    | ok n => rfl

/-- Either form is expanded to the record. -/
theorem expandRecord_short :
    expandRecord c.key.name (.object [(c.column, .text c.text)]) = c.record := by
  have hshort : shortField? c.key.name = some c.field := by
    rw [← Key.shortField?_eq, c.short]
  simp only [expandRecord, c.unreserved, hshort, record, operand]
  rcases c.field_eq with h | h <;> rw [h] <;> rfl

theorem expandRecord_long : expandRecord c.key.name
    (.object [(ClauseField.column.name, .text c.column), (c.field.name, .text c.text)]) =
      c.record := by
  rw [expandRecord_of_length (by simp), record, operand]
  rcases c.field_eq with h | h <;> rw [h] <;> rfl

theorem normalizeValue_listOf {fields : Fields}
    (h : expandRecord c.key.name (.object fields) = c.record) :
    normalizeValue c.key.name (c.listOf (.object fields)) = c.value := by
  have hselect : c.key ≠ .select := by
    intro heq
    have hshort := c.short
    rw [heq] at hshort
    cases hshort
  unfold value listOf
  cases c.index with
  | none =>
    rw [normalizeValue_of_ne hselect]
    exact h
  | some i =>
    rw [normalizeValue_of_ne hselect]
    simp only [List.map_cons, List.map_nil, h]

/-- What either form builds under the key is read as the same value. -/
theorem map_listed_placed {fields : Fields}
    (hlisted : listed (.object fields) = .ok (.object fields))
    (hexpand : expandRecord c.key.name (.object fields) = c.record) :
    (listed (.object (c.placed fields))).map (normalizeValue c.key.name) =
      c.readIndex.map fun _ => c.value := by
  rw [c.listed_placed hlisted, ← c.normalizeValue_listOf hexpand]
  cases c.readIndex <;> rfl

theorem map_listed_short : (listed (.object c.shortFields)).map (normalizeValue c.key.name) =
    c.readIndex.map fun _ => c.value := by
  refine c.map_listed_placed (listed_of_texts ?_ ?_) c.expandRecord_short
  · simpa [keys] using c.own
  · simp

theorem map_listed_long : (listed (.object c.longFields)).map (normalizeValue c.key.name) =
    c.readIndex.map fun _ => c.value := by
  have hcolumn : isOwnName ClauseField.column.name = true := by decide
  refine c.map_listed_placed (listed_of_texts ?_ ?_) c.expandRecord_long
  · simp [keys, hcolumn, c.isOwnName_field]
  · simp

end ShortCondition

/-! ## Query strings -/

/-- Is the text a query string of these parameters, however they are encoded, with or without
question marks in front? -/
def IsQueryText (ps : List (String × String)) (text : String) : Prop :=
  ∃ (marks : Nat) (es : List (List Char × List Char)), List.Forall₂ EncodesParameter es ps ∧
    text.toList = List.replicate marks '?' ++ ['&'].intercalate (es.map piece)

theorem IsQueryText.nestOf_eq {ps : List (String × String)} {text : String}
    (h : IsQueryText ps text) : nestOf text = nest ps := by
  obtain ⟨marks, es, hes, htext⟩ := h
  have hmarks : ∀ c ∈ List.replicate marks '?', (c == '?') = true := by
    intro c hc
    rw [List.eq_of_mem_replicate hc]
    rfl
  rw [nestOf, htext, List.dropWhile_append_of_pos hmarks, dropWhile_pieces hes,
    parameters_pieces hes]

/-- **The short form means the long form.**  Among parameters with other keys, a condition has one
outcome in both forms.  The query holds its record wherever the query is read: without a filter
among the parameters when nothing that they build lacks an order, and alone for every index that
spells a number. -/
theorem parse_shortForm (c : ShortCondition) {before between after : List (String × String)}
    (hothers : ∀ p ∈ before ++ (between ++ after), (keyPath p.1).head? ≠ some c.key.name)
    {short long : String}
    (hshort : IsQueryText (before ++ c.shortForm :: (between ++ after)) short)
    (hlong : IsQueryText (before ++ c.columnForm :: (between ++ c.textForm :: after)) long) :
    parse short = parse long ∧
      ((∀ p ∈ before ++ (between ++ after), (keyPath p.1).head? ≠ some filterName) →
        ¬ IsUnordered (.object (nestOf short)) →
          ∃ query, parse short = .ok query ∧ find? query c.key.name = some c.value) ∧
      (before ++ (between ++ after) = [] → (∀ i ∈ c.index, SpellsNumber i) →
        parse short = .ok [(c.key.name, c.value)]) := by
  have hk := c.isIndexText_key
  have hkey := key_ne_filterName c.key
  obtain ⟨front, back, hfront, hnestShort, hnestLong⟩ := c.nest_forms hothers
  rw [← hshort.nestOf_eq] at hnestShort
  rw [← hlong.nestOf_eq] at hnestLong
  refine ⟨?_, ?_, ?_⟩
  · rw [parse_eq_assembled hk hkey hnestShort, parse_eq_assembled hk hkey hnestLong,
      c.map_listed_short, c.map_listed_long]
  · intro hunfiltered hordered
    have hfilter : filterName ∉ keys (nestOf short) := by
      rw [hshort.nestOf_eq, nest_eq_paths]
      refine not_mem_keys_insertAll (by decide) (head?_paths fun p hp => ?_) (by simp [keys])
      rcases List.mem_append.1 hp with hp | hp
      · exact hunfiltered p (by simp [hp])
      · rcases List.mem_cons.1 hp with rfl | hp
        · rw [show keyPath c.shortForm.1 = _ from c.keyPath_parameter c.own c.text]
          simpa using hkey
        · exact hunfiltered p (List.mem_append_right _ hp)
    obtain ⟨query, w, hquery, hw, hfind⟩ :=
      exists_parse_of_ordered hk hnestShort hfilter hfront hordered
    have hread := c.map_listed_short
    rw [hw] at hread
    cases hindex : c.readIndex with
    | error f =>
      rw [hindex] at hread
      cases hread
    | ok u =>
      rw [hindex] at hread
      rw [Except.ok.inj hread] at hfind
      exact ⟨query, hquery, hfind⟩
  · intro hnone hspelled
    obtain ⟨rfl, hrest⟩ := List.append_eq_nil_iff.1 hnone
    obtain ⟨rfl, rfl⟩ := List.append_eq_nil_iff.1 hrest
    have hnest : nestOf short = [] ++ (c.key.name, .object c.shortFields) :: [] := by
      rw [hshort.nestOf_eq]
      exact c.nest_shortForm
    rw [parse_eq_assembled hk hkey hnest, c.map_listed_short, c.readIndex_of_spelled hspelled]
    rfl

/-- A condition in a list of conditions. -/
def nameCondition : ShortCondition where
  key := .andWhere
  field := .value
  index := some "0"
  column := "NAME"
  text := "Ana M"
  short := rfl
  indexed := by decide
  own := by decide
  unreserved := by decide

/-- A condition that looks a column up in a list. -/
def idCondition : ShortCondition where
  key := .starter .whereIn
  field := .values
  index := none
  column := "ID"
  text := "1, 2"
  short := rfl
  indexed := by decide
  own := by decide
  unreserved := by decide

/-- Nothing lacks an order where an index spells a number. -/
theorem not_isUnordered_nameCondition :
    ¬ IsUnordered (.object
      (nest ([("LIMIT", "5")] ++ nameCondition.shortForm :: ([] ++ [("SELECT", "ID")])))) := by
  have hnest : nest ([("LIMIT", "5")] ++ nameCondition.shortForm :: ([] ++ [("SELECT", "ID")])) =
      [("LIMIT", .text "5"), ("AND_WHERE", .object [("0", .object [("NAME", .text "Ana M")])]),
        ("SELECT", .text "ID")] := rfl
  have htext : ∀ s, ¬ IsUnordered (.text s) := fun s h => nomatch h
  have hnames : Text.isIndexText "LIMIT" = false ∧ Text.isIndexText "NAME" = false := by decide
  have hzero : SpellsNumber "0" := ⟨by decide, by decide⟩
  rw [hnest]
  simp [isUnordered_object_iff, htext, isIndexed, keys, hnames, hzero]

theorem parse_shortForm_conditions :
    parse "?LIMIT=5&AND_WHERE[0][NAME]=Ana+%4D&SELECT=ID" =
        parse "LIMIT=5&AND_WHERE%5B0%5D[COLUMN]=NAME&AND_WHERE[0][VALUE]=Ana%20M&SELECT=ID" ∧
      (∃ query, parse "?LIMIT=5&AND_WHERE[0][NAME]=Ana+%4D&SELECT=ID" = .ok query ∧
        find? query "AND_WHERE" =
          some (.list [.object [("COLUMN", .text "NAME"), ("VALUE", .text "Ana M")]])) ∧
      parse "WHERE_IN[ID]=1,%202" = .ok [("WHERE_IN",
        .object [("COLUMN", .text "ID"), ("VALUES", .list [.text "1", .text "2"])])] := by
  have hshort : IsQueryText
      ([("LIMIT", "5")] ++ nameCondition.shortForm :: ([] ++ [("SELECT", "ID")]))
      "?LIMIT=5&AND_WHERE[0][NAME]=Ana+%4D&SELECT=ID" :=
    ⟨1, [("LIMIT".toList, "5".toList), ("AND_WHERE[0][NAME]".toList, "Ana+%4D".toList),
      ("SELECT".toList, "ID".toList)], by decide, by decide⟩
  have hlong : IsQueryText ([("LIMIT", "5")] ++
      nameCondition.columnForm :: ([] ++ nameCondition.textForm :: [("SELECT", "ID")]))
      "LIMIT=5&AND_WHERE%5B0%5D[COLUMN]=NAME&AND_WHERE[0][VALUE]=Ana%20M&SELECT=ID" :=
    ⟨0, [("LIMIT".toList, "5".toList), ("AND_WHERE%5B0%5D[COLUMN]".toList, "NAME".toList),
      ("AND_WHERE[0][VALUE]".toList, "Ana%20M".toList), ("SELECT".toList, "ID".toList)],
      by decide, by decide⟩
  have hidShort : IsQueryText ([] ++ idCondition.shortForm :: ([] ++ [])) "WHERE_IN[ID]=1,%202" :=
    ⟨0, [("WHERE_IN[ID]".toList, "1,%202".toList)], by decide, by decide⟩
  have hidLong : IsQueryText ([] ++ idCondition.columnForm :: ([] ++ idCondition.textForm :: []))
      "WHERE_IN[COLUMN]=ID&WHERE_IN[VALUES]=1,%202" :=
    ⟨0, [("WHERE_IN[COLUMN]".toList, "ID".toList), ("WHERE_IN[VALUES]".toList, "1,%202".toList)],
      by decide, by decide⟩
  obtain ⟨hsame, hamong, -⟩ := parse_shortForm nameCondition (by decide) hshort hlong
  obtain ⟨-, -, halone⟩ := parse_shortForm idCondition (by simp) hidShort hidLong
  rw [hshort.nestOf_eq] at hamong
  have hrecord := hamong (by decide) not_isUnordered_nameCondition
  exact ⟨hsame, hrecord, halone rfl (by simp [idCondition])⟩

end Bracket

end RowAccess
