import RowAccess.Proofs.Query.Bracket.RoundTrip

/-
  RowAccess/Proofs/Query/Bracket/Append.lean
  ==========================================
  **What an empty index adds, and what it replaces.**  An empty index stands for the number of the
  fields that are there.  Where no field has that number for a name, a new field comes to the end
  and the others stay; but an index that was written out may have taken the number before, and then
  the field under it is replaced (`Bracket.empty_index_adds_iff`).
-/

namespace RowAccess.Bracket

open Keyed

/-! ## Places of the object that is built -/

/-- The names that the segments of a path stand for, from the outermost object on. -/
def address : Fields → List String → List String
  | _, [] => []
  | fields, segment :: rest =>
    segmentName fields segment :: address (fieldsUnder fields (segmentName fields segment)) rest

/-- The fields of the object at a place, none where there is no object. -/
def fieldsAt : Fields → List String → Fields
  | fields, [] => fields
  | fields, name :: rest => fieldsAt (fieldsUnder fields name) rest

/-- The text at a place. -/
def textAt? : Value → List String → Option String
  | .text s, [] => some s
  | .object fields, name :: rest => (find? fields name).bind fun v => textAt? v rest
  | _, _ => none

@[simp] theorem fieldsAt_nil (place : List String) : fieldsAt [] place = [] := by
  induction place with
  | nil => rfl
  | cons name rest ih => exact ih

theorem fieldsUnder_put_self (fields : Fields) (name : String) (v : Value) :
    fieldsUnder (put fields name v) name =
      match v with
      | .object inner => inner
      | _ => [] := by
  rw [fieldsUnder, find?_put_self]
  cases v <;> rfl

theorem fieldsUnder_put_of_ne {name k : String} (h : name ≠ k) (fields : Fields) (v : Value) :
    fieldsUnder (put fields name v) k = fieldsUnder fields k := by
  rw [fieldsUnder, find?_put_of_ne h]
  rfl

/-- What a text is put in place as behind a name: itself, or the object of the rest of its path. -/
def placedText (rest : List String) (s : String) (fields : Fields) : Value :=
  if rest = [] then .text s else .object (insertAt rest (.text s) fields)

theorem insertAt_text (segment : String) (rest : List String) (s : String) (fields : Fields) :
    insertAt (segment :: rest) (.text s) fields =
      put fields (segmentName fields segment)
        (placedText rest s (fieldsUnder fields (segmentName fields segment))) :=
  insertAt_cons segment rest (.text s) fields

theorem fieldsUnder_insertAt {segment : String} {rest : List String} (hrest : rest ≠ [])
    (s : String) (fields : Fields) :
    fieldsUnder (insertAt (segment :: rest) (.text s) fields) (segmentName fields segment) =
      insertAt rest (.text s) (fieldsUnder fields (segmentName fields segment)) := by
  rw [insertAt_text, fieldsUnder_put_self, placedText, if_neg hrest]

/-- A text at the end of a path goes into the object that the front of the path leads to. -/
theorem fieldsAt_insertAt (before : List String) {rest : List String} (hrest : rest ≠ [])
    (s : String) (fields : Fields) :
    fieldsAt (insertAt (before ++ rest) (.text s) fields) (address fields before) =
      insertAt rest (.text s) (fieldsAt fields (address fields before)) := by
  induction before generalizing fields with
  | nil => rfl
  | cons segment before ih =>
    rw [List.cons_append, address, fieldsAt, fieldsUnder_insertAt (by simp [hrest]), ih]
    rfl

theorem address_append (before rest : List String) (fields : Fields) :
    address fields (before ++ rest) =
      address fields before ++ address (fieldsAt fields (address fields before)) rest := by
  induction before generalizing fields with
  | nil => rfl
  | cons segment before ih =>
    rw [List.cons_append, address, ih]
    rfl

/-! ## Texts that stay -/

@[simp] theorem textAt?_object_nil (fields : Fields) : textAt? (.object fields) [] = none := rfl

theorem textAt?_object_cons (fields : Fields) (name : String) (rest : List String) :
    textAt? (.object fields) (name :: rest) = (find? fields name).bind fun v => textAt? v rest :=
  rfl

/-- Behind a name stand the texts of the object there. -/
theorem textAt?_cons {name k : String} {fields : Fields} {rest : List String} :
    textAt? (.object fields) (name :: k :: rest) =
      textAt? (.object (fieldsUnder fields name)) (k :: rest) := by
  rw [textAt?_object_cons, fieldsUnder]
  cases hfind : find? fields name with
  | none => rfl
  | some v => cases v <;> rfl

/-- A text that is put in place is found there, what stood on its way or behind it is gone, and
every other text stays. -/
theorem textAt?_placedText (path : List String) (s : String) (fields : Fields)
    (place : List String) :
    textAt? (placedText path s fields) place =
      if place = address fields path then some s
      else if place <+: address fields path ∨ address fields path <+: place then none
      else textAt? (.object fields) place := by
  induction path generalizing fields place with
  | nil =>
    cases place with
    | nil => rfl
    | cons k place => simp [placedText, address, textAt?]
  | cons segment rest ih =>
    let name := segmentName fields segment
    have hvalue : placedText (segment :: rest) s fields =
        .object (put fields name (placedText rest s (fieldsUnder fields name))) := by
      rw [placedText, if_neg (List.cons_ne_nil _ _), insertAt_text]
    rw [hvalue, address]
    cases place with
    | nil => simp
    | cons k place =>
      rw [textAt?_object_cons]
      by_cases hk : name = k
      · subst hk
        rw [find?_put_self, Option.bind_some, ih]
        simp only [List.cons.injEq, true_and, List.cons_prefix_cons, name]
        cases place with
        | nil => simp
        | cons k place => rw [textAt?_cons]
      · rw [find?_put_of_ne hk]
        simp [Ne.symm hk, hk, name, textAt?_object_cons]

theorem mem_keys_of_textAt? {place : List String} {name : String} {rest : List String}
    {fields : Fields} {s : String}
    (h : textAt? (.object fields) (place ++ name :: rest) = some s) :
    name ∈ keys (fieldsAt fields place) := by
  induction place generalizing fields with
  | nil =>
    obtain ⟨v, hv, -⟩ := Option.bind_eq_some_iff.1 h
    exact (exact_of_lawful name).mem_keys_of_find? hv
  | cons k place ih =>
    have hrest : textAt? (.object (fieldsUnder fields k)) (place ++ name :: rest) = some s := by
      cases place with
      | nil => exact textAt?_cons.symm.trans h
      | cons k' place => exact textAt?_cons.symm.trans h
    exact ih hrest

/-! ## Numbers that were written as indices -/

/-- Does every field that has a number for a name, and one that is not below the number of the
fields beside it, have a name that was written out? -/
def Numbered (written : String → Prop) (fields : Fields) : Prop :=
  ∀ place m, Text.decimal m ∈ keys (fieldsAt fields place) →
    m < (fieldsAt fields place).length ∨ written (Text.decimal m)

theorem Numbered.fieldsUnder {written : String → Prop} {fields : Fields}
    (h : Numbered written fields) (name : String) :
    Numbered written (Bracket.fieldsUnder fields name) :=
  fun place m hm => h (name :: place) m hm

theorem numbered_nil (written : String → Prop) : Numbered written [] := by
  intro place m hm
  rw [fieldsAt_nil] at hm
  cases hm

/-- An empty index takes the number of the fields, and then there is one more. -/
theorem Numbered.put_segmentName {written : String → Prop} {fields : Fields} {m : Nat}
    (h : Text.decimal m ∈ keys fields → m < fields.length ∨ written (Text.decimal m))
    {segment : String} (hsegment : segment ≠ "" → written segment) (v : Value)
    (hm : Text.decimal m ∈ keys (put fields (segmentName fields segment) v)) :
    m < (put fields (segmentName fields segment) v).length ∨ written (Text.decimal m) := by
  have hexact := exact_of_lawful (segmentName fields segment)
  by_cases hold : segmentName fields segment ∈ keys fields
  · have hkeys := hexact.keys_put_of_mem hold v
    have hlength := congrArg List.length hkeys
    simp only [keys, List.length_map] at hlength
    rw [hlength]
    rw [hkeys] at hm
    exact h hm
  · rw [hexact.put_of_not_mem hold, List.length_append, List.length_singleton]
    rcases (hexact.mem_keys_put fields v).1 hm with hm | hm
    · exact (h hm).imp_left Nat.lt_succ_of_lt
    · by_cases hempty : segment = ""
      · rw [segmentName, hempty] at hm
        rw [Text.decimal_injective hm]
        exact .inl (Nat.lt_succ_self _)
      · rw [segmentName, if_neg (by simpa using hempty)] at hm
        rw [hm]
        exact .inr (hsegment hempty)

theorem Numbered.insertAt {written : String → Prop} {path : List String}
    (hpath : ∀ segment ∈ path, segment ≠ "" → written segment) (s : String) {fields : Fields}
    (h : Numbered written fields) : Numbered written (Bracket.insertAt path (.text s) fields) := by
  induction path generalizing fields with
  | nil => exact h
  | cons segment rest ih =>
    obtain ⟨hsegment, hrest⟩ := List.forall_mem_cons.1 hpath
    rw [insertAt_text]
    intro place m hm
    cases place with
    | nil => exact Numbered.put_segmentName (h [] m) hsegment _ hm
    | cons k place =>
      rw [fieldsAt] at hm ⊢
      by_cases hk : segmentName fields segment = k
      · subst hk
        rw [fieldsUnder_put_self] at hm ⊢
        by_cases hnil : rest = []
        · simp [placedText, hnil, keys] at hm
        · rw [placedText, if_neg hnil] at hm ⊢
          exact ih hrest (h.fieldsUnder _) place m hm
      · rw [fieldsUnder_put_of_ne hk] at hm ⊢
        exact h (k :: place) m hm

/-- The names that were written out in the names of parameters. -/
def Written (ps : List (String × String)) (name : String) : Prop :=
  ∃ p ∈ ps, name ∈ keyPath p.1

/-- Over a whole query string, numbers are skipped only by indices that are written out. -/
theorem numbered_nest (ps : List (String × String)) : Numbered (Written ps) (nest ps) := by
  have hrun : ∀ qs : List (String × String), (∀ p ∈ qs, p ∈ ps) → ∀ fields,
      Numbered (Written ps) fields →
        Numbered (Written ps) (qs.foldl (fun fields p =>
          Bracket.insertAt (keyPath p.1) (.text p.2) fields) fields) := by
    intro qs
    induction qs with
    | nil => exact fun _ _ h => h
    | cons p qs ih =>
      intro hqs fields h
      obtain ⟨hp, hqs⟩ := List.forall_mem_cons.1 hqs
      exact ih hqs _ (h.insertAt (fun segment hsegment _ => ⟨p, hp, hsegment⟩) p.2)
  exact hrun ps (fun _ hp => hp) [] (numbered_nil _)

/-! ## Appending -/

/-- Has the object at the place one field more, under a new name at its end, and every other field
as it was? -/
def Adds (fields after : Fields) (place : List String) : Prop :=
  ∃ name v, name ∉ keys (fieldsAt fields place) ∧
    fieldsAt after place = fieldsAt fields place ++ [(name, v)]

/-- The text that an empty index appends is found behind it.  It is a new field, beside the old
ones, if and only if no field has the number of the fields for a name; a name that is taken so was
written out before.  Then no text is lost but one that stood where the object is made. -/
theorem empty_index_adds_iff (ps : List (String × String)) (before rest : List String)
    (s : String) :
    let fields := nest ps
    let place := address fields before
    let inner := fieldsAt fields place
    let after := insertAt (before ++ "" :: rest) (.text s) fields
    textAt? (.object after) (address fields (before ++ "" :: rest)) = some s ∧
      (Adds fields after place ↔ Text.decimal inner.length ∉ keys inner) ∧
      (Text.decimal inner.length ∈ keys inner → Written ps (Text.decimal inner.length)) ∧
      (Text.decimal inner.length ∉ keys inner → ∀ q t, textAt? (.object fields) q = some t →
        (textAt? (.object after) q = some t ↔ ¬ q <+: place)) := by
  intro fields place inner after
  let name := Text.decimal inner.length
  have hexact := exact_of_lawful name
  have hafter : placedText (before ++ "" :: rest) s fields = .object after :=
    if_neg (by simp)
  have htext := textAt?_placedText (before ++ "" :: rest) s fields
  rw [hafter] at htext
  have haddress : address fields (before ++ "" :: rest) =
      place ++ name :: address (fieldsUnder inner name) rest := address_append before _ fields
  have hinner : fieldsAt after place =
      put inner name (placedText rest s (fieldsUnder inner name)) := by
    rw [fieldsAt_insertAt before (List.cons_ne_nil "" rest), insertAt_text]
    rfl
  refine ⟨?_, ⟨?_, ?_⟩, ?_, ?_⟩
  · rw [htext, if_pos rfl]
  · rintro ⟨other, v, -, hother⟩ hmem
    have hkeys := hexact.keys_put_of_mem hmem (placedText rest s (fieldsUnder inner name))
    rw [← hinner, hother, keys, List.map_append] at hkeys
    have hlength := congrArg List.length hkeys
    simp [keys, inner] at hlength
  · intro hnew
    exact ⟨name, _, hnew, by rw [hinner, hexact.put_of_not_mem hnew]⟩
  · intro hmem
    exact (numbered_nest ps place inner.length hmem).resolve_left (Nat.lt_irrefl _)
  · intro hnew q t hq
    have hbeyond : ∀ tail, q ≠ place ++ name :: tail := by
      rintro tail rfl
      exact hnew (mem_keys_of_textAt? hq)
    have hshort : q <+: place ++ name :: address (fieldsUnder inner name) rest ↔ q <+: place := by
      refine ⟨fun hq => ?_, fun hq => hq.trans (List.prefix_append _ _)⟩
      rcases List.prefix_or_prefix_of_prefix hq (List.prefix_append _ _) with hq | ⟨r, rfl⟩
      · exact hq
      · rw [List.prefix_append_right_inj] at hq
        cases r with
        | nil => simp
        | cons k r =>
          obtain ⟨rfl, -⟩ := List.cons_prefix_cons.1 hq
          exact absurd rfl (hbeyond r)
    have hbehind : ¬ place ++ name :: address (fieldsUnder inner name) rest <+: q := by
      rintro ⟨r, rfl⟩
      exact hbeyond (address (fieldsUnder inner name) rest ++ r) (by simp)
    rw [htext, haddress, if_neg (hbeyond _)]
    simp only [hshort, hbehind, or_false]
    split
    next hlost => simp [hlost]
    next hstays => simp [hstays, hq]

/-- An index that was written out keeps an empty one from appending. -/
theorem empty_index_overwrites :
    ¬ (∀ ps before rest s, Adds (nest ps) (insertAt (before ++ "" :: rest) (.text s) (nest ps))
      (address (nest ps) before)) ∧
    parse "KEY[1]=a&KEY[]=b" = .ok [("KEY", .list [.text "b"])] := by
  constructor
  · intro h
    obtain ⟨name, v, -, hadds⟩ := h [("KEY[1]", "a")] ["KEY"] [] "b"
    have hlength : 1 = 2 := congrArg List.length hadds
    cases hlength
  · have hparameters : parameters ("KEY[1]=a&KEY[]=b".toList.dropWhile (· == '?')) =
        [("KEY[1]", "a"), ("KEY[]", "b")] := by decide
    have hnest : nest [("KEY[1]", "a"), ("KEY[]", "b")] =
        [("KEY", .object [("1", .text "b")])] := rfl
    have hnumber : indexNumber "1" = .ok 1 := rfl
    have hindexed : isIndexed [("1", Value.text "b")] = true ∧
        isIndexed [("KEY", Value.list [.text "b"])] = false := ⟨by decide, by decide⟩
    have hlisted : listed (.object (nest [("KEY[1]", "a"), ("KEY[]", "b")])) =
        .ok (.object [("KEY", .list [.text "b"])]) := by
      rw [hnest]
      simp [listed, listedFields, bind, Except.bind, pure, Except.pure, Except.map,
        inIndexOrder_single, hnumber, hindexed]
    exact parse_eq hparameters hlisted (by decide)

end RowAccess.Bracket
