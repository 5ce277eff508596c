import Mathlib.Data.List.Forall2
import Mathlib.Data.List.Induction
import RowAccess.Value

/-
  RowAccess/Proofs/Keyed.lean
  ===========================
  **Entries under keys that nothing else is taken for.**  Sameness of values is no equality, so an
  entry under one key may answer for another.  A key that is the same as itself only is exact; texts
  are (`Value.exact_text`).  Under exact keys what was put is found, and nothing else changes.
-/

namespace RowAccess

namespace Keyed

variable {κ α : Type} [BEq κ]

structure Exact (key : κ) : Prop where
  left : ∀ k, (key == k) = true ↔ key = k
  right : ∀ k, (k == key) = true ↔ k = key

theorem exact_of_lawful [LawfulBEq κ] (key : κ) : Exact key :=
  ⟨fun _ => beq_iff_eq, fun _ => beq_iff_eq⟩

namespace Exact

variable {key : κ}

theorem self (h : Exact key) : (key == key) = true := (h.left key).2 rfl

theorem left_ne (h : Exact key) {k : κ} (hk : key ≠ k) : (key == k) = false :=
  Bool.eq_false_iff.2 fun e => hk ((h.left k).1 e)

theorem right_ne (h : Exact key) {k : κ} (hk : k ≠ key) : (k == key) = false :=
  Bool.eq_false_iff.2 fun e => hk ((h.right k).1 e)

/-- A list holds what is the same as an exact value only where it holds the value. -/
theorem contains_iff (h : Exact key) (ks : List κ) : ks.contains key = true ↔ key ∈ ks := by
  induction ks with
  | nil => simp
  | cons k ks ih => simp [List.contains_cons, h.left k, ih]

theorem find?_put (h : Exact key) (m : Keyed κ α) (value : α) :
    find? (put m key value) key = some value := by
  induction m with
  | nil => simp [put, find?, h.self]
  | cons e r ih =>
    obtain ⟨k, v⟩ := e
    by_cases hk : (k == key) = true
    · simp [put, find?, hk]
    · simp [put, find?, hk, ih]

theorem find?_put_of_ne (h : Exact key) (m : Keyed κ α) (value : α) {k : κ} (hk : key ≠ k) :
    find? (put m key value) k = find? m k := by
  induction m with
  | nil => simp [put, find?, h.left_ne hk]
  | cons e r ih =>
    obtain ⟨k', v⟩ := e
    by_cases hk' : (k' == key) = true
    · obtain rfl := (h.right k').1 hk'
      simp [put, find?, h.self, h.left_ne hk]
    · simp [put, find?, hk', ih]

/-- Putting under another key leaves what is under an exact one. -/
theorem find?_put_other (h : Exact key) (m : Keyed κ α) {k : κ} (hk : k ≠ key) (value : α) :
    find? (put m k value) key = find? m key := by
  induction m with
  | nil => simp [put, find?, h.right_ne hk]
  | cons e r ih =>
    obtain ⟨k', v⟩ := e
    by_cases hk' : (k' == k) = true
    · have hne : k' ≠ key := by
        rintro rfl
        exact hk ((h.left k).1 hk').symm
      simp [put, find?, hk', h.right_ne hne]
    · simp [put, find?, hk', ih]

theorem find?_putAll (h : Exact key) {m n : Keyed κ α} {value : α}
    (hfind : find? (putAll m n) key = some value) :
    find? m key = some value ∨ ∃ e ∈ n, e.2 = value := by
  induction n generalizing m with
  | nil => exact .inl hfind
  | cons e n ih =>
    obtain ⟨k, v⟩ := e
    rcases ih hfind with hput | ⟨e, he, hvalue⟩
    · by_cases hk : k = key
      · subst hk
        rw [h.find?_put] at hput
        exact .inr ⟨_, List.mem_cons_self, Option.some.inj hput⟩
      · rw [h.find?_put_other m hk] at hput
        exact .inl hput
    · exact .inr ⟨e, List.mem_cons_of_mem _ he, hvalue⟩

theorem find?_drop_of_ne (h : Exact key) (m : Keyed κ α) {k : κ} (hk : key ≠ k) :
    find? (drop m key) k = find? m k := by
  induction m with
  | nil => rfl
  | cons e r ih =>
    obtain ⟨k', v⟩ := e
    by_cases hk' : (k' == key) = true
    · obtain rfl := (h.right k').1 hk'
      simpa [drop, find?, h.self, h.left_ne hk] using ih
    · simp only [drop] at ih
      simp [drop, find?, hk', ih]

/-- A value is found exactly under the keys that are there. -/
theorem find?_eq_none_iff (h : Exact key) (m : Keyed κ α) :
    find? m key = none ↔ key ∉ keys m := by
  induction m with
  | nil => simp [keys]
  | cons e r ih =>
    obtain ⟨k, v⟩ := e
    by_cases hk : k = key
    · subst hk
      simp [find?, keys, h.self]
    · simp only [find?, h.right_ne hk, keys, List.map_cons, List.mem_cons, not_or] at ih ⊢
      simp [ih, Ne.symm hk]

theorem exists_find? (h : Exact key) {m : Keyed κ α} (hm : key ∈ keys m) :
    ∃ value, find? m key = some value := by
  cases hfind : find? m key with
  | none => exact absurd hm ((h.find?_eq_none_iff m).1 hfind)
  | some value => exact ⟨value, rfl⟩

theorem mem_of_find? (h : Exact key) {m : Keyed κ α} {value : α}
    (hm : find? m key = some value) : (key, value) ∈ m := by
  induction m with
  | nil => cases hm
  | cons e r ih =>
    obtain ⟨k, v⟩ := e
    rw [find?] at hm
    split at hm
    next hk =>
      rw [(h.right k).1 hk, Option.some.inj hm]
      exact List.mem_cons_self
    next => exact List.mem_cons_of_mem _ (ih hm)

/-- Where all entries under a key have one value, this is what is found. -/
theorem find?_of_forall (h : Exact key) {m : Keyed κ α} {value : α} (hm : (key, value) ∈ m)
    (honly : ∀ e ∈ m, e.1 = key → e.2 = value) : find? m key = some value := by
  obtain ⟨found, hfound⟩ := h.exists_find? (List.mem_map.2 ⟨_, hm, rfl⟩)
  exact hfound.trans (congrArg some (honly _ (h.mem_of_find? hfound) rfl))

theorem mem_keys_of_find? (h : Exact key) {m : Keyed κ α} {value : α}
    (hm : find? m key = some value) : key ∈ keys m :=
  List.mem_map.2 ⟨_, h.mem_of_find? hm, rfl⟩

theorem has_iff (h : Exact key) (m : Keyed κ α) : has m key = true ↔ key ∈ keys m := by
  rw [has, Option.isSome_iff_ne_none, ne_eq, h.find?_eq_none_iff m, Classical.not_not]

/-- A value under a new key goes to the end. -/
theorem put_of_not_mem (h : Exact key) {m : Keyed κ α} (hm : key ∉ keys m) (value : α) :
    put m key value = m ++ [(key, value)] := by
  induction m with
  | nil => rfl
  | cons e r ih =>
    obtain ⟨k, v⟩ := e
    simp only [keys, List.map_cons, List.mem_cons, not_or] at hm ih
    simp [put, h.right_ne (Ne.symm hm.1), ih hm.2]

/-- A key of the first of two parts is put there. -/
theorem put_append_of_mem (h : Exact key) {m : Keyed κ α} (hm : key ∈ keys m) (n : Keyed κ α)
    (value : α) : put (m ++ n) key value = put m key value ++ n := by
  induction m with
  | nil => cases hm
  | cons e r ih =>
    obtain ⟨k, v⟩ := e
    by_cases hk : (k == key) = true
    · simp [put, hk]
    · have hne : key ≠ k := fun e => hk ((h.right k).2 e.symm)
      simp only [keys, List.map_cons, List.mem_cons] at hm ih
      simp [put, hk, ih (hm.resolve_left hne)]

/-- A key that the first of two parts does not have is put into the second. -/
theorem put_append_of_not_mem (h : Exact key) {m : Keyed κ α} (hm : key ∉ keys m)
    (n : Keyed κ α) (value : α) : put (m ++ n) key value = m ++ put n key value := by
  induction m with
  | nil => rfl
  | cons e r ih =>
    obtain ⟨k, v⟩ := e
    simp only [keys, List.map_cons, List.mem_cons, not_or] at hm ih
    simp [put, h.right_ne (Ne.symm hm.1), ih hm.2]

/-- What was put under a new key and removed again leaves nothing. -/
theorem drop_put_of_not_mem (h : Exact key) {m : Keyed κ α} (hm : key ∉ keys m) (value : α) :
    drop (put m key value) key = m := by
  have hkeep : drop m key = m := by
    rw [drop, List.filter_eq_self]
    rintro ⟨k, v⟩ hk
    have hne : k ≠ key := fun heq => hm (List.mem_map.2 ⟨_, hk, heq⟩)
    simp [h.right_ne hne]
  rw [drop] at hkeep
  rw [h.put_of_not_mem hm, drop, List.filter_append, hkeep]
  simp [h.self]

/-- An entry after putting is the one that was put, or was there. -/
theorem mem_put (h : Exact key) {m : Keyed κ α} {value : α} {e : κ × α}
    (he : e ∈ put m key value) : e = (key, value) ∨ e ∈ m := by
  induction m with
  | nil => exact .inl (List.mem_singleton.1 he)
  | cons e' r ih =>
    obtain ⟨k, v⟩ := e'
    by_cases hk : (k == key) = true
    · obtain rfl := (h.right k).1 hk
      rw [put, if_pos hk] at he
      rcases List.mem_cons.1 he with he | he
      · exact .inl he
      · exact .inr (List.mem_cons_of_mem _ he)
    · rw [put, if_neg hk] at he
      rcases List.mem_cons.1 he with he | he
      · exact .inr (by rw [he]; exact List.mem_cons_self)
      · exact (ih he).imp_right (List.mem_cons_of_mem _)

/-- Putting under a key that is there keeps the keys. -/
theorem keys_put_of_mem (h : Exact key) {m : Keyed κ α} (hm : key ∈ keys m) (value : α) :
    keys (put m key value) = keys m := by
  induction m with
  | nil => cases hm
  | cons e r ih =>
    obtain ⟨k, v⟩ := e
    by_cases hk : (k == key) = true
    · simp [put, hk, keys]
    · have hne : key ≠ k := fun e => hk ((h.right k).2 e.symm)
      simp only [keys, List.map_cons, List.mem_cons] at hm ih
      simp [put, hk, keys, ih (hm.resolve_left hne)]

theorem mem_keys_put (h : Exact key) (m : Keyed κ α) (value : α) {k : κ} :
    k ∈ keys (put m key value) ↔ k ∈ keys m ∨ k = key := by
  by_cases hm : key ∈ keys m
  · rw [h.keys_put_of_mem hm]
    constructor
    · exact .inl
    · rintro (hk | rfl)
      · exact hk
      · exact hm
  · rw [h.put_of_not_mem hm]
    simp [keys]

end Exact

/-- Putting what is there changes nothing. -/
theorem put_of_find? {m : Keyed κ α} {key : κ} {value : α} (h : find? m key = some value) :
    put m key value = m := by
  induction m with
  | nil => cases h
  | cons e r ih =>
    obtain ⟨k, v⟩ := e
    by_cases hk : (k == key) = true
    · rw [find?, if_pos hk] at h
      rw [put, if_pos hk, Option.some.inj h]
    · rw [find?, if_neg hk] at h
      rw [put, if_neg hk, ih h]

theorem value_of_mem_put {m : Keyed κ α} {key : κ} {value : α} {e : κ × α}
    (he : e ∈ put m key value) : e.2 = value ∨ e ∈ m := by
  induction m with
  | nil =>
    rw [List.mem_singleton.1 he]
    exact .inl rfl
  | cons e' r ih =>
    obtain ⟨k, v⟩ := e'
    rw [put] at he
    split at he
    · rcases List.mem_cons.1 he with rfl | he
      · exact .inl rfl
      · exact .inr (List.mem_cons_of_mem _ he)
    · rcases List.mem_cons.1 he with rfl | he
      · exact .inr List.mem_cons_self
      · exact (ih he).imp_right (List.mem_cons_of_mem _)

theorem find?_drop_self [LawfulBEq κ] (m : Keyed κ α) (key : κ) : find? (drop m key) key = none := by
  rw [(exact_of_lawful key).find?_eq_none_iff]
  simp [keys, drop]

omit [BEq κ] in
theorem keys_map_values {β : Type} (m : Keyed κ α) (f : κ → α → β) :
    keys (m.map fun e => (e.1, f e.1 e.2)) = keys m := by
  simp [keys]

theorem find?_map_values [LawfulBEq κ] {β : Type} (m : Keyed κ α) (f : κ → α → β) (key : κ) :
    find? (m.map fun e => (e.1, f e.1 e.2)) key = (find? m key).map (f key) := by
  induction m with
  | nil => rfl
  | cons e r ih =>
    obtain ⟨k, v⟩ := e
    by_cases hk : k = key
    · subst hk
      simp [find?]
    · simp [find?, hk, ih]

/-! ## Distinct keys -/

/-- With distinct keys, the value under a key is found by its entry. -/
theorem find?_eq_some_iff {m : Keyed κ α} (hexact : ∀ k ∈ keys m, Exact k) (hm : (keys m).Nodup)
    (key : κ) (value : α) : find? m key = some value ↔ (key, value) ∈ m := by
  induction m with
  | nil => simp
  | cons e r ih =>
    obtain ⟨k, v⟩ := e
    simp only [keys, List.map_cons, List.nodup_cons, List.mem_cons, forall_eq_or_imp]
      at hm hexact ih
    by_cases hk : k = key
    · subst hk
      have hnot : (k, value) ∉ r := fun hr => hm.1 (List.mem_map.2 ⟨_, hr, rfl⟩)
      simp [find?, hexact.1.self, hnot, eq_comm]
    · simp [find?, hexact.1.left_ne hk, ih hexact.2 hm.2, Ne.symm hk]

/-- Entries under distinct keys go to the end one after another. -/
theorem putAll_eq_append [LawfulBEq κ] {m n : Keyed κ α} (h : (keys (m ++ n)).Nodup) :
    putAll m n = m ++ n := by
  induction n generalizing m with
  | nil => exact (List.append_nil m).symm
  | cons e n ih =>
    obtain ⟨k, v⟩ := e
    have hnew : k ∉ keys m := by
      intro hk
      rw [keys, List.map_append, List.nodup_append] at h
      exact h.2.2 k hk k List.mem_cons_self rfl
    show putAll (put m k v) n = _
    rw [(exact_of_lawful k).put_of_not_mem hnew, ih]
    · simp
    · simpa using h

theorem putAll_nil [LawfulBEq κ] {m : Keyed κ α} (h : (keys m).Nodup) : putAll [] m = m :=
  putAll_eq_append h

/-! ## Later entries -/

theorem nodup_keys_putAll [LawfulBEq κ] {m : Keyed κ α} (h : (keys m).Nodup) (n : Keyed κ α) :
    (keys (putAll m n)).Nodup := by
  induction n generalizing m with
  | nil => exact h
  | cons e n ih => exact ih (nodup_keys_put h e.1 e.2)

theorem nodup_keys_ofEntries [LawfulBEq κ] (m : Keyed κ α) : (keys (ofEntries m)).Nodup :=
  nodup_keys_putAll (m := []) List.nodup_nil m

theorem find?_append (m n : Keyed κ α) (key : κ) :
    find? (m ++ n) key = (find? m key).or (find? n key) := by
  induction m with
  | nil => rfl
  | cons e m ih =>
    by_cases hk : (e.1 == key) = true
    · simp [find?, hk]
    · simp [find?, hk, ih]

theorem find?_putAll_reverse [LawfulBEq κ] (m n : Keyed κ α) (key : κ) :
    find? (putAll m n) key = (find? n.reverse key).or (find? m key) := by
  induction n generalizing m with
  | nil => rfl
  | cons e n ih =>
    obtain ⟨k, v⟩ := e
    rw [List.reverse_cons, find?_append, Option.or_assoc]
    refine (ih (put m k v)).trans (congrArg _ ?_)
    by_cases hk : k = key
    · subst hk
      simp [find?]
    · simp [find?, find?_put_of_ne hk, hk]

omit [BEq κ] in
theorem mem_keys_append {m n : Keyed κ α} {key : κ} :
    key ∈ keys (m ++ n) ↔ key ∈ keys m ∨ key ∈ keys n := by
  simp [keys]

theorem mem_keys_putAll [LawfulBEq κ] {m n : Keyed κ α} {key : κ} :
    key ∈ keys (putAll m n) ↔ key ∈ keys m ∨ key ∈ keys n := by
  induction n generalizing m with
  | nil => simp [putAll, keys]
  | cons e n ih =>
    show key ∈ keys (putAll (put m e.1 e.2) n) ↔ _
    rw [ih, (exact_of_lawful e.1).mem_keys_put, or_assoc]
    simp [keys]

theorem putAll_putAll (m n l : Keyed κ α) : putAll (putAll m n) l = putAll m (n ++ l) :=
  List.foldl_append.symm

/-- The values under a key, in their order. -/
def valuesUnder (m : Keyed κ α) (key : κ) : List α :=
  (m.filter fun e => e.1 == key).map (·.2)

theorem valuesUnder_append (m n : Keyed κ α) (key : κ) :
    valuesUnder (m ++ n) key = valuesUnder m key ++ valuesUnder n key := by
  simp [valuesUnder]

theorem valuesUnder_flatMap {β : Type} (f : β → Keyed κ α) (xs : List β) (key : κ) :
    valuesUnder (xs.flatMap f) key = xs.flatMap fun x => valuesUnder (f x) key := by
  induction xs with
  | nil => rfl
  | cons x xs ih => rw [List.flatMap_cons, valuesUnder_append, ih, List.flatMap_cons]

theorem valuesUnder_of_not_mem [LawfulBEq κ] {m : Keyed κ α} {key : κ} (h : key ∉ keys m) :
    valuesUnder m key = [] := by
  rw [valuesUnder, List.map_eq_nil_iff, List.filter_eq_nil_iff]
  intro e he hkey
  exact h (List.mem_map.2 ⟨e, he, beq_iff_eq.1 hkey⟩)

/-- Under distinct keys there is one value at most. -/
theorem valuesUnder_eq_toList [LawfulBEq κ] {m : Keyed κ α} (h : (keys m).Nodup) (key : κ) :
    valuesUnder m key = (find? m key).toList := by
  induction m with
  | nil => rfl
  | cons e m ih =>
    simp only [keys, List.map_cons, List.nodup_cons] at h ih
    by_cases hk : e.1 = key
    · have hnone : valuesUnder m key = [] := valuesUnder_of_not_mem (by rw [← hk]; exact h.1)
      simp only [valuesUnder, List.map_eq_nil_iff] at hnone
      simp [valuesUnder, find?, hk, hnone]
    · simp only [valuesUnder] at ih
      simp [valuesUnder, find?, hk, ih h.2]

theorem find?_eq_head? (m : Keyed κ α) (key : κ) : find? m key = (valuesUnder m key).head? := by
  induction m with
  | nil => rfl
  | cons e m ih =>
    by_cases hk : (e.1 == key) = true
    · simp [find?, valuesUnder, hk]
    · simp only [valuesUnder] at ih
      simp [find?, valuesUnder, hk, ih]

/-- What is put under a key last is found there. -/
theorem find?_putAll_eq [LawfulBEq κ] (m n : Keyed κ α) (key : κ) :
    find? (putAll m n) key = (valuesUnder n key).getLast?.or (find? m key) := by
  rw [find?_putAll_reverse, find?_eq_head?, valuesUnder, List.filter_reverse, List.map_reverse,
    List.head?_reverse, ← valuesUnder]

/-- Of several entries under one key the last one counts. -/
theorem find?_ofEntries [LawfulBEq κ] (m : Keyed κ α) (key : κ) :
    find? (ofEntries m) key = find? m.reverse key := by
  rw [ofEntries, find?_putAll_reverse, find?_nil, Option.or_none]

/-- Keys stand where they first came. -/
theorem keys_ofEntries [LawfulBEq κ] (m : Keyed κ α) : keys (ofEntries m) = (keys m).eraseDups := by
  induction m using List.reverseRecOn with
  | nil => rfl
  | append_singleton m e ih =>
    have hput : ofEntries (m ++ [e]) = put (ofEntries m) e.1 e.2 := List.foldl_append
    have hkeys : keys (m ++ [e]) = keys m ++ [e.1] := List.map_append
    rw [hput, keys_put, ih, hkeys, List.eraseDups_append]
    by_cases hmem : e.1 ∈ keys m
    · simp [hmem, List.removeAll]
    · simp [hmem, List.removeAll, List.eraseDups_cons]

/-- Of several entries under one key the last one counts. -/
theorem find?_ofEntries_eq [LawfulBEq κ] (m : Keyed κ α) (key : κ) :
    find? (ofEntries m) key = (valuesUnder m key).getLast? := by
  rw [ofEntries, find?_putAll_eq, find?_nil, Option.or_none]

/-- Under distinct keys the entries with a value are those that are found with it. -/
theorem keys_filter_values [LawfulBEq κ] [DecidableEq α] {m : Keyed κ α} (h : (keys m).Nodup)
    (value : α) :
    keys (m.filter fun e => e.2 == value) = (keys m).filter fun k => find? m k == some value := by
  rw [keys, keys, List.filter_map]
  refine congrArg _ (List.filter_congr fun e he => ?_)
  have hfind : find? m e.1 = some e.2 :=
    (find?_eq_some_iff (fun k _ => exact_of_lawful k) h e.1 e.2).2 he
  rw [Function.comp, hfind]
  rfl

/-! ## Entry by entry -/

section Related

variable {β : Type} {R : κ × α → κ × β → Prop} {m : Keyed κ α} {n : Keyed κ β}

omit [BEq κ] in
theorem keys_eq_of_forall₂ (h : List.Forall₂ R m n) (hR : ∀ e f, R e f → e.1 = f.1) :
    keys m = keys n := by
  induction h with
  | nil => rfl
  | cons hef _ ih => exact List.cons_eq_cons.2 ⟨hR _ _ hef, ih⟩

/-- Entries that go in pairs under one key each are found in pairs. -/
theorem find?_forall₂ [LawfulBEq κ] (h : List.Forall₂ R m n) (hR : ∀ e f, R e f → e.1 = f.1)
    (key : κ) : Option.Rel (fun v w => R (key, v) (key, w)) (find? m key) (find? n key) := by
  induction h with
  | nil => exact .none
  | @cons e f m n hef _ ih =>
    obtain ⟨k, v⟩ := e
    obtain ⟨k', w⟩ := f
    obtain rfl : k = k' := hR _ _ hef
    by_cases hk : k = key
    · subst hk
      simpa [find?] using Option.Rel.some hef
    · simpa [find?, hk] using ih

end Related

end Keyed

namespace Value

theorem isText_iff {v : Value} : v.isText = true ↔ ∃ s, v = .text s := by
  cases v <;> simp [isText]

theorem exact_text (s : String) : Keyed.Exact (Value.text s) := by
  constructor
  · intro v
    show same (.text s) v = true ↔ _
    cases v <;> simp [same]
  · intro v
    show same v (.text s) = true ↔ _
    cases v <;> simp [same]

end Value

end RowAccess
