/-
  RowAccess/Keyed.lean
  ====================
  **Entries under keys, in the order in which the keys first came.**  Putting a value under a key
  that is there replaces the value and keeps the place; a new key goes to the end.  This order is
  part of every answer: it decides the columns of a record, the tables of a catalog and which of
  two conditions comes last.
-/

namespace RowAccess

/-- Entries under keys, oldest key first. -/
abbrev Keyed (κ α : Type) := List (κ × α)

namespace Keyed

variable {κ α : Type} [BEq κ]

def find? : Keyed κ α → κ → Option α
  | [], _ => none
  | (k, v) :: r, key => if k == key then some v else find? r key

def has (m : Keyed κ α) (key : κ) : Bool :=
  (find? m key).isSome

/-- Puts a value under a key: in place of the old value, or at the end. -/
def put : Keyed κ α → κ → α → Keyed κ α
  | [], key, value => [(key, value)]
  | (k, v) :: r, key, value =>
    if k == key then (k, value) :: r else (k, v) :: put r key value

/-- Removes the value under a key. -/
def drop (m : Keyed κ α) (key : κ) : Keyed κ α :=
  m.filter fun (k, _) => !(k == key)

/-- Puts every entry of the second into the first, in order. -/
def putAll (m n : Keyed κ α) : Keyed κ α :=
  n.foldl (fun acc (k, v) => put acc k v) m

/-- The entries of a list, a later value of a key in place of an earlier one. -/
def ofEntries (entries : List (κ × α)) : Keyed κ α :=
  putAll [] entries

def keys (m : Keyed κ α) : List κ :=
  m.map (·.1)

def values (m : Keyed κ α) : List α :=
  m.map (·.2)

section Laws

variable [LawfulBEq κ]

omit [LawfulBEq κ] in
@[simp] theorem find?_nil (key : κ) : find? ([] : Keyed κ α) key = none := rfl

@[simp] theorem find?_put_self (m : Keyed κ α) (key : κ) (value : α) :
    find? (put m key value) key = some value := by
  induction m with
  | nil => simp [put, find?]
  | cons e r ih =>
    obtain ⟨k, v⟩ := e
    by_cases h : k = key
    · simp [put, find?, h]
    · simp [put, find?, h, ih]

/-- Of two values under one key the later one stays. -/
theorem put_put (m : Keyed κ α) (key : κ) (value later : α) :
    put (put m key value) key later = put m key later := by
  induction m with
  | nil => simp [put]
  | cons e r ih =>
    obtain ⟨k, v⟩ := e
    by_cases h : k = key
    · simp [put, h]
    · simp [put, h, ih]

theorem find?_put_of_ne {m : Keyed κ α} {key other : κ} (h : key ≠ other) (value : α) :
    find? (put m key value) other = find? m other := by
  induction m with
  | nil => simp [put, find?, h]
  | cons e r ih =>
    obtain ⟨k, v⟩ := e
    by_cases hk : k = key
    · subst hk; simp [put, find?, h]
    · by_cases ho : k = other
      · subst ho; simp [put, find?, hk]
      · simp [put, find?, hk, ho, ih]

/-- Keys stay where they are; only a new key is added, at the end. -/
theorem keys_put (m : Keyed κ α) (key : κ) (value : α) :
    keys (put m key value) = if key ∈ keys m then keys m else keys m ++ [key] := by
  induction m with
  | nil => simp [put, keys]
  | cons e r ih =>
    obtain ⟨k, v⟩ := e
    by_cases h : k = key
    · simp [put, keys, h]
    · have h' : ¬ key = k := fun e => h e.symm
      simp only [keys] at ih
      by_cases hm : key ∈ r.map (·.1)
      · simp [put, keys, h, ih, hm]
      · simp only [put, keys, beq_iff_eq, h, if_false, List.map_cons, ih, hm, List.mem_cons, h',
          or_self]
        simp

theorem find?_isSome_iff (m : Keyed κ α) (key : κ) : has m key = true ↔ key ∈ keys m := by
  induction m with
  | nil => simp [has, keys]
  | cons e r ih =>
    obtain ⟨k, v⟩ := e
    by_cases h : k = key
    · simp [has, find?, keys, h]
    · have h' : ¬ key = k := fun e => h e.symm
      simpa [has, find?, keys, h, h'] using ih

/-- The keys stay distinct. -/
theorem nodup_keys_put {m : Keyed κ α} (hm : (keys m).Nodup) (key : κ) (value : α) :
    (keys (put m key value)).Nodup := by
  rw [keys_put]
  split
  · exact hm
  · next h => exact List.nodup_append.2 ⟨hm, by simp, by
      intro a ha b hb
      rw [List.mem_singleton.1 hb]
      exact fun e => h (e ▸ ha)⟩

end Laws

end Keyed

end RowAccess
