import RowAccess.Sql.Cell
import RowAccess.Sql.Identifier

/-
  RowAccess/Sql/Item.lean
  =======================
  **The table of items.**  An item has an id and five further cells.  The rows of the table stand in
  the order of their ids, which are distinct, and this is part of the type: an insertion under a
  taken id is refused, and every other operation keeps the order.
-/

namespace RowAccess.Sql

inductive ItemColumn where
  | id
  | name
  | number
  | active
  | created
  | payload
  deriving DecidableEq, Repr

namespace ItemColumn

def all : List ItemColumn :=
  [.id, .name, .number, .active, .created, .payload]

def title : ItemColumn → String
  | .id => "ID"
  | .name => "NAME"
  | .number => "NUMBER"
  | .active => "ACTIVE"
  | .created => "CREATED"
  | .payload => "PAYLOAD"

def affinity : ItemColumn → Affinity
  | .id => .number
  | .name => .text
  | .number => .number
  | .active => .text
  | .created => .number
  | .payload => .free

/-- The names that stand for the id of a row in every table. -/
def rowNames : List String :=
  ["ROWID", "OID", "_ROWID_"]

def find? (name : String) : Option ItemColumn :=
  match all.find? fun c => Identifier.same c.title name with
  | some c => some c
  | none => if rowNames.any (Identifier.same name) then some .id else none

end ItemColumn

/-- A row of the table. -/
structure Item where
  id : Int
  name : Cell
  number : Cell
  active : Cell
  created : Cell
  payload : Cell
  deriving DecidableEq, Repr

namespace Item

def cell (i : Item) : ItemColumn → Cell
  | .id => .int i.id
  | .name => i.name
  | .number => i.number
  | .active => i.active
  | .created => i.created
  | .payload => i.payload

/-- Puts a cell into a column as the column stores it.  An id has to be an integer. -/
def put? (i : Item) (c : ItemColumn) (v : Cell) : Option Item :=
  match c, c.affinity.apply v with
  | .id, .int n => some { i with id := n }
  | .id, _ => none
  | .name, w => some { i with name := w }
  | .number, w => some { i with number := w }
  | .active, w => some { i with active := w }
  | .created, w => some { i with created := w }
  | .payload, w => some { i with payload := w }

def putAll? (i : Item) (cells : List (ItemColumn × Cell)) : Option Item :=
  cells.foldlM (fun i (c, v) => i.put? c v) i

/-- A row with an id and nothing else. -/
def blank (id : Int) : Item :=
  ⟨id, .null, .null, .null, .null, .null⟩

theorem cell_put?_self {i j : Item} {c : ItemColumn} {v : Cell} (h : i.put? c v = some j) :
    j.cell c = c.affinity.apply v := by
  cases c with
  | id =>
    unfold put? at h
    split at h <;> simp_all
    subst h
    rfl
  | _ =>
    simp only [put?, Option.some.injEq] at h
    subst h
    rfl

/-- All other columns stay. -/
theorem cell_put?_of_ne {i j : Item} {c d : ItemColumn} {v : Cell} (h : i.put? c v = some j)
    (hd : d ≠ c) : j.cell d = i.cell d := by
  cases c with
  | id =>
    unfold put? at h
    split at h <;> simp_all
    subst h
    cases d <;> simp_all [cell]
  | _ =>
    simp only [put?, Option.some.injEq] at h
    subst h
    cases d <;> simp_all [cell]

end Item

/-! ## Rows in the order of their ids -/

/-- Ids grow along the rows. -/
def Ascending (rows : List Item) : Prop :=
  rows.Pairwise fun a b => a.id < b.id

/-- Puts a row at its place, unless its id is taken. -/
def place? (item : Item) : List Item → Option (List Item)
  | [] => some [item]
  | r :: rest =>
    if item.id < r.id then some (item :: r :: rest)
    else if item.id = r.id then none
    else (place? item rest).map (r :: ·)

theorem mem_place? {item : Item} {rows placed : List Item} (h : place? item rows = some placed)
    (x : Item) : x ∈ placed ↔ x = item ∨ x ∈ rows := by
  induction rows generalizing placed with
  | nil =>
    simp only [place?, Option.some.injEq] at h
    subst h
    simp
  | cons r rest ih =>
    unfold place? at h
    split at h
    · simp only [Option.some.injEq] at h
      subst h
      simp
    · split at h
      · simp at h
      · obtain ⟨tail, ht, rfl⟩ := Option.map_eq_some_iff.1 h
        simp only [List.mem_cons, ih ht]
        constructor
        · rintro (h | h | h)
          · exact .inr (.inl h)
          · exact .inl h
          · exact .inr (.inr h)
        · rintro (h | h | h)
          · exact .inr (.inl h)
          · exact .inl h
          · exact .inr (.inr h)

theorem ascending_place? {item : Item} {rows placed : List Item}
    (h : place? item rows = some placed) (ha : Ascending rows) : Ascending placed := by
  induction rows generalizing placed with
  | nil =>
    simp only [place?, Option.some.injEq] at h
    subst h
    simp [Ascending]
  | cons r rest ih =>
    have hr := List.pairwise_cons.1 ha
    unfold place? at h
    split at h
    · next hlt =>
      simp only [Option.some.injEq] at h
      subst h
      refine List.pairwise_cons.2 ⟨fun b hb => ?_, ha⟩
      rcases List.mem_cons.1 hb with rfl | hb
      · exact hlt
      · exact Int.lt_trans hlt (hr.1 b hb)
    · next hlt =>
      split at h
      · simp at h
      · next hne =>
        obtain ⟨tail, ht, rfl⟩ := Option.map_eq_some_iff.1 h
        refine List.pairwise_cons.2 ⟨fun b hb => ?_, ih ht hr.2⟩
        rcases (mem_place? ht b).1 hb with rfl | hb
        · omega
        · exact hr.1 b hb

/-- A row finds its place exactly when no row has its id. -/
theorem place?_eq_none_iff {item : Item} {rows : List Item} (ha : Ascending rows) :
    place? item rows = none ↔ ∃ r ∈ rows, r.id = item.id := by
  induction rows with
  | nil => simp [place?]
  | cons r rest ih =>
    have hr := List.pairwise_cons.1 ha
    unfold place?
    split
    · next hlt =>
      simp only [reduceCtorEq, List.mem_cons, exists_eq_or_imp, false_iff, not_or, not_exists,
        not_and]
      refine ⟨by omega, fun x hx => ?_⟩
      have := hr.1 x hx
      omega
    · split
      · next heq => simp [heq]
      · next hne =>
        have : ¬ r.id = item.id := fun e => hne e.symm
        simp [ih hr.2, this]

/-- The content of the table. -/
structure Items where
  rows : List Item
  ascending : Ascending rows

namespace Items

/-- The table without rows. -/
def empty : Items :=
  ⟨[], List.Pairwise.nil⟩

/-- The table with one more row, unless its id is taken. -/
def insert? (t : Items) (item : Item) : Option Items :=
  match h : place? item t.rows with
  | none => none
  | some placed => some ⟨placed, ascending_place? h t.ascending⟩

/-- The rows that pass a test. -/
def keep (t : Items) (p : Item → Bool) : Items :=
  ⟨t.rows.filter p, t.ascending.filter p⟩

def greatestId : Int := Int.pow 2 63 - 1

/-- The first id from a number on that no row has, along rows in the order of their ids. -/
def firstFree (n : Int) : List Item → Int
  | [] => n
  | r :: rest =>
    if r.id < n then firstFree n rest
    else if r.id = n then firstFree (n + 1) rest
    else n

/-- The id of the next row: one in an empty table, else one more than the greatest, or the first
positive one that is free when there is none greater. -/
def nextId (t : Items) : Int :=
  match t.rows.getLast? with
  | none => 1
  | some r => if r.id < greatestId then r.id + 1 else firstFree 1 t.rows

theorem rows_insert? {t u : Items} {item : Item} (h : t.insert? item = some u) :
    place? item t.rows = some u.rows := by
  unfold insert? at h
  split at h
  · simp at h
  · next placed hp =>
    simp only [Option.some.injEq] at h
    subst h
    exact hp

theorem insert?_eq_none_iff (t : Items) (item : Item) :
    t.insert? item = none ↔ ∃ r ∈ t.rows, r.id = item.id := by
  rw [← place?_eq_none_iff t.ascending]
  unfold insert?
  split
  · next hp => simp [hp]
  · next placed hp => simp [hp]

theorem le_firstFree (n : Int) (rows : List Item) : n ≤ firstFree n rows := by
  induction rows generalizing n with
  | nil => simp [firstFree]
  | cons r rest ih =>
    unfold firstFree
    split
    · exact ih n
    · split
      · have := ih (n + 1)
        omega
      · exact Int.le_refl n

end Items

end RowAccess.Sql
