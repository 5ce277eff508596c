import RowAccess.Proofs.Outcome
import RowAccess.Schema.Folder

/-
  RowAccess/Proofs/Schema/Malformed.lean
  ======================================
  **Documents that are no catalogs.**  Most of what a catalog file may hold instead of a catalog is
  reported as a fault of the catalog: bytes that are no document, a document that is no object, a
  schema with a flaw in it.  A fault of another kind ends the reading exactly where the names or the
  schemas are given and have no members, or where the first schema that is not taken is no object
  or has a name that cannot be a key (`catalog_escapes_iff`).
-/

namespace RowAccess

open Outcome

variable {α β : Type}

/-- Does the outcome fail, and not as a fault of the catalog? -/
def Escapes (x : Except Fault α) : Prop :=
  ∃ f, x = .error f ∧ ∀ cause, f ≠ .catalog cause

namespace Escapes

theorem ok (a : α) : ¬ Escapes (.ok a) := by
  rintro ⟨f, hf, -⟩
  cases hf

theorem catalog (cause : CatalogFault) : ¬ Escapes (.error (.catalog cause) : Except Fault α) := by
  rintro ⟨f, hf, hcause⟩
  cases hf
  exact hcause cause rfl

theorem bind_iff {x : Except Fault α} {g : α → Except Fault β} :
    Escapes (x >>= g) ↔ Escapes x ∨ ∃ a, x = .ok a ∧ Escapes (g a) := by
  constructor
  · rintro ⟨f, hf, hcause⟩
    rcases bind_eq_error_iff.1 hf with hf | ⟨a, ha, hf⟩
    · exact .inl ⟨f, hf, hcause⟩
    · exact .inr ⟨a, ha, f, hf, hcause⟩
  · rintro (⟨f, hf, hcause⟩ | ⟨a, ha, f, hf, hcause⟩)
    · exact ⟨f, bind_eq_error_iff.2 (.inl hf), hcause⟩
    · exact ⟨f, bind_eq_error_iff.2 (.inr ⟨a, ha, hf⟩), hcause⟩

end Escapes

namespace TableSchema

/-- A flaw inside an object is reported, and what is no object is not asked for its fields. -/
theorem escapes_ofStored_iff {v : Value} : Escapes (ofStored v) ↔ v.isObject = false := by
  cases v with
  | object fields =>
    refine iff_of_false ?_ (by simp [Value.isObject])
    rw [ofStored]
    split
    · exact Escapes.ok _
    · exact Escapes.catalog _
  | _ => exact iff_of_true ⟨.noSuchOperation, rfl, by simp⟩ rfl

/-- A field that is given although its value has no members. -/
def Memberless (fields : Fields) (name : String) : Prop :=
  ∃ v, Keyed.find? fields name = some v ∧ v.isGiven = true ∧ v.members? = none

/-- A field without members fails, and every other field has a list of members. -/
theorem storedMembers_cases (fields : Fields) (name : String) :
    (Memberless fields name ∧ storedMembers fields name = .error .wrongShape) ∨
      ¬ Memberless fields name ∧ ∃ vs, storedMembers fields name = .ok vs := by
  unfold storedMembers Memberless
  cases Keyed.find? fields name with
  | none => exact .inr ⟨by simp, [], rfl⟩
  | some v =>
    cases hgiven : v.isGiven with
    | false => exact .inr ⟨by simp [hgiven], [], by simp [hgiven]⟩
    | true =>
      cases hmembers : v.members? with
      | none => exact .inl ⟨⟨v, rfl, hgiven, hmembers⟩, by simp [hgiven, hmembers]⟩
      | some vs => exact .inr ⟨by simp [hmembers], vs, by simp [hgiven, hmembers]⟩

theorem escapes_storedMembers_iff {fields : Fields} {name : String} :
    Escapes (storedMembers fields name) ↔ Memberless fields name := by
  rcases storedMembers_cases fields name with ⟨hless, heq⟩ | ⟨hless, vs, heq⟩ <;> rw [heq]
  · exact iff_of_true ⟨_, rfl, by simp⟩ hless
  · exact iff_of_false (Escapes.ok vs) hless

end TableSchema

namespace Catalog

/-- A stored schema that a catalog takes. -/
def Taken (v : Value) : Prop :=
  ∃ t, TableSchema.ofStored v = .ok t ∧ t.name.isKey = true

/-- A stored schema that is no object, or whose name cannot be a key. -/
def Foreign (v : Value) : Prop :=
  v.isObject = false ∨ ∃ t, TableSchema.ofStored v = .ok t ∧ t.name.isKey = false

/-- Is the first stored schema that is not taken a foreign one? -/
def StopsAtForeign (vs : List Value) : Prop :=
  ∃ before v after, vs = before ++ v :: after ∧ (∀ w ∈ before, Taken w) ∧ Foreign v

theorem not_stopsAtForeign_nil : ¬ StopsAtForeign [] := by
  rintro ⟨before, v, after, heq, -⟩
  cases before <;> cases heq

theorem stopsAtForeign_cons {v : Value} {vs : List Value} :
    StopsAtForeign (v :: vs) ↔ Foreign v ∨ Taken v ∧ StopsAtForeign vs := by
  constructor
  · rintro ⟨before, w, after, heq, htaken, hforeign⟩
    cases before with
    | nil =>
      cases heq
      exact .inl hforeign
    | cons u before =>
      cases heq
      exact .inr ⟨htaken _ List.mem_cons_self, before, w, after, rfl,
        fun x hx => htaken x (List.mem_cons_of_mem _ hx), hforeign⟩
  · rintro (hforeign | ⟨htaken, before, w, after, rfl, hbefore, hforeign⟩)
    · exact ⟨[], v, vs, rfl, by simp, hforeign⟩
    · exact ⟨v :: before, w, after, rfl, List.forall_mem_cons.2 ⟨htaken, hbefore⟩, hforeign⟩

/-- One stored schema is taken, or it is foreign, or it is reported. -/
theorem escapes_addStored_cons (c : Catalog) (v : Value) (vs : List Value) :
    Escapes (c.addStored (v :: vs)) ↔
      Foreign v ∨ ∃ t, TableSchema.ofStored v = .ok t ∧ t.name.isKey = true ∧
        Escapes ((c.put t).addStored vs) := by
  rw [addStored, Escapes.bind_iff, TableSchema.escapes_ofStored_iff, Foreign, or_assoc]
  refine or_congr_right ⟨?_, ?_⟩
  · rintro ⟨t, ht, hescapes⟩
    cases hkey : t.name.isKey with
    | true => exact .inr ⟨t, ht, hkey, by simpa [add, hkey] using hescapes⟩
    | false => exact .inl ⟨t, ht, hkey⟩
  · rintro (⟨t, ht, hkey⟩ | ⟨t, ht, hkey, hescapes⟩)
    · exact ⟨t, ht, .wrongShape, by simp [add, hkey, throw, throwThe, MonadExceptOf.throw], by simp⟩
    · exact ⟨t, ht, by simpa [add, hkey] using hescapes⟩

theorem escapes_addStored_iff {vs : List Value} {c : Catalog} :
    Escapes (c.addStored vs) ↔ StopsAtForeign vs := by
  induction vs generalizing c with
  | nil => exact iff_of_false (Escapes.ok _) not_stopsAtForeign_nil
  | cons v vs ih =>
    rw [escapes_addStored_cons, stopsAtForeign_cons]
    refine or_congr_right ⟨?_, ?_⟩
    · rintro ⟨t, ht, hkey, hescapes⟩
      exact ⟨⟨t, ht, hkey⟩, ih.1 hescapes⟩
    · rintro ⟨⟨t, ht, hkey⟩, hstops⟩
      exact ⟨t, ht, hkey, ih.2 hstops⟩

/-- An object that is no catalog and is not reported as one. -/
def Malformed : Value → Prop
  | .object fields =>
    TableSchema.Memberless fields "tables" ∨ TableSchema.Memberless fields "schemas" ∨
      ∃ vs, TableSchema.storedMembers fields "schemas" = .ok vs ∧ StopsAtForeign vs
  | _ => False

theorem escapes_ofStored_iff {v : Value} : Escapes (ofStored v) ↔ Malformed v := by
  cases v with
  | object fields =>
    rw [ofStored, Malformed]
    simp only [Escapes.bind_iff, TableSchema.escapes_storedMembers_iff, escapes_addStored_iff]
    rcases TableSchema.storedMembers_cases fields "tables" with ⟨hless, -⟩ | ⟨-, names, hnames⟩
    · exact iff_of_true (.inl hless) (.inl hless)
    · simp [hnames]
  | _ => exact iff_of_false (Escapes.catalog _) id

end Catalog

namespace Folder

theorem escapes_load_iff {p : Place} {f : Folder} :
    Escapes (f.load p) ↔ ∃ bytes v, f.entry? p.name = some (.file bytes) ∧
      documentOf bytes = .ok v ∧ Catalog.Malformed v := by
  unfold load
  cases hentry : f.entry? p.name with
  | none => exact iff_of_false (Escapes.ok _) (by simp)
  | some entry =>
    cases entry with
    | folder => exact iff_of_false (Escapes.catalog _) (by simp)
    | file bytes =>
      cases hdocument : documentOf bytes with
      | error detail =>
        exact iff_of_false (by simpa [hdocument] using Escapes.catalog _) (by simp [hdocument])
      | ok v => simp [hdocument, Catalog.escapes_ofStored_iff]

end Folder

/-- **Catalogs that are not reported.**  A catalog file is read or reported unless it holds a
document that is malformed; so is the document, and a stored schema unless it is no object. -/
theorem catalog_escapes_iff (p : Place) (f : Folder) (v : Value) :
    (Escapes (f.load p) ↔ ∃ bytes w, f.entry? p.name = some (.file bytes) ∧
      documentOf bytes = .ok w ∧ Catalog.Malformed w) ∧
    (Escapes (Catalog.ofStored v) ↔ Catalog.Malformed v) ∧
    (Escapes (TableSchema.ofStored v) ↔ v.isObject = false) :=
  ⟨Folder.escapes_load_iff, Catalog.escapes_ofStored_iff, TableSchema.escapes_ofStored_iff⟩

/-- A document with a number in the place of its tables. -/
def numberedTables : Value :=
  .object [("tables", .int 5)]

theorem ofStored_numberedTables :
    ¬ ∀ v, (∃ c, Catalog.ofStored v = .ok c) ∨
      ∃ cause, Catalog.ofStored v = .error (.catalog cause) := by
  intro h
  have hescapes : Catalog.ofStored numberedTables = .error .wrongShape := rfl
  rcases h numberedTables with ⟨c, hc⟩ | ⟨cause, hcause⟩
  · rw [hescapes] at hc
    cases hc
  · rw [hescapes] at hcause
    cases hcause

end RowAccess
