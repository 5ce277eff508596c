import RowAccess.Proofs.Keyed
import RowAccess.Proofs.Outcome
import RowAccess.Sql.Statement

/-
  RowAccess/Proofs/Sql/Form.lean
  ==============================
  **The form of a statement**: what is left of it without the values that travel beside it.  The text
  of a draft and the names of its slots are those of its form, and so is the text that is sent for it
  (`Draft.text_of_prepared_form`).  The form of the draft of a statement is that of the form of the
  statement (`Statement.form_draft`).
-/

namespace RowAccess.Sql

open Outcome

/-! ## Forms of drafts -/

/-- Values that count only by their number, unless they are rows. -/
def listForm (values : List Value) : List Value :=
  if Piece.isRows values then values else values.map fun _ => .null

namespace Piece

def form : Piece → Piece
  | .words s => .words s
  | .single l _ _ => .single l .plain .null
  | .spread l _ values => .spread l .plain (listForm values)

@[simp] theorem label?_form (p : Piece) : p.form.label? = p.label? := by
  cases p with
  | single l q v =>
    cases l with
    | numbered stem => rfl
    | entry column =>
      by_cases hcolumn : column = ""
      · subst hcolumn
        rfl
      · simp [form, label?, hcolumn]
  | _ => rfl

@[simp] theorem isRows_listForm (values : List Value) :
    isRows (listForm values) = isRows values := by
  unfold listForm
  split
  · rfl
  · next hrows =>
    cases values with
    | nil => rfl
    | cons v vs => exact (Bool.eq_false_iff.2 hrows).symm

@[simp] theorem listText_listForm (values : List Value) :
    listText (listForm values) = listText values := by
  unfold listText
  rw [isRows_listForm]
  unfold listForm
  split
  · rfl
  · rw [List.length_map]

@[simp] theorem listForm_listForm (values : List Value) :
    listForm (listForm values) = listForm values := by
  unfold listForm
  split
  · rfl
  · cases values <;> simp [isRows]

@[simp] theorem form_form (p : Piece) : p.form.form = p.form := by
  cases p with
  | spread l q values => exact congrArg (Piece.spread l .plain) (listForm_listForm values)
  | _ => rfl

@[simp] theorem text_form (p : Piece) : p.form.text = p.text := by
  cases p with
  | words s => rfl
  | single l q v =>
    cases l with
    | numbered stem => rfl
    | entry column =>
      by_cases hcolumn : column = ""
      · subst hcolumn
        rfl
      · simp [form, text, hcolumn]
  | spread l q values => exact listText_listForm values

end Piece

namespace Draft

@[simp] theorem isList_form (p : Piece) : isList p.form = isList p := by
  cases p <;> rfl

def form (d : Draft) : Draft :=
  d.map Piece.form

@[simp] theorem form_nil : form [] = [] := rfl

@[simp] theorem form_cons (p : Piece) (d : Draft) : form (p :: d) = p.form :: form d := rfl

@[simp] theorem form_append (d e : Draft) : (d ++ e).form = d.form ++ e.form :=
  List.map_append

@[simp] theorem form_form (d : Draft) : d.form.form = d.form := by
  unfold form
  rw [List.map_map]
  exact List.map_congr_left fun p _ => p.form_form

@[simp] theorem text_form (d : Draft) : d.form.text = d.text := by
  unfold text form
  rw [List.map_map]
  congr 1
  exact List.map_congr_left fun p _ => p.text_form

theorem namedSlots_form (d : Draft) (before : List Label) :
    d.form.namedSlots before = (d.namedSlots before).map fun e => (e.1, e.2.form) := by
  induction d generalizing before with
  | nil => rfl
  | cons p d ih =>
    simp only [form, List.map_cons, namedSlots, Piece.label?_form]
    cases p.label? with
    | none => exact ih before
    | some l => exact congrArg (List.cons _) (ih (l :: before))

theorem slots_form (d : Draft) : d.form.slots = d.slots.map fun e => (e.1, e.2.form) :=
  d.namedSlots_form []

/-- The names of the slots of a form are those of the draft. -/
theorem map_slots_form {α : Type} (f : String → α) (d : Draft) :
    (d.form.slots.map fun e => f e.1) = d.slots.map fun e => f e.1 := by
  rw [slots_form, List.map_map]
  rfl

theorem ownParts_form (d : Draft) (before : List Label) :
    d.form.ownParts before = d.ownParts before := by
  induction d generalizing before with
  | nil => rfl
  | cons p d ih =>
    simp only [form_cons, ownParts, marker, Piece.label?_form, Piece.text_form, isList_form, ih]

@[simp] theorem template_form (d : Draft) : d.form.template = d.template := by
  rw [template, ownParts_form, template]

@[simp] theorem isPlain_form (d : Draft) : d.form.isPlain = d.isPlain := by
  have hnames := d.map_slots_form escaped
  unfold isPlain
  rw [template_form, ownParts_form]
  simp only [hnames]

theorem changedNames_form (d : Draft) : changedNames d.form.slots = changedNames d.slots := by
  unfold changedNames
  rw [d.map_slots_form fun n => (escaped n, n)]

theorem meant_form (d : Draft) (name : String) : meant d.form.slots name = meant d.slots name := by
  rw [meant, changedNames_form, meant]

/-- The text of a part depends on the form of the slots alone. -/
theorem partText_form (d : Draft) (part : Part) :
    partText d.form.slots part = partText d.slots part := by
  cases part with
  | list name wave =>
    have hany : (d.form.slots.any fun e => isList e.2) = d.slots.any fun e => isList e.2 := by
      rw [slots_form, List.any_map]
      simp only [Function.comp_def, isList_form]
    have hfind : Keyed.find? d.form.slots (meant d.slots name) =
        (Keyed.find? d.slots (meant d.slots name)).map Piece.form := by
      rw [slots_form]
      exact Keyed.find?_map_values d.slots (fun _ p => p.form) _
    simp only [partText, hany, meant_form, hfind]
    cases Keyed.find? d.slots (meant d.slots name) with
    | none => rfl
    | some p =>
      cases p with
      | spread l q vs => simp only [Option.map_some, Piece.form, Piece.listText_listForm]
      | _ => rfl
  | _ => rfl

@[simp] theorem isAmbiguous_form (d : Draft) : d.form.isAmbiguous = d.isAmbiguous := by
  unfold isAmbiguous
  rw [changedNames_form]

/-- What is sent has the text of its form. -/
theorem text_of_prepared_form {d e : Draft} {p q : Prepared} (hform : d.form = e.form)
    (hp : d.prepared = .ok p) (hq : e.prepared = .ok q) : p.text = q.text := by
  obtain ⟨_, -, hp⟩ := bind_eq_ok_iff.1 hp
  obtain ⟨texts, htexts, hp⟩ := bind_eq_ok_iff.1 hp
  obtain ⟨_, -, hp⟩ := bind_eq_ok_iff.1 hp
  obtain ⟨_, -, hq⟩ := bind_eq_ok_iff.1 hq
  obtain ⟨texts', htexts', hq⟩ := bind_eq_ok_iff.1 hq
  obtain ⟨_, -, hq⟩ := bind_eq_ok_iff.1 hq
  cases hp
  cases hq
  have htemplate : d.template = e.template := by
    rw [← template_form, hform, template_form]
  have hpart : partText d.slots = partText e.slots := by
    funext part
    rw [← partText_form, hform, partText_form]
  rw [htemplate, hpart, htexts'] at htexts
  cases htexts
  rfl

end Draft

/-! ## Forms of statements -/

namespace Operand

def form : Operand → Operand
  | .bound _ _ => .bound .plain .null
  | o => o

@[simp] theorem isBound_form (o : Operand) : o.form.isBound = o.isBound := by
  cases o <;> rfl

@[simp] theorem form_piece (o : Operand) (l : Label) : (o.piece l).form = o.form.piece l := by
  cases o <;> rfl

end Operand

def Choices.form : Choices → Choices
  | .together _ values => .together .plain (listForm values)
  | .apart operands => .apart (operands.map Operand.form)

theorem form_listPieces (l : Label) (operands : List Operand) :
    Draft.form (listPieces l operands) = listPieces l (operands.map Operand.form) := by
  induction operands with
  | nil => rfl
  | cons o operands ih =>
    cases operands with
    | nil => exact congrArg (· :: []) (o.form_piece l)
    | cons o' operands =>
      show (o.piece l).form :: .words ", " :: Draft.form (listPieces l (o' :: operands)) = _
      rw [ih, o.form_piece]
      rfl

theorem Choices.form_pieces (column : String) (choices : Choices) :
    Draft.form (choices.pieces column) = choices.form.pieces column := by
  cases choices with
  | together p values => rfl
  | apart operands => exact form_listPieces _ operands

namespace Predicate

def form : Predicate → Predicate
  | .compare c r o => .compare c r o.form
  | .absent n c => .absent n c
  | .like n c o => .like n c o.form
  | .oneOf n c choices => .oneOf n c choices.form
  | .between n c low high => .between n c low.form high.form

@[simp] theorem form_negate (p : Predicate) : p.negate.form = p.form.negate := by
  cases p <;> rfl

theorem form_pieces (p : Predicate) : Draft.form p.pieces = p.form.pieces := by
  cases p with
  | compare c r o => exact congrArg (fun q => [Piece.words _, q]) (o.form_piece _)
  | absent n c => rfl
  | like n c o => exact congrArg (fun q => [Piece.words _, q]) (o.form_piece _)
  | oneOf n c choices =>
    show .words _ :: Draft.form (choices.pieces c ++ _) = _
    rw [Draft.form_append, choices.form_pieces]
    rfl
  | between n c low high =>
    show [Piece.words _, (low.piece _).form, .words " AND ", (high.piece _).form] = _
    rw [low.form_piece, high.form_piece]
    rfl

end Predicate

namespace Condition

def form : Condition → Condition
  | .atom p => .atom p.form
  | .both c d => .both c.form d.form
  | .either c d => .either c.form d.form

@[simp] theorem isEither_form (c : Condition) : c.form.isEither = c.isEither := by
  cases c <;> rfl

/-- A word of a condition without its values. -/
def wordForm : Word → Word
  | .test p => .test p.form
  | w => w

theorem words_form (c : Condition) : c.form.words = c.words.map wordForm := by
  induction c with
  | atom p => rfl
  | both c d ihc ihd =>
    simp only [form, words, isEither_form, ihc, ihd, List.map_append, List.map_cons]
    split <;> split <;> simp [wordForm]
  | either c d ihc ihd => simp [form, words, ihc, ihd, wordForm]

theorem form_pieces (c : Condition) : Draft.form c.pieces = c.form.pieces := by
  unfold pieces Draft.form
  rw [words_form, List.map_flatMap, List.flatMap_map]
  congr 1
  funext w
  cases w with
  | test p => exact p.form_pieces
  | _ => rfl

theorem form_join (combine : Condition → Condition → Condition)
    (hcombine : ∀ c d, (combine c d).form = combine c.form d.form) (before : Option Condition)
    (p : Predicate) : (join combine before p).form = join combine (before.map form) p.form := by
  cases before with
  | none => rfl
  | some c => exact hcombine c (.atom p)

end Condition

/-- Entries without their values. -/
def entriesForm (entries : List (String × Operand)) : List (String × Operand) :=
  entries.map fun e => (e.1, e.2.form)

theorem form_entryPieces (before : String → String) (entries : List (String × Operand)) :
    Draft.form (entryPieces before entries) = entryPieces before (entriesForm entries) := by
  induction entries with
  | nil => rfl
  | cons e entries ih =>
    cases entries with
    | nil => exact congrArg (fun p => [Piece.words _, p]) (e.2.form_piece _)
    | cons e' entries =>
      show .words (before e.1) :: (e.2.piece (.entry e.1)).form :: .words ", " ::
        Draft.form (entryPieces before (e' :: entries)) = _
      rw [ih, e.2.form_piece]
      rfl

namespace Statement

/-- A statement without the values that travel beside it; what is written by hand is kept. -/
def form : Statement → Statement
  | .select s =>
    .select { s with condition := s.condition.map Condition.form, limit := s.limit.map fun _ => 0 }
  | .insert t entries returning => .insert t (entriesForm entries) returning
  | .update t entries p => .update t (entriesForm entries) p.form
  | .delete t p => .delete t (p.map Predicate.form)
  | s => s

theorem form_draft (s : Statement) : s.draft.form = s.form.draft.form := by
  cases s with
  | select s =>
    simp only [draft, form, Selection.draft, Draft.form_append]
    cases s.condition <;> cases s.limit <;> simp [← Condition.form_pieces, Piece.form]
  | extreme t f c => rfl
  | insert t entries returning =>
    have hempty : (entriesForm entries).isEmpty = entries.isEmpty := by cases entries <;> rfl
    have hnames : (entriesForm entries).map (fun e => Identifier.text e.1) =
      entries.map fun e => Identifier.text e.1 := List.map_map
    simp only [draft, form, hempty, hnames, Draft.form_append]
    split <;> simp [← form_entryPieces]
  | update t entries p => simp [draft, form, ← form_entryPieces, ← Predicate.form_pieces]
  | delete t p => cases p <;> simp [draft, form, ← Predicate.form_pieces]
  | written w => rfl

end Statement

end RowAccess.Sql
