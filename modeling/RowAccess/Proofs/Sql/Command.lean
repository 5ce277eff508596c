import RowAccess.Proofs.Sql.Update
import RowAccess.Sql.Statement

/-
  RowAccess/Proofs/Sql/Command.lean
  =================================
  **What the commands of one predicate do.**  A predicate has no nested selection and no
  disjunction, so that its rows are met by their ids.  A selection, a deletion and an update with the
  same predicate therefore find the same rows of the table.
-/

namespace RowAccess.Sql

open Outcome

/-! ## Predicates in a command -/

theorem Expr.substituteAll_eq_self {f : Expr → Option Expr} {es : List Expr}
    (h : ∀ e ∈ es, e.substitute f = e) : substituteAll f es = es := by
  induction es with
  | nil => rfl
  | cons e es ih =>
    rw [substituteAll, h e List.mem_cons_self, ih fun e' he' => h e' (List.mem_cons_of_mem _ he')]

/-- Is the expression a value, whether bound or written? -/
inductive Expr.IsValue : Expr → Prop
  | bound (c : Cell) : IsValue (.bound c)
  | literal (c : Cell) : IsValue (.literal c)

theorem Operand.isValue_expr (o : Operand) : o.expr.IsValue := by
  cases o with
  | bound p v => exact .bound _
  | verbatim s => exact .literal _
  | truth b => exact .literal _

theorem Choices.isValue_of_mem {choices : Choices} {e : Expr} (h : e ∈ choices.exprs) :
    e.IsValue := by
  cases choices with
  | together p vs =>
    obtain ⟨v, -, rfl⟩ := List.mem_map.1 h
    exact .bound _
  | apart os =>
    obtain ⟨o, -, rfl⟩ := List.mem_map.1 h
    exact o.isValue_expr

theorem Expr.IsValue.settled {e : Expr} (h : e.IsValue) (t : Items) : e.settled t = e := by
  cases h with
  | bound c => rfl
  | literal c => rfl

theorem cell_columnExpr {c : String} {column : ItemColumn}
    (hc : ItemColumn.find? (Identifier.found c) = some column) (i : Item) :
    (Predicate.columnExpr c).cell i = i.cell column := by
  show Name.cell ⟨Identifier.found c, !Identifier.isPlain c⟩ i = _
  rw [Name.cell, Name.meaning?]
  simp only [hc]
  rfl

namespace Predicate

variable (p : Predicate)

theorem settledWithin_expr (t : Items) (n : Nat) : p.expr.settledWithin t n = p.expr := by
  cases n with
  | zero => rfl
  | succ n =>
    cases p with
    | compare c r o => cases o <;> rfl
    | absent b c => rfl
    | like b c o => cases o <;> rfl
    | between b c low high => cases low <;> cases high <;> rfl
    | oneOf b c choices =>
      rw [expr]
      simp only [Expr.settledWithin, Expr.substitute, columnExpr]
      have hopen : Source.list.isOpen = true := rfl
      rw [if_pos hopen, Expr.substituteAll_eq_self]
      intro e he
      cases choices.isValue_of_mem he <;> rfl

theorem settled_expr (t : Items) : p.expr.settled t = p.expr :=
  p.settledWithin_expr t _

/-- The rows that pass a predicate are met in the order of their ids. -/
theorem turns_expr : Turns.of false p.expr = .whole := by
  cases p <;> rfl

theorem scan_expr (rows : List Item) :
    scan false (some p.expr) rows = rows.filter (passes (some p.expr)) := by
  rw [scan, turns_expr, Turns.arrange]

end Predicate

/-! ## Commands -/

variable {values : List Value} {t u : Items} {a : Answer}

/-- A command that ran did what it does to the table once its nested selections are settled, and all
names in it had a meaning. -/
theorem Command.run_eq_ok {c : Command} (h : c.run values t = .ok (u, a)) :
    c.checkNames = .ok () ∧ (c.settled t).perform t = .ok (u, a) := by
  obtain ⟨⟨⟩, hcheck, h⟩ := bind_eq_ok_iff.1 h
  obtain ⟨⟨⟩, -, hcheck⟩ := bind_eq_ok_iff.1 hcheck
  obtain ⟨⟨⟩, hnames, -⟩ := bind_eq_ok_iff.1 hcheck
  obtain ⟨⟨⟩, -, h⟩ := bind_eq_ok_iff.1 h
  refine ⟨hnames, ?_⟩
  dsimp only at h
  split at h
  · cases h
  · exact h

theorem exists_cell_of_sendFrom {position : Nat} (h : sendFrom position values = .ok ()) :
    ∀ v ∈ values, ∃ cell, Cell.ofValue v = .ok cell := by
  induction values generalizing position with
  | nil => exact fun v hv => absurd hv List.not_mem_nil
  | cons v values ih =>
    unfold sendFrom at h
    split at h
    · next cell hcell =>
      intro w hw
      rcases List.mem_cons.1 hw with rfl | hw
      · exact ⟨cell, hcell⟩
      · exact ih h w hw
    · cases h
    · cases h

/-- Every value beside a command that ran is one that the engine can store. -/
theorem Command.exists_cell {c : Command} (h : c.run values t = .ok (u, a)) :
    ∀ v ∈ values, ∃ cell, Cell.ofValue v = .ok cell := by
  obtain ⟨⟨⟩, -, h⟩ := bind_eq_ok_iff.1 h
  obtain ⟨⟨⟩, hsend, -⟩ := bind_eq_ok_iff.1 h
  exact exists_cell_of_sendFrom hsend

theorem sortRows_nil (rows : List Item) : sortRows [] rows = rows :=
  List.mergeSort_of_pairwise (List.pairwise_of_forall fun _ _ => rfl)

/-- The selection of all columns of the rows that pass a predicate. -/
def Selection.whole (table : TableName) (p : Predicate) : Selection :=
  ⟨.all, table, some (.atom p), [], none⟩

def columnTitles : List String :=
  ItemColumn.all.map ItemColumn.title

/-- The cells of a row in the order of the columns. -/
def Item.cells (i : Item) : List Cell :=
  ItemColumn.all.map i.cell

variable {table : TableName} {p : Predicate}

theorem settled_whole :
    (Statement.query (.whole table p)).settled t = Statement.query (.whole table p) := by
  simp only [Query.settled, Statement.query, Selection.whole, Condition.expr, Option.map_some,
    Option.map_none, p.settled_expr, List.map_nil]

theorem rows_whole :
    (Statement.query (.whole table p)).rows none 0 t = t.rows.filter (passes (some p.expr)) := by
  simp only [Query.rows, limitRows, Query.terms, Query.met, Query.isSorted, Statement.query,
    Selection.whole, Condition.expr, Option.map_some, List.map_nil, sortRows_nil, List.isEmpty_nil,
    Bool.not_true, Bool.false_and, List.isEmpty_cons, Bool.false_eq_true, if_false, p.scan_expr]
  rfl

/-- A selection shows the rows that pass and leaves the table as it is. -/
theorem run_select
    (h : (Command.select (Statement.query (.whole table p))).run values t = .ok (u, a)) :
    u = t ∧ a = .rows columnTitles ((t.rows.filter (passes (some p.expr))).map Item.cells) := by
  obtain ⟨-, h⟩ := Command.run_eq_ok h
  simp only [Command.settled, settled_whole, Command.perform] at h
  obtain ⟨answer, hanswer, h⟩ := bind_eq_ok_iff.1 h
  cases h
  refine ⟨rfl, ?_⟩
  have hshown : (Statement.query (.whole table p)).answer t =
      .ok (.rows columnTitles
        (((Statement.query (.whole table p)).rows none 0 t).map Item.cells)) := rfl
  rw [hshown, rows_whole] at hanswer
  exact (Except.ok.inj hanswer).symm

/-- A deletion keeps the rows that do not pass and counts the others. -/
theorem run_delete {target : Target}
    (h : (Command.delete target (some p.expr)).run values t = .ok (u, a)) :
    u = (t.keep fun i => !passes (some p.expr) i) ∧
      a = .affected (t.rows.filter (passes (some p.expr))).length := by
  obtain ⟨-, h⟩ := Command.run_eq_ok h
  simp only [Command.settled, Option.map_some, p.settled_expr, Command.perform] at h
  cases h
  exact ⟨rfl, rfl⟩

theorem settled_entryExprs (entries : List (String × Operand)) :
    ((Statement.entryExprs entries).map fun (n, e) => (n, e.settled t)) =
      Statement.entryExprs entries := by
  rw [Statement.entryExprs, List.map_map]
  refine List.map_congr_left fun e _ => ?_
  exact congrArg (Prod.mk _) (e.2.isValue_expr.settled t)

/-- An update changes the rows that pass and counts them. -/
theorem run_update {target : Target} {entries : List (String × Operand)}
    (h : (Command.update target (Statement.entryExprs entries) (some p.expr)).run values t =
      .ok (u, a)) :
    updateRows (Statement.entryExprs entries) (passes (some p.expr)) t = .ok u ∧
      a = .affected (t.rows.filter (passes (some p.expr))).length := by
  obtain ⟨-, h⟩ := Command.run_eq_ok h
  simp only [Command.settled, Option.map_some, p.settled_expr, settled_entryExprs,
    Command.perform] at h
  obtain ⟨changed, hchanged, h⟩ := bind_eq_ok_iff.1 h
  cases h
  exact ⟨hchanged, rfl⟩

end RowAccess.Sql
