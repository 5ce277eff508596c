import RowAccess.Sql.Precedence

/-
  RowAccess/Proofs/Condition/Reading.lean
  =======================================
  **A written condition has one reading.**  A reader who goes through the words once, from the left,
  keeps for every parenthesis that is still open the disjunction of the finished conjunctions and
  the conjunction that is being read.  Where the words can be read at all, this reader ends with
  their truth (`Reads.passes`), so no words are read in two ways (`Reads.unique`).
-/

namespace RowAccess.Sql

/-- What is kept for an open parenthesis: the conjunctions that are finished, and the one being
read. -/
structure Open where
  finished : Truth
  current : Truth

namespace Open

/-- Nothing read yet: a disjunction without alternatives and a conjunction without parts. -/
def start : Open := ⟨.no, .yes⟩

def truth (o : Open) : Truth := o.finished.or o.current

/-- Another part of the conjunction. -/
def join (o : Open) (t : Truth) : Open := { o with current := o.current.and t }

/-- The conjunction is finished, and another one begins. -/
def next (o : Open) : Open := ⟨o.truth, .yes⟩

end Open

/-- Reads a word, the innermost open parenthesis first. -/
def Word.pass (atom : Predicate → Truth) : List Open → Word → List Open
  | o :: os, .test p => o.join (atom p) :: os
  | o :: os, .or => o.next :: os
  | os, .opening => .start :: os
  | o :: p :: os, .closing => p.join o.truth :: os
  | os, _ => os

namespace Reads

variable {atom : Predicate → Truth} {ws : List Word} {t u : Truth}

/-- What passing over words that are read at a level does: a part joins the current conjunction, and
a disjunction, met where a conjunction begins, joins all that is finished. -/
def Passes (atom : Predicate → Truth) (l : Level) (ws : List Word) (t : Truth) : Prop :=
  match l with
  | .unit | .conjunction => ∀ o os, ws.foldl (Word.pass atom) (o :: os) = o.join t :: os
  | .disjunction => ∀ d os, ∃ o, ws.foldl (Word.pass atom) (⟨d, .yes⟩ :: os) = o :: os ∧
      o.truth = d.or t

theorem passes {l : Level} (h : Reads atom l ws t) : Passes atom l ws t := by
  induction h with
  | test p =>
    intro o os
    rfl
  | parentheses _ ih =>
    intro p os
    obtain ⟨o, hfold, htruth⟩ := ih .no (p :: os)
    simp only [List.cons_append, List.foldl_cons, List.foldl_append, List.foldl_nil]
    rw [show Word.pass atom (p :: os) .opening = ⟨.no, .yes⟩ :: p :: os from rfl, hfold]
    simp only [Word.pass, htruth, Truth.no_or]
  | single _ ih => exact ih
  | and _ _ ihc ihu =>
    intro o os
    simp only [List.foldl_append, List.foldl_cons, ihc o os]
    rw [show Word.pass atom (o.join _ :: os) .and = o.join _ :: os from rfl, ihu]
    simp [Open.join, Truth.and_assoc]
  | term _ ih =>
    intro d os
    refine ⟨_, ih _ os, ?_⟩
    simp [Open.truth, Open.join]
  | @or _ _ _ v _ _ ihd ihc =>
    intro d os
    obtain ⟨o, hfold, htruth⟩ := ihd d os
    refine ⟨o.next.join v, ?_, ?_⟩
    · simp only [List.foldl_append, List.foldl_cons, hfold]
      exact ihc o.next os
    · simp [Open.truth, Open.join, Open.next, ← Truth.or_assoc, ← htruth]

/-- Words that are read as a condition have only one truth. -/
theorem unique (h : Reads atom .disjunction ws t) (k : Reads atom .disjunction ws u) : t = u := by
  obtain ⟨o, hfold, htruth⟩ := h.passes .no []
  obtain ⟨p, kfold, ktruth⟩ := k.passes .no []
  rw [hfold] at kfold
  cases kfold
  simpa using htruth.symm.trans ktruth

end Reads

theorem Condition.reads_words_iff (atom : Predicate → Truth) (c : Condition) (t : Truth) :
    Reads atom .disjunction c.words t ↔ t = c.truthBy atom := by
  constructor
  · intro h
    exact h.unique (c.reads_words atom)
  · rintro rfl
    exact c.reads_words atom

end RowAccess.Sql
