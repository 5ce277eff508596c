import RowAccess.Sql.Condition

/-
  RowAccess/Sql/Precedence.lean
  =============================
  **How a written condition is read.**  A conjunction joins tests and parentheses, a disjunction
  joins conjunctions, and both are read from the left.  The words of a condition read this way have
  the truth of the condition (`Condition.reads_words`).
-/

namespace RowAccess.Sql

/-- What a run of words is read as. -/
inductive Level where
  | unit
  | conjunction
  | disjunction
  deriving DecidableEq, Repr

inductive Reads (atom : Predicate → Truth) : Level → List Word → Truth → Prop where
  | test (p : Predicate) : Reads atom .unit [.test p] (atom p)
  | parentheses {ws : List Word} {t : Truth} (h : Reads atom .disjunction ws t) :
    Reads atom .unit (.opening :: ws ++ [.closing]) t
  | single {ws : List Word} {t : Truth} (h : Reads atom .unit ws t) :
    Reads atom .conjunction ws t
  | and {ws vs : List Word} {t u : Truth} (h : Reads atom .conjunction ws t)
    (k : Reads atom .unit vs u) : Reads atom .conjunction (ws ++ .and :: vs) (t.and u)
  | term {ws : List Word} {t : Truth} (h : Reads atom .conjunction ws t) :
    Reads atom .disjunction ws t
  | or {ws vs : List Word} {t u : Truth} (h : Reads atom .disjunction ws t)
    (k : Reads atom .conjunction vs u) : Reads atom .disjunction (ws ++ .or :: vs) (t.or u)

namespace Reads

variable {atom : Predicate → Truth} {ws vs : List Word} {t u : Truth}

/-- Two conjunctions side by side are one. -/
theorem conjunction_and (h : Reads atom .conjunction ws t) (k : Reads atom .conjunction vs u) :
    Reads atom .conjunction (ws ++ .and :: vs) (t.and u) := by
  generalize hl : Level.conjunction = l at k
  induction k with
  | single k => exact .and h k
  | and _ k ih =>
    have := Reads.and (ih hl) k
    rw [Truth.and_assoc] at this
    simpa using this
  | _ => cases hl

/-- Two disjunctions side by side are one. -/
theorem disjunction_or (h : Reads atom .disjunction ws t) (k : Reads atom .disjunction vs u) :
    Reads atom .disjunction (ws ++ .or :: vs) (t.or u) := by
  generalize hl : Level.disjunction = l at k
  induction k with
  | term k => exact .or h k
  | or _ k ih =>
    have := Reads.or (ih hl) k
    rw [Truth.or_assoc] at this
    simpa using this
  | _ => cases hl

end Reads

/-- A condition's words are read as a conjunction unless a disjunction stands outermost. -/
def Condition.level (c : Condition) : Level :=
  if c.isEither then .disjunction else .conjunction

theorem Condition.reads_level (atom : Predicate → Truth) (c : Condition) :
    Reads atom c.level c.words (c.truthBy atom) := by
  induction c with
  | atom p => exact .single (.test p)
  | both c d ihc ihd =>
    have factor (e : Condition) (h : Reads atom e.level e.words (e.truthBy atom)) :
        Reads atom .conjunction
          (if e.isEither then .opening :: e.words ++ [.closing] else e.words)
          (e.truthBy atom) := by
      unfold level at h
      split
      · next he =>
        rw [if_pos he] at h
        exact .single (.parentheses h)
      · next he =>
        rw [if_neg he] at h
        exact h
    exact (factor c ihc).conjunction_and (factor d ihd)
  | either c d ihc ihd =>
    have term (e : Condition) (h : Reads atom e.level e.words (e.truthBy atom)) :
        Reads atom .disjunction e.words (e.truthBy atom) := by
      unfold level at h
      split at h
      · exact h
      · exact .term h
    exact (term c ihc).disjunction_or (term d ihd)

theorem Condition.reads_words (atom : Predicate → Truth) (c : Condition) :
    Reads atom .disjunction c.words (c.truthBy atom) := by
  have h := c.reads_level atom
  unfold level at h
  split at h
  · exact h
  · exact .term h

end RowAccess.Sql
