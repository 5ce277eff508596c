import RowAccess.Operation.Chain
import RowAccess.Proofs.Outcome

/-
  RowAccess/Proofs/Chain/Form.lean
  ================================
  **Accepted steps have the form of a chain.**  A chain never holds a step behind one of a later
  kind, because a step is refused as soon as the last one outranks it.  So the steps of a run
  without a refusal stand in the order of the kinds (`Chain.Sound.run`), and none is lost on the way
  (`Chain.steps_run`).  The steps of a form are not refused (`Chain.exists_run_form`).
-/

namespace RowAccess

namespace Chain

/-! ## One step -/

/-- May the step stand behind the steps that are there?  None of them is of a later kind, and one of
its own kind only where steps of the kind may repeat. -/
def Follows (before : List Step) (s : Step) : Prop :=
  ∀ x ∈ before, x.rank < s.rank ∨ x.rank = s.rank ∧ s.isExtension = true

/-- Everything that the addition of a step checks and does. -/
theorem add_eq_ok_iff (c d : Chain) (s : Step) :
    c.add s = .ok d ↔
      c.state ≠ .terminal ∧ c.isLate s = false ∧ (s.isStarter = true → c.state = .empty) ∧
        d = ⟨if s.isStarter then .started else if s.isExtension then .extended else c.state,
          c.steps ++ [s], some s.rank⟩ := by
  unfold add
  by_cases ht : c.state = .terminal
  · simp [ht]
  · by_cases hl : c.isLate s = true
    · simp [ht, hl]
    · by_cases hs : s.isStarter = true
      · by_cases he : c.state = .empty
        · simp [hl, hs, he, eq_comm (a := d)]
        · simp [ht, hl, hs, he]
      · simp [ht, hl, hs, eq_comm (a := d)]

/-- No step is of a later kind than the last one. -/
def Ranked (c : Chain) : Prop :=
  ∀ x ∈ c.steps, ∃ r, c.lastRank = some r ∧ x.rank ≤ r

theorem ranked_empty : empty.Ranked := by
  intro x hx
  cases hx

theorem Ranked.follows {c : Chain} {s : Step} (h : c.Ranked) (hl : c.isLate s = false) :
    Follows c.steps s := by
  intro x hx
  obtain ⟨r, hr, hxr⟩ := h x hx
  simp only [isLate, hr, Bool.or_eq_false_iff, Bool.and_eq_false_iff, decide_eq_false_iff_not,
    beq_eq_false_iff_ne, Bool.not_eq_false'] at hl
  rcases hl with ⟨hge, hne | hext⟩
  · exact .inl (by omega)
  · by_cases hlt : x.rank < s.rank
    · exact .inl hlt
    · exact .inr ⟨by omega, hext⟩

theorem Ranked.add {c d : Chain} {s : Step} (h : c.Ranked) (hd : c.add s = .ok d) :
    d.Ranked := by
  obtain ⟨-, hl, -, rfl⟩ := (add_eq_ok_iff c d s).1 hd
  intro x hx
  refine ⟨s.rank, rfl, ?_⟩
  rcases List.mem_append.1 hx with hx | hx
  · rcases h.follows hl x hx with hlt | ⟨heq, -⟩
    · exact Nat.le_of_lt hlt
    · exact Nat.le_of_eq heq
  · exact Nat.le_of_eq (congrArg Step.rank (List.mem_singleton.1 hx))

/-! ## The form -/

theorem isForm_nil : IsForm [] :=
  ⟨none, none, [], [], [], none, none, rfl⟩

/-- A part of the form is empty when its steps may not stand before the step. -/
theorem Follows.part_eq_nil {α : Type} {before : List Step} {s : Step} (h : Follows before s)
    (f : α → Step) {part : List α} (hpart : ∀ a ∈ part, f a ∈ before)
    (hf : ∀ a, s.rank < (f a).rank ∨ s.rank = (f a).rank ∧ s.isExtension = false) :
    part = [] := by
  rw [List.eq_nil_iff_forall_not_mem]
  intro a ha
  have hbefore := h (f a) (hpart a ha)
  rcases hf a with hlt | ⟨heq, hext⟩
  · omega
  · simp [heq, hext] at hbefore

/-- A step that may stand behind a form extends it. -/
theorem IsForm.snoc {steps : List Step} {s : Step} (h : IsForm steps) (hs : Follows steps s) :
    IsForm (steps ++ [s]) := by
  obtain ⟨select, starter, andWhere, orWhere, orWhereIn, limit, order, rfl⟩ := h
  -- The parts of later kinds are empty, so the step stands at the end of its own part.
  have selects (hr : s.rank = 0) : select = none :=
    Option.toList_eq_nil_iff.1 <| hs.part_eq_nil .select (by simp +contextual [form]) fun _ => by
      cases s <;> simp_all [Step.rank, Step.isExtension]
  have starters (hr : decide (s.rank ≤ 1)) : starter = none :=
    Option.toList_eq_nil_iff.1 <| hs.part_eq_nil .starter (by simp +contextual [form]) fun _ => by
      cases s <;> simp_all [Step.rank, Step.isExtension]
  have ands (hr : decide (s.rank < 2)) : andWhere = [] :=
    hs.part_eq_nil .andWhere (by simp +contextual [form]) fun _ => .inl (of_decide_eq_true hr)
  have ors (hr : decide (s.rank < 3)) : orWhere = [] :=
    hs.part_eq_nil .orWhere (by simp +contextual [form]) fun _ => .inl (of_decide_eq_true hr)
  have ins (hr : decide (s.rank < 4)) : orWhereIn = [] :=
    hs.part_eq_nil .orWhereIn (by simp +contextual [form]) fun _ => .inl (of_decide_eq_true hr)
  have limits (hr : decide (s.rank ≤ 5)) : limit = none :=
    Option.toList_eq_nil_iff.1 <| hs.part_eq_nil .limit (by simp +contextual [form]) fun _ => by
      cases s <;> simp_all [Step.rank, Step.isExtension]
  have orders : order = none :=
    Option.toList_eq_nil_iff.1 <| hs.part_eq_nil .order (by simp +contextual [form]) fun _ => by
      cases s <;> simp_all [Step.rank, Step.isExtension]
  cases s with
  | select cols =>
    refine ⟨some cols, none, [], [], [], none, none, ?_⟩
    simp [form, selects rfl, starters rfl, ands rfl, ors rfl, ins rfl, limits rfl, orders]
  | starter st =>
    refine ⟨select, some st, [], [], [], none, none, ?_⟩
    simp [form, starters rfl, ands rfl, ors rfl, ins rfl, limits rfl, orders]
  | andWhere c =>
    refine ⟨select, starter, andWhere ++ [c], [], [], none, none, ?_⟩
    simp [form, ors rfl, ins rfl, limits rfl, orders]
  | orWhere c =>
    refine ⟨select, starter, andWhere, orWhere ++ [c], [], none, none, ?_⟩
    simp [form, ins rfl, limits rfl, orders]
  | orWhereIn c =>
    refine ⟨select, starter, andWhere, orWhere, orWhereIn ++ [c], none, none, ?_⟩
    simp [form, limits rfl, orders]
  | limit v =>
    refine ⟨select, starter, andWhere, orWhere, orWhereIn, some v, none, ?_⟩
    simp [form, limits rfl, orders]
  | order terms =>
    refine ⟨select, starter, andWhere, orWhere, orWhereIn, limit, some terms, ?_⟩
    simp [form, orders]

/-! ## Runs -/

/-- What holds of a chain after every run without a refusal. -/
structure Sound (c : Chain) : Prop where
  ranked : c.Ranked
  isForm : IsForm c.steps

theorem sound_empty : empty.Sound :=
  ⟨ranked_empty, isForm_nil⟩

theorem Sound.add {c d : Chain} {s : Step} (h : c.Sound) (hd : c.add s = .ok d) : d.Sound := by
  refine ⟨h.ranked.add hd, ?_⟩
  obtain ⟨-, hl, -, -⟩ := (add_eq_ok_iff c d s).1 hd
  rw [steps_add hd]
  exact h.isForm.snoc (h.ranked.follows hl)

theorem Sound.run {c d : Chain} {steps : List Step} (h : c.Sound)
    (hd : steps.foldlM Chain.add c = .ok d) : d.Sound :=
  Outcome.foldlM_induction (fun _ d => d.Sound) h (fun _ _ _ _ hs ht => hs.add ht) hd

/-- The steps of a run stand behind those that were there, in the order in which they came. -/
theorem steps_run {c d : Chain} {steps : List Step} (hd : steps.foldlM Chain.add c = .ok d) :
    d.steps = c.steps ++ steps := by
  refine Outcome.foldlM_induction (fun done d => d.steps = c.steps ++ done) ?_ ?_ hd
  · simp
  · intro done s x t hs ht
    rw [steps_add ht, hs, List.append_assoc]

/-! ## Runs that are accepted -/

/-- May the second step stand behind the first? -/
def MayFollow (x s : Step) : Prop :=
  x.rank < s.rank ∨ x.rank = s.rank ∧ s.isExtension = true

/-- What holds of a chain that is not built yet. -/
structure Live (c : Chain) : Prop where
  unbuilt : c.state ≠ .terminal
  last : c.lastRank = c.steps.getLast?.map Step.rank
  opened : c.state ≠ .empty → ∃ x ∈ c.steps, 1 ≤ x.rank

theorem live_empty : empty.Live :=
  ⟨by decide, rfl, fun h => absurd rfl h⟩

theorem Live.add {c : Chain} {s : Step} (h : c.Live) (hs : Follows c.steps s) :
    ∃ d, c.add s = .ok d ∧ d.Live := by
  have hlate : c.isLate s = false := by
    rw [isLate, h.last]
    cases hlast : c.steps.getLast? with
    | none => rfl
    | some x =>
      rcases hs x (List.mem_of_getLast? hlast) with hlt | ⟨heq, hext⟩
      · simp
        omega
      · simp [heq, hext]
  have hstarter : s.isStarter = true → c.state = .empty := by
    intro hstarts
    refine Classical.byContradiction fun hstate => ?_
    obtain ⟨x, hx, hrank⟩ := h.opened hstate
    cases s with
    | starter st =>
      rcases hs x hx with hlt | ⟨-, hext⟩
      · exact absurd hrank (Nat.not_le.2 hlt)
      · cases hext
    | _ => cases hstarts
  refine ⟨_, (add_eq_ok_iff c _ s).2 ⟨h.unbuilt, hlate, hstarter, rfl⟩, ?_⟩
  constructor
  · dsimp only
    split
    · decide
    · split
      · decide
      · exact h.unbuilt
  · simp
  · intro hstate
    by_cases hrank : 1 ≤ s.rank
    · exact ⟨s, by simp, hrank⟩
    · have hselect : s.isStarter = false ∧ s.isExtension = false := by
        cases s <;> first | exact ⟨rfl, rfl⟩ | exact absurd hrank (by simp [Step.rank])
      rw [hselect.1, hselect.2] at hstate
      obtain ⟨x, hx, hx'⟩ := h.opened hstate
      exact ⟨x, List.mem_append_left _ hx, hx'⟩

/-- Steps that may follow each other are all accepted. -/
theorem Live.run {c : Chain} {steps : List Step} (h : c.Live)
    (hsteps : (c.steps ++ steps).Pairwise MayFollow) :
    ∃ d, steps.foldlM Chain.add c = .ok d ∧ d.Live := by
  induction steps generalizing c with
  | nil => exact ⟨c, rfl, h⟩
  | cons s rest ih =>
    have hs : Follows c.steps s :=
      fun x hx => (List.pairwise_append.1 hsteps).2.2 x hx s List.mem_cons_self
    obtain ⟨d, hd, hlive⟩ := h.add hs
    rw [List.foldlM_cons, hd]
    refine ih hlive ?_
    rw [steps_add hd, List.append_assoc]
    exact hsteps

/-- Steps of the next kind may stand behind steps of kinds up to there. -/
theorem pairwise_append_rank {n : Nat} {xs ys : List Step}
    (hxs : xs.Pairwise MayFollow ∧ ∀ x ∈ xs, x.rank ≤ n)
    (hys : ys.Pairwise MayFollow ∧ ∀ y ∈ ys, y.rank = n + 1) :
    (xs ++ ys).Pairwise MayFollow ∧ ∀ x ∈ xs ++ ys, x.rank ≤ n + 1 := by
  constructor
  · refine List.pairwise_append.2 ⟨hxs.1, hys.1, ?_⟩
    intro x hx y hy
    have hx' := hxs.2 x hx
    have hy' := hys.2 y hy
    exact .inl (by omega)
  · intro x hx
    rcases List.mem_append.1 hx with hx | hx
    · exact Nat.le_succ_of_le (hxs.2 x hx)
    · exact Nat.le_of_eq (hys.2 x hx)

theorem pairwise_form (select : Option (List Value)) (starter : Option Starter)
    (andWhere orWhere orWhereIn : List Clause) (limit : Option Value)
    (order : Option (List OrderTerm)) :
    (form select starter andWhere orWhere orWhereIn limit order).Pairwise MayFollow := by
  have hone : ∀ {α : Type} (f : α → Step) (n : Nat) (o : Option α), (∀ a, (f a).rank = n) →
      (o.toList.map f).Pairwise MayFollow ∧ ∀ y ∈ o.toList.map f, y.rank = n := by
    intro α f n o hf
    cases o <;> simp [hf]
  have hmany : ∀ (f : Clause → Step) (n : Nat) (cs : List Clause),
      (∀ c, (f c).rank = n ∧ (f c).isExtension = true) →
        (cs.map f).Pairwise MayFollow ∧ ∀ y ∈ cs.map f, y.rank = n := by
    intro f n cs hf
    constructor
    · rw [List.pairwise_map]
      refine List.pairwise_of_forall fun x y => .inr ⟨?_, (hf y).2⟩
      rw [(hf x).1, (hf y).1]
    · simp [hf]
  have hselect := hone .select 0 select fun _ => rfl
  have hfirst := And.intro hselect.1 fun x hx => Nat.le_of_eq (hselect.2 x hx)
  have hstarter := pairwise_append_rank hfirst (hone .starter 1 starter fun _ => rfl)
  have hand := pairwise_append_rank hstarter (hmany .andWhere 2 andWhere fun _ => ⟨rfl, rfl⟩)
  have hor := pairwise_append_rank hand (hmany .orWhere 3 orWhere fun _ => ⟨rfl, rfl⟩)
  have hin := pairwise_append_rank hor (hmany .orWhereIn 4 orWhereIn fun _ => ⟨rfl, rfl⟩)
  have hlimit := pairwise_append_rank hin (hone .limit 5 limit fun _ => rfl)
  exact (pairwise_append_rank hlimit (hone .order 6 order fun _ => rfl)).1

/-- The steps of a form are accepted one after another. -/
theorem exists_run_form (select : Option (List Value)) (starter : Option Starter)
    (andWhere orWhere orWhereIn : List Clause) (limit : Option Value)
    (order : Option (List OrderTerm)) :
    ∃ d, (form select starter andWhere orWhere orWhereIn limit order).foldlM Chain.add empty =
      .ok d ∧ d.Live :=
  live_empty.run (pairwise_form select starter andWhere orWhere orWhereIn limit order)

end Chain

end RowAccess
