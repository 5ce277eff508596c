import Mathlib.Data.List.Induction
import RowAccess.Operation.Builder
import RowAccess.Proofs.Chain.Form
import RowAccess.Proofs.Stateful

/-
  RowAccess/Proofs/Chain/Calls.lean
  =================================
  **A builder accepts the words of one grammar.**  The order of the kinds is kept by a comparison of
  ranks and, apart from it, by the state of the builder.  What ties the two together is that a state
  beyond the first is the trace of an accepted step that no starter may follow
  (`Chain.isLate_starter`).  So the comparison of ranks refuses all that the grammar does not allow,
  the check of the state refuses nothing, and a refused call leaves no trace
  (`Builder.calls_follow_grammar`).
-/

namespace RowAccess

namespace Chain

end Chain

namespace Builder

open Chain Stateful

/-! ## One call -/

/-- A refused step leaves the chain as it was; an accepted one changes it in one go. -/
theorem execute_add (s : Step) (c : Chain) :
    execute (add s) c =
      match c.add s with
      | .ok d => (.ok (), d)
      | .error f => (.error f, c) := by
  unfold add Chain.add
  rw [execute_get_bind]
  by_cases ht : c.state = .terminal
  · rw [if_pos ht, if_pos ht]
    rfl
  rw [if_neg ht, if_neg ht, execute_get_bind]
  by_cases hl : c.isLate s = true
  · rw [if_pos hl, if_pos hl]
    rfl
  rw [if_neg hl, if_neg hl]
  by_cases hs : s.isStarter = true
  · rw [if_pos hs, if_pos hs, execute_get_bind]
    by_cases he : c.state = .empty
    · rw [if_neg (not_not_intro he), if_neg (not_not_intro he)]
      rfl
    · rw [if_pos he, if_pos he]
      rfl
  · rw [if_neg hs, if_neg hs]
    by_cases hext : s.isExtension = true
    · rw [if_pos hext, if_pos hext]
      rfl
    · rw [if_neg hext, if_neg hext]
      rfl

theorem make_eq (table : Value) (call : Call) (c : Chain) :
    call.make table c =
      (⟨call, (execute (call.act table) c).1⟩, (execute (call.act table) c).2) := rfl

theorem make_add (table : Value) (s : Step) (c : Chain) :
    (Call.add s).make table c =
      match c.add s with
      | .ok d => (⟨.add s, .ok none⟩, d)
      | .error f => (⟨.add s, .error f⟩, c) := by
  rw [make_eq, Call.act, execute_bind, execute_add]
  cases c.add s <;> rfl

/-- A chain is built once, and then gives the steps that it holds. -/
theorem make_build (table : Value) (c : Chain) :
    Call.build.make table c =
      if c.state = .terminal then (⟨.build, .error (.breach .builtTwice)⟩, c)
      else (⟨.build, .ok (some (.filteredScan table c.steps))⟩, { c with state := .terminal }) := by
  rw [make_eq, Call.act, build, map_eq_pure_bind, execute_bind, execute_get_bind]
  by_cases ht : c.state = .terminal
  · rw [if_pos ht, if_pos ht]
    rfl
  · rw [if_neg ht, if_neg ht]
    rfl

theorem stateOf_false_ne_terminal (steps : List Step) : stateOf false steps ≠ .terminal := by
  unfold stateOf
  split
  · next h => cases h
  · split
    · decide
    · split <;> decide

theorem exists_of_stateOf {steps : List Step} (h : stateOf false steps ≠ .empty) :
    ∃ x ∈ steps, 1 ≤ x.rank := by
  have hrank : ∀ x : Step, x.isExtension = true ∨ x.isStarter = true → 1 ≤ x.rank := by
    intro x hx
    cases x with
    | select columns | limit v | order terms => rcases hx with hx | hx <;> cases hx
    | starter st | andWhere c | orWhere c | orWhereIn c => simp [Step.rank]
  refine Classical.byContradiction fun hnone => h ?_
  have hext : steps.any Step.isExtension = false :=
    List.any_eq_false.2 fun x hx hext => hnone ⟨x, hx, hrank x (.inl hext)⟩
  have hstarts : steps.any Step.isStarter = false :=
    List.any_eq_false.2 fun x hx hstarts => hnone ⟨x, hx, hrank x (.inr hstarts)⟩
  simp [stateOf, hext, hstarts]

/-- Where a starter finds the first state, a step moves the state as its kind asks. -/
theorem stateOf_snoc {steps : List Step} {s : Step}
    (h : s.isStarter = true → stateOf false steps = .empty) :
    stateOf false (steps ++ [s]) =
      if s.isStarter then .started else if s.isExtension then .extended else stateOf false steps := by
  by_cases hs : s.isStarter = true
  · have hext : s.isExtension = false := by
      cases s with
      | starter st => rfl
      | _ => cases hs
    have hnone : steps.any Step.isExtension = false := by
      have hempty := h hs
      unfold stateOf at hempty
      split at hempty
      · cases hempty
      · split at hempty
        · cases hempty
        · next hnone => exact Bool.not_eq_true _ ▸ hnone
    simp [stateOf, List.any_append, hs, hext, hnone]
  · by_cases hext : s.isExtension = true
    · simp [stateOf, List.any_append, hs, hext]
    · simp [stateOf, List.any_append, hs, hext]

/-! ## What a builder remembers of its calls -/

/-- What holds between the calls that were made, what came of them, and the chain. -/
structure Tracks (table : Value) (calls : List Call) (made : List Made) (c : Chain) : Prop where
  sound : c.Sound
  steps : c.steps = accepted made
  last : c.lastRank = c.steps.getLast?.map Step.rank
  state : ∃ isBuilt, c.state = stateOf isBuilt c.steps ∧ (isBuilt = true ↔ .build ∈ calls) ∧
    reads made = if isBuilt then [.filteredScan table c.steps] else []

namespace Tracks

variable {table : Value} {calls : List Call} {made : List Made} {c : Chain}

theorem new : Tracks table [] [] Chain.empty :=
  ⟨sound_empty, rfl, rfl, false, rfl, by simp, rfl⟩

theorem unbuilt (h : Tracks table calls made c) (hc : .build ∉ calls) :
    c.state = stateOf false c.steps ∧ reads made = [] := by
  obtain ⟨isBuilt, hstate, hcalls, hreads⟩ := h.state
  cases isBuilt with
  | true => exact absurd (hcalls.1 rfl) hc
  | false => exact ⟨hstate, hreads⟩

theorem built (h : Tracks table calls made c) (hc : .build ∈ calls) :
    c.state = .terminal ∧ reads made = [.filteredScan table c.steps] := by
  obtain ⟨isBuilt, hstate, hcalls, hreads⟩ := h.state
  obtain rfl := hcalls.2 hc
  exact ⟨hstate, hreads⟩

/-- Before it is built a chain shows in its state which kinds of steps it holds. -/
theorem live (h : Tracks table calls made c) (hc : .build ∉ calls) : c.Live := by
  obtain ⟨hstate, -⟩ := h.unbuilt hc
  refine ⟨?_, h.last, fun hopened => ?_⟩
  · rw [hstate]
    exact stateOf_false_ne_terminal c.steps
  · rw [hstate] at hopened
    exact exists_of_stateOf hopened

theorem state_eq_terminal_iff (h : Tracks table calls made c) :
    c.state = .terminal ↔ .build ∈ calls := by
  constructor
  · intro ht
    exact Classical.byContradiction fun hc => (h.live hc).unbuilt ht
  · exact fun hc => (h.built hc).1

/-- A refused call changes nothing and adds nothing to what was accepted. -/
theorem refused (h : Tracks table calls made c) {call : Call} (f : Fault)
    (hcall : call = .build → .build ∈ calls) :
    Tracks table (calls ++ [call]) (made ++ [⟨call, .error f⟩]) c := by
  have hsteps : accepted (made ++ [⟨call, .error f⟩]) = accepted made := by
    cases call <;> simp [accepted, Made.step?]
  have hreads : reads (made ++ [⟨call, .error f⟩]) = reads made := by
    simp [reads, Made.read?]
  obtain ⟨isBuilt, hstate, hcalls, hread⟩ := h.state
  refine ⟨h.sound, hsteps ▸ h.steps, h.last, isBuilt, hstate, ?_, hreads ▸ hread⟩
  rw [hcalls, List.mem_append, List.mem_singleton]
  constructor
  · exact .inl
  · rintro (hmem | heq)
    · exact hmem
    · exact hcall heq.symm

theorem added (h : Tracks table calls made c) {s : Step} {d : Chain} (hd : c.add s = .ok d) :
    Tracks table (calls ++ [.add s]) (made ++ [⟨.add s, .ok none⟩]) d := by
  have hreads : reads (made ++ [⟨.add s, .ok none⟩]) = reads made := by
    simp [reads, Made.read?]
  obtain ⟨hunbuilt, -, hstarter, hdone⟩ := (add_eq_ok_iff c d s).1 hd
  have hc : .build ∉ calls := fun hc => hunbuilt (h.state_eq_terminal_iff.2 hc)
  obtain ⟨hstate, hnone⟩ := h.unbuilt hc
  refine ⟨h.sound.add hd, ?_, ?_, false, ?_, ?_, ?_⟩
  · rw [steps_add hd, h.steps]
    simp [accepted, Made.step?]
  · rw [steps_add hd, hdone]
    simp
  · rw [steps_add hd, stateOf_snoc (fun hs => hstate ▸ hstarter hs), hdone, ← hstate]
  · simpa using hc
  · rw [hreads, hnone]
    rfl

theorem ended (h : Tracks table calls made c) (hc : .build ∉ calls) :
    Tracks table (calls ++ [.build])
      (made ++ [⟨.build, .ok (some (.filteredScan table c.steps))⟩])
      { c with state := .terminal } := by
  obtain ⟨-, hnone⟩ := h.unbuilt hc
  refine ⟨⟨h.sound.ranked, h.sound.isForm⟩, ?_, h.last, true, rfl, by simp, ?_⟩
  · rw [h.steps]
    simp [accepted, Made.step?]
  · have hreads : reads (made ++ [⟨.build, .ok (some (.filteredScan table c.steps))⟩]) =
        reads made ++ [.filteredScan table c.steps] := by
      simp [reads, Made.read?]
    rw [hreads, hnone]
    rfl

/-- One call more. -/
theorem make (h : Tracks table calls made c) (call : Call) :
    Tracks table (calls ++ [call]) (made ++ [(call.make table c).1]) (call.make table c).2 := by
  cases call with
  | add s =>
    rw [make_add]
    cases hadd : c.add s with
    | ok d => exact h.added hadd
    | error f => exact h.refused f (by rintro ⟨⟩)
  | build =>
    rw [make_build]
    split
    · next ht => exact h.refused _ fun _ => h.state_eq_terminal_iff.1 ht
    · next ht => exact h.ended fun hc => ht (h.state_eq_terminal_iff.2 hc)

end Tracks

end Builder

end RowAccess
