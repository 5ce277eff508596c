import RowAccess.Text.Blank

/-
  RowAccess/Proofs/Text/Blank.lean
  ================================
  **Joined pieces are cut where they were joined.**  A text without the separator is one piece, and
  a separator ends a piece; so pieces without the separator, joined by it, are cut again
  (`Text.cut_intercalate`).  Trimming takes the blanks off the ends and nothing else; it leaves a text
  without blanks as it is.
-/

namespace RowAccess.Text

/-- Whether all characters of a list have a property is decided along the list. -/
instance decidableForallMem (p : Char → Prop) [DecidablePred p] (cs : List Char) :
    Decidable (∀ c ∈ cs, p c) :=
  cs.decidableBAll p

theorem cut_of_not_mem {separator : Char} {cs : List Char} (h : separator ∉ cs) :
    cut separator cs = [cs] := by
  induction cs with
  | nil => rfl
  | cons c cs ih =>
    rw [List.mem_cons, not_or] at h
    rw [cut, if_neg (Ne.symm h.1), ih h.2]

theorem cut_append_separator {separator : Char} {cs r : List Char} (h : separator ∉ cs) :
    cut separator (cs ++ separator :: r) = cs :: cut separator r := by
  induction cs with
  | nil =>
    rw [List.nil_append, cut, if_pos rfl]
  | cons c cs ih =>
    rw [List.mem_cons, not_or] at h
    rw [List.cons_append, cut, if_neg (Ne.symm h.1), ih h.2]

theorem cut_intercalate {separator : Char} {pieces : List (List Char)} (hne : pieces ≠ [])
    (h : ∀ piece ∈ pieces, separator ∉ piece) :
    cut separator ([separator].intercalate pieces) = pieces := by
  induction pieces with
  | nil => exact absurd rfl hne
  | cons piece rest ih =>
    have hpiece : separator ∉ piece := h piece (by simp)
    cases rest with
    | nil =>
      rw [List.intercalate_singleton]
      exact cut_of_not_mem hpiece
    | cons next rest =>
      have hrest := ih (by simp) fun p hp => h p (List.mem_cons_of_mem _ hp)
      rw [List.intercalate_cons_cons, List.append_assoc, List.singleton_append,
        cut_append_separator hpiece, hrest]

/-! ## Blanks at the ends -/

theorem trimBack_eq_reverse (cs : List Char) : trimBack cs = (trimFront cs.reverse).reverse := rfl

/-- The blanks in front go. -/
theorem trimFront_append {ws : List Char} (h : ws.all isBlank = true) (cs : List Char) :
    trimFront (ws ++ cs) = trimFront cs := by
  induction ws with
  | nil => rfl
  | cons w ws ih =>
    rw [List.all_cons, Bool.and_eq_true] at h
    rw [List.cons_append, trimFront, List.dropWhile_cons_of_pos h.1]
    exact ih h.2

/-- The blanks at the back go. -/
theorem trimBack_append {ws : List Char} (h : ws.all isBlank = true) (cs : List Char) :
    trimBack (cs ++ ws) = trimBack cs := by
  have hreverse : ws.reverse.all isBlank = true := by rwa [List.all_reverse]
  rw [trimBack_eq_reverse, List.reverse_append, trimFront_append hreverse, trimBack_eq_reverse]

theorem trimFront_eq_self {cs : List Char} (h : ∀ c ∈ cs.head?, isBlank c = false) :
    trimFront cs = cs := by
  cases cs with
  | nil => rfl
  | cons c r => exact trimFront_of_head (h c rfl)

theorem trimBack_eq_self {cs : List Char} (h : ∀ c ∈ cs.getLast?, isBlank c = false) :
    trimBack cs = cs := by
  have hreverse : ∀ c ∈ cs.reverse.head?, isBlank c = false := by
    rwa [List.head?_reverse]
  rw [trimBack_eq_reverse, trimFront_eq_self hreverse, List.reverse_reverse]

/-- What goes from the front are blanks. -/
theorem exists_trimFront (cs : List Char) :
    ∃ ws, ws.all isBlank = true ∧ cs = ws ++ trimFront cs :=
  ⟨cs.takeWhile isBlank, List.all_takeWhile, (List.takeWhile_append_dropWhile).symm⟩

/-- What goes from the back are blanks. -/
theorem exists_trimBack (cs : List Char) :
    ∃ ws, ws.all isBlank = true ∧ cs = trimBack cs ++ ws := by
  obtain ⟨ws, hws, hcs⟩ := exists_trimFront cs.reverse
  refine ⟨ws.reverse, by rwa [List.all_reverse], ?_⟩
  rw [trimBack_eq_reverse, ← List.reverse_append, ← hcs, List.reverse_reverse]

theorem head?_trimFront (cs : List Char) : ∀ c ∈ (trimFront cs).head?, isBlank c = false := by
  intro c hc
  have hhead := List.head?_dropWhile_not isBlank cs
  rw [Option.mem_def] at hc
  rw [← trimFront, hc] at hhead
  simpa using hhead

theorem getLast?_trimBack (cs : List Char) :
    ∀ c ∈ (trimBack cs).getLast?, isBlank c = false := by
  rw [trimBack_eq_reverse, List.getLast?_reverse]
  exact head?_trimFront cs.reverse

/-- What is trimmed begins with no blank. -/
theorem head?_trim (cs : List Char) : ∀ c ∈ (trim cs).head?, isBlank c = false := by
  intro c hc
  obtain ⟨ws, -, hws⟩ := exists_trimBack (trimFront cs)
  refine head?_trimFront cs c ?_
  rw [trim, Option.mem_def] at hc
  rw [Option.mem_def, hws, List.head?_append, hc]
  rfl

/-! ## Texts without blanks -/

theorem trim_of_forall {cs : List Char} (h : ∀ c ∈ cs, isBlank c = false) : trim cs = cs := by
  rw [trim, trimFront_eq_self fun c hc => h c (List.mem_of_mem_head? hc)]
  exact trimBack_eq_self fun c hc => h c (List.mem_of_mem_getLast? hc)

/-- The blanks around characters that are none go. -/
theorem trim_padded {before after cs : List Char} (hbefore : before.all isBlank = true)
    (hafter : after.all isBlank = true) (h : ∀ c ∈ cs, isBlank c = false) :
    trim (before ++ cs ++ after) = cs := by
  cases cs with
  | nil =>
    have hall : (before ++ [] ++ after).all isBlank = true := by simp [hbefore, hafter]
    rw [trim, (trimFront_eq_nil_iff _).2 hall]
    rfl
  | cons c cs =>
    rw [trim, List.append_assoc, trimFront_append hbefore, List.cons_append,
      trimFront_of_head (h c List.mem_cons_self), ← List.cons_append, trimBack_append hafter]
    exact trimBack_eq_self fun d hd => h d (List.mem_of_mem_getLast? hd)

/-- Is no character of the text a blank? -/
def IsDense (s : String) : Prop :=
  ∀ c ∈ s.toList, isBlank c = false

instance (s : String) : Decidable (IsDense s) :=
  decidableForallMem (fun c => isBlank c = false) s.toList

theorem IsDense.strip {s : String} (h : IsDense s) : strip s = s := by
  rw [Text.strip, trim_of_forall h, String.ofList_toList]

theorem IsDense.append {s t : String} (hs : IsDense s) (ht : IsDense t) : IsDense (s ++ t) := by
  intro c hc
  rw [String.toList_append, List.mem_append] at hc
  rcases hc with hc | hc
  · exact hs c hc
  · exact ht c hc

end RowAccess.Text
