import Mathlib.Data.List.Forall2

/-
  RowAccess/Proofs/Outcome.lean
  =============================
  **Outcomes taken apart.**  A computation that may fail has a value only when each of its parts
  has one, and it fails only with the errors that its parts fail with.  Two computations whose parts
  have related outcomes have related outcomes (`Outcome.Alike.bind`).  What holds at the start of a
  run and is kept by every step that does not fail holds of the steps taken so far and of where they
  led (`Outcome.foldlM_induction`).
-/

namespace RowAccess.Outcome

variable {ε α β γ δ : Type}

theorem ok_bind (a : α) (f : α → Except ε β) : (Except.ok a >>= f) = f a := rfl

theorem error_bind (e : ε) (f : α → Except ε β) : (Except.error e >>= f) = .error e := rfl

/-- A sequence has a value when its first part has one and the second has one for that. -/
theorem bind_eq_ok_iff {x : Except ε α} {f : α → Except ε β} {b : β} :
    x >>= f = .ok b ↔ ∃ a, x = .ok a ∧ f a = .ok b := by
  cases x with
  | error e => simp [bind, Except.bind]
  | ok a => simp [bind, Except.bind]

/-- A sequence fails when its first part does, or when the second does for what the first gives. -/
theorem bind_eq_error_iff {x : Except ε α} {f : α → Except ε β} {e : ε} :
    x >>= f = .error e ↔ x = .error e ∨ ∃ a, x = .ok a ∧ f a = .error e := by
  cases x with
  | error e' => simp [bind, Except.bind]
  | ok a => simp [bind, Except.bind]

theorem bind_pure_eq_map (x : Except ε α) (f : α → β) : (x >>= fun a => pure (f a)) = x.map f := by
  cases x <;> rfl

theorem map_eq_ok_iff {x : Except ε α} {f : α → β} {b : β} :
    x.map f = .ok b ↔ ∃ a, x = .ok a ∧ f a = b := by
  cases x with
  | error e => simp [Except.map]
  | ok a => simp [Except.map]

/-- Outcomes that are alike under a view go on alike where what follows looks at the view only. -/
theorem map_bind_congr {f : α → γ} {g : β → δ} {x y : Except ε α} {k l : α → Except ε β}
    (h : x.map f = y.map f) (hk : ∀ a b, f a = f b → (k a).map g = (l b).map g) :
    (x >>= k).map g = (y >>= l).map g := by
  cases x with
  | error e =>
    cases y with
    | error e' =>
      cases h
      rfl
    | ok b => cases h
  | ok a =>
    cases y with
    | error e => cases h
    | ok b => exact hk a b (Except.ok.inj h)

/-- Where every entry has a value, the list of the values is the value of the list. -/
theorem mapM_eq_ok {f : α → Except ε β} {g : α → β} {xs : List α}
    (h : ∀ x ∈ xs, f x = .ok (g x)) : xs.mapM f = .ok (xs.map g) := by
  induction xs with
  | nil => rfl
  | cons x xs ih =>
    rw [List.mapM_cons, h x List.mem_cons_self, ih fun y hy => h y (List.mem_cons_of_mem _ hy)]
    rfl

theorem mapM_congr {f g : α → Except ε β} {xs : List α} (h : ∀ x ∈ xs, f x = g x) :
    xs.mapM f = xs.mapM g := by
  induction xs with
  | nil => rfl
  | cons x xs ih =>
    rw [List.mapM_cons, List.mapM_cons, h x List.mem_cons_self,
      ih fun y hy => h y (List.mem_cons_of_mem _ hy)]

/-- Where a list has a value, every entry has one, and it is among those of the list. -/
theorem exists_mem_of_mapM {f : α → Except ε β} {xs : List α} {ys : List β}
    (h : xs.mapM f = .ok ys) {x : α} (hx : x ∈ xs) : ∃ y ∈ ys, f x = .ok y := by
  induction xs generalizing ys with
  | nil => cases hx
  | cons x' xs ih =>
    rw [List.mapM_cons] at h
    obtain ⟨y, hy, h⟩ := bind_eq_ok_iff.1 h
    obtain ⟨ys', hys, h⟩ := bind_eq_ok_iff.1 h
    cases h
    rcases List.mem_cons.1 hx with rfl | hx
    · exact ⟨y, List.mem_cons_self, hy⟩
    · obtain ⟨z, hz, hxz⟩ := ih hys hx
      exact ⟨z, List.mem_cons_of_mem _ hz, hxz⟩

/-- Every entry of the value of a list is the value of an entry. -/
theorem exists_of_mem_mapM {f : α → Except ε β} {xs : List α} {ys : List β}
    (h : xs.mapM f = .ok ys) {y : β} (hy : y ∈ ys) : ∃ x ∈ xs, f x = .ok y := by
  induction xs generalizing ys with
  | nil =>
    cases h
    cases hy
  | cons x xs ih =>
    rw [List.mapM_cons] at h
    obtain ⟨y', hx, h⟩ := bind_eq_ok_iff.1 h
    obtain ⟨ys', hys, h⟩ := bind_eq_ok_iff.1 h
    cases h
    rcases List.mem_cons.1 hy with rfl | hy
    · exact ⟨x, List.mem_cons_self, hx⟩
    · obtain ⟨x', hx', hy⟩ := ih hys hy
      exact ⟨x', List.mem_cons_of_mem _ hx', hy⟩

/-- What every entry keeps, the list keeps. -/
theorem map_eq_of_mapM {f : α → Except ε β} {g : β → γ} {k : α → γ} {xs : List α} {ys : List β}
    (h : xs.mapM f = .ok ys) (hf : ∀ x y, f x = .ok y → g y = k x) : ys.map g = xs.map k := by
  induction xs generalizing ys with
  | nil =>
    cases h
    rfl
  | cons x xs ih =>
    rw [List.mapM_cons] at h
    obtain ⟨y, hx, h⟩ := bind_eq_ok_iff.1 h
    obtain ⟨ys', hys, h⟩ := bind_eq_ok_iff.1 h
    cases h
    rw [List.map_cons, List.map_cons, hf x y hx, ih hys]

/-- The entries of a list go with those of its value. -/
theorem forall₂_of_mapM {f : α → Except ε β} {xs : List α} {ys : List β}
    (h : xs.mapM f = .ok ys) : List.Forall₂ (fun x y => f x = .ok y) xs ys := by
  induction xs generalizing ys with
  | nil =>
    cases h
    exact .nil
  | cons x xs ih =>
    rw [List.mapM_cons] at h
    obtain ⟨y, hy, h⟩ := bind_eq_ok_iff.1 h
    obtain ⟨ys', hys, h⟩ := bind_eq_ok_iff.1 h
    cases h
    exact .cons hy (ih hys)

/-- Lists whose entries have the same outcomes have the same outcome. -/
theorem mapM_eq_of_forall₂ {f : α → Except ε β} {xs ys : List α}
    (h : List.Forall₂ (fun x y => f x = f y) xs ys) : xs.mapM f = ys.mapM f := by
  induction h with
  | nil => rfl
  | cons hxy _ ih => rw [List.mapM_cons, List.mapM_cons, hxy, ih]

theorem length_of_mapM {f : α → Except ε β} {xs : List α} {ys : List β}
    (h : xs.mapM f = .ok ys) : ys.length = xs.length := by
  have hunits := map_eq_of_mapM (g := fun _ => ()) (k := fun _ => ()) h fun _ _ _ => rfl
  simpa using congrArg List.length hunits

/-- A list has no value only where one of its entries has none. -/
theorem exists_error_of_mapM {f : α → Except ε β} {xs : List α} {e : ε}
    (h : xs.mapM f = .error e) : ∃ x ∈ xs, f x = .error e := by
  induction xs with
  | nil => cases h
  | cons x xs ih =>
    rw [List.mapM_cons] at h
    rcases bind_eq_error_iff.1 h with h | ⟨y, -, h⟩
    · exact ⟨x, List.mem_cons_self, h⟩
    · rcases bind_eq_error_iff.1 h with h | ⟨ys, -, h⟩
      · obtain ⟨x', hx', h⟩ := ih h
        exact ⟨x', List.mem_cons_of_mem _ hx', h⟩
      · cases h

/-! ## Which errors -/

/-- Does the outcome fail with such errors only? -/
def Only (p : ε → Prop) (x : Except ε α) : Prop :=
  ∀ e, x = .error e → p e

namespace Only

variable {p : ε → Prop}

theorem ok (a : α) : Only p (.ok a : Except ε α) := by
  intro e he
  cases he

theorem error {e : ε} (h : p e) : Only p (.error e : Except ε α) := by
  intro e' he
  cases he
  exact h

theorem bind {x : Except ε α} {f : α → Except ε β} (h : Only p x) (hf : ∀ a, Only p (f a)) :
    Only p (x >>= f) := by
  intro e he
  rcases bind_eq_error_iff.1 he with he | ⟨a, -, he⟩
  · exact h e he
  · exact hf a e he

theorem map {x : Except ε α} {f : α → β} (h : Only p x) : Only p (x.map f) := by
  rw [← bind_pure_eq_map]
  exact h.bind fun a => ok (f a)

theorem mapM {f : α → Except ε β} (hf : ∀ a, Only p (f a)) (xs : List α) :
    Only p (xs.mapM f) := by
  intro e he
  obtain ⟨x, -, he⟩ := exists_error_of_mapM he
  exact hf x e he

theorem foldlM {f : β → α → Except ε β} (hf : ∀ b a, Only p (f b a)) (xs : List α) (b : β) :
    Only p (xs.foldlM f b) := by
  induction xs generalizing b with
  | nil => exact ok b
  | cons x xs ih =>
    rw [List.foldlM_cons]
    exact (hf b x).bind ih

theorem mono {q : ε → Prop} {x : Except ε α} (h : Only p x) (hpq : ∀ e, p e → q e) : Only q x :=
  fun e he => hpq e (h e he)

end Only

/-! ## Values and errors -/

/-- Does the outcome have such a value, or fail with such an error? -/
def Ends (p : α → Prop) (q : ε → Prop) : Except ε α → Prop
  | .ok a => p a
  | .error e => q e

namespace Ends

variable {p : α → Prop} {q : ε → Prop}

theorem bind {p' : β → Prop} {x : Except ε α} {f : α → Except ε β} (h : Ends p q x)
    (hf : ∀ a, p a → Ends p' q (f a)) : Ends p' q (x >>= f) := by
  cases x with
  | error e => exact h
  | ok a => exact hf a h

end Ends

/-! ## Related outcomes -/

section Related

variable {E : ε → ε → Prop} {R : α → β → Prop}

/-- Two outcomes side by side: related values, or related errors. -/
inductive Alike (E : ε → ε → Prop) (R : α → β → Prop) : Except ε α → Except ε β → Prop
  | ok {a : α} {b : β} (h : R a b) : Alike E R (.ok a) (.ok b)
  | error {e f : ε} (h : E e f) : Alike E R (.error e) (.error f)

namespace Alike

variable {S : γ → δ → Prop} {x : Except ε α} {y : Except ε β}

theorem refl {R : α → α → Prop} (hE : ∀ e, E e e) (hR : ∀ a, R a a) (x : Except ε α) :
    Alike E R x x := by
  cases x with
  | error e => exact .error (hE e)
  | ok a => exact .ok (hR a)

/-- Sequences are related when their first parts are and related values go on to related outcomes. -/
theorem bind {f : α → Except ε γ} {g : β → Except ε δ} (h : Alike E R x y)
    (hfg : ∀ a b, R a b → Alike E S (f a) (g b)) : Alike E S (x >>= f) (y >>= g) := by
  cases h with
  | ok h => exact hfg _ _ h
  | error h => exact .error h

theorem map {f : α → γ} {g : β → δ} (h : Alike E R x y) (hfg : ∀ a b, R a b → S (f a) (g b)) :
    Alike E S (x.map f) (y.map g) := by
  cases h with
  | ok h => exact .ok (hfg _ _ h)
  | error h => exact .error h

theorem bind_pure {f : α → γ} {g : β → δ} (h : Alike E R x y)
    (hfg : ∀ a b, R a b → S (f a) (g b)) :
    Alike E S (x >>= fun a => pure (f a)) (y >>= fun b => pure (g b)) := by
  rw [bind_pure_eq_map, bind_pure_eq_map]
  exact h.map hfg

theorem cases (h : Alike E R x y) : (∃ a b, x = .ok a ∧ y = .ok b ∧ R a b) ∨
    ∃ e f, x = .error e ∧ y = .error f ∧ E e f := by
  cases h with
  | ok h => exact .inl ⟨_, _, rfl, rfl, h⟩
  | error h => exact .inr ⟨_, _, rfl, rfl, h⟩

end Alike

end Related

/-! ## Runs -/

/-- What the start has and every step keeps, a run has in the end. -/
theorem foldlM_induction {f : α → β → Except ε α} (motive : List β → α → Prop) {a b : α}
    {xs : List β} (start : motive [] a)
    (step : ∀ done s x t, motive done s → f s x = .ok t → motive (done ++ [x]) t)
    (h : xs.foldlM f a = .ok b) : motive xs b := by
  suffices general : ∀ (rest done : List β) (s : α), motive done s → rest.foldlM f s = .ok b →
      motive (done ++ rest) b by
    simpa using general xs [] a start h
  intro rest
  induction rest with
  | nil =>
    intro done s hs hb
    cases hb
    simpa using hs
  | cons x rest ih =>
    intro done s hs hb
    rw [List.foldlM_cons, bind_eq_ok_iff] at hb
    obtain ⟨t, ht, hb⟩ := hb
    simpa using ih (done ++ [x]) t (step done s x t hs ht) hb

end RowAccess.Outcome
