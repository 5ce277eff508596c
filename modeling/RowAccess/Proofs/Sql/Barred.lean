import RowAccess.Proofs.Sql.Grammar

/-
  RowAccess/Proofs/Sql/Barred.lean
  ================================
  **Words that no selection goes past.**  Two words of the engine are no names and have no place in a
  selection.  A reader goes past a token when it has seen what the token is, so that these stay
  where they are: no part of a selection takes one away (`allKeep`), and a text that has been read to
  its end holds none (`not_mem_of_read`).
-/

namespace RowAccess.Sql.Grammar

open Outcome

/-- The words that are no names and that no selection has a place for. -/
def barred : List Token :=
  Statement.engineWords.map fun word => ⟨.word, word⟩

theorem name?_of_barred : ∀ b ∈ barred, b.name? = none := by decide

theorem kind_of_barred : ∀ b ∈ barred, b.kind = .word := by decide

variable {α β : Type} {t : Token} {x : Scanning α} {f : α → Scanning β} {r : Reader} {fuel : Nat}

theorem not_barred_of_isWord {word : String} (hword : ∀ b ∈ barred, b.isWord word = false)
    (h : t.isWord word = true) : t ∉ barred := by
  intro hmem
  rw [hword t hmem] at h
  cases h

theorem not_barred_of_any {words : List String} (hwords : ∀ b ∈ barred, words.any b.isWord = false)
    (h : words.any t.isWord = true) : t ∉ barred := by
  intro hmem
  rw [hwords t hmem] at h
  cases h

theorem not_barred_of_kind (h : t.kind ≠ .word) : t ∉ barred :=
  fun hmem => h (kind_of_barred t hmem)

theorem not_barred_of_isSymbol {symbol : String} (h : t.isSymbol symbol = true) : t ∉ barred := by
  refine not_barred_of_kind fun hkind => ?_
  rw [Token.isSymbol, hkind] at h
  cases h

theorem not_barred_of_name {n : Name} (h : t.name? = some n) : t ∉ barred := by
  intro hmem
  rw [name?_of_barred t hmem] at h
  cases h

/-! ## Readers that keep what is barred -/

/-- Does a reader leave every barred token where it is? -/
def Keeps (x : Scanning α) : Prop :=
  ∀ r a r', x.run r = .ok (a, r') → ∀ b ∈ barred, b ∈ r.tokens → b ∈ r'.tokens

/-- Does it where the token is the next one? -/
def KeepsAt (t : Token) (x : Scanning α) : Prop :=
  ∀ r a r', r.tokens.head? = some t → x.run r = .ok (a, r') →
    ∀ b ∈ barred, b ∈ r.tokens → b ∈ r'.tokens

namespace Keeps

theorem keepsAt (h : Keeps x) (t : Token) : KeepsAt t x :=
  fun r a r' _ hrun => h r a r' hrun

theorem pure (a : α) : Keeps (Pure.pure a : Scanning α) := by
  intro r a r' h b hb hmem
  cases h
  exact hmem

theorem bind (hx : Keeps x) (hf : ∀ a, Keeps (f a)) : Keeps (x >>= f) := by
  intro r b r' h
  obtain ⟨a, r₁, hrun, h⟩ := run_bind_eq_ok_iff.1 h
  exact fun c hc hmem => hf a r₁ b r' h c hc (hx r a r₁ hrun c hc hmem)

theorem map {g : α → β} (hx : Keeps x) : Keeps (g <$> x) := by
  rw [map_eq_pure_bind]
  exact hx.bind fun a => .pure _

theorem ite {c : Prop} [Decidable c] {y : Scanning α} (hx : Keeps x) (hy : Keeps y) :
    Keeps (if c then x else y) := by
  split
  · exact hx
  · exact hy

/-- A choice and what follows it. -/
theorem choice {c : Prop} [Decidable c] {y : Scanning α} {k : α → Scanning β} (hx : Keeps x)
    (hy : Keeps y) (hk : ∀ a, Keeps (k a)) : Keeps (if c then x >>= k else y >>= k) :=
  .ite (hx.bind hk) (hy.bind hk)

/-- What may be left out and what follows it. -/
theorem option {c : Prop} [Decidable c] {y : Scanning β} (hx : Keeps x) (hy : Keeps y) :
    Keeps (if c then x >>= fun _ => y else y) :=
  .ite (hx.bind fun _ => hy) hy

theorem fail : Keeps (fail : Scanning α) := by
  intro r a r' h
  obtain ⟨tokens, used, named, cells, late⟩ := r
  cases tokens with
  | nil => cases h
  | cons t ts =>
    have herror : (Grammar.fail : Scanning α).run ⟨t :: ts, used, named, cells, late⟩ =
        .error (if t.kind = .stray then .unrecognized t.text else .malformed t.text) := rfl
    rw [herror] at h
    cases h

/-- What only reads ahead keeps what is barred, if what follows does for each token that is next. -/
theorem peek {f : Option Token → Scanning β} (hnone : Keeps (f none))
    (hsome : ∀ t, KeepsAt t (f (some t))) : Keeps (peek? >>= f) := by
  intro r a r' h
  have hpeek : peek?.run r = .ok (r.tokens.head?, r) := rfl
  rw [run_bind_of_ok hpeek] at h
  cases hnext : r.tokens.head? with
  | none =>
    rw [hnext] at h
    exact hnone r a r' h
  | some t =>
    rw [hnext] at h
    exact hsome t r a r' hnext h

theorem of_test {word : Token → Bool} {f : Bool → Scanning β} (hfalse : Keeps (f false))
    (htrue : ∀ t, word t = true → KeepsAt t (f true)) :
    Keeps ((do return ((← peek?).map word).getD false : Scanning Bool) >>= f) := by
  rw [bind_assoc]
  refine peek hfalse fun t => ?_
  rw [pure_bind]
  cases hword : word t with
  | true =>
    have hthen := htrue t hword
    rwa [← hword] at hthen
  | false =>
    show KeepsAt t (f (word t))
    rw [hword]
    exact hfalse.keepsAt t

end Keeps

namespace KeepsAt

theorem bind (hx : KeepsAt t x) (hf : ∀ a, Keeps (f a)) : KeepsAt t (x >>= f) := by
  intro r b r' hnext h
  obtain ⟨a, r₁, hrun, h⟩ := run_bind_eq_ok_iff.1 h
  exact fun c hc hmem => hf a r₁ b r' h c hc (hx r a r₁ hnext hrun c hc hmem)

theorem ite {c : Prop} [Decidable c] {y : Scanning α} (hx : c → KeepsAt t x)
    (hy : ¬ c → KeepsAt t y) : KeepsAt t (if c then x else y) := by
  split
  · next h => exact hx h
  · next h => exact hy h

/-- A reader goes past a token that is not barred. -/
theorem advance (ht : t ∉ barred) : KeepsAt t advance := by
  intro r a r' hnext h b hb hmem
  obtain ⟨tokens, used, named, cells, late⟩ := r
  cases h
  cases tokens with
  | nil => cases hnext
  | cons u ts =>
    obtain rfl : u = t := Option.some.inj hnext
    refine (List.mem_cons.1 hmem).resolve_left ?_
    rintro rfl
    exact ht hb

end KeepsAt

/-! ## Words, symbols and names -/

theorem keeps_isAtWord {word : String} {f : Bool → Scanning β} (hfalse : Keeps (f false))
    (htrue : ∀ t : Token, t.isWord word = true → KeepsAt t (f true)) :
    Keeps (isAtWord word >>= f) :=
  Keeps.of_test hfalse htrue

theorem keeps_isAtSymbol {symbol : String} {f : Bool → Scanning β} (hfalse : Keeps (f false))
    (htrue : ∀ t : Token, t.isSymbol symbol = true → KeepsAt t (f true)) :
    Keeps (isAtSymbol symbol >>= f) :=
  Keeps.of_test hfalse htrue

theorem keeps_eatWord {word : String} (hword : ∀ b ∈ barred, b.isWord word = false) :
    Keeps (eatWord word) :=
  keeps_isAtWord (.pure _) fun _ ht =>
    (KeepsAt.advance (not_barred_of_isWord hword ht)).bind fun _ => .pure _

theorem keeps_eatSymbol (symbol : String) : Keeps (eatSymbol symbol) :=
  keeps_isAtSymbol (.pure _) fun _ ht =>
    (KeepsAt.advance (not_barred_of_isSymbol ht)).bind fun _ => .pure _

theorem keeps_expectWord {word : String} (hword : ∀ b ∈ barred, b.isWord word = false) :
    Keeps (expectWord word) :=
  (keeps_eatWord hword).bind fun _ => .ite .fail (.pure _)

theorem keeps_expectSymbol (symbol : String) : Keeps (expectSymbol symbol) :=
  (keeps_eatSymbol symbol).bind fun _ => .ite .fail (.pure _)

theorem keeps_name : Keeps name := by
  rw [name]
  refine .peek .fail fun t => ?_
  dsimp only
  split
  · next h => exact (KeepsAt.advance (not_barred_of_name h)).bind fun _ => .pure _
  · next hkind =>
    refine (KeepsAt.advance (not_barred_of_kind ?_)).bind fun _ => .pure _
    rw [hkind]
    rintro ⟨⟩
  · exact Keeps.fail.keepsAt t

theorem keeps_postpone (refusal : Refusal) : Keeps (postpone refusal) := by
  intro r a r' h b hb hmem
  cases h
  exact hmem

theorem keeps_checkRowWidths (rows : List (List Expr)) :
    Keeps (liftM (checkRowWidths rows) : Scanning Unit) := by
  intro r a r' h b hb hmem
  unfold checkRowWidths at h
  split at h
  · cases h
  · cases h
    exact hmem

theorem keeps_parameter (text : String) : Keeps (parameter text) := by
  intro r a r' h b hb hmem
  obtain ⟨n, r₁, hnumber, h⟩ := run_bind_eq_ok_iff.1 h
  cases h
  have htokens : r'.tokens = r.tokens := by
    obtain ⟨r₂, r₂', hget, hnumber⟩ := run_bind_eq_ok_iff.1 hnumber
    cases hget
    dsimp only at hnumber
    split at hnumber
    · split at hnumber
      · cases hnumber
        rfl
      · cases hnumber
        rfl
    · split at hnumber
      · cases hnumber
        rfl
      · cases hnumber
        rfl
  show b ∈ r'.tokens
  rw [htokens]
  exact hmem

theorem keeps_typeWords (fuel : Nat) : Keeps (typeWords fuel) := by
  induction fuel with
  | zero => exact .pure _
  | succ fuel ih =>
    rw [typeWords]
    refine .peek (.pure _) fun t => ?_
    dsimp only [Option.bind_some]
    split
    · next h =>
      exact (KeepsAt.advance (not_barred_of_name h)).bind fun _ => ih.bind fun _ => .pure _
    · exact (Keeps.pure _).keepsAt t

theorem keeps_typeSize (fuel : Nat) : Keeps (typeSize fuel) := by
  induction fuel with
  | zero => exact .fail
  | succ fuel ih =>
    rw [typeSize]
    refine (keeps_eatSymbol ")").bind fun _ => .ite (.pure _) (.peek ?_ fun t => ?_)
    · exact Keeps.fail.bind fun _ => ih
    · dsimp only
      split
      · next hkind =>
        refine (KeepsAt.advance (not_barred_of_kind ?_)).bind fun _ => ih
        rw [hkind]
        rintro ⟨⟩
      · refine .ite (fun h => ?_) fun _ => (Keeps.fail.bind fun _ => ih).keepsAt t
        refine (KeepsAt.advance (not_barred_of_kind ?_)).bind fun _ => ih
        intro hkind
        simp [Token.isSymbol, hkind] at h

theorem keeps_target : Keeps target := by
  rw [target]
  exact keeps_name.bind fun _ => (keeps_eatSymbol ".").bind fun _ =>
    .ite (keeps_name.bind fun _ => .pure _) (.pure _)

theorem keeps_otherName : Keeps otherName := by
  rw [otherName]
  refine (keeps_eatWord (by decide)).bind fun _ => .ite (keeps_name.bind fun _ => .pure _)
    (.peek (.pure _) fun t => .ite (fun h => ?_) fun _ => (Keeps.pure _).keepsAt t)
  obtain ⟨n, hn⟩ := Option.isSome_iff_exists.1 (Bool.and_eq_true_iff.1 h).1
  exact .advance (not_barred_of_name hn)

/-! ## Expressions -/

/-- Does every part of a selection keep what is barred, as long as the fuel lasts? -/
structure AllKeep (fuel : Nat) : Prop where
  expr : ∀ level, Keeps (expr fuel level)
  continued : ∀ level e, Keeps (continued fuel level e)
  test : ∀ negated e, Keeps (test? fuel negated e)
  lost : Keeps (lost fuel)
  exprs : Keeps (exprs fuel)
  rows : Keeps (rows fuel)
  prefixed : Keeps (prefixed fuel)
  cases : ∀ subject, Keeps (cases fuel subject)
  named : ∀ n path, Keeps (named fuel n path)
  shown : Keeps (shown fuel)
  joined : Keeps (joined fuel)
  orderTerms : Keeps (orderTerms fuel)
  orderClause : Keeps (orderClause fuel)
  limitClause : Keeps (limitClause fuel)
  selected : Keeps (selected fuel)

namespace AllKeep

variable (h : AllKeep fuel)

include h

theorem expr_succ (level : Nat) : Keeps (Grammar.expr (fuel + 1) level) := by
  rw [Grammar.expr]
  exact h.prefixed.bind fun e => h.continued level e

theorem continued_succ (level : Nat) (e : Expr) :
    Keeps (Grammar.continued (fuel + 1) level e) := by
  rw [Grammar.continued]
  have hsymbol {γ : Type} {table : List (String × γ)} {entry : String × γ} {t : Token}
      (hfind : (table.find? fun x => t.isSymbol x.1) = some entry) : t ∉ barred := by
    have hfound := List.find?_some hfind
    exact not_barred_of_isSymbol hfound
  refine .peek (.pure e) fun t => ?_
  dsimp only
  split
  · next hfind =>
    refine .ite (fun _ => (Keeps.pure e).keepsAt t) fun _ => ?_
    exact (KeepsAt.advance (hsymbol hfind)).bind fun _ => (h.expr _).bind fun _ => h.continued _ _
  split
  · next hfind =>
    refine .ite (fun _ => (Keeps.pure e).keepsAt t) fun _ => ?_
    exact (KeepsAt.advance (hsymbol hfind)).bind fun _ => (h.expr _).bind fun _ => h.continued _ _
  have hpast {word : String} (hword : ∀ b ∈ barred, b.isWord word = false)
      (ht : t.isWord word = true) {x : Scanning Expr} (hx : Keeps x) :
      KeepsAt t (advance >>= fun _ => x) :=
    (KeepsAt.advance (not_barred_of_isWord hword ht)).bind fun _ => hx
  refine .ite (fun ht => ?_) fun _ => .ite (fun ht => ?_) fun _ => .ite (fun ht => ?_) fun _ =>
    .ite (fun _ => ?_) fun _ => .ite (fun ht => ?_) fun _ => .ite (fun ht => ?_) fun _ =>
    .ite (fun ht => ?_) fun _ => .ite (fun ht => ?_) fun _ => ?_
  · refine .ite (fun _ => (Keeps.pure e).keepsAt t) fun _ => hpast (by decide) ht ?_
    exact (h.expr _).bind fun _ => h.continued _ _
  · refine .ite (fun _ => (Keeps.pure e).keepsAt t) fun _ => hpast (by decide) ht ?_
    exact (h.expr _).bind fun _ => h.continued _ _
  · exact hpast (by decide) ht (keeps_name.bind fun _ => h.continued _ _)
  · exact (Keeps.pure e).keepsAt t
  · exact hpast (by decide) ht (h.continued _ _)
  · exact hpast (by decide) ht (h.continued _ _)
  · refine hpast (by decide) ht ((keeps_eatWord (by decide)).bind fun _ =>
      (keeps_eatWord (by decide)).bind fun _ => .ite ?_ ?_)
    · exact (keeps_expectWord (by decide)).bind fun _ => (h.expr _).bind fun _ => h.continued _ _
    · exact (h.expr _).bind fun _ => h.continued _ _
  · refine hpast (by decide) ht ((keeps_eatWord (by decide)).bind fun _ =>
      .ite (h.continued _ _) ((h.test _ _).bind fun found => ?_))
    cases found with
    | none => exact .fail
    | some e => exact h.continued _ e
  · refine ((h.test _ _).bind fun found => ?_).keepsAt t
    cases found with
    | none => exact .pure e
    | some e => exact h.continued _ e

theorem test_succ (negated : Bool) (e : Expr) : Keeps (test? (fuel + 1) negated e) := by
  rw [test?]
  refine (keeps_eatWord (by decide)).bind fun _ => .ite ?_ <|
    (keeps_eatWord (by decide)).bind fun _ => .ite ?_ (.peek (.pure _) fun t => ?_)
  · exact (h.expr _).bind fun _ => h.lost.bind fun _ => (keeps_expectWord (by decide)).bind fun _ =>
      (h.expr _).bind fun _ => .pure _
  · refine keeps_isAtSymbol (keeps_target.bind fun _ => .pure _) fun t ht =>
      (KeepsAt.advance (not_barred_of_isSymbol ht)).bind fun _ => ?_
    refine (keeps_eatSymbol ")").bind fun _ => .ite (.pure _) <|
      (keeps_eatWord (by decide)).bind fun _ => .ite ?_ <|
      (keeps_eatWord (by decide)).bind fun _ => .ite ?_ ?_
    · exact h.selected.bind fun _ => (keeps_expectSymbol ")").bind fun _ => .pure _
    · exact h.rows.bind fun rows => (keeps_checkRowWidths rows).bind fun _ =>
        (keeps_expectSymbol ")").bind fun _ => .pure _
    · exact h.exprs.bind fun _ => (keeps_expectSymbol ")").bind fun _ => .pure _
  · refine .ite (fun ht => ?_) fun _ => (Keeps.pure _).keepsAt t
    refine (KeepsAt.advance (not_barred_of_any (by decide) ht)).bind fun _ =>
      (h.expr _).bind fun _ => (keeps_eatWord (by decide)).bind fun _ => ?_
    exact .ite ((h.expr _).map.bind fun _ => .pure _) ((Keeps.pure _).bind fun _ => .pure _)

theorem lost_succ : Keeps (Grammar.lost (fuel + 1)) := by
  rw [Grammar.lost]
  exact (keeps_eatWord (by decide)).bind fun _ =>
    .ite ((h.expr _).bind fun _ => h.lost) (.pure _)

theorem exprs_succ : Keeps (Grammar.exprs (fuel + 1)) := by
  rw [Grammar.exprs]
  exact (h.expr _).bind fun _ => (keeps_eatSymbol ",").bind fun _ =>
    .ite (h.exprs.bind fun _ => .pure _) (.pure _)

theorem rows_succ : Keeps (Grammar.rows (fuel + 1)) := by
  rw [Grammar.rows]
  exact (keeps_expectSymbol "(").bind fun _ => h.exprs.bind fun _ =>
    (keeps_expectSymbol ")").bind fun _ => (keeps_eatSymbol ",").bind fun _ =>
      .ite (h.rows.bind fun _ => .pure _) (.pure _)

theorem prefixed_succ : Keeps (Grammar.prefixed (fuel + 1)) := by
  rw [Grammar.prefixed]
  refine .peek .fail fun t => ?_
  have hpast {word : String} (hword : ∀ b ∈ barred, b.isWord word = false)
      (ht : t.isWord word = true) {x : Scanning Expr} (hx : Keeps x) :
      KeepsAt t (advance >>= fun _ => x) :=
    (KeepsAt.advance (not_barred_of_isWord hword ht)).bind fun _ => hx
  have hkind (hkind : t.kind ≠ .word) {x : Scanning Expr} (hx : Keeps x) :
      KeepsAt t (advance >>= fun _ => x) :=
    (KeepsAt.advance (not_barred_of_kind hkind)).bind fun _ => hx
  dsimp only
  split
  · exact Keeps.fail.keepsAt t
  · next h => exact hkind (by rw [h]; rintro ⟨⟩) (.pure _)
  · next h => exact hkind (by rw [h]; rintro ⟨⟩) (keeps_parameter _)
  · next hsymbol =>
    have hother : t.kind ≠ .word := by
      rw [hsymbol]
      rintro ⟨⟩
    refine .ite (fun _ => hkind hother ?_) fun _ => .ite (fun _ => hkind hother ?_) fun _ =>
      .ite (fun _ => hkind hother ?_) fun _ => .ite (fun _ => hkind hother ?_) fun _ =>
      Keeps.fail.keepsAt t
    · refine (keeps_eatWord (by decide)).bind fun _ => .ite ?_ (h.exprs.bind fun parts => ?_)
      · exact h.selected.bind fun _ => (keeps_expectSymbol ")").bind fun _ => .pure _
      · split
        · exact (keeps_expectSymbol ")").bind fun _ => .pure _
        · exact (keeps_expectSymbol ")").bind fun _ => .pure _
    · exact h.prefixed.bind fun _ => .pure _
    · exact h.prefixed.bind fun _ => .pure _
    · exact h.prefixed.bind fun _ => .pure _
  · refine .ite (fun ht => hpast (by decide) ht ?_) fun _ =>
      .ite (fun ht => hpast (by decide) ht ?_) fun _ =>
      .ite (fun ht => hpast (by decide) ht ?_) fun _ =>
      .ite (fun ht => hpast (by decide) ht ?_) fun _ =>
      .ite (fun ht => hpast (by decide) ht ?_) fun _ => .ite (fun ht => ?_) fun _ =>
      .ite (fun ht => hpast (by decide) ht ?_) fun _ => ?_
    · exact (h.expr _).bind fun _ => .pure _
    · exact .pure _
    · exact (keeps_expectSymbol "(").bind fun _ => (keeps_expectWord (by decide)).bind fun _ =>
        h.selected.bind fun _ => (keeps_expectSymbol ")").bind fun _ => .pure _
    · refine keeps_isAtWord ?_ fun _ _ => Keeps.keepsAt ?_ _
      · exact (h.expr _).map.bind fun subject =>
          (keeps_expectWord (by decide)).bind fun _ => h.cases subject
      · exact (Keeps.pure none).bind fun subject =>
          (keeps_expectWord (by decide)).bind fun _ => h.cases subject
    · refine (keeps_expectSymbol "(").bind fun _ => (keeps_eatWord (by decide)).bind fun _ => ?_
      have hend : Keeps (do
          expectSymbol ")"
          postpone .misusedRaise
          return .literal .null : Scanning Expr) :=
        (keeps_expectSymbol ")").bind fun _ => (keeps_postpone _).bind fun _ => .pure _
      exact .ite (keeps_name.bind fun _ => (keeps_expectSymbol ",").bind fun _ =>
        keeps_name.bind fun _ => hend) hend
    · exact (KeepsAt.advance (not_barred_of_any (by decide) ht)).bind fun _ => .pure _
    · refine (keeps_expectSymbol "(").bind fun _ => (h.expr _).bind fun _ =>
        (keeps_expectWord (by decide)).bind fun _ => (keeps_typeWords _).bind fun _ =>
        (keeps_eatSymbol "(").bind fun _ => ?_
      have hend (e : Expr) : Keeps (do
          expectSymbol ")"
          return e : Scanning Expr) := (keeps_expectSymbol ")").bind fun _ => .pure _
      exact .ite ((keeps_typeSize _).bind fun _ => hend _) (hend _)
    · split
      · exact Keeps.fail.keepsAt t
      · next hname =>
        exact (KeepsAt.advance (not_barred_of_name hname)).bind fun _ => h.named _ _

theorem cases_succ (subject : Option Expr) : Keeps (Grammar.cases (fuel + 1) subject) := by
  rw [Grammar.cases]
  refine (h.expr _).bind fun _ => (keeps_expectWord (by decide)).bind fun _ =>
    (h.expr _).bind fun _ => (keeps_eatWord (by decide)).bind fun _ =>
    .ite ((h.cases _).bind fun _ => .pure _) ((keeps_eatWord (by decide)).bind fun _ => .ite ?_ ?_)
  · exact (h.expr _).bind fun _ => (keeps_expectWord (by decide)).bind fun _ => .pure _
  · exact (keeps_expectWord (by decide)).bind fun _ => .pure _

theorem named_succ (n : Name) (path : List String) : Keeps (Grammar.named (fuel + 1) n path) := by
  rw [Grammar.named]
  refine (keeps_eatSymbol ".").bind fun _ => .ite (keeps_name.bind fun _ => h.named _ _) <|
    keeps_isAtSymbol ?_ fun t ht => .ite (fun _ => ?_) fun _ => (Keeps.pure _).keepsAt t
  · rw [Bool.and_false, if_neg Bool.false_ne_true]
    exact .pure _
  · refine (KeepsAt.advance (not_barred_of_isSymbol ht)).bind fun _ =>
      (keeps_eatSymbol ")").bind fun _ => .ite (.pure _) <|
      (keeps_eatSymbol "*").bind fun _ => .ite ?_ ?_
    · exact (keeps_expectSymbol ")").bind fun _ => .pure _
    · exact (keeps_eatWord (by decide)).bind fun _ => h.exprs.bind fun _ =>
        (keeps_expectSymbol ")").bind fun _ => .pure _

/-! ## Selections -/

theorem shown_succ : Keeps (Grammar.shown (fuel + 1)) := by
  rw [Grammar.shown]
  refine (h.expr _).bind fun e => (keeps_eatWord (by decide)).bind fun _ => ?_
  have hend (title : String) : Keeps (do
      if ← eatSymbol "," then return ⟨e, title⟩ :: (← Grammar.shown fuel) else return [⟨e, title⟩] :
        Scanning (List Shown)) :=
    (keeps_eatSymbol ",").bind fun _ => .ite (h.shown.bind fun _ => .pure _) (.pure _)
  refine .ite (keeps_name.bind fun _ => (Keeps.pure _).bind hend) (.peek ?_ fun t => ?_)
  · exact (Keeps.pure _).bind hend
  · dsimp only [Option.bind_some]
    split
    · next hname =>
      exact (KeepsAt.advance (not_barred_of_name hname)).bind fun _ => (Keeps.pure _).bind hend
    · exact ((Keeps.pure _).bind hend).keepsAt t

theorem joined_succ : Keeps (Grammar.joined (fuel + 1)) := by
  rw [Grammar.joined]
  have hjoins {c d : Prop} [Decidable c] [Decidable d]
      {k : Bool → Scanning (List Target × List Expr)} (hk : ∀ joins, Keeps (k joins)) :
      Keeps (if c then Pure.pure true >>= k else if d then Pure.pure false >>= k
        else eatSymbol "," >>= k) :=
    .ite ((Keeps.pure true).bind hk) (.choice (.pure false) (keeps_eatSymbol ",") hk)
  refine (keeps_eatWord (by decide)).bind fun _ => (keeps_eatWord (by decide)).bind fun _ =>
    hjoins fun _ => .ite ?_ (.ite .fail (.pure _))
  refine keeps_target.bind fun _ => keeps_otherName.bind fun _ =>
    (keeps_eatWord (by decide)).bind fun _ => ?_
  exact .ite ((h.expr _).bind fun _ => (Keeps.pure _).bind fun _ => h.joined.bind fun _ => .pure _)
    ((Keeps.pure _).bind fun _ => h.joined.bind fun _ => .pure _)

theorem orderTerms_succ : Keeps (Grammar.orderTerms (fuel + 1)) := by
  rw [Grammar.orderTerms]
  refine (h.expr _).bind fun e => (keeps_eatWord (by decide)).bind fun _ => ?_
  have hend (direction : Direction) : Keeps (do
      if ← eatSymbol "," then return (e, direction) :: (← Grammar.orderTerms fuel)
      else return [(e, direction)] : Scanning (List (Expr × Direction))) :=
    (keeps_eatSymbol ",").bind fun _ => .ite (h.orderTerms.bind fun _ => .pure _) (.pure _)
  exact .ite ((Keeps.pure _).bind hend)
    ((keeps_eatWord (by decide)).bind fun _ => (Keeps.pure _).bind hend)

theorem orderClause_succ : Keeps (Grammar.orderClause (fuel + 1)) := by
  rw [Grammar.orderClause]
  exact (keeps_eatWord (by decide)).bind fun _ =>
    .ite ((keeps_expectWord (by decide)).bind fun _ => h.orderTerms) (.pure _)

theorem limitClause_succ : Keeps (Grammar.limitClause (fuel + 1)) := by
  rw [Grammar.limitClause]
  refine (keeps_eatWord (by decide)).bind fun _ => .ite ((h.expr _).bind fun _ => ?_) (.pure _)
  exact (keeps_eatWord (by decide)).bind fun _ => .ite ((h.expr _).bind fun _ => .pure _) <|
    (keeps_eatSymbol ",").bind fun _ => .ite ((h.expr _).bind fun _ => .pure _) (.pure _)

theorem selected_succ : Keeps (Grammar.selected (fuel + 1)) := by
  rw [Grammar.selected]
  refine (keeps_eatWord (by decide)).bind fun _ => .option (keeps_eatWord (by decide)) <|
    (keeps_eatSymbol "*").bind fun _ => .choice (.pure _) h.shown.map fun columns =>
    (keeps_eatWord (by decide)).bind fun _ => ?_
  have hfrom {c : Prop} [Decidable c] {k : List Target × List Expr → Scanning Query}
      (hk : ∀ x, Keeps (k x)) : Keeps (if c then do
          let t ← target
          otherName
          let x ← Grammar.joined fuel
          let x ← Pure.pure (t :: x.1, x.2)
          k x
        else do
          let x ← Pure.pure ([], [])
          k x) :=
    .ite (keeps_target.bind fun _ => keeps_otherName.bind fun _ => h.joined.bind fun _ =>
      (Keeps.pure _).bind hk) ((Keeps.pure _).bind hk)
  refine hfrom fun x => (keeps_eatWord (by decide)).bind fun _ =>
    .choice (h.expr 0).map (.pure _) fun test => (keeps_eatWord (by decide)).bind fun _ => ?_
  have hgroup {c : Prop} [Decidable c] {k : List Expr → Scanning Query}
      (hk : ∀ x, Keeps (k x)) : Keeps (if c then do
          expectWord "BY"
          let group ← Grammar.exprs fuel
          k group
        else do
          let group ← Pure.pure []
          k group) :=
    .ite ((keeps_expectWord (by decide)).bind fun _ => h.exprs.bind hk) ((Keeps.pure _).bind hk)
  exact hgroup fun group => (keeps_eatWord (by decide)).bind fun _ =>
    .choice (h.expr 0).map (.pure _) fun groupTest => h.orderClause.bind fun _ =>
    h.limitClause.bind fun _ => .pure _

end AllKeep

/-- No part of a selection goes past what is barred. -/
theorem allKeep (fuel : Nat) : AllKeep fuel := by
  induction fuel with
  | zero =>
    exact ⟨fun _ => .fail, fun _ _ => .fail, fun _ _ => .fail, .fail, .fail, .fail, .fail,
      fun _ => .fail, fun _ _ => .fail, .fail, .fail, .fail, .fail, .fail, .fail⟩
  | succ fuel ih =>
    exact ⟨ih.expr_succ, ih.continued_succ, ih.test_succ, ih.lost_succ, ih.exprs_succ,
      ih.rows_succ, ih.prefixed_succ, ih.cases_succ, ih.named_succ, ih.shown_succ, ih.joined_succ,
      ih.orderTerms_succ, ih.orderClause_succ, ih.limitClause_succ, ih.selected_succ⟩

/-- What stands behind a selection is kept, whatever combines the two. -/
theorem keeps_combined (h : Keeps (others fuel)) (k : Option Combination) : Keeps (do
    match k with
    | none => return []
    | some k =>
      expectWord "SELECT"
      let q ← selected fuel
      return (k, q) :: (← others fuel) : Scanning (List (Combination × Query))) := by
  cases k with
  | none => exact .pure _
  | some k =>
    exact (keeps_expectWord (by decide)).bind fun _ => (allKeep fuel).selected.bind fun _ =>
      h.bind fun _ => .pure _

theorem keeps_others (fuel : Nat) : Keeps (others fuel) := by
  induction fuel with
  | zero => exact .fail
  | succ fuel ih =>
    rw [others]
    have hend := keeps_combined ih
    refine (keeps_eatWord (by decide)).bind fun _ => .ite ?_ <|
      (keeps_eatWord (by decide)).bind fun _ => .ite ((Keeps.pure _).bind hend) <|
      (keeps_eatWord (by decide)).bind fun _ => .choice (.pure _) (.pure _) hend
    exact (keeps_eatWord (by decide)).bind fun _ => .choice (.pure _) (.pure _) hend

theorem keeps_selection (fuel : Nat) : Keeps (selection fuel) := by
  refine (allKeep fuel).selected.bind fun first => (keeps_others fuel).bind fun rest => ?_
  dsimp only
  split
  · exact .ite (.pure _) (.pure _)
  · exact (keeps_postpone _).bind fun _ => .ite (.pure _) (.pure _)

/-- **A selection that has been read to its end holds no barred word.** -/
theorem not_mem_of_read {text : String} {cells : List Cell} {u : Understood} {ts : List Token}
    (htext : Token.ofText text = ⟨.word, "SELECT"⟩ :: ts) (h : read text cells = .ok u)
    (hend : u.isFollowed = false) : ∀ b ∈ barred, b ∉ Token.ofText text := by
  obtain ⟨⟨c, r⟩, hcommand, h⟩ := bind_eq_ok_iff.1 h
  have hunderstood {isFollowed : Bool} (h : read.understood c r isFollowed = .ok u) :
      u.isFollowed = isFollowed := by
    unfold read.understood at h
    split at h
    · cases h
    · cases h
      rfl
  have hrest : ∀ b ∈ barred, b ∉ r.tokens := by
    intro b hb hmem
    dsimp only at h
    split at h
    · next hnone =>
      rw [hnone] at hmem
      cases hmem
    · next t rest hsome =>
      rw [hsome] at hmem
      split at h
      · next hsymbol =>
        rw [hunderstood h, Bool.not_eq_false', List.isEmpty_iff] at hend
        rw [hend, List.mem_singleton] at hmem
        exact not_barred_of_isSymbol hsymbol (hmem ▸ hb)
      · cases h
  rw [htext] at hcommand ⊢
  intro b hb hmem
  have hmem : b ∈ ts := (List.mem_cons.1 hmem).resolve_left fun heq =>
    absurd hb (heq ▸ by decide)
  rw [command, run_bind_of_ok (run_eatWord ⟨[], 0, [], cells, none⟩ _ ts "SELECT")] at hcommand
  exact hrest b hb (keeps_selection _ _ _ _ hcommand b hb hmem)

end RowAccess.Sql.Grammar
