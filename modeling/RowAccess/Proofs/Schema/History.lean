import RowAccess.Proofs.Schema.Cache

/-
  RowAccess/Proofs/Schema/History.lean
  ====================================
  **What happens to a cache while its backend works.**  A backend that executes an operation may ask
  the same cache for schemas, so calls nest to any depth (`Cache.Meanwhile`).  Whatever they do, the
  commits of one table come in the order of their generations, because its lock is held from the
  count of the generation to the commit; and what the cache remembers of a table, and the schema on
  disk, are those of the last commit (`Cache.Meanwhile.effect`).
-/

namespace RowAccess

open Keyed

/-- A schema that was discovered, with its table and the generation of the discovery. -/
structure Finding where
  table : String
  generation : Nat
  schema : TableSchema

namespace Finding

def last? (log : List Finding) (table : String) : Option Finding :=
  log.reverse.find? fun d => d.table == table

@[simp] theorem last?_nil (table : String) : last? [] table = none := rfl

theorem last?_append (log log' : List Finding) (table : String) :
    last? (log ++ log') table = (last? log' table).or (last? log table) := by
  simp [last?, List.reverse_append, List.find?_append]

theorem last?_singleton (d : Finding) (table : String) :
    last? [d] table = if d.table = table then some d else none := by
  by_cases h : d.table = table <;> simp [last?, h]

theorem last?_eq_none_iff {log : List Finding} {table : String} :
    last? log table = none ↔ ∀ d ∈ log, d.table ≠ table := by
  simp [last?]

theorem mem_of_last? {log : List Finding} {table : String} {d : Finding}
    (h : last? log table = some d) : d ∈ log ∧ d.table = table := by
  refine ⟨List.mem_reverse.1 (List.mem_of_find?_eq_some h), ?_⟩
  simpa using List.find?_some h

/-- Do the generations of every table ascend? -/
def Ascending (log : List Finding) : Prop :=
  log.Pairwise fun d e => d.table = e.table → d.generation < e.generation

theorem Ascending.le_last? {log : List Finding} (h : Ascending log) {d e : Finding}
    (he : last? log d.table = some e) (hd : d ∈ log) : d = e ∨ d.generation < e.generation := by
  induction log with
  | nil => cases hd
  | cons f log ih =>
    rw [Ascending, List.pairwise_cons] at h
    have hlast : last? (f :: log) d.table =
        (last? log d.table).or (last? [f] d.table) := last?_append [f] log d.table
    rw [hlast] at he
    cases hrest : last? log d.table with
    | none =>
      rw [hrest, Option.none_or] at he
      rcases List.mem_cons.1 hd with rfl | hd
      · rw [last?_singleton, if_pos rfl] at he
        exact .inl (Option.some.inj he)
      · exact absurd rfl (last?_eq_none_iff.1 hrest d hd)
    | some e' =>
      rw [hrest, Option.some_or] at he
      obtain rfl := Option.some.inj he
      rcases List.mem_cons.1 hd with rfl | hd
      · obtain ⟨hmem, htable⟩ := mem_of_last? hrest
        exact .inr (h.1 e' hmem htable.symm)
      · exact ih h.2 hrest hd

end Finding

/-! ## Effects -/

/-- What a cache knows: what it remembers, and the catalog on disk. -/
structure View where
  memory : Memory
  stored : Except Fault Catalog

namespace View

/-- The view after a discovery of a table was opened. -/
def opened (table : String) (v : View) : View :=
  ⟨{ v.memory with held := .text table :: v.memory.held, next := v.memory.next + 1 }, v.stored⟩

/-- The view after the lock of a table was left. -/
def left (table : String) (v : View) : View :=
  ⟨{ v.memory with held := v.memory.held.filter fun t => !(t == .text table) }, v.stored⟩

def committed (d : Finding) (stored : Except Fault Catalog) (v : View) : View :=
  ⟨{ v.memory with persisted := put v.memory.persisted (.text d.table) d.generation }, stored⟩

/-- What the commits of a log do to a view.  Generations are counted on, locks are as before, and
what is remembered and stored of a table is due to its last commit. -/
structure Effect (v : View) (log : List Finding) (w : View) : Prop where
  next_le : v.memory.next ≤ w.memory.next
  held : w.memory.held = v.memory.held
  counted : ∀ d ∈ log, v.memory.next ≤ d.generation ∧ d.generation < w.memory.next
  free : ∀ d ∈ log, Value.text d.table ∉ v.memory.held
  named : ∀ d ∈ log, d.schema.name = .text d.table
  ascending : Finding.Ascending log
  persisted : ∀ table, find? w.memory.persisted (.text table) =
    ((Finding.last? log table).map (·.generation)).or (find? v.memory.persisted (.text table))
  unreadable : ∀ f, v.stored = .error f → log = [] ∧ w.stored = .error f
  stored : ∀ catalog, v.stored = .ok catalog → catalog.Named → catalog.Coherent →
    (∀ d ∈ log, d.schema.Named) → ∃ catalog', w.stored = .ok catalog' ∧ catalog'.Named ∧
      catalog'.Coherent ∧ ∀ table, catalog'.get? (.text table) =
        ((Finding.last? log table).map (·.schema)).or (catalog.get? (.text table))

namespace Effect

variable {u v w : View} {log log' : List Finding}

theorem refl (v : View) : Effect v [] v where
  next_le := Nat.le_refl _
  held := rfl
  counted := by simp
  free := by simp
  named := by simp
  ascending := List.Pairwise.nil
  persisted := by simp
  unreadable := fun f hf => ⟨rfl, hf⟩
  stored := fun catalog h hn hc _ => ⟨catalog, h, hn, hc, by simp⟩

theorem trans (h : Effect u log v) (h' : Effect v log' w) : Effect u (log ++ log') w where
  next_le := Nat.le_trans h.next_le h'.next_le
  held := h'.held.trans h.held
  counted := by
    intro d hd
    rcases List.mem_append.1 hd with hd | hd
    · exact ⟨(h.counted d hd).1, Nat.lt_of_lt_of_le (h.counted d hd).2 h'.next_le⟩
    · exact ⟨Nat.le_trans h.next_le (h'.counted d hd).1, (h'.counted d hd).2⟩
  free := by
    intro d hd
    rcases List.mem_append.1 hd with hd | hd
    · exact h.free d hd
    · rw [← h.held]
      exact h'.free d hd
  named := by
    intro d hd
    rcases List.mem_append.1 hd with hd | hd
    · exact h.named d hd
    · exact h'.named d hd
  ascending := by
    refine List.pairwise_append.2 ⟨h.ascending, h'.ascending, ?_⟩
    intro d hd e he _
    exact Nat.lt_of_lt_of_le (h.counted d hd).2 (h'.counted e he).1
  persisted := by
    intro table
    rw [h'.persisted, h.persisted, Finding.last?_append]
    cases Finding.last? log' table with
    | none => rfl
    | some e => rfl
  unreadable := by
    intro f hf
    obtain ⟨rfl, hv⟩ := h.unreadable f hf
    obtain ⟨rfl, hw⟩ := h'.unreadable f hv
    exact ⟨rfl, hw⟩
  stored := by
    intro catalog hu hn hc hlog
    obtain ⟨catalog', hv, hn', hc', hget⟩ :=
      h.stored catalog hu hn hc fun d hd => hlog d (List.mem_append_left _ hd)
    obtain ⟨catalog'', hw, hn'', hc'', hget'⟩ :=
      h'.stored catalog' hv hn' hc' fun d hd => hlog d (List.mem_append_right _ hd)
    refine ⟨catalog'', hw, hn'', hc'', ?_⟩
    intro table
    rw [hget', hget, Finding.last?_append]
    cases Finding.last? log' table with
    | none => rfl
    | some e => rfl

/-- A discovery under a free lock adds nothing to what happens while it runs; and what is committed
then is of other tables and of later generations. -/
theorem locked {table : String} (hfree : Value.text table ∉ v.memory.held)
    (h : Effect (v.opened table) log w) :
    Effect v log (w.left table) ∧ v.memory.next < w.memory.next ∧
      ∀ d ∈ log, d.table ≠ table ∧ v.memory.next < d.generation := by
  have hlater : ∀ d ∈ log, d.table ≠ table ∧ v.memory.next < d.generation := by
    intro d hd
    refine ⟨?_, (h.counted d hd).1⟩
    intro heq
    refine h.free d hd ?_
    rw [heq]
    exact List.mem_cons_self
  refine ⟨?_, h.next_le, hlater⟩
  exact {
    next_le := Nat.le_trans (Nat.le_succ _) h.next_le
    held := by
      show w.memory.held.filter _ = _
      rw [h.held]
      exact Cache.filter_held hfree
    counted := fun d hd => ⟨Nat.le_of_lt (hlater d hd).2, (h.counted d hd).2⟩
    free := fun d hd hmem => h.free d hd (List.mem_cons_of_mem _ hmem)
    named := h.named
    ascending := h.ascending
    persisted := h.persisted
    unreadable := h.unreadable
    stored := h.stored }

theorem commit (h : Effect v log w) {d : Finding} {catalog : Catalog}
    {after : Except Fault Catalog} (hfree : Value.text d.table ∉ v.memory.held)
    (hcounted : v.memory.next ≤ d.generation ∧ d.generation < w.memory.next)
    (hlog : ∀ e ∈ log, e.table ≠ d.table) (hname : d.schema.name = .text d.table)
    (hload : w.stored = .ok catalog)
    (hsave : catalog.Named → catalog.Coherent → d.schema.Named →
      after = .ok (catalog.put d.schema)) :
    Effect v (log ++ [d]) (w.committed d after) where
  next_le := h.next_le
  held := h.held
  counted := by
    intro e he
    rcases List.mem_append.1 he with he | he
    · exact h.counted e he
    · rw [List.mem_singleton.1 he]
      exact hcounted
  free := by
    intro e he
    rcases List.mem_append.1 he with he | he
    · exact h.free e he
    · rw [List.mem_singleton.1 he]
      exact hfree
  named := by
    intro e he
    rcases List.mem_append.1 he with he | he
    · exact h.named e he
    · rw [List.mem_singleton.1 he]
      exact hname
  ascending := by
    refine List.pairwise_append.2 ⟨h.ascending, List.pairwise_singleton _ _, ?_⟩
    intro e he d' hd' htable
    rw [List.mem_singleton.1 hd'] at htable
    exact absurd htable (hlog e he)
  persisted := by
    intro table
    have hexact := Value.exact_text d.table
    show find? (put w.memory.persisted (.text d.table) d.generation) _ = _
    rw [Finding.last?_append, Finding.last?_singleton]
    by_cases heq : d.table = table
    · subst heq
      rw [hexact.find?_put, if_pos rfl]
      rfl
    · rw [hexact.find?_put_of_ne _ _ (by simpa using heq), if_neg heq, h.persisted]
      rfl
  unreadable := by
    intro f hf
    have hw := (h.unreadable f hf).2
    rw [hload] at hw
    cases hw
  stored := by
    intro catalog' hv hn hc hnamed
    obtain ⟨catalog'', hw, hn', hc', hget⟩ :=
      h.stored catalog' hv hn hc fun e he => hnamed e (List.mem_append_left _ he)
    rw [hload] at hw
    obtain rfl := Except.ok.inj hw
    have hd : d.schema.Named := hnamed d (List.mem_append_right _ (List.mem_singleton.2 rfl))
    refine ⟨catalog.put d.schema, hsave hn' hc' hd, hn'.put hd, hc'.put hd.table, ?_⟩
    intro table
    rw [Finding.last?_append, Finding.last?_singleton]
    by_cases heq : d.table = table
    · subst heq
      have hput := Catalog.get?_put (c := catalog) hd.table
      rw [hname] at hput
      rw [hput, if_pos rfl]
      rfl
    · rw [Catalog.get?_put_of_ne hd.table (by rw [hname]; simpa using heq), if_neg heq, hget]
      rfl

end Effect

end View

namespace Cache

variable {σ : Type} (c : Cache σ)

/-- What the cache knows at a site. -/
def view (s : Site σ) : View :=
  ⟨c.memoryAt s, c.loadAt s⟩

theorem view_opened (table : String) (s : Site σ) :
    c.view (c.opened table s) = (c.view s).opened table := by
  simp only [view, opened, counted, entered, memoryAt_changed, loadAt_changed, View.opened]

theorem view_left (table : String) (s : Site σ) :
    c.view (c.left table s) = (c.view s).left table := by
  simp only [view, left, memoryAt_changed, loadAt_changed, View.left]

variable {c} in
theorem Untouched.view {s s' : Site σ} (h : c.Untouched s s') : c.view s' = c.view s := by
  rw [Cache.view, Cache.view, h.memory, h.loadAt]

/-! ## Calls while the backend works -/

/-- The finding that a call commits: a call that discovers commits exactly when it succeeds. -/
def commits (table : String) (overwrite : Bool) (s : Site σ) : List Finding :=
  match ((c.schema (.text table) overwrite).execute s).1 with
  | .ok t => [⟨table, (c.memoryAt s).next, t⟩]
  | .error _ => []

/-- What may happen to the cache while its backend works, and what is committed meanwhile, in order.
Outside of calls nobody touches the cache.  A call is for a table whose lock is free; what happens
while it discovers is again of this kind. -/
inductive Meanwhile : Site σ → List Finding → Site σ → Prop
  | untouched {s s' : Site σ} (h : c.Untouched s s') : Meanwhile s [] s'
  | known {table : String} {overwrite : Bool} {s : Site σ} (free : c.IsFree table s)
    (known : ¬ c.Discovers table overwrite s) :
    Meanwhile s [] ((c.schema (.text table) overwrite).execute s).2
  | discovered {table : String} {overwrite : Bool} {s : Site σ} {log : List Finding}
    (free : c.IsFree table s) (discovers : c.Discovers table overwrite s)
    (inner : Meanwhile (c.opened table s) log
      ((c.discover (.text table)).execute (c.opened table s)).2) :
    Meanwhile s (log ++ c.commits table overwrite s)
      ((c.schema (.text table) overwrite).execute s).2
  | next {s s₁ s' : Site σ} {log log' : List Finding} (first : Meanwhile s log s₁)
    (second : Meanwhile s₁ log' s') : Meanwhile s (log ++ log') s'

variable {c}

/-- A discovery under the lock of its table, with what its own end adds to what it saw meanwhile. -/
theorem effect_discovered {table : String} {overwrite : Bool} {s : Site σ} {log : List Finding}
    (hfree : c.IsFree table s) (h : c.Discovers table overwrite s)
    (inner : (c.view (c.opened table s)).Effect log
      (c.view ((c.discover (.text table)).execute (c.opened table s)).2)) :
    (c.view s).Effect (log ++ c.commits table overwrite s)
      (c.view ((c.schema (.text table) overwrite).execute s).2) := by
  rw [view_opened] at inner
  obtain ⟨heffect, hnext, hlater⟩ := View.Effect.locked (v := c.view s) hfree inner
  have hexecute := c.execute_schema_discovers hfree h
  rcases c.execute_refresh (.text table) (c.entered table s) with
    ⟨f, s', hrefresh, huntouched⟩ | ⟨t, s₁, catalog, folder, hdiscover, hload, hsave, hrefresh⟩
  · rw [hrefresh] at hexecute
    have hcommits : c.commits table overwrite s = [] := by
      rw [commits, hexecute]
    rw [hcommits, List.append_nil, hexecute, view_left, huntouched.view]
    exact heffect
  · have hopened : (c.discover (.text table)).execute (c.opened table s) = (.ok t, s₁) := hdiscover
    have hgeneration : (c.memoryAt (c.entered table s)).next = (c.memoryAt s).next := by
      simp only [entered, memoryAt_changed]
    rw [hrefresh, hgeneration] at hexecute
    have hcommits : c.commits table overwrite s = [⟨table, (c.memoryAt s).next, t⟩] := by
      rw [commits, hexecute]
    have hview : c.view (c.left table (c.committed (.text table) (c.memoryAt s).next folder s₁)) =
        ((c.view s₁).left table).committed ⟨table, (c.memoryAt s).next, t⟩
          (folder.load c.place) := by
      simp only [view, left, Cache.committed, memoryAt_changed, loadAt_changed, View.left,
        View.committed]
      rfl
    rw [hopened] at heffect hnext
    rw [hcommits, hexecute, hview]
    refine heffect.commit hfree ⟨Nat.le_refl _, hnext⟩ (fun e he => (hlater e he).1)
      (c.discover_name hdiscover) hload ?_
    intro hn hc ht
    exact Folder.load_save (hn.put ht) (hc.put ht.table) hsave

/-- Whatever happens while the backend works is the effect of what is committed meanwhile. -/
theorem Meanwhile.effect {s s' : Site σ} {log : List Finding} (h : c.Meanwhile s log s') :
    (c.view s).Effect log (c.view s') := by
  induction h with
  | untouched h =>
    rw [h.view]
    exact .refl _
  | known free known =>
    rw [(c.execute_schema_known free known).view]
    exact .refl _
  | discovered free discovers _ ih => exact effect_discovered free discovers ih
  | next _ _ ih ih' => exact ih.trans ih'

end Cache

end RowAccess
