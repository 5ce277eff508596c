import RowAccess.Proofs.Schema.Apart

/-
  RowAccess/Proofs/Schema/Register.lean
  =====================================
  **What a register does, and where it can be kept.**  A step that fails leaves what is known
  (`Register.known_of_error`).  A folder can hold what is known in the file of a catalog: a write
  either makes it hold what is known then, or fails and leaves it, and which of the two does not
  depend on what was written before (`Folder.Holds.commit`).
-/

namespace RowAccess

open Keyed

/-! ## The catalog of known schemas -/

namespace Catalog

theorem put_ofKnown (known : Keyed Value TableSchema) {t : TableSchema}
    (ht : t.name.isText = true) : (ofKnown known).put t = ofKnown (Keyed.put known t.name t) := by
  have hexact := exact_of_isText ht
  unfold put ofKnown
  by_cases hmem : t.name ∈ keys known
  · rw [list_of_mem hexact hmem, hexact.keys_put_of_mem hmem]
  · have hlist : list (keys known) t.name = keys known ++ [t.name] := by
      rw [list, if_neg (fun h => hmem ((hexact.contains_iff _).1 h))]
    rw [hlist, hexact.put_of_not_mem hmem]
    simp [keys]

/-- Schemas of distinct tables, put one after another, stand in the order of the tables. -/
theorem putAll_keys {known done : Keyed Value TableSchema} {tables : List Value}
    (htext : ∀ e ∈ known, e.1.isText = true) (hname : ∀ e ∈ known, e.2.name = e.1)
    (hlisted : ∀ e ∈ known, e.1 ∈ tables) (hnew : (keys (done ++ known)).Nodup) :
    (Catalog.mk tables done).putAll (values known) = ⟨tables, done ++ known⟩ := by
  induction known generalizing done with
  | nil => simp [values, putAll]
  | cons e known ih =>
    obtain ⟨k, t⟩ := e
    obtain rfl : t.name = k := hname _ List.mem_cons_self
    have hexact := exact_of_isText (htext _ List.mem_cons_self)
    have hfresh : t.name ∉ keys done := by
      intro hmem
      simp only [keys, List.map_append, List.map_cons] at hnew
      exact (List.nodup_append.1 hnew).2.2 _ hmem _ List.mem_cons_self rfl
    have hput : (Catalog.mk tables done).put t = ⟨tables, done ++ [(t.name, t)]⟩ := by
      rw [put, list_of_mem hexact (hlisted _ List.mem_cons_self), hexact.put_of_not_mem hfresh]
    have hrest : (Catalog.mk tables (done ++ [(t.name, t)])).putAll (values known) = _ := ih
      (fun e he => htext e (List.mem_cons_of_mem _ he))
      (fun e he => hname e (List.mem_cons_of_mem _ he))
      (fun e he => hlisted e (List.mem_cons_of_mem _ he)) (by simpa using hnew)
    rw [putAll, values, List.map_cons, List.foldl_cons, hput]
    simpa [putAll, values] using hrest

theorem none_missing {known : Keyed Value TableSchema} (hn : (ofKnown known).Named) :
    ∀ tables : List Value, (∀ v ∈ tables, v ∈ keys known) →
      tables.filterMapM (fun table => do
        match ← (ofKnown known).lookup table with
        | some _ => return none
        | none => return some table) = (.ok [] : Except Fault (List Value)) := by
  intro tables
  induction tables with
  | nil => exact fun _ => rfl
  | cons v tables ih =>
    intro hmem
    have hv := hmem v List.mem_cons_self
    obtain ⟨s, rfl⟩ := Value.isText_iff.1 (hn.tables v hv)
    obtain ⟨t, ht⟩ := (Value.exact_text s).exists_find? hv
    have hlookup : (ofKnown known).lookup (.text s) = .ok (some t) := by
      rw [lookup, if_pos (show (Value.text s).isKey = true from rfl), get?, ofKnown, ht]
    rw [List.filterMapM_cons, hlookup]
    exact ih fun w hw => hmem w (List.mem_cons_of_mem _ hw)

theorem missing_ofKnown {known : Keyed Value TableSchema} (hn : (ofKnown known).Named) :
    Cache.missing (ofKnown known) = .ok [] :=
  none_missing hn _ fun _ hv => hv

theorem named_ofKnown {known : Keyed Value TableSchema}
    (h : ∀ e ∈ known, e.2.Named ∧ e.2.name = e.1) : (ofKnown known).Named := by
  refine ⟨?_, fun e he => (h e he).1⟩
  intro v hv
  obtain ⟨e, he, rfl⟩ := List.mem_map.1 hv
  rw [← (h e he).2]
  exact (h e he).1.table

theorem coherent_ofKnown {known : Keyed Value TableSchema}
    (hdistinct : (keys known).Nodup) (h : ∀ e ∈ known, e.2.name = e.1) :
    (ofKnown known).Coherent :=
  ⟨hdistinct, hdistinct, fun e he => (h e he).symm, fun _ hk => hk⟩

end Catalog

/-! ## Steps -/

namespace Register

variable {σ α : Type}

/-- A step over a register, and the register after it. -/
def execute (act : Transaction σ α) (r : Register σ) : Except Fault α × Register σ :=
  Stateful.execute act r

theorem execute_bind {β : Type} (act : Transaction σ α) (next : α → Transaction σ β)
    (r : Register σ) :
    execute (act >>= next) r =
      match execute act r with
      | (.ok a, r') => execute (next a) r'
      | (.error f, r') => (.error f, r') := by
  unfold execute
  rw [Stateful.execute_bind]
  rcases Stateful.execute act r with ⟨f | a, r'⟩
  · rfl
  · rfl

theorem execute_ask (act : Action σ α) (r : Register σ) :
    execute (ask act) r =
      ((act.outer r.outside).1, { r with outside := (act.outer r.outside).2 }) := rfl

theorem execute_commit (writing : Catalog → Except Fault Unit) (known : Keyed Value TableSchema)
    (r : Register σ) :
    execute (commit writing known) r =
      match writing (.ofKnown known) with
      | .ok () => (.ok (), { r with known := known })
      | .error f => (.error f, r) := by
  have hwriting : execute (liftM (writing (.ofKnown known)) : Transaction σ Unit) r =
      (writing (.ofKnown known), r) := rfl
  rw [commit, execute_bind, hwriting]
  cases writing (.ofKnown known) with
  | error f => rfl
  | ok u => rfl

theorem execute_get (r : Register σ) : execute (get : Transaction σ (Register σ)) r = (.ok r, r) :=
  rfl

theorem execute_map {β : Type} (act : Transaction σ α) (f : α → β) (r : Register σ) :
    execute (do return f (← act)) r = ((execute act r).1.map f, (execute act r).2) := by
  rw [execute_bind]
  rcases execute act r with ⟨f' | a, r'⟩
  · rfl
  · rfl

variable (writing : Place → Catalog → Except Fault Unit) (c : Cache σ)

theorem sights_cons (call : Call) (rest : List (Cache σ × Call)) (r : Register σ) :
    sights writing ((c, call) :: rest) r =
      ⟨(execute (answer writing c call) r).1,
        .ok (.ofKnown (execute (answer writing c call) r).2.known),
        (execute (answer writing c call) r).2.outside⟩ ::
          sights writing rest (execute (answer writing c call) r).2 := rfl

/-! ### Steps that fail -/

/-- Does a step that fails leave what is known? -/
def Keeps (act : Transaction σ α) : Prop :=
  ∀ r f r', execute act r = (.error f, r') → r'.known = r.known

/-- Asking changes nothing that is known, so the rest of a step decides. -/
theorem keeps_ask {act : Action σ α} {β : Type} {next : α → Transaction σ β}
    (h : ∀ a, Keeps (next a)) : Keeps (ask act >>= next) := by
  intro r f r' herror
  rw [execute_bind, execute_ask] at herror
  generalize act.outer r.outside = asked at herror
  obtain ⟨f' | a, o⟩ := asked
  · obtain ⟨-, rfl⟩ := Prod.mk.inj herror
    rfl
  · exact h a { r with outside := o } f r' herror

theorem keeps_get {β : Type} {next : Register σ → Transaction σ β} (h : ∀ r, Keeps (next r)) :
    Keeps (get >>= next) := by
  intro r f r' herror
  rw [execute_bind, execute_get] at herror
  exact h r r f r' herror

theorem keeps_pure (a : α) : Keeps (pure a : Transaction σ α) := by
  intro r f r' herror
  cases herror

/-- A write that fails has changed nothing, and nothing fails after it. -/
theorem keeps_commit (writing : Catalog → Except Fault Unit) (known : Keyed Value TableSchema)
    (a : α) : Keeps (commit writing known >>= fun _ => pure a : Transaction σ α) := by
  intro r f r' herror
  rw [execute_bind, execute_commit] at herror
  cases hwriting : writing (.ofKnown known) with
  | error f' =>
    rw [hwriting] at herror
    obtain ⟨-, rfl⟩ := Prod.mk.inj herror
    rfl
  | ok u =>
    rw [hwriting] at herror
    cases herror

theorem keeps_map {β : Type} {act : Transaction σ α} (h : Keeps act) (f : α → β) :
    Keeps (act >>= fun a => pure (f a)) := by
  intro r g r' herror
  rw [execute_bind] at herror
  rcases hact : execute act r with ⟨g' | a, r₁⟩
  · rw [hact] at herror
    obtain ⟨-, rfl⟩ := Prod.mk.inj herror
    exact h r g' r₁ hact
  · rw [hact] at herror
    cases herror

theorem keeps_refresh (table : String) : Keeps (refresh writing c table) :=
  keeps_ask fun t => keeps_get fun _ => keeps_commit _ _ t

theorem keeps_schema (table : String) (overwrite : Bool) :
    Keeps (schema writing c table overwrite) := by
  unfold schema
  split
  · exact keeps_refresh writing c table
  · refine keeps_get fun r => ?_
    split
    · exact keeps_pure _
    · exact keeps_refresh writing c table

theorem keeps_rebuild : Keeps (rebuild writing c) :=
  keeps_ask fun _ => keeps_commit _ _ _

theorem keeps_catalog (overwrite : Bool) : Keeps (catalog writing c overwrite) := by
  refine keeps_get fun r => ?_
  dsimp only
  split
  · exact keeps_rebuild writing c
  · exact keeps_pure _

/-- A call that fails leaves what is known. -/
theorem known_of_error {call : Call} {r r' : Register σ} {f : Fault}
    (h : execute (answer writing c call) r = (.error f, r')) : r'.known = r.known := by
  cases call with
  | schema table overwrite =>
    exact keeps_map (keeps_schema writing c table overwrite) Answer.schema r f r' h
  | catalog overwrite =>
    exact keeps_map (keeps_catalog writing c overwrite) Answer.catalog r f r' h

end Register

/-! ## Holding what is known -/

namespace Folder

theorem load_of_name {p q : Place} {f : Folder} {c : Catalog} (hq : q.name = p.name)
    (h : load p f = .ok c) : load q f = .ok c := by
  unfold load at h ⊢
  rw [hq]
  dsimp only at h ⊢
  cases hentry : f.entry? p.name with
  | none =>
    rw [hentry] at h
    exact h
  | some e =>
    rw [hentry] at h
    cases e with
    | folder => cases h
    | file bytes =>
      dsimp only at h ⊢
      cases hdocument : documentOf bytes with
      | error detail =>
        rw [hdocument] at h
        cases h
      | ok v =>
        rw [hdocument] at h
        exact h

/-- Does the folder hold the known schemas, in a file that can be replaced as long as there is a
folder at all? -/
structure Holds (p : Place) (start : Folder) (known : Keyed Value TableSchema) (f : Folder) :
    Prop where
  stored : load p f = .ok (.ofKnown known)
  file : f.entry? p.name ≠ some .folder
  present : f.isSome = start.isSome
  named : (Catalog.ofKnown known).Named
  coherent : (Catalog.ofKnown known).Coherent

/-- Before anything is written nothing is known. -/
theorem holds_start {p : Place} {start : Folder} (h : start.entry? p.name = none) :
    Holds p start [] start where
  stored := by
    rw [load, h]
    rfl
  file := by
    rw [h]
    exact Option.some_ne_none _ |>.symm
  present := rfl
  named := ⟨by simp [Catalog.ofKnown, keys], by simp [Catalog.ofKnown]⟩
  coherent := Catalog.coherent_empty [] List.nodup_nil

/-- A write has the outcome that it has at the start.  If it succeeds the new schemas are held, and
otherwise those that were. -/
theorem Holds.save {p q : Place} {start f : Folder} {known known' : Keyed Value TableSchema}
    (h : Holds p start known f) (hstart : start.entry? p.name = none) (hq : q.name = p.name)
    (hn : (Catalog.ofKnown known').Named) (hc : (Catalog.ofKnown known').Coherent) :
    (Folder.save q (.ofKnown known') f).1 = (Folder.save q (.ofKnown known') start).1 ∧
      ((Folder.save q (.ofKnown known') f).1 = .ok () →
        Holds p start known' (Folder.save q (.ofKnown known') f).2) ∧
      ∀ e, (Folder.save q (.ofKnown known') f).1 = .error e →
        Holds p start known (Folder.save q (.ofKnown known') f).2 := by
  have hpresent : (Folder.save q (.ofKnown known') f).2.isSome = start.isSome := by
    rw [isSome_save, h.present]
  refine ⟨?_, ?_, ?_⟩
  · refine save_fst_congr _ h.present ?_ ?_
    · rw [hq]
      exact h.file
    · rw [hq, hstart]
      exact Option.some_ne_none _ |>.symm
  · intro hok
    have hsave : Folder.save q (.ofKnown known') f =
        (.ok (), (Folder.save q (.ofKnown known') f).2) := Prod.ext hok rfl
    obtain ⟨bytes, -, hentry⟩ := entry?_save_ok hsave
    refine ⟨load_of_name hq.symm (load_save hn hc hsave), ?_, hpresent, hn, hc⟩
    rw [← hq, hentry]
    simp
  · intro e herror
    have hsave : Folder.save q (.ofKnown known') f =
        (.error e, (Folder.save q (.ofKnown known') f).2) := Prod.ext herror rfl
    have hentry := entry?_save_error hsave
    rw [hq] at hentry
    refine ⟨?_, ?_, hpresent, h.named, h.coherent⟩
    · rw [load_congr hentry]
      exact h.stored
    · rw [hentry]
      exact h.file

theorem Holds.commit {σ : Type} {p q : Place} {start f : Folder} {r : Register σ}
    {known : Keyed Value TableSchema} (h : Holds p start r.known f)
    (hstart : start.entry? p.name = none) (hq : q.name = p.name)
    (hn : (Catalog.ofKnown known).Named) (hc : (Catalog.ofKnown known).Coherent) :
    ∃ outcome r', Register.execute (Register.commit (start.writing q) known) r = (outcome, r') ∧
      (Folder.save q (.ofKnown known) f).1 = outcome ∧ r'.outside = r.outside ∧
        Holds p start r'.known (Folder.save q (.ofKnown known) f).2 := by
  obtain ⟨houtcome, hok, herror⟩ := h.save hstart hq hn hc
  rw [Register.execute_commit, Folder.writing]
  rcases hwriting : (Folder.save q (.ofKnown known) start).1 with e | u
  · rw [hwriting] at houtcome
    exact ⟨.error e, r, rfl, houtcome, rfl, herror e houtcome⟩
  · rw [hwriting] at houtcome
    exact ⟨.ok (), { r with known := known }, rfl, houtcome, rfl, hok houtcome⟩

end Folder

end RowAccess
