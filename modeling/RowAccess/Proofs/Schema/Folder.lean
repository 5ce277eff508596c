import RowAccess.Proofs.Schema.Catalog
import RowAccess.Proofs.Text.Utf8
import RowAccess.Schema.Folder

/-
  RowAccess/Proofs/Schema/Folder.lean
  ===================================
  **What was saved is loaded.**  A write that succeeds puts the bytes of the catalog into its file and
  changes nothing else (`Folder.save_eq_ok_iff`), and these bytes are read as the catalog
  (`Folder.load_save`).  A write that fails leaves the folder as it was (`Folder.save_eq_error`),
  because the temporary file never has a name that is in use.
-/

namespace RowAccess

open Keyed

/-- Line ends are left alone where there is no carriage return. -/
theorem plainLines_of_noReturn {cs : List Char} (h : Json.NoReturn cs) : plainLines cs = cs := by
  induction cs with
  | nil => rfl
  | cons c cs ih =>
    simp only [Json.NoReturn, List.mem_cons, not_or] at h ih
    rw [plainLines, ih h.2]
    · rintro r rfl
      exact fun _ => h.1 rfl
    · rintro rfl
      exact h.1 rfl

namespace Place

theorem exists_freshName (p : Place) (entries : Keyed String Entry) (fuel : Nat) (mark : String) :
    ∃ m, p.freshName entries fuel mark = p.name ++ "." ++ m ++ ".tmp" := by
  induction fuel generalizing mark with
  | zero => exact ⟨mark, rfl⟩
  | succ fuel ih =>
    rw [freshName]
    split
    · exact ih (mark ++ "_")
    · exact ⟨mark, rfl⟩

/-- The name of a temporary file with the mark. -/
theorem length_marked (p : Place) (mark : String) :
    (p.name ++ "." ++ mark ++ ".tmp").length = p.name.length + mark.length + 5 := by
  have hdot : ".".length = 1 := rfl
  have htmp : ".tmp".length = 4 := rfl
  simp only [String.length_append]
  omega

/-- Where every name that is tried is in use, there are more names in use than tries.  The names get
longer, so each of them is another one. -/
theorem lt_countP_of_freshName_mem (p : Place) (entries : Keyed String Entry) {fuel : Nat}
    {mark : String} (h : p.freshName entries fuel mark ∈ keys entries) :
    fuel < (keys entries).countP fun name => p.name.length + mark.length + 5 ≤ name.length := by
  induction fuel generalizing mark with
  | zero =>
    refine List.countP_pos_iff.2 ⟨_, h, ?_⟩
    rw [freshName, length_marked]
    exact decide_eq_true (Nat.le_refl _)
  | succ fuel ih =>
    rw [freshName] at h
    split at h
    next hhas =>
      obtain ⟨before, after, hkeys⟩ :=
        List.append_of_mem ((find?_isSome_iff entries (p.name ++ "." ++ mark ++ ".tmp")).1 hhas)
      have hmarked := p.length_marked mark
      have hlonger := ih h
      have hone : (mark ++ "_").length = mark.length + 1 := by
        rw [String.length_append]
        rfl
      have hmono (l : List String) :
          (l.countP fun name => p.name.length + (mark ++ "_").length + 5 ≤ name.length) ≤
            l.countP fun name => p.name.length + mark.length + 5 ≤ name.length := by
        refine List.countP_mono_left fun name _ hname => ?_
        have hlong := of_decide_eq_true hname
        exact decide_eq_true (by omega)
      have hbefore := hmono before
      have hafter := hmono after
      rw [hkeys, List.countP_append, List.countP_cons_of_neg (by simp [hmarked, hone])] at hlonger
      rw [hkeys, List.countP_append, List.countP_cons_of_pos (by simp [hmarked])]
      omega
    next hhas => exact absurd ((find?_isSome_iff entries _).2 h) hhas

/-- The name of a new temporary file is not in use. -/
theorem temporary_not_mem (p : Place) (entries : Keyed String Entry) :
    p.temporary entries ∉ keys entries := by
  intro hmem
  have hcount := p.lt_countP_of_freshName_mem entries hmem
  have hlength : (keys entries).length = entries.length := List.length_map _
  have hle := List.countP_le_length (l := keys entries)
    (p := fun name => decide (p.name.length + p.mark.length + 5 ≤ name.length))
  omega

/-- No temporary file has the name of the catalog. -/
theorem temporary_ne_name (p : Place) (entries : Keyed String Entry) :
    p.temporary entries ≠ p.name := by
  intro h
  obtain ⟨m, hm⟩ := p.exists_freshName entries (entries.length + 1) p.mark
  rw [temporary, hm] at h
  have hlen := congrArg String.length h
  simp only [String.length_append] at hlen
  have hdot : ".".length = 1 := rfl
  omega

end Place

namespace Folder

theorem load_congr {p : Place} {f g : Folder} (h : f.entry? p.name = g.entry? p.name) :
    load p f = load p g := by
  rw [load, load, h]

/-- What a document in the cache file stands for is loaded. -/
theorem load_of_documentOf {p : Place} {f : Folder} {bytes : List UInt8} {v : Value}
    (hentry : f.entry? p.name = some (.file bytes)) (hdocument : documentOf bytes = .ok v) :
    load p f = Catalog.ofStored v := by
  rw [load, hentry]
  simp only [hdocument]

theorem coherent_load {p : Place} {f : Folder} {c : Catalog} (h : load p f = .ok c)
    (htext : ∀ v ∈ c.tables, v.isText = true) : c.Coherent := by
  unfold load at h
  dsimp only at h
  split at h
  next =>
    cases h
    exact Catalog.coherent_empty [] List.nodup_nil
  next => cases h
  next =>
    split at h
    next => cases h
    next v _ => exact Catalog.coherent_ofStored h htext

/-- The bytes of a document are read as the document. -/
theorem exists_documentOf {v : Value} (h : Json.Plain v) :
    ∃ s, Json.indented v = .ok s ∧ documentOf (Text.Utf8.encode s.toList) = .ok v := by
  obtain ⟨s, hs, hspells, hreturn⟩ := Json.exists_write h (some 0)
  refine ⟨s, hs, ?_⟩
  rw [documentOf, Text.Utf8.decode_encode]
  simp only [plainLines_of_noReturn hreturn, hspells.read]

/-- The bytes of a catalog are read as the catalog's stored form. -/
theorem exists_bytesOf {c : Catalog} (h : c.Named) :
    ∃ bytes, bytesOf c = .ok bytes ∧ documentOf bytes = .ok c.toStored := by
  obtain ⟨s, hs, hdocument⟩ := exists_documentOf h.plain
  refine ⟨Text.Utf8.encode s.toList, ?_, hdocument⟩
  rw [bytesOf, hs]
  rfl

/-- In a folder the bytes take the place of the file, unless there are none or a folder is in the
way.  Nothing is left of the temporary file. -/
theorem replace_some (p : Place) (content : Except Json.Unwritable (List UInt8))
    (entries : Keyed String Entry) :
    replace p content (some entries) =
      match content with
      | .error u => (.error u.message, some entries)
      | .ok bytes =>
        if find? entries p.name = some .folder then
          (.error (isFolderText ++ Text.quoted (p.pathOf (p.temporary entries)) ++ " -> " ++
            Text.quoted p.path), some entries)
        else (.ok (), some (put entries p.name (.file bytes))) := by
  have hexact := exact_of_lawful (p.temporary entries)
  have hnew := p.temporary_not_mem entries
  unfold replace
  cases content with
  | error u =>
    dsimp only
    rw [hexact.drop_put_of_not_mem hnew]
  | ok bytes =>
    dsimp only
    rw [put_put, hexact.drop_put_of_not_mem hnew,
      hexact.find?_put_of_ne _ _ (p.temporary_ne_name entries)]
    split
    next heq => rw [if_pos heq]
    next hne => rw [if_neg fun heq => hne heq]

/-- A write succeeds where there is a folder, the catalog has a document and no folder is in the way,
and then the bytes of the document stand under the name of the catalog and all else is as it was. -/
theorem save_eq_ok_iff {p : Place} {c : Catalog} {f g : Folder} :
    save p c f = (.ok (), g) ↔ ∃ entries bytes, f = some entries ∧ bytesOf c = .ok bytes ∧
      find? entries p.name ≠ some .folder ∧ g = some (put entries p.name (.file bytes)) := by
  unfold save
  cases f with
  | none => simp [replace]
  | some entries =>
    rw [replace_some]
    cases bytesOf c with
    | error u => simp
    | ok bytes =>
      dsimp only
      by_cases hfolder : find? entries p.name = some .folder
      · simp [hfolder]
      · rw [if_neg hfolder]
        constructor
        · intro h
          cases h
          exact ⟨entries, bytes, rfl, rfl, hfolder, rfl⟩
        · rintro ⟨_, _, hentries, hbytes, -, rfl⟩
          cases hentries
          cases hbytes
          rfl

/-- A write that fails is reported as a fault of the catalog, and leaves the folder as it was. -/
theorem save_eq_error {p : Place} {c : Catalog} {f g : Folder} {e : Fault}
    (h : save p c f = (.error e, g)) :
    g = f ∧ ∃ detail, e = .catalog (.writing p.path detail) := by
  unfold save at h
  split at h
  next => cases (Prod.mk.inj h).1
  next detail f' hreplace =>
    obtain ⟨he, rfl⟩ := Prod.mk.inj h
    refine ⟨?_, detail, (Except.error.inj he).symm⟩
    cases f with
    | none => exact (Prod.mk.inj hreplace).2.symm
    | some entries =>
      rw [replace_some] at hreplace
      split at hreplace
      · exact (Prod.mk.inj hreplace).2.symm
      · split at hreplace
        · exact (Prod.mk.inj hreplace).2.symm
        · cases (Prod.mk.inj hreplace).1

/-- A write that fails leaves the file as it was. -/
theorem entry?_save_error {p : Place} {c : Catalog} {f g : Folder} {e : Fault}
    (h : save p c f = (.error e, g)) : g.entry? p.name = f.entry? p.name := by
  rw [(save_eq_error h).1]

/-- A write makes no folder and removes none. -/
theorem isSome_save (p : Place) (c : Catalog) (f : Folder) :
    (save p c f).2.isSome = f.isSome := by
  rcases hsave : save p c f with ⟨e | u, g⟩
  · rw [(save_eq_error hsave).1]
  · obtain ⟨entries, bytes, rfl, -, -, rfl⟩ := save_eq_ok_iff.1 hsave
    rfl

theorem replace_fst_ok {p : Place} {entries : Keyed String Entry} (bytes : List UInt8)
    (h : find? entries p.name ≠ some .folder) :
    (replace p (.ok bytes) (some entries)).1 = .ok () := by
  rw [replace_some]
  dsimp only
  rw [if_neg h]

/-- Where nothing but a file can be in the way, what comes of a write depends on the catalog and on
whether there is a folder. -/
theorem save_fst_congr {p : Place} {f g : Folder} (c : Catalog) (hsome : f.isSome = g.isSome)
    (hf : f.entry? p.name ≠ some .folder) (hg : g.entry? p.name ≠ some .folder) :
    (save p c f).1 = (save p c g).1 := by
  have hreplace : (replace p (bytesOf c) f).1 = (replace p (bytesOf c) g).1 := by
    cases f with
    | none =>
      cases g with
      | none => rfl
      | some _ => cases hsome
    | some entries =>
      cases g with
      | none => cases hsome
      | some entries' =>
        cases bytesOf c with
        | error u => rfl
        | ok bytes => rw [replace_fst_ok bytes hf, replace_fst_ok bytes hg]
  have hsave : ∀ f, (save p c f).1 =
      (replace p (bytesOf c) f).1.mapError fun d => .catalog (.writing p.path d) := by
    intro f
    unfold save
    rcases replace p (bytesOf c) f with ⟨d | u, f'⟩
    · rfl
    · rfl
  rw [hsave, hsave, hreplace]

/-- A write that succeeds leaves a file. -/
theorem entry?_save_ok {p : Place} {c : Catalog} {f g : Folder} (h : save p c f = (.ok (), g)) :
    ∃ bytes, bytesOf c = .ok bytes ∧ g.entry? p.name = some (.file bytes) := by
  obtain ⟨entries, bytes, -, hbytes, -, rfl⟩ := save_eq_ok_iff.1 h
  exact ⟨bytes, hbytes, (exact_of_lawful p.name).find?_put _ _⟩

/-- A catalog with texts for names is written wherever there is a folder and nothing but a file is
in the way. -/
theorem exists_save {p : Place} {c : Catalog} (hn : c.Named) {f : Folder} (hsome : f.isSome = true)
    (hfile : f.entry? p.name ≠ some .folder) : ∃ g, save p c f = (.ok (), g) := by
  obtain ⟨entries, rfl⟩ := Option.isSome_iff_exists.1 hsome
  obtain ⟨bytes, hbytes, -⟩ := exists_bytesOf hn
  exact ⟨_, save_eq_ok_iff.2 ⟨entries, bytes, rfl, hbytes, hfile, rfl⟩⟩

/-- What was saved is loaded. -/
theorem load_save {p : Place} {c : Catalog} (hn : c.Named) (hc : c.Coherent) {f g : Folder}
    (h : save p c f = (.ok (), g)) : load p g = .ok c := by
  obtain ⟨bytes, hbytes, hread⟩ := exists_bytesOf hn
  obtain ⟨bytes', hbytes', hentry⟩ := entry?_save_ok h
  obtain rfl : bytes' = bytes := Except.ok.inj (hbytes'.symm.trans hbytes)
  exact (load_of_documentOf hentry hread).trans (Catalog.ofStored_toStored hn hc)

end Folder

end RowAccess
