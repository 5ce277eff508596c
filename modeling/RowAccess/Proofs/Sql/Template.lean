import Mathlib.Data.List.Nodup
import RowAccess.Proofs.Keyed
import RowAccess.Proofs.Outcome
import RowAccess.Proofs.Sql.Names

/-
  RowAccess/Proofs/Sql/Template.lean
  ==================================
  **Markers are read as they were put down.**  The template of a draft is read into the parts that the
  draft put down where its words hold none of the characters that begin a marker and the names of its
  lists none that end one (`Draft.isPlain_of_slots`).  A plain draft is sent as its pieces say: their
  texts one after another, and beside them their values in the same order (`Draft.prepared_eq_plain`).
-/

namespace RowAccess.Sql

open Outcome Keyed

/-! ## Slots -/

namespace Piece

variable {p : Piece}

/-- Words are no slot, and an entry without a name is none. -/
theorem eq_of_label?_eq_none (h : p.label? = none) :
    (∃ s, p = .words s) ∨ ∃ q v, p = .single (.entry "") q v := by
  cases p with
  | words s => exact .inl ⟨s, rfl⟩
  | spread l q vs => cases h
  | single l q v =>
    cases l with
    | numbered stem => cases h
    | entry c =>
      by_cases hc : c = ""
      · subst hc
        exact .inr ⟨q, v, rfl⟩
      · simp [label?, hc] at h

/-- A slot of a value leaves one placeholder. -/
theorem text_of_isList_eq_false {l : Label} (h : p.label? = some l) (hp : Draft.isList p = false) :
    p.text = "?" := by
  cases p with
  | words s => cases h
  | spread k q vs => cases hp
  | single k q v =>
    cases k with
    | numbered stem => rfl
    | entry c =>
      by_cases hc : c = ""
      · subst hc
        cases h
      · simp [text, hc]

/-- A slot of a value has a name. -/
theorem named_ne_empty {l : Label} (h : p.label? = some l) (hp : Draft.isList p = false) (n : Nat) :
    l.named n ≠ "" := by
  cases l with
  | numbered stem =>
    intro hempty
    have hlength := congrArg (fun s => s.toList.length) hempty
    simp [Label.named] at hlength
  | entry c =>
    rintro rfl
    cases p with
    | words s => cases h
    | spread k q vs => cases hp
    | single k q v =>
      cases k with
      | numbered stem => cases h
      | entry c =>
        by_cases hc : c = ""
        · subst hc
          cases h
        · simp [label?, hc] at h

end Piece

namespace Draft

/-- The values of a draft, each prepared for its kind. -/
def values (d : Draft) : Except Unprepared (List Value) := do
  let values ← d.mapM Piece.values
  values.flatten.mapM fun (p, v) => p.apply v

/-- A draft as its pieces say. -/
def plain (d : Draft) : Except Unprepared Prepared :=
  return ⟨d.text, ← d.values⟩

/-! ## Markers at the front of characters -/

theorem parts_eq_drop (cs : List Char) (n : Nat) : parts cs n = parts (cs.drop n) 0 := by
  induction n generalizing cs with
  | zero => rfl
  | succ n ih =>
    cases cs with
    | nil => rfl
    | cons c r => exact ih r

theorem parts_of_none {c : Char} {r : List Char} (h : markerAt? (c :: r) = none) :
    parts (c :: r) 0 = .char c :: parts r 0 := by
  rw [parts, h]

theorem parts_of_some {p : Part} {c : Char} {r rest : List Char} (hp : p.chars = c :: r)
    (h : markerAt? (p.chars ++ rest) = some p) :
    parts (p.chars ++ rest) 0 = p :: parts rest 0 := by
  rw [hp, List.cons_append] at h ⊢
  rw [parts, h]
  dsimp only
  rw [hp, List.length_cons, Nat.add_sub_cancel, parts_eq_drop, List.drop_left]

theorem valueAt?_of_ne {c : Char} (hc : c ≠ '%') (r : List Char) : valueAt? (c :: r) = none := by
  have hmark : valueMark.toList.isPrefixOf (c :: r) = false := by
    show ('%' == c && _) = false
    rw [beq_eq_false_iff_ne.2 hc.symm, Bool.false_and]
  rw [valueAt?, hmark, if_neg Bool.false_ne_true]

/-- The third character of the marker of a list is a bracket. -/
theorem listAt?_of_not_mem {cs : List Char} (h : '[' ∉ cs.take 3) : listAt? cs = none := by
  have hmark : listMark.toList.isPrefixOf cs = false := by
    rw [Bool.eq_false_iff]
    intro hmark
    obtain ⟨rest, rfl⟩ := List.isPrefixOf_iff_prefix.1 hmark
    exact h (List.mem_append_left _ (by decide : '[' ∈ ['_', '_', '[']))
  rw [listAt?, hmark, if_neg Bool.false_ne_true]

/-- The marker of a value is read to its first closing bracket. -/
theorem markerAt?_value {name : String} (hne : name ≠ "") (hclose : ')' ∉ name.toList)
    (rest : List Char) :
    markerAt? ((Part.value name).chars ++ rest) = some (.value name) := by
  have hchars : (Part.value name).chars ++ rest =
      '%' :: '(' :: (name.toList ++ (')' :: 's' :: rest)) := by
    simp [Part.chars, valueMark]
  have hname : (name.toList ++ (')' :: 's' :: rest)).takeWhile (· != ')') = name.toList := by
    rw [List.takeWhile_append_of_pos, List.takeWhile_cons_of_neg (by simp), List.append_nil]
    intro c hc
    exact bne_iff_ne.2 fun h => hclose (h ▸ hc)
  have hvalue : valueAt? ('%' :: '(' :: (name.toList ++ (')' :: 's' :: rest))) =
      some (.value name) := by
    have hempty : name.toList.isEmpty = false := by
      simpa using hne
    have hend : (')' :: 's' :: rest) = [')', 's'] ++ rest := rfl
    unfold valueAt?
    rw [if_pos (show valueMark.toList.isPrefixOf _ = true from rfl)]
    simp only [List.drop_succ_cons, List.drop_zero, hname, hempty, Bool.not_false, Bool.true_and,
      Nat.add_comm 2, List.drop_left, String.ofList_toList]
    rw [if_pos (List.isPrefixOf_iff_prefix.2 (hend ▸ List.prefix_append _ _))]
  rw [hchars, markerAt?, hvalue, Option.some_or]

/-- Can the characters stand as the name of a list, with nothing in them that ends it? -/
def IsListName (name : List Char) : Prop :=
  name ≠ [] ∧ ∀ c ∈ name, Text.isBlank c = false ∧ c ≠ '~' ∧ c ≠ ']'

theorem waveAt?_of_ne {c : Char} (hwave : c ≠ '~') (hend : c ≠ ']') (r : List Char) :
    waveAt? (c :: r) = none := by
  have hfront : ['~', '~'].isPrefixOf (c :: r) = false := by
    show ('~' == c && _) = false
    rw [beq_eq_false_iff_ne.2 hwave.symm, Bool.false_and]
  unfold waveAt?
  simp [hfront, hend]

theorem listName?_name {name : List Char} (h : IsListName name) (rest : List Char) :
    listName? (name ++ ']' :: rest) = some (name, []) := by
  obtain ⟨hne, hchars⟩ := h
  induction name with
  | nil => exact absurd rfl hne
  | cons c name ih =>
    obtain ⟨⟨hblank, -, -⟩, hname⟩ := List.forall_mem_cons.1 hchars
    rw [List.cons_append, listName?, hblank, if_neg Bool.false_ne_true]
    cases name with
    | nil => rfl
    | cons d name =>
      obtain ⟨⟨-, hwave, hend⟩, -⟩ := List.forall_mem_cons.1 hname
      rw [List.cons_append, waveAt?_of_ne hwave hend, ← List.cons_append,
        ih (List.cons_ne_nil d name) hname]
      rfl

/-- The marker of a list is read to its bracket. -/
theorem markerAt?_list {name : String} (h : IsListName name.toList) (rest : List Char) :
    markerAt? ((Part.list name []).chars ++ rest) = some (.list name []) := by
  have hchars : (Part.list name []).chars ++ rest =
      listMark.toList ++ (name.toList ++ ']' :: rest) := by
    simp [Part.chars]
  have hlist : listAt? (listMark.toList ++ (name.toList ++ ']' :: rest)) =
      some (.list name []) := by
    rw [listAt?, if_pos (List.isPrefixOf_iff_prefix.2 (List.prefix_append _ _)), List.drop_left,
      listName?_name h]
    exact congrArg (fun name => some (Part.list name [])) String.ofList_toList
  have hvalue : valueAt? (listMark.toList ++ (name.toList ++ ']' :: rest)) = none :=
    valueAt?_of_ne (show '_' ≠ '%' by decide) _
  rw [hchars, markerAt?, hlist, hvalue, Option.none_or]

/-! ## The template of clean words -/

@[simp] theorem toList_escaped (name : String) :
    (escaped name).toList = name.toList.map escapedChar := by
  rw [escaped, String.toList_ofList]

theorem escapedChar_ne (c : Char) {d : Char} (hd : d ∈ [')', ']']) : escapedChar c ≠ d := by
  rcases List.mem_pair.1 hd with rfl | rfl
  all_goals
    unfold escapedChar
    split_ifs <;> simp_all

/-- Words without the characters that begin a marker are read as they are, unless what stands behind
them makes up a marker with them. -/
theorem parts_words {w rest : List Char} (hvalue : '%' ∉ w) (hlist : '[' ∉ w)
    (hrest : '[' ∉ rest.take 2) : parts (w ++ rest) 0 = w.map .char ++ parts rest 0 := by
  induction w with
  | nil => rfl
  | cons c w ih =>
    rw [List.mem_cons, not_or] at hvalue hlist
    have hfront : '[' ∉ (c :: (w ++ rest)).take 3 := by
      rw [List.take_succ_cons, List.mem_cons, List.take_append, List.mem_append, not_or, not_or]
      refine ⟨hlist.1, fun h => hlist.2 (List.mem_of_mem_take h), fun h => hrest ?_⟩
      exact (List.take_prefix_take_left (Nat.sub_le _ _)).subset h
    have hnone : markerAt? (c :: (w ++ rest)) = none := by
      rw [markerAt?, valueAt?_of_ne (Ne.symm hvalue.1), listAt?_of_not_mem hfront]
      rfl
    rw [List.cons_append, parts_of_none hnone, ih hvalue.2 hlist.2]
    rfl

/-- An entry without a name leaves no marker. -/
theorem parts_nameless {rest : List Char} (hrest : '[' ∉ rest.take 2) :
    parts ("%()s".toList ++ rest) 0 = "%()s".toList.map .char ++ parts rest 0 := by
  have hnone : markerAt? ('%' :: ("()s".toList ++ rest)) = none := rfl
  show parts ('%' :: ("()s".toList ++ rest)) 0 = _
  rw [parts_of_none hnone, parts_words (by decide) (by decide) hrest]
  rfl

section Clean

variable {d : Draft}

/-- What a draft with clean words puts down begins with no bracket, nor has it one behind its first
character. -/
theorem not_mem_take_ownParts (hwords : ∀ s, Piece.words s ∈ d → IsClean s) (before : List Label) :
    '[' ∉ ((ownParts d before).flatMap Part.chars).take 2 := by
  induction d generalizing before with
  | nil => exact List.not_mem_nil
  | cons p d ih =>
    have hrest := ih fun s hs => hwords s (List.mem_cons_of_mem _ hs)
    have happend {w : List Char} (hw : '[' ∉ w) (labels : List Label) :
        '[' ∉ ((w.map Part.char).flatMap Part.chars ++
          (ownParts d labels).flatMap Part.chars).take 2 := by
      have hchars : (w.map Part.char).flatMap Part.chars = w := by
        rw [List.flatMap_map]
        exact List.flatMap_pure_eq_map id w |>.trans (List.map_id w)
      rw [hchars, List.take_append, List.mem_append, not_or]
      refine ⟨fun h => hw (List.mem_of_mem_take h), fun h => hrest labels ?_⟩
      exact (List.take_prefix_take_left (Nat.sub_le _ _)).subset h
    rw [ownParts]
    split
    · next hnone =>
      rw [List.flatMap_append]
      rcases Piece.eq_of_label?_eq_none hnone with ⟨s, rfl⟩ | ⟨q, v, rfl⟩
      · exact happend (hwords s List.mem_cons_self).2 before
      · exact happend (w := "%()s".toList) (by decide) before
    · rw [List.flatMap_cons, marker]
      split
      · show '[' ∉ ['_', '_']
        decide
      · show '[' ∉ ['%', '(']
        decide

theorem parts_template (hwords : ∀ s, Piece.words s ∈ d → IsClean s) {before : List Label}
    (hlists : ∀ e ∈ namedSlots d before, isList e.2 = true → IsListName (escaped e.1).toList) :
    parts ((ownParts d before).flatMap Part.chars) 0 = ownParts d before := by
  induction d generalizing before with
  | nil => rfl
  | cons p d ih =>
    have hwords' : ∀ s, Piece.words s ∈ d → IsClean s :=
      fun s hs => hwords s (List.mem_cons_of_mem _ hs)
    rw [namedSlots] at hlists
    rw [ownParts]
    split
    · next hnone =>
      rw [hnone] at hlists
      have hrest := not_mem_take_ownParts hwords' before
      have hchars (w : List Char) : (w.map Part.char).flatMap Part.chars = w := by
        rw [List.flatMap_map]
        exact List.flatMap_pure_eq_map id w |>.trans (List.map_id w)
      rw [List.flatMap_append, hchars]
      have hread : parts (p.text.toList ++ (ownParts d before).flatMap Part.chars) 0 =
          p.text.toList.map .char ++ parts ((ownParts d before).flatMap Part.chars) 0 := by
        rcases Piece.eq_of_label?_eq_none hnone with ⟨s, rfl⟩ | ⟨q, v, rfl⟩
        · have hclean := hwords s List.mem_cons_self
          exact parts_words hclean.1 hclean.2 hrest
        · exact parts_nameless hrest
      rw [hread, ih hwords' hlists]
    · next l hl =>
      rw [hl] at hlists
      obtain ⟨hfirst, hlists⟩ := List.forall_mem_cons.1 hlists
      have hmarker : ∀ rest, markerAt? ((marker (l.named (before.count l)) p).chars ++ rest) =
          some (marker (l.named (before.count l)) p) := by
        intro rest
        rw [marker]
        split
        · next hp => exact markerAt?_list (hfirst hp) rest
        · next hp =>
          have hname := Piece.named_ne_empty hl (Bool.eq_false_iff.2 hp) (before.count l)
          refine markerAt?_value ?_ ?_ rest
          · rw [Ne, ← String.toList_eq_nil_iff, toList_escaped, List.map_eq_nil_iff,
              String.toList_eq_nil_iff]
            exact hname
          · rw [toList_escaped]
            intro hclose
            obtain ⟨c, -, hc⟩ := List.mem_map.1 hclose
            exact escapedChar_ne c (by decide) hc
      obtain ⟨c, r, hcons⟩ : ∃ c r, (marker (l.named (before.count l)) p).chars = c :: r := by
        rw [marker]
        split <;> exact ⟨_, _, rfl⟩
      rw [List.flatMap_cons, parts_of_some hcons (hmarker _), ih hwords' hlists]

end Clean

theorem sharedName?_eq_none_iff {names : List String} : sharedName? names = none ↔ names.Nodup := by
  induction names with
  | nil => exact ⟨fun _ => List.nodup_nil, fun _ => rfl⟩
  | cons n names ih =>
    rw [sharedName?, List.nodup_cons]
    by_cases hn : n ∈ names
    · simp [hn]
    · simp [hn, ih]

theorem isPlain_iff {d : Draft} : d.isPlain = true ↔
    (d.slots.map fun e => escaped e.1).Nodup ∧ parts d.template 0 = d.ownParts [] := by
  rw [isPlain, Bool.and_eq_true, Option.isNone_iff_eq_none, sharedName?_eq_none_iff, beq_iff_eq]

/-- A draft whose words are free of markers, whose slots have different names, and whose lists have
names that end where they end, is plain. -/
theorem isPlain_of_slots {d : Draft} (hwords : ∀ s, Piece.words s ∈ d → IsClean s)
    (hnames : (d.slots.map fun e => escaped e.1).Nodup)
    (hlists : ∀ e ∈ d.slots, isList e.2 = true → IsListName (escaped e.1).toList) :
    d.isPlain = true :=
  isPlain_iff.2 ⟨hnames, parts_template hwords hlists⟩

/-! ## Plain drafts -/

theorem join_singletons (s : String) : String.join (s.toList.map String.singleton) = s := by
  rw [← String.toList_inj, String.toList_join, List.flatMap_map]
  simp

section Plain

variable {slots : List (String × Piece)} (hnames : (slots.map fun e => escaped e.1).Nodup)

include hnames

/-- Where the names of the slots differ in the template, each stands for its own slot. -/
theorem meant_escaped {e : String × Piece} (he : e ∈ slots) : meant slots (escaped e.1) = e.1 := by
  have hsame : ∀ e' ∈ slots, escaped e'.1 = escaped e.1 → e' = e :=
    fun e' he' => List.inj_on_of_nodup_map hnames he' he
  rw [meant]
  cases hfind : find? (changedNames slots) (escaped e.1) with
  | none =>
    by_contra hchanged
    refine (exact_of_lawful _).find?_eq_none_iff _ |>.1 hfind ?_
    refine List.mem_map.2 ⟨(escaped e.1, e.1), List.mem_filter.2 ⟨?_, bne_iff_ne.2 hchanged⟩, rfl⟩
    exact List.mem_map_of_mem he
  | some n =>
    have hmem := (exact_of_lawful _).mem_of_find? hfind
    obtain ⟨e', he', heq⟩ := List.mem_map.1 (List.mem_filter.1 hmem).1
    obtain ⟨hescaped, rfl⟩ := Prod.mk.inj heq
    rw [hsame e' he' hescaped]
    rfl

theorem find?_slots {e : String × Piece} (he : e ∈ slots) : find? slots e.1 = some e.2 := by
  refine (exact_of_lawful e.1).find?_of_forall he ?_
  intro e' he' hname
  rw [List.inj_on_of_nodup_map hnames he' he (congrArg escaped hname)]

theorem valuesUnder_escaped {e : String × Piece} (he : e ∈ slots) :
    valuesUnder slots (escaped e.1) = e.2.values := by
  rw [valuesUnder, meant_escaped hnames he, find?_slots hnames he]

theorem partText_marker {e : String × Piece} {l : Label} (he : e ∈ slots)
    (hl : e.2.label? = some l) : partText slots (marker e.1 e.2) = .ok e.2.text := by
  have hmeant := meant_escaped hnames he
  have hfind := find?_slots hnames he
  cases hp : isList e.2 with
  | false =>
    rw [marker, hp, if_neg Bool.false_ne_true, Piece.text_of_isList_eq_false hl hp]
    rfl
  | true =>
    have hany : slots.any (fun e => isList e.2) = true := List.any_eq_true.2 ⟨e, he, hp⟩
    rw [marker, hp, if_pos rfl]
    cases hpiece : e.2 with
    | spread k q vs =>
      rw [hpiece] at hfind
      simp only [partText, hany, hmeant, hfind, if_true, List.isEmpty_nil]
      rfl
    | words s =>
      rw [hpiece] at hp
      cases hp
    | single k q v =>
      rw [hpiece] at hp
      cases hp

/-- The parts that a draft puts down have the text of the draft. -/
theorem texts_ownParts (d : Draft) {before : List Label}
    (hd : ∀ e ∈ namedSlots d before, e ∈ slots) :
    ∃ texts, (ownParts d before).mapM (partText slots) = .ok texts ∧
      String.join texts = text d := by
  induction d generalizing before with
  | nil => exact ⟨[], rfl, rfl⟩
  | cons p d ih =>
    have htext : text (p :: d) = p.text ++ text d := String.join_cons
    rw [ownParts]
    rw [namedSlots] at hd
    split
    · next hnone =>
      rw [hnone] at hd
      obtain ⟨texts, htexts, hjoin⟩ := ih hd
      have hchars : (p.text.toList.map Part.char).mapM (partText slots) =
          .ok (p.text.toList.map String.singleton) := by
        rw [List.mapM_map]
        exact mapM_eq_ok fun c _ => rfl
      refine ⟨p.text.toList.map String.singleton ++ texts, ?_, ?_⟩
      · rw [List.mapM_append, hchars, htexts]
        rfl
      · rw [String.join_append, hjoin, htext, join_singletons]
    · next l hl =>
      rw [hl] at hd
      obtain ⟨hfirst, hd⟩ := List.forall_mem_cons.1 hd
      obtain ⟨texts, htexts, hjoin⟩ := ih hd
      refine ⟨p.text :: texts, ?_, ?_⟩
      · rw [List.mapM_cons, partText_marker hnames hfirst hl, htexts]
        rfl
      · rw [String.join_cons, hjoin, htext]

end Plain

/-- The markers that a draft puts down have the names of its slots. -/
theorem names_ownParts (d : Draft) (before : List Label) :
    (ownParts d before).filterMap Part.name? = (namedSlots d before).map fun e => escaped e.1 := by
  induction d generalizing before with
  | nil => rfl
  | cons p d ih =>
    rw [ownParts, namedSlots]
    split
    · have hchars : (p.text.toList.map Part.char).filterMap Part.name? = [] := by
        simp [List.filterMap_map, Function.comp_def, Part.name?]
      rw [List.filterMap_append, hchars, List.nil_append, ih]
    · have hname (n : String) : (marker n p).name? = some (escaped n) := by
        rw [marker]
        split <;> rfl
      rw [List.filterMap_cons_some (hname _), ih]
      rfl

/-- Only slots have values. -/
theorem map_flatten_values (d : Draft) (before : List Label) :
    (d.mapM Piece.values).map List.flatten =
      ((namedSlots d before).mapM fun e : String × Piece => e.2.values).map List.flatten := by
  induction d generalizing before with
  | nil => rfl
  | cons p d ih =>
    rw [List.mapM_cons, namedSlots]
    split
    · next hnone =>
      have hvalues : p.values = .ok [] := by
        rcases Piece.eq_of_label?_eq_none hnone with ⟨s, rfl⟩ | ⟨q, v, rfl⟩
        · rfl
        · rfl
      rw [← ih before, hvalues]
      cases d.mapM Piece.values <;> rfl
    · next l _ =>
      rw [List.mapM_cons]
      have hrest := ih (l :: before)
      cases hp : p.values with
      | error u => rfl
      | ok vs =>
        cases hd : d.mapM Piece.values with
        | error u =>
          rw [hd] at hrest
          cases hslots : (namedSlots d (l :: before)).mapM fun e => e.2.values with
          | error u' =>
            rw [hslots] at hrest
            cases hrest
            rfl
          | ok ws =>
            rw [hslots] at hrest
            cases hrest
        | ok ws =>
          rw [hd] at hrest
          cases hslots : (namedSlots d (l :: before)).mapM fun e => e.2.values with
          | error u' =>
            rw [hslots] at hrest
            cases hrest
          | ok ws' =>
            rw [hslots] at hrest
            have hflatten : ws.flatten = ws'.flatten := Except.ok.inj hrest
            show Except.ok (vs ++ ws.flatten) = Except.ok (vs ++ ws'.flatten)
            rw [hflatten]

/-- **A plain draft is sent as its pieces say.** -/
theorem prepared_eq_plain {d : Draft} (h : d.isPlain = true) : d.prepared = d.plain := by
  obtain ⟨hnames, hparts⟩ := isPlain_iff.1 h
  obtain ⟨texts, htexts, hjoin⟩ := texts_ownParts hnames d fun e he => he
  have hunder : ((ownParts d []).filterMap Part.name?).mapM (valuesUnder d.slots) =
      d.slots.mapM fun e => e.2.values := by
    rw [names_ownParts, List.mapM_map]
    exact mapM_congr fun e he => valuesUnder_escaped hnames he
  have hvalues : (d.mapM Piece.values).map List.flatten =
      (d.slots.mapM fun e : String × Piece => e.2.values).map List.flatten := d.map_flatten_values []
  rw [prepared, hparts]
  dsimp only
  rw [hunder, htexts, plain, values]
  cases hpieces : d.mapM Piece.values with
  | error u =>
    rw [hpieces] at hvalues
    cases hslots : d.slots.mapM fun e => e.2.values with
    | error u' =>
      rw [hslots] at hvalues
      cases hvalues
      rfl
    | ok ws =>
      rw [hslots] at hvalues
      cases hvalues
  | ok vs =>
    rw [hpieces] at hvalues
    cases hslots : d.slots.mapM fun e => e.2.values with
    | error u' =>
      rw [hslots] at hvalues
      cases hvalues
    | ok ws =>
      rw [hslots] at hvalues
      have hflatten : vs.flatten = ws.flatten := Except.ok.inj hvalues
      have hbound : (return ⟨String.join texts, ← ws.flatten.mapM fun (p, v) => p.apply v⟩ :
          Except Unprepared Prepared) =
            return ⟨d.text, ← vs.flatten.mapM fun (p, v) => p.apply v⟩ := by
        rw [hjoin, hflatten]
      exact hbound

/-- What a plain draft is sent as has the text and the values of its pieces. -/
theorem prepared_eq_ok_iff {d : Draft} (h : d.isPlain = true) {p : Prepared} :
    d.prepared = .ok p ↔ p.text = d.text ∧ d.values = .ok p.values := by
  rw [prepared_eq_plain h, plain, bind_pure_eq_map, map_eq_ok_iff]
  constructor
  · rintro ⟨vs, hvs, rfl⟩
    exact ⟨rfl, hvs⟩
  · rintro ⟨htext, hvalues⟩
    exact ⟨p.values, hvalues, by rw [← htext]⟩

end Draft

end RowAccess.Sql
