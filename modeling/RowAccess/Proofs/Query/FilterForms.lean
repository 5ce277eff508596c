import RowAccess.Proofs.Capture
import RowAccess.Proofs.Json.Document
import RowAccess.Proofs.Json.RoundTrip
import RowAccess.Proofs.Query.Bracket.InOrder
import RowAccess.Proofs.Query.Bracket.RoundTrip
import RowAccess.Proofs.Query.Bracket.Unreadable

/-
  RowAccess/Proofs/Query/FilterForms.lean
  =======================================
  **The forms of a filter agree.**  A client may send a filter as it is, under the name of the
  parameter, there as JSON text, or in a query string that holds the text or names every leaf by its
  path.  Whatever the form, the fields that are turned into a query are those of the filter, in
  their order, so the query is the same, or the same order entry is refused
  (`Filter.IsForm.clientQuery_eq`).
-/

namespace RowAccess

open Keyed

namespace Filter

/-! ## Queries of filters -/

theorem nodup_keys_putOperators (column : String) (operators : Fields) {query : Fields}
    (h : (keys query).Nodup) : (keys (putOperators column operators query)).Nodup := by
  induction operators generalizing query with
  | nil => exact h
  | cons e operators ih =>
    obtain ⟨operator, v⟩ := e
    rw [putOperators, List.foldl_cons]
    refine ih ?_
    dsimp only
    cases operatorClause? column operator v with
    | none => exact h
    | some clause => exact nodup_keys_put h _ _

theorem nodup_keys_putCondition (name : String) (v : Value) {query : Fields}
    (h : (keys query).Nodup) : (keys (putCondition query name v)).Nodup := by
  unfold putCondition
  split
  · exact nodup_keys_put h _ _
  split
  · exact nodup_keys_put h _ _
  split
  · exact nodup_keys_putOperators _ _ h
  · exact nodup_keys_put h _ _

theorem nodup_keys_putConditions (conditions : Fields) {query : Fields}
    (h : (keys query).Nodup) : (keys (putConditions conditions query)).Nodup := by
  induction conditions generalizing query with
  | nil => exact h
  | cons e conditions ih => exact ih (nodup_keys_putCondition e.1 e.2 h)

theorem nodup_keys_toQuery {filter query : Fields} (h : toQuery filter = .ok query) :
    (keys query).Nodup := by
  unfold toQuery at h
  extract_lets selected chosen conditioned limited at h
  have hchosen : (keys chosen).Nodup := by
    unfold chosen
    split <;> simp [keys]
  have hconditioned : (keys conditioned).Nodup := by
    unfold conditioned
    split
    · exact nodup_keys_putConditions _ hchosen
    · exact hchosen
  have hlimited : (keys limited).Nodup := by
    unfold limited
    split
    · exact nodup_keys_put hconditioned _ _
    · exact hconditioned
  split at h
  · rwa [← Except.ok.inj h]
  · obtain ⟨entries, -, h⟩ := Outcome.bind_eq_ok_iff.1 h
    obtain ⟨terms, -, h⟩ := Outcome.bind_eq_ok_iff.1 h
    rw [← Except.ok.inj h]
    exact nodup_keys_put hlimited _ _

/-- Writing a filter's query into an empty one gives the query. -/
theorem map_putAll_toQuery (filter : Fields) :
    (toQuery filter).map (putAll []) = toQuery filter := by
  cases h : toQuery filter with
  | error fault => rfl
  | ok query => exact congrArg Except.ok (putAll_nil (nodup_keys_toQuery h))

theorem isWritable_of_orderEntries {v : Value} (hv : v.isWritable = true) {fault : Fault}
    (h : orderEntries v = .error fault) : fault.isWritable = true := by
  unfold orderEntries at h
  split at h
  · cases h
  · cases h
  · cases h
  · rw [← Except.error.inj h]
    exact (Fault.isWritable_of_mentioned rfl).trans hv

theorem isWritable_of_mem_orderEntries {v : Value} (hv : v.isWritable = true) {entries : List Value}
    (h : orderEntries v = .ok entries) : ∀ entry ∈ entries, entry.isWritable = true := by
  unfold orderEntries at h
  split at h
  · rw [← Except.ok.inj h]
    simp [Value.isWritable]
  · rw [← Except.ok.inj h]
    exact Value.isWritable_list_iff.1 hv
  · rw [← Except.ok.inj h]
    intro entry hentry
    obtain ⟨b, -, rfl⟩ := List.mem_map.1 hentry
    exact Number.isWritten_of_lt (Nat.lt_trans b.toNat_lt (by decide : 2 ^ 8 < 10 ^ 3)) (by decide)
  · cases h

theorem isWritable_of_orderTerm {v : Value} (hv : v.isWritable = true) {fault : Fault}
    (h : orderTerm v = .error fault) : fault.isWritable = true := by
  unfold orderTerm at h
  split at h
  · split at h
    · cases h
    · rw [← Except.error.inj h]
      rfl
  · rw [← Except.error.inj h]
    exact (Fault.isWritable_of_mentioned rfl).trans hv

/-- Where all of a filter can be written, so can the refusal of its order. -/
theorem isWritable_of_toQuery {filter : Fields} (hfilter : (Value.object filter).isWritable = true)
    {fault : Fault} (h : toQuery filter = .error fault) : fault.isWritable = true := by
  unfold toQuery at h
  extract_lets selected chosen conditioned limited at h
  split at h
  · cases h
  next order hfind =>
    have horder : order.isWritable = true :=
      Value.isWritable_object_iff.1 hfilter _ ((exact_of_lawful "order").mem_of_find? hfind)
    rcases Outcome.bind_eq_error_iff.1 h with h | ⟨entries, hentries, h⟩
    · exact isWritable_of_orderEntries horder h
    · rcases Outcome.bind_eq_error_iff.1 h with h | ⟨terms, -, h⟩
      · obtain ⟨entry, hentry, h⟩ := Outcome.exists_error_of_mapM h
        exact isWritable_of_orderTerm (isWritable_of_mem_orderEntries horder hentries entry hentry) h
      · cases h

/-! ## Forms -/

/-- What may come from a client in place of a filter: the filter itself, an object with the filter
or with its JSON text under the name of the parameter, a query string with that text in percent
encoding, and where the names in the filter stand for themselves a query string with a parameter for
every leaf.  Any text that is read as the filter is its JSON text, however it is laid out. -/
inductive IsForm (filter : Fields) : Value → Prop
  | bare : IsForm filter (.object filter)
  | parameter : IsForm filter (.object [("filter", .object filter)])
  | json {text : String} (h : Json.read text.toList = .ok (.object filter)) :
    IsForm filter (.object [("filter", .text text)])
  | query {text encoded : String} (h : Json.read text.toList = .ok (.object filter))
    (hdecoded : Text.Percent.decodePlus encoded.toList = text.toList)
    (halone : '&' ∉ encoded.toList) : IsForm filter (.text ("filter=" ++ encoded))
  | brackets (h : Bracket.IsPrintable false (.object filter)) :
    IsForm filter (.text (Bracket.queryString (Bracket.ofFilter filter)))

/-- The text of a filter in the encoding that parameters are written with is one of its forms. -/
theorem IsForm.escaped {filter : Fields} {text : String}
    (h : Json.read text.toList = .ok (.object filter)) :
    IsForm filter (.text ("filter=" ++ Bracket.escaped text)) := by
  have hencodes := Bracket.encodes_encode text
  have htext : (Bracket.escaped text).toList = Text.Percent.encode text.toList :=
    String.toList_ofList
  refine .query h ?_ ?_
  · rw [htext, hencodes.decoded]
  · rw [htext]
    exact hencodes.parted _ (by simp)

end Filter

namespace Bracket

theorem readQuery_parameter (v : Value) :
    readQuery (.object [("filter", v)]) = (Filter.ofParameter v).map (putAll []) :=
  Outcome.bind_pure_eq_map (Filter.ofParameter v) (putAll [])

/-- A query string with nothing but the parameter of a filter. -/
theorem parse_parameter {text : String} {v : Value}
    (h : listed (.object (nest (parameters (text.toList.dropWhile (· == '?'))))) =
      .ok (.object [("filter", v)])) :
    parse text = (Filter.ofParameter v).map (putAll []) := by
  rw [parse, h]
  exact Outcome.bind_pure_eq_map (Filter.ofParameter v) (putAll [])

/-- What follows the name of the parameter is its value, equals signs and all. -/
theorem parameters_filter {encoded : List Char} (h : '&' ∉ encoded) :
    parameters ("filter=".toList ++ encoded) =
      [("filter", String.ofList (Text.Percent.decodePlus encoded))] := by
  have hcut : Text.cut '&' ("filter=".toList ++ encoded) = ["filter=".toList ++ encoded] := by
    refine Text.cut_of_not_mem ?_
    rw [List.mem_append, not_or]
    exact ⟨by decide, h⟩
  have hsplit : splitParameter ("filter=".toList ++ encoded) = ("filter".toList, encoded) := rfl
  have hname : String.ofList (Text.Percent.decodePlus "filter".toList) = "filter" := by decide
  have hpieces : (["filter=".toList ++ encoded].filter fun piece => !piece.isEmpty) =
      ["filter=".toList ++ encoded] := rfl
  rw [parameters, hcut, hpieces, List.map_singleton]
  simp only [hsplit, hname]

theorem parse_json {text encoded : String}
    (hdecoded : Text.Percent.decodePlus encoded.toList = text.toList)
    (halone : '&' ∉ encoded.toList) :
    parse ("filter=" ++ encoded) = (Filter.ofParameter (.text text)).map (putAll []) := by
  refine parse_parameter ?_
  have hmark : ("filter=".toList ++ encoded.toList).dropWhile (· == '?') =
      "filter=".toList ++ encoded.toList := rfl
  rw [String.toList_append, hmark, parameters_filter halone, hdecoded, String.ofList_toList]
  rfl

theorem parse_brackets {filter : Fields} (h : IsPrintable false (.object filter)) :
    parse (queryString (ofFilter filter)) =
      (Filter.ofParameter (.object filter)).map (putAll []) := by
  -- The paths of the filter's leaves are those of an object with the filter under the one name.
  let whole : Fields := [("filter", .object filter)]
  have hwhole : IsPrintable false (.object whole) := by
    have hfilter : isOwnName filterName = true := by decide
    have hown : ∀ k ∈ keys whole, isOwnName k = true := by
      intro k hk
      rwa [List.mem_singleton.1 hk]
    refine .object_of_isOwnName (List.cons_ne_nil _ _) (List.pairwise_singleton _ _) hown ?_
    intro e he
    rwa [List.mem_singleton.1 he]
  have hleaves : fieldLeaves false [filterName] filter = leaves false [] (.object whole) := by
    simp [leaves, fieldLeaves, whole, filterName]
  obtain ⟨-, hspelled⟩ := hwhole.spelled
  rw [packed] at hspelled
  refine parse_parameter ?_
  rw [dropWhile_queryString, parameters_queryString, ofFilter, hleaves, nest_eq,
    keyPath_named hspelled, ← built_of_begins hspelled.begins]
  exact hwhole.listed_leaves

/-- A printable value is one of a document. -/
theorem IsPrintable.built {joined : Bool} {v : Value} (h : IsPrintable joined v)
    (sort : Int → Prop) : Json.MadeOf sort v := by
  induction h with
  | text s => exact .text s
  | texts _ ss =>
    refine .list fun v hv => ?_
    obtain ⟨s, -, rfl⟩ := List.mem_map.1 hv
    exact .text s
  | object _ distinct _ _ _ ih => exact .object distinct ih
  | list _ _ _ ih => exact .list ih

end Bracket

namespace Filter

theorem ofParameter_json {filter : Fields} {text : String}
    (h : Json.read text.toList = .ok (.object filter)) : ofParameter (.text text) = toQuery filter := by
  show ofJson text >>= toQuery = _
  rw [ofJson, h]
  rfl

/-- All forms of a filter are read as the query that the filter stands for. -/
theorem IsForm.eq_toQuery {filter : Fields} (hfilter : isFilter filter = true)
    (hname : "filter" ∉ keys filter) {v : Value} (h : IsForm filter v) :
    readQuery v = toQuery filter := by
  cases h with
  | bare =>
    have hnone := ((exact_of_lawful Bracket.filterName).find?_eq_none_iff filter).2 hname
    simp only [readQuery, hnone, hfilter, if_true]
  | parameter => rw [Bracket.readQuery_parameter, ofParameter, map_putAll_toQuery]
  | json h => rw [Bracket.readQuery_parameter, ofParameter_json h, map_putAll_toQuery]
  | query h hdecoded halone =>
    rw [readQuery, Bracket.parse_json hdecoded halone, ofParameter_json h, map_putAll_toQuery]
  | brackets h => rw [readQuery, Bracket.parse_brackets h, ofParameter, map_putAll_toQuery]

/-- **All forms of a filter are read alike**: as one query, or with one and the same refusal, which
is a fault of reading where the filter has a JSON text.  The texts that are written for a filter, in
any layout, are among those that its forms hold. -/
theorem IsForm.clientQuery_eq {filter : Fields} (hmade : Json.Built (.object filter))
    (hfilter : isFilter filter = true) (hname : "filter" ∉ keys filter) :
    (∀ v, IsForm filter v → clientQuery v = clientQuery (.object filter)) ∧
      (∀ text : String, Json.read text.toList = .ok (.object filter) →
        ∀ fault, clientQuery (.object filter) = .error fault → ∃ cause, fault = .reading cause) ∧
      ∀ indent text, Json.write indent (.object filter) = .ok text →
        IsForm filter (.object [("filter", .text text)]) ∧
          IsForm filter (.text ("filter=" ++ Bracket.escaped text)) := by
  have hbare := IsForm.bare.eq_toQuery hfilter hname
  refine ⟨?_, ?_, ?_⟩
  · intro v h
    rw [clientQuery, clientQuery, h.eq_toQuery hfilter hname, hbare]
  · intro text htext fault hfault
    have hwritable := (Json.isDocument_read htext).isWritable
    obtain ⟨f, hf, rfl⟩ := written_eq_error_iff.1 hfault
    rw [hbare] at hf
    rw [Fault.raised_of_isWritable (isWritable_of_toQuery hwritable hf)]
    exact onlyReading_toQuery filter f hf
  · intro indent text htext
    have hread := hmade.read_eq htext
    exact ⟨.json hread, .escaped hread⟩

/-- A filter of texts with conditions inside a list. -/
def nestedFilter : Fields :=
  [("fields", .list [.text "ID", .text "NAME"]),
    ("where", .object [("NAME", .object [("eq", .text "a=b&c%2C")]),
      ("and", .list [.object [("AGE", .object [("gt", .text "18")])],
        .object [("CITY", .text "Ulm")]])]),
    ("order", .list [.text "ID DESC"])]

theorem isPrintable_nestedFilter : Bracket.IsPrintable false (.object nestedFilter) := by
  have hshort : 2 ≤ 10 ^ Number.digitLimit :=
    Nat.le_trans (by decide) (Nat.pow_le_pow_right (by decide) (by decide : 1 ≤ Number.digitLimit))
  have hpair : ∀ v w, Bracket.IsPrintable false v → Bracket.IsPrintable false w →
      Bracket.IsPrintable false (.list [v, w]) := fun v w hv hw =>
    .list (by simp) hshort (by simp [hv, hw])
  have hfield : ∀ name v, Bracket.isOwnName name = true → Bracket.IsPrintable false v →
      Bracket.IsPrintable false (.object [(name, v)]) := fun name v hname hv =>
    .object_of_isOwnName (by simp) (by simp [keys]) (by simpa [keys]) (by simpa)
  refine .object_of_isOwnName (by simp [nestedFilter]) (by decide) (by decide) ?_
  simp only [nestedFilter, List.forall_mem_cons, List.not_mem_nil, false_implies, implies_true,
    and_true]
  refine ⟨hpair _ _ (.text _) (.text _), ?_, ?_⟩
  · refine .object_of_isOwnName (by simp) (by decide) (by decide) ?_
    simp only [List.forall_mem_cons, List.not_mem_nil, false_implies, implies_true, and_true]
    have hage := hfield "AGE" _ (by decide) (hfield "gt" _ (by decide) (.text "18"))
    exact ⟨hfield _ _ (by decide) (.text _), hpair _ _ hage (hfield _ _ (by decide) (.text _))⟩
  · exact .list (by simp) (Nat.le_trans (by decide) hshort) (by simpa using .text _)

/-- A filter as it stands in an address, with no blank in its text. -/
def compactText : String :=
  "\x7b\"fields\":[\"ID\",\"NAME\"],\"where\":\x7b\"NAME\":\x7b\"eq\":\"a=b&c%2C\"\x7d,\"and\":[\x7b\"AGE\":" ++
    "\x7b\"gt\":\"18\"\x7d\x7d,\x7b\"CITY\":\"Ulm\"\x7d]\x7d,\"order\":[\"ID DESC\"]\x7d"

theorem read_compactText : Json.read compactText.toList = .ok (.object nestedFilter) := by
  cbv

theorem clientQuery_nestedFilter :
    Json.Built (.object nestedFilter) ∧ isFilter nestedFilter = true ∧
      "filter" ∉ keys nestedFilter ∧
      ∃ text, Json.compact (.object nestedFilter) = .ok text ∧
        ∀ v ∈ [.object [("filter", .object nestedFilter)], .object [("filter", .text text)],
            .object [("filter", .text compactText)], .text ("filter=" ++ Bracket.escaped text),
            .text ("filter=" ++ Bracket.escaped compactText),
            .text (Bracket.queryString (Bracket.ofFilter nestedFilter))],
          IsForm nestedFilter v ∧ clientQuery v = clientQuery (.object nestedFilter) := by
  have hmade := isPrintable_nestedFilter.built fun _ => True
  have hfilter : isFilter nestedFilter = true := by decide
  have hname : "filter" ∉ keys nestedFilter := by decide
  obtain ⟨text, htext, -⟩ :=
    Json.read_write (isPrintable_nestedFilter.built Json.IsShort) none
  obtain ⟨halike, -, hwritten⟩ := IsForm.clientQuery_eq hmade hfilter hname
  have hforms : ∀ v, IsForm nestedFilter v →
      IsForm nestedFilter v ∧ clientQuery v = clientQuery (.object nestedFilter) :=
    fun v hv => ⟨hv, halike v hv⟩
  refine ⟨hmade, hfilter, hname, text, htext, ?_⟩
  simp only [List.forall_mem_cons, List.not_mem_nil, false_implies, implies_true, and_true]
  exact ⟨hforms _ .parameter, hforms _ (hwritten none text htext).1,
    hforms _ (.json read_compactText), hforms _ (hwritten none text htext).2,
    hforms _ (.escaped read_compactText), hforms _ (.brackets isPrintable_nestedFilter)⟩

end Filter

end RowAccess
