import RowAccess.Json.Reader
import RowAccess.Proofs.Keyed
import RowAccess.Proofs.Outcome
import RowAccess.Proofs.Text.Digit
import RowAccess.Shown

/-
  RowAccess/Proofs/Json/Document.lean
  ===================================
  **What documents hold.**  A document that is read holds texts, numbers, truth values and nulls, and
  no integer of more digits than may be written (`Json.isDocument_read`).  So what a document gives can
  be written again.
-/

namespace RowAccess.Json

open Keyed Outcome

/-- The values that a document may hold. -/
inductive IsDocument : Value → Prop
  | null : IsDocument .null
  | bool (b : Bool) : IsDocument (.bool b)
  | int {n : Int} (short : Number.isWritten n = true) : IsDocument (.int n)
  | float (x : Binary64) : IsDocument (.float x)
  | text (s : String) : IsDocument (.text s)
  | list {xs : List Value} (h : ∀ x ∈ xs, IsDocument x) : IsDocument (.list xs)
  | object {fields : Fields} (h : ∀ e ∈ fields, IsDocument e.2) : IsDocument (.object fields)

theorem IsDocument.isWritable {v : Value} (h : IsDocument v) : v.isWritable = true := by
  induction h with
  | int short => exact short
  | list _ ih => exact Value.isWritable_list_iff.2 ih
  | object _ ih => exact Value.isWritable_object_iff.2 ih
  | _ => rfl

theorem IsDocument.put {fields : Fields} {v : Value} (h : IsDocument (.object fields))
    (hv : IsDocument v) (name : String) : IsDocument (.object (Keyed.put fields name v)) := by
  cases h with | object hfields => ?_
  refine .object fun e he => ?_
  rcases value_of_mem_put he with rfl | he
  · exact hv
  · exact hfields e he

/-! ## Numbers -/

theorem lt_ten_of_asciiDigit? {c : Char} {d : Nat} (h : Text.asciiDigit? c = some d) : d < 10 := by
  unfold Text.asciiDigit? at h
  split at h
  next hc =>
    have hnine : c.toNat ≤ 57 := hc.2
    rw [← Option.some.inj h]
    omega
  next => cases h

theorem lt_ten_of_mem_spanDigits {cs : List Char} : ∀ d ∈ (spanDigits cs).1, d < 10 := by
  intro d hd
  obtain ⟨c, -, hc⟩ := List.mem_filterMap.1 hd
  exact lt_ten_of_asciiDigit? hc

theorem lt_ten_of_wholePart? {cs r : List Char} {whole : List Nat}
    (h : wholePart? cs = some (whole, r)) : ∀ d ∈ whole, d < 10 := by
  unfold wholePart? at h
  split at h
  · cases h
    simp
  · split at h
    · cases h
    next found =>
      have hwhole : whole = (spanDigits _).1 := (congrArg Prod.fst (Option.some.inj h)).symm
      rw [hwhole]
      exact lt_ten_of_mem_spanDigits

theorem isDocument_readNumber {k k' : Cursor} {v : Value} (h : readNumber k = .ok (v, k')) :
    IsDocument v := by
  unfold readNumber at h
  dsimp only at h
  split at h
  · cases h
  next whole r hwhole =>
    split at h
    · cases h
      exact .float _
    · split at h
      · cases h
      next hshort =>
        cases h
        have hlt : Text.ofDigits whole < Nat.pow 10 whole.length :=
          Text.ofDigits_lt (lt_ten_of_wholePart? hwhole)
        refine .int (Number.isWritten_of_lt ?_ (Nat.not_lt.1 hshort))
        generalize Prod.fst _ = negative
        cases negative with
        | true => rwa [if_pos rfl, Int.natAbs_neg, Int.natAbs_natCast]
        | false => rwa [if_neg Bool.false_ne_true, Int.natAbs_natCast]

/-! ## Values -/

theorem isDocument_word {cs : List Char} {w : String} {v : Value} (h : word? cs = some (w, v)) :
    IsDocument v := by
  have hwords : ∀ e ∈ words, IsDocument e.2 := by
    simp only [words, List.forall_mem_cons, List.not_mem_nil, false_implies, implies_true, and_true]
    exact ⟨.null, .bool _, .bool _, .float _, .float _, .float _⟩
  exact hwords _ (List.mem_of_find?_eq_some h)

/-- With this fuel the three readers give values of documents only. -/
structure ReadsDocuments (fuel : Nat) : Prop where
  value : ∀ {k v k'}, readValue fuel k = .ok (v, k') → IsDocument v
  fields : ∀ {done k v k'}, IsDocument (.object done) → readFields fuel done k = .ok (v, k') →
    IsDocument v
  entries : ∀ {done k v k'}, (∀ x ∈ done, IsDocument x) → readEntries fuel done k = .ok (v, k') →
    IsDocument v

namespace ReadsDocuments

variable {fuel : Nat} {k k' : Cursor} {v : Value} (ih : ReadsDocuments fuel)

include ih

theorem value_succ (h : readValue (fuel + 1) k = .ok (v, k')) : IsDocument v := by
  rw [readValue] at h
  split at h
  · cases h
  · obtain ⟨⟨s, k₁⟩, -, h⟩ := bind_eq_ok_iff.1 h
    cases h
    exact .text s
  · dsimp only at h
    split at h
    · cases h
      exact .object (by simp)
    · exact ih.fields (.object (by simp)) h
  · dsimp only at h
    split at h
    · cases h
      exact .list (by simp)
    · exact ih.entries (by simp) h
  · split at h
    next hword =>
      cases h
      exact isDocument_word hword
    next => exact isDocument_readNumber h

theorem fields_succ {done : Fields} (hdone : IsDocument (.object done))
    (h : readFields (fuel + 1) done k = .ok (v, k')) : IsDocument v := by
  rw [readFields] at h
  split at h
  · obtain ⟨⟨name, k₁⟩, -, h⟩ := bind_eq_ok_iff.1 h
    dsimp only at h
    split at h
    · obtain ⟨⟨w, k₂⟩, hw, h⟩ := bind_eq_ok_iff.1 h
      have hput : IsDocument (.object (Keyed.put done name w)) := hdone.put (ih.value hw) name
      dsimp only at h
      split at h
      · cases h
        exact hput
      · exact ih.fields hput h
      · cases h
    · cases h
  · cases h

theorem entries_succ {done : List Value} (hdone : ∀ x ∈ done, IsDocument x)
    (h : readEntries (fuel + 1) done k = .ok (v, k')) : IsDocument v := by
  rw [readEntries] at h
  obtain ⟨⟨w, k₁⟩, hw, h⟩ := bind_eq_ok_iff.1 h
  have hcons : ∀ x ∈ w :: done, IsDocument x := List.forall_mem_cons.2 ⟨ih.value hw, hdone⟩
  dsimp only at h
  split at h
  · cases h
    exact .list fun x hx => hcons x (List.mem_reverse.1 hx)
  · exact ih.entries hcons h
  · cases h

end ReadsDocuments

/-- The three readers call each other, so one induction on the fuel serves them all. -/
theorem readsDocuments (fuel : Nat) : ReadsDocuments fuel := by
  induction fuel with
  | zero =>
    constructor
    · intro k v k' h
      cases h
    · intro done k v k' _ h
      cases h
    · intro done k v k' _ h
      cases h
  | succ fuel ih => exact ⟨ih.value_succ, ih.fields_succ, ih.entries_succ⟩

/-- What is read is the value of a document. -/
theorem isDocument_read {cs : List Char} {v : Value} (h : read cs = .ok v) : IsDocument v := by
  have hrest : (do
      let found ← readValue (cs.length + 1) (Cursor.mk cs 0).skipSpace
      let k := found.2.skipSpace
      if k.rest.isEmpty then return found.1 else throw (.at .extra k.index)) = Except.ok v := by
    unfold read at h
    split at h
    · split at h
      · cases h
      · exact h
    · exact h
  obtain ⟨⟨w, k⟩, hw, hrest⟩ := bind_eq_ok_iff.1 hrest
  dsimp only at hrest
  split at hrest
  · cases hrest
    exact (readsDocuments _).value hw
  · cases hrest

end RowAccess.Json
