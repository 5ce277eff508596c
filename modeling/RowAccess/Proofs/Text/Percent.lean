import RowAccess.Proofs.Text.Utf8
import RowAccess.Text.Percent

/-
  RowAccess/Proofs/Text/Percent.lean
  ==================================
  **What was escaped is read again.**  An escaped text holds only unreserved characters, percent
  signs and hexadecimal digits, so no separator of a query string stands in it.  Its bytes are the
  bytes of the text, and so decoding gives the text back (`Percent.decodePlus_encode`).
-/

namespace RowAccess.Text.Percent

theorem lt_of_isUnreserved {c : Char} (h : isUnreserved c = true) : c.toNat < 128 := by
  simp only [isUnreserved, Bool.or_eq_true, beq_iff_eq] at h
  rcases h with (((h | rfl) | rfl) | rfl) | rfl
  · change (decide (c.val ≥ 65 ∧ c.val ≤ 90) || (c.val ≥ 97 && c.val ≤ 122) ||
      (c.val ≥ 48 && c.val ≤ 57)) = true at h
    simp only [Bool.or_eq_true, Bool.and_eq_true, decide_eq_true_eq, ge_iff_le,
      UInt32.le_iff_toNat_le] at h
    change ((65 ≤ c.toNat ∧ c.toNat ≤ 90) ∨ (97 ≤ c.toNat ∧ c.toNat ≤ 122)) ∨
      (48 ≤ c.toNat ∧ c.toNat ≤ 57) at h
    omega
  all_goals decide

theorem isUnreserved_hexCapital : ∀ n < 16, isUnreserved (hexCapital n) = true := by decide

theorem mem_escape {b : UInt8} {c : Char} (h : c ∈ escape b) :
    c = '%' ∨ isUnreserved c = true := by
  have hb : b.toNat < 256 := b.toNat_lt
  simp only [escape, List.mem_cons, List.not_mem_nil, or_false] at h
  rcases h with rfl | rfl | rfl
  · exact .inl rfl
  · exact .inr (isUnreserved_hexCapital _ (by omega))
  · exact .inr (isUnreserved_hexCapital _ (by omega))

/-- The characters of an escaped text. -/
theorem mem_encode {cs : List Char} {c : Char} (h : c ∈ encode cs) :
    c = '%' ∨ isUnreserved c = true := by
  obtain ⟨d, -, hd⟩ := List.mem_flatMap.1 h
  unfold encodeChar at hd
  split at hd
  next hun =>
    rw [List.mem_singleton.1 hd]
    exact .inr hun
  next =>
    obtain ⟨b, -, hb⟩ := List.mem_flatMap.1 hd
    exact mem_escape hb

theorem lt_of_mem_encode {cs : List Char} {c : Char} (h : c ∈ encode cs) : c.toNat < 128 := by
  rcases mem_encode h with rfl | h
  · decide
  · exact lt_of_isUnreserved h

theorem not_mem_encode {c : Char} (hc : c ≠ '%') (hun : isUnreserved c = false)
    (cs : List Char) : c ∉ encode cs := by
  intro h
  rcases mem_encode h with heq | h
  · exact hc heq
  · rw [hun] at h
    cases h

/-! ## Decoding -/

theorem bytes_cons_of_ne {c : Char} (h : c ≠ '%') (r : List Char) :
    bytes (c :: r) = c.toNat.toUInt8 :: bytes r := by
  rcases r with _ | ⟨a, _ | ⟨b, r⟩⟩
  · rw [bytes]
    simp [h]
  · rw [bytes]
    simp [h]
  · rw [bytes]
    intro a' b' r' heq
    exact absurd heq h

theorem bytes_escape_append (b : UInt8) (r : List Char) :
    bytes (escape b ++ r) = b :: bytes r := by
  have hb : b.toNat < 256 := b.toNat_lt
  have hsum : (16 * (b.toNat / 16) + b.toNat % 16).toUInt8 = b := by
    rw [Nat.div_add_mod]
    exact UInt8.ofNat_toNat
  simp only [escape, List.cons_append, List.nil_append, bytes,
    hexValue?_hexCapital _ (show b.toNat / 16 < 16 by omega),
    hexValue?_hexCapital _ (show b.toNat % 16 < 16 by omega), hsum]

theorem bytes_encodeChar_append (c : Char) (r : List Char) :
    bytes (encodeChar c ++ r) = Utf8.encodeChar c ++ bytes r := by
  unfold encodeChar
  split
  next hun =>
    have hlt := lt_of_isUnreserved hun
    have hne : c ≠ '%' := by
      rintro rfl
      exact absurd hun (by decide)
    have hutf8 : Utf8.encodeChar c = [c.toNat.toUInt8] := by
      simp [Utf8.encodeChar, hlt]
    rw [List.singleton_append, bytes_cons_of_ne hne, hutf8, List.singleton_append]
  next =>
    induction Utf8.encodeChar c with
    | nil => rfl
    | cons b bs ih =>
      rw [List.flatMap_cons, List.append_assoc, bytes_escape_append, ih, List.cons_append]

/-- The bytes of an escaped text are those of the text. -/
theorem bytes_encode (cs : List Char) : bytes (encode cs) = Utf8.encode cs := by
  induction cs with
  | nil => rfl
  | cons c cs ih =>
    have hcons : encode (c :: cs) = encodeChar c ++ encode cs := List.flatMap_cons
    rw [hcons, bytes_encodeChar_append, ih]
    exact List.flatMap_cons.symm

theorem decodeRuns_ascii {cs : List Char} (h : ∀ c ∈ cs, c.toNat < 128) (run : List Char) :
    decodeRuns run cs = Utf8.replacing (bytes (run.reverse ++ cs)) := by
  induction cs generalizing run with
  | nil => rw [decodeRuns, List.append_nil]
  | cons c cs ih =>
    rw [decodeRuns, if_pos (h c (by simp)), ih fun d hd => h d (List.mem_cons_of_mem _ hd)]
    rw [List.reverse_cons, List.append_assoc, List.singleton_append]

theorem encode_eq_self {cs : List Char} (h : '%' ∉ encode cs) : encode cs = cs := by
  induction cs with
  | nil => rfl
  | cons c cs ih =>
    have hcons : encode (c :: cs) = encodeChar c ++ encode cs := List.flatMap_cons
    rw [hcons, List.mem_append, not_or] at h
    rw [hcons, ih h.2]
    obtain ⟨b, bs, he, -⟩ := Utf8.step_encodeChar c []
    unfold encodeChar at h ⊢
    split
    next => rfl
    next hun =>
      rw [if_neg hun, he, List.flatMap_cons] at h
      simp [escape] at h

theorem decode_encode (cs : List Char) : decode (encode cs) = cs := by
  unfold decode
  split
  next =>
    rw [decodeRuns_ascii fun c hc => lt_of_mem_encode hc, List.reverse_nil, List.nil_append,
      bytes_encode, Utf8.replacing_encode]
  next hnone =>
    refine encode_eq_self ?_
    intro hmem
    exact hnone (List.contains_iff_mem.2 hmem)

/-- Decoding gives an escaped text back, also where a plus sign would stand for a space. -/
theorem decodePlus_encode (cs : List Char) : decodePlus (encode cs) = cs := by
  have hplus : (encode cs).map (fun c => if c = '+' then ' ' else c) = encode cs := by
    refine (List.map_congr_left ?_).trans (List.map_id _)
    intro c hc
    have hne : c ≠ '+' := by
      rintro rfl
      exact not_mem_encode (by decide) (by decide) cs hc
    rw [if_neg hne]
    rfl
  rw [decodePlus, hplus, decode_encode]

end RowAccess.Text.Percent
