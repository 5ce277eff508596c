import RowAccess.Text.Utf8

/-
  RowAccess/Proofs/Text/Utf8.lean
  ===============================
  **UTF-8 is read as it was written.**  The lead byte of a character promises as many bytes as the
  writer puts behind it, and its bounds on the second byte are met because the writer never uses a
  longer form than it has to.  So strict and lenient decoding give the encoded characters back
  (`Utf8.decode_encode`, `Utf8.replacing_encode`).
-/

namespace RowAccess.Text.Utf8

/-- A byte that continues a sequence is taken. -/
theorem follow_continue {k bits low high size n : Nat} {r : List UInt8} (hn : n < 256)
    (hlow : low ≤ n) (hhigh : n ≤ high) :
    follow (k + 1) bits low high size (n.toUInt8 :: r) =
      follow k (bits * 64 + (n - 0x80)) 0x80 0xBF (size + 1) r := by
  have hb : n.toUInt8.toNat = n := by
    simp only [Nat.toUInt8_eq, UInt8.toNat_ofNat']
    omega
  simp only [follow, hb, hlow, hhigh, and_self, if_true]

/-- A lead byte beyond ASCII starts a sequence of the form that it promises. -/
theorem step_lead {n : Nat} {l : Lead} {r : List UInt8} (hn : n < 256) (hascii : 0x80 ≤ n)
    (hl : lead? n = some l) :
    step n.toUInt8 r = follow l.following l.bits l.low l.high 1 r := by
  have hb : n.toUInt8.toNat = n := by
    simp only [Nat.toUInt8_eq, UInt8.toNat_ofNat']
    omega
  simp only [step, hb, Nat.not_lt.2 hascii, if_false, hl]

/-- The first byte of a character leads back to the character, whatever follows its bytes. -/
theorem step_encodeChar (c : Char) (r : List UInt8) :
    ∃ b bs, encodeChar c = b :: bs ∧ step b (bs ++ r) = .character c (bs.length + 1) := by
  have hc : Char.ofNat c.toNat = c := Char.ofNat_toNat c
  have hv : c.toNat < 0xD800 ∨ 0xDFFF < c.toNat ∧ c.toNat < 0x110000 := c.valid
  unfold encodeChar
  generalize c.toNat = n at hc hv
  by_cases h1 : n < 0x80
  · refine ⟨n.toUInt8, [], by simp [h1], ?_⟩
    have hb : n.toUInt8.toNat = n := by
      simp only [Nat.toUInt8_eq, UInt8.toNat_ofNat']
      omega
    simp [step, hb, h1, hc]
  by_cases h2 : n < 0x800
  · refine ⟨(0xC0 + n / 64).toUInt8, [(0x80 + n % 64).toUInt8], by simp [h1, h2], ?_⟩
    have hl : lead? (0xC0 + n / 64) = some ⟨1, n / 64, 0x80, 0xBF⟩ := by
      rw [lead?, if_pos (by omega)]
      simp
    have hn : n / 64 * 64 + (0x80 + n % 64 - 0x80) = n := by omega
    rw [step_lead (by omega) (by omega) hl, List.cons_append,
      follow_continue (n := 0x80 + n % 64) (by omega) (by simp) (by simp only; omega), follow, hn,
      hc]
    rfl
  by_cases h3 : n < 0x10000
  · refine ⟨(0xE0 + n / 4096).toUInt8, [(0x80 + n / 64 % 64).toUInt8, (0x80 + n % 64).toUInt8],
      by simp [h1, h2, h3], ?_⟩
    -- The bounds of the second byte shut out overlong forms after E0 and surrogates after ED.
    obtain ⟨low, high, hl, hlow, hhigh⟩ : ∃ low high,
        lead? (0xE0 + n / 4096) = some ⟨2, n / 4096, low, high⟩ ∧
          low ≤ 0x80 + n / 64 % 64 ∧ 0x80 + n / 64 % 64 ≤ high := by
      by_cases h0 : n / 4096 = 0
      · exact ⟨0xA0, 0xBF, by simp [lead?, h0], by omega, by omega⟩
      by_cases hD : n / 4096 = 0xD
      · exact ⟨0x80, 0x9F, by simp [lead?, hD], by omega, by omega⟩
      · refine ⟨0x80, 0xBF, ?_, by omega, by omega⟩
        rw [lead?, if_neg (by omega), if_neg (by omega), if_neg (by omega), if_pos (by omega)]
        simp
    have hn : (n / 4096 * 64 + (0x80 + n / 64 % 64 - 0x80)) * 64 + (0x80 + n % 64 - 0x80) = n := by
      omega
    rw [step_lead (by omega) (by omega) hl, List.cons_append, follow_continue (by omega) hlow hhigh,
      List.cons_append, follow_continue (by omega) (by omega) (by omega), follow, hn, hc]
    rfl
  · refine ⟨(0xF0 + n / 262144).toUInt8, [(0x80 + n / 4096 % 64).toUInt8,
      (0x80 + n / 64 % 64).toUInt8, (0x80 + n % 64).toUInt8], by simp [h1, h2, h3], ?_⟩
    -- Here the bounds shut out overlong forms after F0 and what lies beyond U+10FFFF after F4.
    obtain ⟨low, high, hl, hlow, hhigh⟩ : ∃ low high,
        lead? (0xF0 + n / 262144) = some ⟨3, n / 262144, low, high⟩ ∧
          low ≤ 0x80 + n / 4096 % 64 ∧ 0x80 + n / 4096 % 64 ≤ high := by
      by_cases h0 : n / 262144 = 0
      · exact ⟨0x90, 0xBF, by simp [lead?, h0], by omega, by omega⟩
      by_cases h4 : n / 262144 = 4
      · exact ⟨0x80, 0x8F, by simp [lead?, h4], by omega, by omega⟩
      · refine ⟨0x80, 0xBF, ?_, by omega, by omega⟩
        rw [lead?, if_neg (by omega), if_neg (by omega), if_neg (by omega), if_neg (by omega),
          if_neg (by omega), if_pos (by omega)]
        simp
    have hn : ((n / 262144 * 64 + (0x80 + n / 4096 % 64 - 0x80)) * 64 +
        (0x80 + n / 64 % 64 - 0x80)) * 64 + (0x80 + n % 64 - 0x80) = n := by
      omega
    rw [step_lead (by omega) (by omega) hl, List.cons_append, follow_continue (by omega) hlow hhigh,
      List.cons_append, follow_continue (by omega) (by omega) (by omega), List.cons_append,
      follow_continue (by omega) (by omega) (by omega), follow, hn, hc]
    rfl

theorem length_le_length_encode (cs : List Char) : cs.length ≤ (encode cs).length := by
  induction cs with
  | nil => exact Nat.le_refl 0
  | cons c cs ih =>
    obtain ⟨b, bs, he, -⟩ := step_encodeChar c []
    simp only [encode, List.flatMap_cons, he, List.length_append, List.length_cons]
    simp only [encode] at ih
    omega

/-- Both decoders read the bytes of a text character by character. -/
theorem encode_cons_eq (c : Char) (cs : List Char) :
    ∃ b bs, encode (c :: cs) = b :: (bs ++ encode cs) ∧
      step b (bs ++ encode cs) = .character c (bs.length + 1) := by
  obtain ⟨b, bs, he, hs⟩ := step_encodeChar c (encode cs)
  exact ⟨b, bs, by simp [encode, he], hs⟩

theorem decodeFrom_encode (cs : List Char) (position fuel : Nat) (hf : cs.length ≤ fuel) :
    decodeFrom position fuel (encode cs) = .ok cs := by
  induction cs generalizing position fuel with
  | nil =>
    cases fuel with
    | zero => rfl
    | succ fuel => rfl
  | cons c cs ih =>
    cases fuel with
    | zero => simp at hf
    | succ fuel =>
      obtain ⟨b, bs, hcons, hs⟩ := encode_cons_eq c cs
      have hrest : (bs ++ encode cs).drop (bs.length + 1 - 1) = encode cs := by simp
      have h := ih (position + (bs.length + 1)) fuel (by simpa using hf)
      rw [hcons, decodeFrom, hs]
      simp only [hrest, h]

/-- Strict decoding gives the encoded characters back. -/
theorem decode_encode (cs : List Char) : decode (encode cs) = .ok cs :=
  decodeFrom_encode cs 0 _ (length_le_length_encode cs)

theorem replaceFrom_encode (cs : List Char) (fuel : Nat) (hf : cs.length ≤ fuel) :
    replaceFrom fuel (encode cs) = cs := by
  induction cs generalizing fuel with
  | nil =>
    cases fuel with
    | zero => rfl
    | succ fuel => rfl
  | cons c cs ih =>
    cases fuel with
    | zero => simp at hf
    | succ fuel =>
      obtain ⟨b, bs, hcons, hs⟩ := encode_cons_eq c cs
      have hrest : (bs ++ encode cs).drop (bs.length + 1 - 1) = encode cs := by simp
      rw [hcons, replaceFrom, hs]
      simp only [hrest, ih fuel (by simpa using hf)]

/-- Lenient decoding gives them back as well. -/
theorem replacing_encode (cs : List Char) : replacing (encode cs) = cs :=
  replaceFrom_encode cs _ (length_le_length_encode cs)

end RowAccess.Text.Utf8
