import LabelMail.Text.Utf8
import Mathlib.Data.List.Basic

/-!
Text that was encoded is read back. What a character is encoded as is read as one chunk, whatever
follows it, so that an encoded text is read character by character. Only a line feed is encoded
with the byte of a line feed.
-/
namespace LabelMail.Text.Utf8

open String (utf8EncodeChar)

variable {a b c d : UInt8} {r : List UInt8} {v : Nat}

theorem toNat_byte (h : v < 256) : (UInt8.ofNat v).toNat = v := by
  rw [UInt8.toNat_ofNat', Nat.mod_eq_of_lt h]

theorem isContinuation_iff : isContinuation b ↔ 0x80 ≤ b.toNat ∧ b.toNat ≤ 0xBF := by
  simp [isContinuation, UInt8.le_iff_toNat_le]

/-- The last six bits of a number as a byte that continues a character. -/
def tailByte (v : Nat) : UInt8 :=
  UInt8.ofNat (v % 64 + 128)

theorem toNat_tailByte (v : Nat) : (tailByte v).toNat = v % 64 + 128 :=
  toNat_byte (by omega)

theorem isContinuation_tailByte (v : Nat) : isContinuation (tailByte v) := by
  rw [isContinuation_iff, toNat_tailByte]
  omega

theorem low_tailByte (v : Nat) : low (tailByte v) = v % 64 := by
  rw [low, toNat_tailByte]
  omega

/-- Four first bytes allow only a part of the bytes that continue a character. -/
theorem secondFits_of (hb : isContinuation b) (hE0 : a.toNat = 0xE0 → 0xA0 ≤ b.toNat)
    (hED : a.toNat = 0xED → b.toNat ≤ 0x9F) (hF0 : a.toNat = 0xF0 → 0x90 ≤ b.toNat)
    (hF4 : a.toNat = 0xF4 → b.toNat ≤ 0x8F) : secondFits a b := by
  have hrange := isContinuation_iff.mp hb
  unfold secondFits
  simp only [beq_iff_eq, ← UInt8.toNat_inj]
  split
  · next h => simpa [UInt8.le_iff_toNat_le, hrange.2] using hE0 h
  · split
    · next h => simpa [UInt8.le_iff_toNat_le, hrange.1] using hED h
    · split
      · next h => simpa [UInt8.le_iff_toNat_le, hrange.2] using hF0 h
      · split
        · next h => simpa [UInt8.le_iff_toNat_le, hrange.1] using hF4 h
        · exact hb

theorem chunks_one (ha : a.toNat < 0x80) :
    chunks (a :: r) = .char (Char.ofNat a.toNat) :: chunks r := by
  have h : a < 0x80 := UInt8.lt_iff_toNat_lt.mpr ha
  rw [chunks.eq_def]
  simp only [h, if_true]

theorem chunks_two (ha : 0xC2 ≤ a.toNat ∧ a.toNat ≤ 0xDF) (hb : isContinuation b) :
    chunks (a :: b :: r) = .char (Char.ofNat (a.toNat % 32 * 64 + low b)) :: chunks r := by
  have h : ¬ a < 0x80 ∧ 0xC2 ≤ a ∧ a ≤ 0xDF := by
    simp only [UInt8.lt_iff_toNat_lt, UInt8.le_iff_toNat_le, UInt8.reduceToNat]
    omega
  rw [chunks.eq_def]
  simp [h, hb]

theorem chunks_three (ha : 0xE0 ≤ a.toNat ∧ a.toNat ≤ 0xEF) (hb : secondFits a b)
    (hc : isContinuation c) :
    chunks (a :: b :: c :: r) =
      .char (Char.ofNat ((a.toNat % 16 * 64 + low b) * 64 + low c)) :: chunks r := by
  have h : ¬ a < 0x80 ∧ ¬ a ≤ 0xDF ∧ 0xE0 ≤ a ∧ a ≤ 0xEF := by
    simp only [UInt8.lt_iff_toNat_lt, UInt8.le_iff_toNat_le, UInt8.reduceToNat]
    omega
  rw [chunks.eq_def]
  simp [h, hb, hc]

theorem chunks_four (ha : 0xF0 ≤ a.toNat ∧ a.toNat ≤ 0xF4) (hb : secondFits a b)
    (hc : isContinuation c) (hd : isContinuation d) :
    chunks (a :: b :: c :: d :: r) =
      .char (Char.ofNat (((a.toNat % 8 * 64 + low b) * 64 + low c) * 64 + low d)) :: chunks r := by
  have h : ¬ a < 0x80 ∧ ¬ a ≤ 0xDF ∧ ¬ a ≤ 0xEF ∧ 0xF0 ≤ a ∧ a ≤ 0xF4 := by
    simp only [UInt8.lt_iff_toNat_lt, UInt8.le_iff_toNat_le, UInt8.reduceToNat]
    omega
  rw [chunks.eq_def]
  simp [h, hb, hc, hd]

theorem chunks_encodeChar (c : Char) (r : List UInt8) :
    chunks (utf8EncodeChar c ++ r) = .char c :: chunks r := by
  obtain ⟨v, hv⟩ : ∃ v, c.val.toNat = v := ⟨_, rfl⟩
  have hvalid : v < 0xD800 ∨ 0xDFFF < v ∧ v < 0x110000 := hv ▸ c.valid
  have hread {n : Nat} (hn : n = v) : .char (Char.ofNat n) :: chunks r = .char c :: chunks r := by
    rw [hn, ← hv]
    exact congrArg (Chunk.char · :: chunks r) (Char.ofNat_toNat c)
  have htail (n : Nat) : UInt8.ofNat (n % 64 + 128) = tailByte n := rfl
  unfold utf8EncodeChar
  simp only [hv, htail]
  split
  · have ha : (UInt8.ofNat v).toNat = v := toNat_byte (by omega)
    rw [List.singleton_append, chunks_one (by omega)]
    exact hread ha
  · split
    · have ha := toNat_byte (show v / 64 % 32 + 192 < 256 by omega)
      simp only [List.cons_append, List.nil_append]
      rw [chunks_two (by omega) (isContinuation_tailByte v), low_tailByte]
      exact hread (by omega)
    · split
      · have ha := toNat_byte (show v / 4096 % 16 + 224 < 256 by omega)
        have hb := toNat_tailByte (v / 64)
        have hfits := secondFits_of (a := UInt8.ofNat (v / 4096 % 16 + 224))
          (isContinuation_tailByte (v / 64)) (by omega) (by omega) (by omega) (by omega)
        simp only [List.cons_append, List.nil_append]
        rw [chunks_three (by omega) hfits (isContinuation_tailByte v), low_tailByte, low_tailByte]
        exact hread (by omega)
      · have ha := toNat_byte (show v / 262144 % 8 + 240 < 256 by omega)
        have hb := toNat_tailByte (v / 4096)
        have hfits := secondFits_of (a := UInt8.ofNat (v / 262144 % 8 + 240))
          (isContinuation_tailByte (v / 4096)) (by omega) (by omega) (by omega) (by omega)
        simp only [List.cons_append, List.nil_append]
        rw [chunks_four (by omega) hfits (isContinuation_tailByte _) (isContinuation_tailByte v),
          low_tailByte, low_tailByte, low_tailByte]
        exact hread (by omega)

theorem toList_loop (bytes : ByteArray) (i : Nat) (l : List UInt8) :
    ByteArray.toList.loop bytes i l = l.reverse ++ bytes.data.toList.drop i := by
  fun_induction ByteArray.toList.loop bytes i l with
  | case1 i l h ih =>
    have hi : i < bytes.data.toList.length := by simpa using h
    have hget : bytes.get! i = bytes.data.toList[i] := by simp [ByteArray.get!, h]
    rw [ih, List.drop_eq_getElem_cons hi, hget]
    simp
  | case2 i l h =>
    have hdrop : bytes.data.toList.drop i = [] := by
      apply List.drop_eq_nil_of_le
      simpa using h
    simp [hdrop]

theorem encode_eq (s : String) : encode s = s.toList.flatMap utf8EncodeChar := by
  have hbytes : s.toUTF8 = (s.toList.flatMap utf8EncodeChar).toByteArray :=
    String.utf8Encode_toList.symm
  rw [encode, hbytes, ByteArray.toList, toList_loop]
  simp

theorem encode_append (s t : String) : encode (s ++ t) = encode s ++ encode t := by
  rw [encode_eq, encode_eq, encode_eq, String.toList_append, List.flatMap_append]

theorem chunks_encode (s : String) : chunks (encode s) = s.toList.map .char := by
  rw [encode_eq]
  induction s.toList with
  | nil => rw [List.flatMap_nil, chunks.eq_def, List.map_nil]
  | cons c r ih => rw [List.flatMap_cons, chunks_encodeChar, ih, List.map_cons]

theorem charsFrom_map_char (index : Nat) (r : List Char) :
    charsFrom index (r.map .char) = .ok r := by
  induction r generalizing index with
  | nil => rfl
  | cons c r ih =>
    rw [List.map_cons, charsFrom, ih]
    rfl

/-- What was encoded is read back as it was. -/
theorem decode_encode (s : String) : decode (encode s) = .ok s := by
  rw [decode, chunks_encode, charsFrom_map_char]
  exact congrArg Except.ok String.ofList_toList

theorem lineFeed_ne_byte (h : 0x80 ≤ v) (h' : v < 256) : 10 ≠ UInt8.ofNat v := by
  intro heq
  have hv : 10 = v := by rw [← toNat_byte h', ← heq]; rfl
  omega

/-- Only a line feed is encoded with the byte of a line feed. -/
theorem lineFeed_mem_encodeChar {c : Char} (h : 10 ∈ utf8EncodeChar c) : c = '\n' := by
  have htail (n : Nat) : 10 ≠ UInt8.ofNat (n % 64 + 128) := lineFeed_ne_byte (by omega) (by omega)
  unfold utf8EncodeChar at h
  dsimp only at h
  split at h
  · have hv : 10 = c.val.toNat := by
      rw [← toNat_byte (show c.val.toNat < 256 by omega), ← List.mem_singleton.mp h]
      rfl
    exact Char.toNat_inj.mp hv.symm
  · split at h
    · have hlead := lineFeed_ne_byte (v := c.val.toNat / 64 % 32 + 192) (by omega) (by omega)
      simp only [List.mem_cons, List.not_mem_nil, hlead, htail, or_self] at h
    · split at h
      · have hlead := lineFeed_ne_byte (v := c.val.toNat / 4096 % 16 + 224) (by omega) (by omega)
        simp only [List.mem_cons, List.not_mem_nil, hlead, htail, or_self] at h
      · have hlead := lineFeed_ne_byte (v := c.val.toNat / 262144 % 8 + 240) (by omega) (by omega)
        simp only [List.mem_cons, List.not_mem_nil, hlead, htail, or_self] at h

theorem lineFeed_mem_encode {s : String} (h : 10 ∈ encode s) : '\n' ∈ s.toList := by
  rw [encode_eq, List.mem_flatMap] at h
  obtain ⟨c, hc, hmem⟩ := h
  exact lineFeed_mem_encodeChar hmem ▸ hc

end LabelMail.Text.Utf8
