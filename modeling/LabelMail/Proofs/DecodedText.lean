import LabelMail.Proofs.EncodedText

/-!
Bytes that can be read are an encoded text. A chunk that is a character stands for the bytes the
character is encoded as. A text has therefore one encoding only, and the beginning of an encoded
text, if it can be read at all, is read as the beginning of the text.
-/
namespace LabelMail.Text.Utf8

open String (utf8EncodeChar)

variable {a b c d : UInt8} {bytes : List UInt8} {v : Nat} {s t : String}

theorem low_lt (b : UInt8) : low b < 64 :=
  Nat.mod_lt _ (by decide)

theorem low_add (hb : isContinuation b) : low b + 128 = b.toNat := by
  have hrange := isContinuation_iff.mp hb
  unfold low
  omega

/-- The bounds that a second byte keeps. -/
theorem of_secondFits (h : secondFits a b) :
    isContinuation b ∧ (a.toNat = 0xE0 → 0xA0 ≤ b.toNat) ∧ (a.toNat = 0xED → b.toNat ≤ 0x9F) ∧
      (a.toNat = 0xF0 → 0x90 ≤ b.toNat) ∧ (a.toNat = 0xF4 → b.toNat ≤ 0x8F) := by
  unfold secondFits at h
  simp only [beq_iff_eq, ← UInt8.toNat_inj] at h
  rw [isContinuation_iff]
  split_ifs at h <;>
    simp only [isContinuation, Bool.and_eq_true, decide_eq_true_eq, UInt8.le_iff_toNat_le,
      UInt8.reduceToNat] at * <;>
    omega

theorem val_ofNat (hv : v < 0xD800 ∨ 0xDFFF < v ∧ v < 0x110000) :
    (Char.ofNat v).val.toNat = v := by
  rw [Char.ofNat, dif_pos hv]
  rfl

theorem byte_eq (h : v = a.toNat) : UInt8.ofNat v = a := by
  rw [h, UInt8.ofNat_toNat]

theorem encodeChar_one (ha : a.toNat < 0x80) : utf8EncodeChar (Char.ofNat a.toNat) = [a] := by
  unfold utf8EncodeChar
  simp only [val_ofNat (show a.toNat < 0xD800 ∨ _ by omega)]
  rw [if_pos (by omega), byte_eq rfl]

theorem encodeChar_two (ha : 0xC2 ≤ a.toNat ∧ a.toNat ≤ 0xDF) (hb : isContinuation b) :
    utf8EncodeChar (Char.ofNat (a.toNat % 32 * 64 + low b)) = [a, b] := by
  have hlow := low_lt b
  have hb := low_add hb
  unfold utf8EncodeChar
  simp only [val_ofNat (v := a.toNat % 32 * 64 + low b) (by omega)]
  rw [if_neg (by omega), if_pos (by omega), byte_eq (a := a) (by omega),
    byte_eq (a := b) (by omega)]

theorem encodeChar_three (ha : 0xE0 ≤ a.toNat ∧ a.toNat ≤ 0xEF) (hb : secondFits a b)
    (hc : isContinuation c) :
    utf8EncodeChar (Char.ofNat ((a.toNat % 16 * 64 + low b) * 64 + low c)) = [a, b, c] := by
  obtain ⟨hcont, hE0, hED, -, -⟩ := of_secondFits hb
  have hlowb := low_lt b
  have hlowc := low_lt c
  have hb := low_add hcont
  have hc := low_add hc
  unfold utf8EncodeChar
  simp only [val_ofNat (v := (a.toNat % 16 * 64 + low b) * 64 + low c) (by omega)]
  rw [if_neg (by omega), if_neg (by omega), if_pos (by omega), byte_eq (a := a) (by omega),
    byte_eq (a := b) (by omega), byte_eq (a := c) (by omega)]

theorem encodeChar_four (ha : 0xF0 ≤ a.toNat ∧ a.toNat ≤ 0xF4) (hb : secondFits a b)
    (hc : isContinuation c) (hd : isContinuation d) :
    utf8EncodeChar (Char.ofNat (((a.toNat % 8 * 64 + low b) * 64 + low c) * 64 + low d)) =
      [a, b, c, d] := by
  obtain ⟨hcont, -, -, hF0, hF4⟩ := of_secondFits hb
  have hlowb := low_lt b
  have hlowc := low_lt c
  have hlowd := low_lt d
  have hb := low_add hcont
  have hc := low_add hc
  have hd := low_add hd
  unfold utf8EncodeChar
  simp only [val_ofNat (v := ((a.toNat % 8 * 64 + low b) * 64 + low c) * 64 + low d) (by omega)]
  rw [if_neg (by omega), if_neg (by omega), if_neg (by omega), byte_eq (a := a) (by omega),
    byte_eq (a := b) (by omega), byte_eq (a := c) (by omega), byte_eq (a := d) (by omega)]

theorem eq_of_char_cons {x y : Char} {l m : List Chunk}
    (h : Chunk.char y :: m = .char x :: l) : y = x ∧ m = l := by
  simpa using h

/-- A first chunk that is a character was read from the bytes the character is encoded as. -/
theorem of_chunks_char {x : Char} {l : List Chunk} :
    chunks bytes = .char x :: l → ∃ r, bytes = utf8EncodeChar x ++ r ∧ chunks r = l := by
  fun_cases chunks bytes with
  | case2 a r ha =>
    intro h
    obtain ⟨rfl, rfl⟩ := eq_of_char_cons h
    exact ⟨r, by rw [encodeChar_one ha]; rfl, rfl⟩
  | case4 a ha hrange b r hb =>
    intro h
    obtain ⟨rfl, rfl⟩ := eq_of_char_cons h
    have hrange : 0xC2 ≤ a.toNat ∧ a.toNat ≤ 0xDF := by
      simpa [UInt8.le_iff_toNat_le] using hrange
    exact ⟨r, by rw [encodeChar_two hrange hb]; rfl, rfl⟩
  | case9 a ha htwo hrange b hb c r hc =>
    intro h
    obtain ⟨rfl, rfl⟩ := eq_of_char_cons h
    have hrange : 0xE0 ≤ a.toNat ∧ a.toNat ≤ 0xEF := by
      simpa [UInt8.le_iff_toNat_le] using hrange
    exact ⟨r, by rw [encodeChar_three hrange (by simpa using hb) hc]; rfl, rfl⟩
  | case16 a ha htwo hthree hrange b hb c hc d r hd =>
    intro h
    obtain ⟨rfl, rfl⟩ := eq_of_char_cons h
    have hrange : 0xF0 ≤ a.toNat ∧ a.toNat ≤ 0xF4 := by
      simpa [UInt8.le_iff_toNat_le] using hrange
    exact ⟨r, by rw [encodeChar_four hrange (by simpa using hb) (by simpa using hc) hd]; rfl, rfl⟩
  | _ =>
    intro h
    cases h

/-- Every byte is a part of a chunk. -/
theorem eq_nil_of_chunks : chunks bytes = [] → bytes = [] := by
  fun_cases chunks bytes with
  | case1 => exact fun _ => rfl
  | _ =>
    intro h
    cases h

theorem of_chunks_chars {cs : List Char} (h : chunks bytes = cs.map .char) :
    bytes = cs.flatMap utf8EncodeChar := by
  induction cs generalizing bytes with
  | nil =>
    exact eq_nil_of_chunks h
  | cons c cs ih =>
    obtain ⟨r, rfl, hr⟩ := of_chunks_char h
    rw [List.flatMap_cons, ← ih hr]

theorem chunks_of_charsFrom {index : Nat} {l : List Chunk} {cs : List Char}
    (h : charsFrom index l = .ok cs) : l = cs.map .char := by
  induction l generalizing index cs with
  | nil =>
    cases h
    rfl
  | cons chunk l ih =>
    cases chunk with
    | char c =>
      rw [charsFrom] at h
      cases hrest : charsFrom (index + c.utf8Size) l with
      | error e =>
        rw [hrest] at h
        cases h
      | ok rest =>
        rw [hrest] at h
        cases h
        rw [List.map_cons, ← ih hrest]
    | invalid n => cases h
    | incomplete n => cases h

/-- Bytes are read as a text if they are its encoding, and otherwise not. -/
theorem decode_eq_ok : decode bytes = .ok s ↔ bytes = encode s := by
  constructor
  · intro h
    unfold decode at h
    cases hchars : charsFrom 0 (chunks bytes) with
    | error e =>
      rw [hchars] at h
      cases h
    | ok cs =>
      rw [hchars] at h
      cases h
      rw [encode_eq, String.toList_ofList]
      exact of_chunks_chars (chunks_of_charsFrom hchars)
  · rintro rfl
    exact decode_encode s

theorem encode_inj (h : encode s = encode t) : s = t :=
  Except.ok.inj ((decode_encode s).symm.trans (h ▸ decode_encode t))

theorem chunks_encode_append (s : String) (r : List UInt8) :
    chunks (encode s ++ r) = s.toList.map .char ++ chunks r := by
  rw [encode_eq]
  induction s.toList with
  | nil => rfl
  | cons c cs ih => rw [List.flatMap_cons, List.append_assoc, chunks_encodeChar, ih]; rfl

/-- A text whose encoding begins another one is the beginning of the other text. -/
theorem isPrefix_of_encode (h : encode t <+: encode s) : t.toList <+: s.toList := by
  obtain ⟨r, hr⟩ := h
  have hchunks : s.toList.map .char = t.toList.map .char ++ chunks r := by
    rw [← chunks_encode, ← chunks_encode_append, hr]
  obtain ⟨l, l', hs, ht, -⟩ := List.map_eq_append_iff.mp hchunks
  have hinj : Function.Injective Chunk.char := fun _ _ hc => Chunk.char.inj hc
  rw [hs, ← hinj.list_map ht]
  exact List.prefix_append l l'

end LabelMail.Text.Utf8
