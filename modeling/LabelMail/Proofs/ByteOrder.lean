import LabelMail.Proofs.EncodedText

/-!
The order of texts and the order of their bytes are the same: a character with a larger number is
encoded with larger bytes, whatever follows the two.
-/
namespace LabelMail.Text.Utf8

open String (utf8EncodeChar)

variable {r s : List UInt8} {v w : Nat}

theorem byte_cons_lt (hv : v < 256) (hw : w < 256) (hle : v ≤ w) (htie : v = w → r < s) :
    UInt8.ofNat v :: r < UInt8.ofNat w :: s := by
  rw [List.cons_lt_cons_iff, UInt8.lt_iff_toNat_lt, ← UInt8.toNat_inj, toNat_byte hv, toNat_byte hw]
  rcases Nat.lt_or_eq_of_le hle with hlt | heq
  · exact .inl hlt
  · exact .inr ⟨heq, htie heq⟩

theorem byte_cons_lt_of_lt (hw : w < 256) (hlt : v < w) :
    UInt8.ofNat v :: r < UInt8.ofNat w :: s :=
  byte_cons_lt (Nat.lt_trans hlt hw) hw (Nat.le_of_lt hlt) fun heq => absurd heq (Nat.ne_of_lt hlt)

/-- Characters of one length differ first in the highest six bits in which their numbers differ, and
of two lengths the shorter one has the smaller first byte. -/
theorem encodeChar_append_lt {c d : Char} (h : c < d) (r s : List UInt8) :
    utf8EncodeChar c ++ r < utf8EncodeChar d ++ s := by
  have hlt : c.val.toNat < d.val.toNat := UInt32.lt_iff_toNat_lt.mp h
  have hbound : d.val.toNat < 0x110000 := by
    have hvalid : d.val.toNat < 0xD800 ∨ 0xDFFF < d.val.toNat ∧ d.val.toNat < 0x110000 := d.valid
    omega
  generalize hv : c.val.toNat = v at hlt
  generalize hw : d.val.toNat = w at hlt hbound
  unfold utf8EncodeChar
  simp only [hv, hw]
  split
  · rw [List.singleton_append]
    split
    · exact byte_cons_lt_of_lt (by omega) hlt
    · split
      · exact byte_cons_lt_of_lt (by omega) (by omega)
      · split
        · exact byte_cons_lt_of_lt (by omega) (by omega)
        · exact byte_cons_lt_of_lt (by omega) (by omega)
  · split
    · rw [if_neg (by omega)]
      split
      · refine byte_cons_lt (by omega) (by omega) (by omega) fun _ => ?_
        exact byte_cons_lt_of_lt (by omega) (by omega)
      · split
        · exact byte_cons_lt_of_lt (by omega) (by omega)
        · exact byte_cons_lt_of_lt (by omega) (by omega)
    · rw [if_neg (by omega : ¬ w ≤ 0x7f), if_neg (by omega : ¬ w ≤ 0x7ff)]
      split
      · split
        · refine byte_cons_lt (by omega) (by omega) (by omega) fun _ => ?_
          refine byte_cons_lt (by omega) (by omega) (by omega) fun _ => ?_
          exact byte_cons_lt_of_lt (by omega) (by omega)
        · exact byte_cons_lt_of_lt (by omega) (by omega)
      · rw [if_neg (by omega)]
        refine byte_cons_lt (by omega) (by omega) (by omega) fun _ => ?_
        refine byte_cons_lt (by omega) (by omega) (by omega) fun _ => ?_
        refine byte_cons_lt (by omega) (by omega) (by omega) fun _ => ?_
        exact byte_cons_lt_of_lt (by omega) (by omega)

theorem flatMap_encodeChar_lt {k l : List Char} (h : k < l) :
    k.flatMap utf8EncodeChar < l.flatMap utf8EncodeChar := by
  induction h with
  | @nil d l =>
    obtain ⟨b, r, hd⟩ := List.exists_cons_of_ne_nil (String.utf8EncodeChar_ne_nil (c := d))
    rw [List.flatMap_nil, List.flatMap_cons, hd]
    exact List.nil_lt_cons b _
  | @rel c k d l h => exact encodeChar_append_lt h _ _
  | @cons c k l h ih =>
    rw [List.flatMap_cons, List.flatMap_cons]
    exact List.append_left_lt ih

/-- Texts stand in the order of their bytes. -/
theorem encode_lt {a b : String} (h : a < b) : encode a < encode b := by
  rw [encode_eq, encode_eq]
  exact flatMap_encodeChar_lt (String.lt_iff.mp h)

end LabelMail.Text.Utf8
