import LabelMail.Proofs.Mailroom.Runs

/-!
The names of labels along runs. One owner's labels differ in more than the case of letters, each
has a name that only a custom tag can have, and every custom tag on a message is spelled like a
label of the message's owner. Renaming or deleting a label therefore finds all that carry its tag.
-/
namespace LabelMail

namespace Text

variable {a b : String} {r s : List Char}

/-- The letters of a text without their case. -/
def folded (s : String) : List Char :=
  s.toList.map Char.toLower

theorem utf8Size_toLower (c : Char) : c.toLower.utf8Size = c.utf8Size := by
  by_cases hupper : c.val ≥ 'A'.val ∧ c.val ≤ 'Z'.val
  · have hlow : c.toLower.val = c.val + 32 := by
      unfold Char.toLower
      rw [dif_pos hupper]
      rfl
    obtain ⟨hA, hZ⟩ := hupper
    rw [ge_iff_le, UInt32.le_iff_toNat_le] at hA
    rw [UInt32.le_iff_toNat_le] at hZ
    have hsize : c.utf8Size = 1 := by
      rw [Char.utf8Size_eq_one_iff, UInt32.le_iff_toNat_le]
      exact Nat.le_trans hZ (by decide)
    rw [hsize, Char.utf8Size_eq_one_iff, hlow, UInt32.le_iff_toNat_le, UInt32.toNat_add]
    simp at hA hZ ⊢
    omega
  · unfold Char.toLower
    rw [dif_neg hupper]

theorem byteLength_map_toLower (s : List Char) :
    byteLength (s.map Char.toLower) = byteLength s := by
  simp only [byteLength, List.foldl_map, utf8Size_toLower]

theorem compareFolded_of_map_eq (h : r.map Char.toLower = s.map Char.toLower) :
    compareFolded r s = .eq := by
  induction r generalizing s with
  | nil =>
    rw [List.map_nil, eq_comm, List.map_eq_nil_iff] at h
    subst h
    rfl
  | cons c r ih =>
    cases s with
    | nil => cases h
    | cons d s =>
      obtain ⟨hcd, hrs⟩ := List.cons.inj h
      have hsame : sameFolded c d = true := by simp [sameFolded, hcd]
      rw [compareFolded, if_pos hsame]
      split
      · rw [Nat.compare_eq_eq, ← byteLength_map_toLower r, hrs, byteLength_map_toLower]
      · exact ih hrs

/-- The collation tells no names apart that differ in the case of letters only. -/
theorem sameName_of_folded (h : folded a = folded b) : sameName a b = true := by
  rw [sameName, compareFolded_of_map_eq h]
  rfl

theorem allBlank_of_trim (htrim : trim a = a) (hne : a ≠ "") : allBlank a = false := by
  rw [← Bool.not_eq_true]
  intro hblank
  have hall : ∀ c ∈ a.toList, isBlank c = true := List.all_eq_true.mp hblank
  have hdrop : a.toList.dropWhile isBlank = [] := List.dropWhile_eq_nil_iff.mpr hall
  have hnil : trim a = "" := by
    rw [trim, trimChars, hdrop]
    rfl
  exact hne (htrim.symm.trans hnil)

end Text

namespace Tag

/-- Of all names the one that only a custom tag can have, which is spelled in no other way. -/
structure IsOwnName (name : String) : Prop where
  notBlank : Text.allBlank name = false
  unpadded : Text.trim name = name
  unreserved : ∀ t ∈ reserved, name ≠ t.name
  notInbox : namesInbox name = false

theorem Proper.isOwnName {name : String} (h : (custom name).Proper) : IsOwnName name := by
  rw [Proper, Tag.name, ofName] at h
  by_cases hempty : (Text.trim name).isEmpty = true
  · rw [if_pos hempty] at h
    cases h
  · rw [if_neg hempty] at h
    have htag : ofTrimmed (Text.trim name) = custom name := Except.ok.inj h
    unfold ofTrimmed at htag
    split at htag
    · cases htag
    next hinbox =>
      cases hfind : reserved.find? fun t => t.name == Text.trim name with
      | some t =>
        rw [hfind, Option.getD_some] at htag
        have hmem := List.mem_of_find?_eq_some hfind
        simp [htag, reserved] at hmem
      | none =>
        rw [hfind, Option.getD_none] at htag
        have htrim : Text.trim name = name := Tag.custom.inj htag
        rw [htrim] at hempty hinbox hfind
        have hne : name ≠ "" := fun hname => hempty (by rw [hname]; rfl)
        refine ⟨Text.allBlank_of_trim htrim hne, htrim, fun t ht heq => ?_, by simpa using hinbox⟩
        exact List.find?_eq_none.mp hfind t ht (beq_iff_eq.mpr heq.symm)

end Tag

namespace Mailroom

variable {σ : Type} {room : Mailroom σ} {owner : String}

/-- What is known of the names in one owner's mailbox. -/
structure InStep (owner : String) (rows : Primary.Rows) : Prop where
  distinct : ((rows.labels.filter (·.ownerId == owner)).map (Text.folded ·.name)).Nodup
  named : ∀ l ∈ rows.labels, l.ownerId = owner → Tag.IsOwnName l.name
  spelled : ∀ row ∈ rows.messages, row.ownerId = owner → ∃ m, row.message = .ok m ∧
    ∀ name, .custom name ∈ m.tags → ∃ l ∈ rows.labels, l.ownerId = owner ∧ l.name = name

theorem Orderly.inStep (ho : room.Orderly) (owner : String) : InStep owner room.primary.rows := by
  obtain ⟨hs, ho⟩ := ho
  refine ⟨?_, fun l hl _ => ?_, fun row hrow howner => ?_⟩
  · rw [hs.labels]
    refine List.Nodup.map_on (fun k hk l hl hfolded => ?_) (ho.labelIds.of_map.filter _)
    obtain ⟨hk, hkowner⟩ := List.mem_filter.mp hk
    obtain ⟨hl, hlowner⟩ := List.mem_filter.mp hl
    refine ho.distinct k hk l hl ?_ (Text.sameName_of_folded hfolded)
    rw [beq_iff_eq.mp hkowner, beq_iff_eq.mp hlowner]
  · rw [hs.labels] at hl
    exact (ho.named l hl).isOwnName
  · rw [hs.messages] at hrow
    obtain ⟨m, hm, rfl⟩ := List.mem_map.mp hrow
    refine ⟨m, (ho.storable m hm).stored_message, fun name ht => ?_⟩
    obtain ⟨l, hl, hlowner, hname⟩ := ho.labelled m hm _ ht name rfl
    exact ⟨l, hs.labels ▸ hl, hlowner.trans howner, hname⟩

/-- Tags and labels stay in step along every run, whatever fails. -/
theorem labels_in_step (room : Mailroom σ) (hv : room.Vacant) (events : List Event)
    (owner : String) : InStep owner (room.after events).primary.rows :=
  (hv.orderly.after events).inStep owner

/-- A name that is given on first use, used in other letters, and changed in its letters only. -/
def respelled : List Event :=
  [⟨"alice", 0, .send ⟨some "bob", some "s", some "c"⟩ false⟩,
    ⟨"bob", 0, .changeLabel "u" ⟨some " Deals ", .add⟩⟩,
    ⟨"bob", 0, .createLabel (some "deals")⟩,
    ⟨"bob", 0, .renameLabel "uuu" (some "DEALS")⟩]

theorem labels_in_step_respelled :
    sample.Vacant ∧ InStep "bob" (sample.after respelled).primary.rows ∧
      (sample.after respelled).primary.rows.labels = [⟨"uuu", "bob", "DEALS"⟩] := by
  have hv : sample.Vacant := ⟨rfl, rfl⟩
  exact ⟨hv, labels_in_step sample hv respelled "bob", by decide +kernel⟩

end Mailroom

end LabelMail
