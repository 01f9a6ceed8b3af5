import LabelMail.Proofs.Acts

/-!
Where the holdings after some acts come from. Ids that were not there before are fresh, what is
never changed in a message or a label is as it was, and only a discarded message is lost. Labels
change under the ids that the acts are about.
-/
namespace LabelMail

/-- The id of the label that the act is about. -/
def Act.labelId? : Act → Option String
  | .enterLabel l => some l.id
  | .renameLabel l _ => some l.id
  | .discardLabel l => some l.id
  | _ => none

namespace Holdings

variable {h : Holdings} {m : Message} {l : Label} {a : Act} {acts : List Act}
variable {caller id : String} {fresh : String → Prop}

/-- The message was there before, under its id and envelope. -/
def Stems (h : Holdings) (m : Message) : Prop :=
  ∃ x ∈ h.messages, x.id = m.id ∧ x.envelope = m.envelope

/-- The label was there before, perhaps under another name. -/
def StemsLabel (h : Holdings) (l : Label) : Prop :=
  ∃ k ∈ h.labels, k.id = l.id ∧ k.ownerId = l.ownerId

theorem Fits.stems (hfits : h.Fits caller fresh a) (hm : m ∈ (h.apply a).messages) :
    h.Stems m ∨ fresh m.id := by
  cases hfits.arises hm with
  | kept hm => exact .inl ⟨m, hm, rfl, rfl⟩
  | entered hid => exact .inr hid
  | edited hx hedit => exact .inl ⟨_, hx, congrArg Row.id hedit.envelope.symm, hedit.envelope.symm⟩
  | renamed hx => exact .inl ⟨_, hx, rfl, rfl⟩
  | stripped hx => exact .inl ⟨_, hx, rfl, rfl⟩

theorem Fits.stemsLabel (hfits : h.Fits caller fresh a) (hl : l ∈ (h.apply a).labels) :
    h.StemsLabel l ∨ (fresh l.id ∧ l.ownerId = caller) := by
  cases a with
  | enterLabel k =>
    rcases List.mem_append.mp hl with hl | hl
    · exact .inl ⟨l, hl, rfl, rfl⟩
    · rw [List.mem_singleton.mp hl]
      exact .inr ⟨hfits.2.1, hfits.1⟩
  | renameLabel k name =>
    obtain ⟨j, hj, rfl⟩ := mem_labels_renameLabel.mp hl
    exact .inl ⟨j, hj, by split <;> exact ⟨rfl, rfl⟩⟩
  | discardLabel k => exact .inl ⟨l, (List.mem_filter.mp hl).1, rfl, rfl⟩
  | enter m => exact .inl ⟨l, hl, rfl, rfl⟩
  | alter m => exact .inl ⟨l, hl, rfl, rfl⟩
  | discard id => exact .inl ⟨l, hl, rfl, rfl⟩

theorem Legal.stems (hlegal : h.Legal caller fresh acts) (hm : m ∈ (h.after acts).messages) :
    h.Stems m ∨ fresh m.id := by
  induction acts generalizing h with
  | nil => exact .inl ⟨m, hm, rfl, rfl⟩
  | cons a acts ih =>
    rcases ih hlegal.2 hm with ⟨x, hx, hid, henvelope⟩ | hfresh
    · rcases hlegal.1.stems hx with ⟨y, hy, hyid, hyenvelope⟩ | hfresh
      · exact .inl ⟨y, hy, hyid.trans hid, hyenvelope.trans henvelope⟩
      · exact .inr (hid ▸ hfresh)
    · exact .inr hfresh

theorem Legal.stemsLabel (hlegal : h.Legal caller fresh acts) (hl : l ∈ (h.after acts).labels) :
    h.StemsLabel l ∨ (fresh l.id ∧ l.ownerId = caller) := by
  induction acts generalizing h with
  | nil => exact .inl ⟨l, hl, rfl, rfl⟩
  | cons a acts ih =>
    rcases ih hlegal.2 hl with ⟨k, hk, hid, howner⟩ | hfresh
    · rcases hlegal.1.stemsLabel hk with ⟨j, hj, hjid, hjowner⟩ | hfresh
      · exact .inl ⟨j, hj, hjid.trans hid, hjowner.trans howner⟩
      · exact .inr ⟨hid ▸ hfresh.1, howner ▸ hfresh.2⟩
    · exact .inr hfresh

theorem mem_ids_apply (hid : id ∈ h.ids) (ha : a ≠ .discard id) : id ∈ (h.apply a).ids := by
  cases a with
  | enter m =>
    obtain ⟨x, hx, rfl⟩ := mem_ids.mp hid
    exact mem_ids.mpr ⟨x, List.mem_append_left _ hx, rfl⟩
  | alter m =>
    rw [apply, ids_put]
    exact hid
  | discard i =>
    obtain ⟨x, hx, rfl⟩ := mem_ids.mp hid
    have hne : x.id ≠ i := fun hi => ha (hi ▸ rfl)
    exact mem_ids.mpr ⟨x, List.mem_filter.mpr ⟨hx, bne_iff_ne.mpr hne⟩, rfl⟩
  | enterLabel l => exact hid
  | renameLabel l name =>
    rw [ids, apply, retag_ids]
    exact hid
  | discardLabel l =>
    rw [ids, apply, retag_ids]
    exact hid

/-- A message that is lost was discarded. -/
theorem mem_ids_after (hid : id ∈ h.ids) (hacts : .discard id ∉ acts) :
    id ∈ (h.after acts).ids := by
  induction acts generalizing h with
  | nil => exact hid
  | cons a acts ih =>
    have hfirst : a ≠ .discard id := (List.ne_of_not_mem_cons hacts).symm
    exact ih (mem_ids_apply hid hfirst) (List.not_mem_of_not_mem_cons hacts)

theorem mem_labels_apply (ha : a.labelId? ≠ some l.id) : l ∈ (h.apply a).labels ↔ l ∈ h.labels := by
  cases a with
  | enterLabel k =>
    have hne : l ≠ k := fun hlk => ha (hlk ▸ rfl)
    simp [apply, hne]
  | renameLabel k name =>
    have hne : l.id ≠ k.id := fun hlk => ha (hlk ▸ rfl)
    refine mem_labels_renameLabel.trans ⟨?_, fun hl => ⟨l, hl, if_neg hne⟩⟩
    rintro ⟨j, hj, rfl⟩
    split at hne
    · next hjk => exact absurd hjk hne
    · next hjk => rwa [if_neg hjk]
  | discardLabel k =>
    have hne : l.id ≠ k.id := fun hlk => ha (hlk ▸ rfl)
    simp [apply, hne]
  | enter m => exact Iff.rfl
  | alter m => exact Iff.rfl
  | discard id => exact Iff.rfl

/-- Under an id that no act is about the labels are as before. -/
theorem mem_labels_after (hacts : ∀ a ∈ acts, a.labelId? ≠ some l.id) :
    l ∈ (h.after acts).labels ↔ l ∈ h.labels := by
  induction acts generalizing h with
  | nil => exact Iff.rfl
  | cons a acts ih =>
    have hfirst : a.labelId? ≠ some l.id := hacts a List.mem_cons_self
    exact (ih fun b hb => hacts b (List.mem_cons_of_mem a hb)).trans (mem_labels_apply hfirst)

end Holdings

end LabelMail
