import LabelMail.Proofs.Mailroom.Operations

/-!
The labels under which the replica keeps tags. A reserved tag has a label that all mailboxes share,
and a custom tag has the owner's label of its name. An act touches the messages whose copy it makes
out of date; the others keep their labels.
-/
namespace LabelMail

/-- The label that stands for a reserved tag in all mailboxes. -/
def sharedLabel (t : Tag) : Label :=
  ⟨t.name, Replica.shared, t.name⟩

namespace Holdings

/-- The label under which the replica keeps a tag of an owner. -/
def labelOf (h : Holdings) (owner : String) : Tag → Label
  | .custom name => (h.findLabel? owner name).getD (Mailroom.unnamedLabel owner name)
  | t => sharedLabel t

def labelsOf (h : Holdings) (m : Message) : List Label :=
  m.tags.byName.map (h.labelOf m.ownerId)

/-- A label that the replica should have. -/
def Stands (h : Holdings) (l : Label) : Prop :=
  l ∈ h.labels ∨ ∃ t ∈ Tag.reserved, l = sharedLabel t

/-- No owner's label has the id of a shared one. -/
def Apart (h : Holdings) : Prop :=
  ∀ l ∈ h.labels, ∀ t ∈ Tag.reserved, l.id ≠ t.name

variable {h h' : Holdings} {m : Message} {l k : Label} {t : Tag} {a : Act} {acts : List Act}
variable {owner caller name id : String} {fresh : String → Prop}

theorem mem_labelsOf : l ∈ h.labelsOf m ↔ ∃ t ∈ m.tags, h.labelOf m.ownerId t = l := by
  simp [labelsOf]

theorem labelOf_reserved (ht : t ∈ Tag.reserved) : h.labelOf owner t = sharedLabel t := by
  cases t with
  | custom name => simp [Tag.reserved] at ht
  | _ => rfl

theorem mem_reserved_or_custom (t : Tag) : t ∈ Tag.reserved ∨ ∃ name, t = .custom name := by
  cases t with
  | custom name => exact .inr ⟨name, rfl⟩
  | _ => exact .inl (by decide)

/-- Of two standing labels with one id there is only one. -/
theorem Stands.eq_of_id (ho : h.Orderly) (hapart : h.Apart) (hk : h.Stands k) (hl : h.Stands l)
    (hid : k.id = l.id) : k = l := by
  rcases hk with hk | ⟨t, ht, rfl⟩ <;> rcases hl with hl | ⟨u, hu, rfl⟩
  · exact ho.eq_of_labelId hk hl hid
  · exact absurd hid (hapart k hk u hu)
  · exact absurd hid.symm (hapart l hl t ht)
  · have hname : t.name = u.name := hid
    simp only [sharedLabel, hname]

/-- A label that its owner's others can be told from is found by its name. -/
theorem labelOf_custom_of_distinct (hl : l ∈ h.labels)
    (hdistinct : ∀ k ∈ h.labels, k.ownerId = l.ownerId →
      Text.sameName k.name l.name = true → k = l) :
    h.labelOf l.ownerId (.custom l.name) = l := by
  have hmatch : (l.ownerId == l.ownerId && Text.sameName l.name l.name) = true := by
    simp [Text.sameName_self]
  cases hfind : h.findLabel? l.ownerId l.name with
  | none => exact absurd hmatch (by simpa using List.find?_eq_none.mp hfind l hl)
  | some k =>
    have hk := List.find?_some hfind
    simp only [Bool.and_eq_true, beq_iff_eq] at hk
    have hkl : k = l := hdistinct k (List.mem_of_find?_eq_some hfind) hk.1 hk.2
    rw [labelOf, hfind, Option.getD_some, hkl]

namespace Orderly

theorem labelOf_custom (ho : h.Orderly) (hl : l ∈ h.labels) :
    h.labelOf l.ownerId (.custom l.name) = l :=
  labelOf_custom_of_distinct hl fun k hk => ho.distinct k hk l hl

/-- The label of a tag that a message carries stands and spells the tag. -/
theorem labelOf_tag (ho : h.Orderly) (hm : m ∈ h.messages) (ht : t ∈ m.tags) :
    h.Stands (h.labelOf m.ownerId t) ∧ (h.labelOf m.ownerId t).name = t.name := by
  rcases mem_reserved_or_custom t with hres | ⟨name, rfl⟩
  · rw [labelOf_reserved hres]
    exact ⟨.inr ⟨t, hres, rfl⟩, rfl⟩
  · obtain ⟨l, hl, howns, rfl⟩ := ho.labelled m hm _ ht name rfl
    rw [← howns, ho.labelOf_custom hl]
    exact ⟨.inl hl, rfl⟩

theorem stands (ho : h.Orderly) (hm : m ∈ h.messages) (hl : l ∈ h.labelsOf m) : h.Stands l := by
  obtain ⟨t, ht, rfl⟩ := mem_labelsOf.mp hl
  exact (ho.labelOf_tag hm ht).1

/-- A message whose labels are still there keeps them. -/
theorem labelsOf_eq (ho : h.Orderly) (ho' : h'.Orderly) (hm : m ∈ h.messages)
    (hkept : ∀ l ∈ h.labels, l.ownerId = m.ownerId → .custom l.name ∈ m.tags → l ∈ h'.labels) :
    h'.labelsOf m = h.labelsOf m := by
  refine List.map_congr_left fun t ht => ?_
  have htag : t ∈ m.tags := TagSet.mem_byName.mp ht
  rcases mem_reserved_or_custom t with hres | ⟨name, rfl⟩
  · rw [labelOf_reserved hres, labelOf_reserved hres]
  · obtain ⟨l, hl, howns, rfl⟩ := ho.labelled m hm _ htag name rfl
    rw [← howns, ho.labelOf_custom hl, ho'.labelOf_custom (hkept l hl howns htag)]

end Orderly

/-- The message is entered, altered, or among those whose tags change with a label. -/
def Touches (h : Holdings) (id : String) : Act → Prop
  | .enter m => m.id = id
  | .alter m => m.id = id
  | .discard _ => False
  | .enterLabel _ => False
  | .renameLabel l _ =>
    ∃ m ∈ h.messages, m.id = id ∧ m.ownerId = l.ownerId ∧ .custom l.name ∈ m.tags
  | .discardLabel l =>
    ∃ m ∈ h.messages, m.id = id ∧ m.ownerId = l.ownerId ∧ .custom l.name ∈ m.tags

/-- One of the acts touches the message. -/
def Touched (id : String) : Holdings → List Act → Prop
  | _, [] => False
  | h, a :: acts => h.Touches id a ∨ Touched id (h.apply a) acts

/-- A message that an act does not touch was there before, under the same labels. -/
theorem Orderly.untouched (ho : h.Orderly) (hfits : h.Fits caller fresh a)
    (hm : m ∈ (h.apply a).messages) (hnot : ¬ h.Touches m.id a) :
    m ∈ h.messages ∧ (h.apply a).labelsOf m = h.labelsOf m := by
  have ho' : (h.apply a).Orderly := ho.apply hfits
  cases a with
  | enter x =>
    rcases List.mem_append.mp hm with hm | hm
    · exact ⟨hm, rfl⟩
    · exact absurd (congrArg Message.id (List.mem_singleton.mp hm)).symm hnot
  | alter x =>
    obtain ⟨y, hy, -, hedit⟩ := hfits
    have hid : x.id ∈ h.ids := mem_ids.mpr ⟨y, hy, congrArg Row.id hedit.envelope.symm⟩
    rcases (mem_put hid).mp hm with rfl | hm
    · exact absurd rfl hnot
    · exact ⟨hm.1, rfl⟩
  | discard id => exact ⟨(List.mem_filter.mp hm).1, rfl⟩
  | enterLabel l =>
    exact ⟨hm, ho.labelsOf_eq ho' hm fun k hk _ _ => List.mem_append_left _ hk⟩
  | renameLabel l name =>
    obtain ⟨x, hx, hxm⟩ := mem_messages_renameLabel.mp hm
    split at hxm
    · next hcase =>
      subst hxm
      exact absurd ⟨x, hx, rfl, hcase⟩ hnot
    · next hcase =>
      subst hxm
      refine ⟨hx, ho.labelsOf_eq ho' hx fun k hk howns hcarried => ?_⟩
      refine mem_labels_renameLabel.mpr ⟨k, hk, if_neg fun hid => hcase ?_⟩
      obtain rfl := ho.eq_of_labelId hk hfits.1 hid
      exact ⟨howns.symm, hcarried⟩
  | discardLabel l =>
    obtain ⟨x, hx, hxm⟩ := mem_messages_discardLabel.mp hm
    split at hxm
    · next hcase =>
      subst hxm
      exact absurd ⟨x, hx, rfl, hcase⟩ hnot
    · next hcase =>
      subst hxm
      refine ⟨hx, ho.labelsOf_eq ho' hx fun k hk howns hcarried => ?_⟩
      refine List.mem_filter.mpr ⟨hk, bne_iff_ne.mpr fun hid => hcase ?_⟩
      obtain rfl := ho.eq_of_labelId hk hfits.1 hid
      exact ⟨howns.symm, hcarried⟩

/-- Of a message that no act touches, all is as before. -/
theorem Orderly.untouched_after (ho : h.Orderly) (hlegal : h.Legal caller fresh acts)
    (hm : m ∈ (h.after acts).messages) (hnot : ¬ Touched m.id h acts) :
    m ∈ h.messages ∧ (h.after acts).labelsOf m = h.labelsOf m := by
  induction acts generalizing h with
  | nil => exact ⟨hm, rfl⟩
  | cons a acts ih =>
    obtain ⟨hfirst, hrest⟩ := not_or.mp hnot
    obtain ⟨hm', hlabels⟩ := ih (ho.apply hlegal.1) hlegal.2 hm hrest
    obtain ⟨hm₀, hlabels₀⟩ := ho.untouched hlegal.1 hm' hfirst
    exact ⟨hm₀, hlabels.trans hlabels₀⟩

end Holdings

end LabelMail
