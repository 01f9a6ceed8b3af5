import LabelMail.Proofs.Replica.Copies

/-!
Copies under labels of which several may have one id. Labels are put one after the other, and of
those with one id the last gives the row its name. A message that was copied is linked to the rows
of these, and it shows the tags that their names spell. The labels need not be told apart by their
ids, and neither need they be spelled like the tags for which they stand.
-/
namespace LabelMail.Replica.Rows

/-- The labels that are left when of those with one id only the last counts. -/
def lasting : List Label → List Label
  | [] => []
  | l :: labels =>
    if labels.any (·.id == l.id) then lasting labels else l :: lasting labels

/-- No two rows have one id. -/
structure Keyed (R : Rows) : Prop where
  ids : (R.messages.map Row.id).Nodup
  labelIds : (R.labels.map Label.id).Nodup

variable {R R' : Rows} {m : Message} {labels : List Label} {l k : Label} {id : String} {t : Tag}

theorem Keyed.kept (hk : R.Keyed) : R.Kept ⟨[], []⟩ :=
  ⟨hk.ids, hk.labelIds, fun _ _ _ hm => absurd hm List.not_mem_nil⟩

/-! ### The labels that count -/

theorem lasting_sublist : (lasting labels).Sublist labels := by
  induction labels with
  | nil => exact .slnil
  | cons l labels ih =>
    rw [lasting]
    split
    · exact ih.cons l
    · exact ih.cons_cons l

theorem mem_ids_lasting : id ∈ (lasting labels).map Label.id ↔ id ∈ labels.map Label.id := by
  induction labels with
  | nil => exact Iff.rfl
  | cons l labels ih =>
    rw [lasting]
    split
    · next htaken =>
      obtain ⟨k, hk, hkl⟩ := List.any_eq_true.mp htaken
      rw [ih, List.map_cons, List.mem_cons, iff_or_self]
      rintro rfl
      exact List.mem_map.mpr ⟨k, hk, eq_of_beq hkl⟩
    · rw [List.map_cons, List.map_cons, List.mem_cons, List.mem_cons, ih]

theorem nodup_lasting : ((lasting labels).map Label.id).Nodup := by
  induction labels with
  | nil => exact .nil
  | cons l labels ih =>
    rw [lasting]
    split
    · exact ih
    · next hfree =>
      refine List.nodup_cons.mpr ⟨fun htaken => hfree ?_, ih⟩
      obtain ⟨k, hk, hkl⟩ := List.mem_map.mp (mem_ids_lasting.mp htaken)
      exact List.any_eq_true.mpr ⟨k, hk, beq_iff_eq.mpr hkl⟩

theorem lasting_eq_self (hnodup : (labels.map Label.id).Nodup) : lasting labels = labels := by
  induction labels with
  | nil => rfl
  | cons l labels ih =>
    obtain ⟨hl, hrest⟩ := List.nodup_cons.mp hnodup
    have hfree : ¬ labels.any (·.id == l.id) := fun htaken => by
      obtain ⟨k, hk, hkl⟩ := List.any_eq_true.mp htaken
      exact hl (List.mem_map.mpr ⟨k, hk, eq_of_beq hkl⟩)
    rw [lasting, if_neg hfree, ih hrest]

/-! ### The rows of labels that were put one after the other -/

theorem Keyed.putLabelRow (hk : R.Keyed) (l : Label) :
    Keyed { R with labels := putLabelRow l R.labels } :=
  ⟨hk.ids, nodup_putLabelRow hk.labelIds⟩

theorem Keyed.putLabelRows (hk : R.Keyed) (labels : List Label) :
    (R.putLabelRows labels).Keyed := by
  induction labels generalizing R with
  | nil => exact hk
  | cons l labels ih => exact ih (hk.putLabelRow l)

/-- Later labels with other ids leave the name. -/
theorem names_putLabelRows_of_ne (hk : R.Keyed) (hl : R.Names l)
    (hother : ∀ k ∈ labels, k.id ≠ l.id) : (R.putLabelRows labels).Names l := by
  induction labels generalizing R with
  | nil => exact hl
  | cons k labels ih =>
    obtain ⟨hkl, hrest⟩ := List.forall_mem_cons.mp hother
    obtain ⟨row, hrow, hid, hname⟩ := hl
    refine ih (hk.putLabelRow k) ⟨row, ?_, hid, hname⟩ hrest
    exact (mem_putLabelRow_of_ne hk.kept fun hrk => hkl (hrk.symm.trans hid)).mpr hrow

theorem names_of_mem_lasting (hk : R.Keyed) (hl : l ∈ lasting labels) :
    (R.putLabelRows labels).Names l := by
  induction labels generalizing R with
  | nil => cases hl
  | cons k labels ih =>
    rw [lasting] at hl
    split at hl
    · exact ih (hk.putLabelRow k) hl
    · next hfree =>
      rcases List.mem_cons.mp hl with rfl | hl
      · have hname : Names { R with labels := putLabelRow l R.labels } l :=
          names_putLabelRow hk.kept
        have hother : ∀ j ∈ labels, j.id ≠ l.id := fun j hj hjl =>
          hfree (List.any_eq_true.mpr ⟨j, hj, beq_iff_eq.mpr hjl⟩)
        change (putLabelRows labels { R with labels := Replica.putLabelRow l R.labels }).Names l
        exact names_putLabelRows_of_ne (hk.putLabelRow l) hname hother
      · exact ih (hk.putLabelRow k) hl

/-! ### Copies -/

theorem Keyed.putRow (hk : R.Keyed) (m : Message) :
    Keyed { R with messages := putRow (.ofMessage m) R.messages } :=
  ⟨ids_putRow hk.kept, hk.labelIds⟩

theorem Keyed.put (hk : R.Keyed) (m : Message) (labels : List Label) : (R.put m labels).Keyed :=
  (hk.putRow m).putLabelRows labels

theorem Keyed.relinked {ids : List String} (hk : R.Keyed) (hr : Relinked id ids R R') : R'.Keyed :=
  ⟨hr.messages ▸ hk.ids, hr.labels.nodup hk.labelIds⟩

/-- The labels that count have their names. -/
theorem Copied.names (hc : Copied m labels R R') (hk : R.Keyed) (hl : l ∈ lasting labels) :
    R'.Names l := by
  obtain ⟨k, hk', hkl⟩ := names_of_mem_lasting (hk.putRow m) hl
  exact ⟨k, hc.labels.kept.subset hk', hkl⟩

theorem Copied.keyed (hc : Copied m labels R R') (hk : R.Keyed) : R'.Keyed :=
  (hk.put m labels).relinked hc

/-- A message that was copied is mirrored with the labels that count, provided that what the replica
had of it agrees with it in what is never changed. -/
theorem Copied.mirrors_lasting (hc : Copied m labels R R') (hk : R.Keyed)
    (henvelope : ∀ r ∈ R.messages, r.id = m.id → r.envelope = m.envelope) :
    R'.Mirrors m (lasting labels) where
  row := by
    have hkept : R.Kept ⟨[m], []⟩ := ⟨hk.ids, hk.labelIds, fun r hr x hx hid => by
      obtain rfl := List.mem_singleton.mp hx
      exact henvelope r hr hid⟩
    have hput : Row.ofMessage m ∈ (R.put m labels).messages := by
      rw [put, messages_putLabelRows]
      exact mem_putRow_self hkept List.mem_cons_self
    rw [hc.messages]
    exact hput
  links i := by
    rw [hc.links, if_pos rfl, ← mem_ids_lasting]
    exact List.mem_map
  names _ hl := hc.names hk hl

/-- What the replica has of a message that was copied: the message with the tags that the labels
that count spell. -/
theorem Copied.copy? (hc : Copied m labels R R') (hk : R.Keyed)
    (henvelope : ∀ r ∈ R.messages, r.id = m.id → r.envelope = m.envelope) :
    R'.copy? m.id =
      some ((Row.ofMessage m).message (tagsOfNames ((lasting labels).map Label.name))) := by
  have hkept : R'.Kept ⟨[], []⟩ := (hc.keyed hk).kept
  have hmir : R'.Mirrors m (lasting labels) := hc.mirrors_lasting hk henvelope
  have htags : R'.tagsOn m.id = tagsOfNames ((lasting labels).map Label.name) := by
    ext t
    rw [hmir.mem_tagsOn hkept, mem_tagsOfNames]
    simp only [List.mem_map, exists_exists_and_eq_and]
  have hfind : R'.messages.find? (·.id == m.id) = some (Row.ofMessage m) := hkept.find? hmir.row
  rw [Rows.copy?, hfind, Option.map_some, htags]

end LabelMail.Replica.Rows
