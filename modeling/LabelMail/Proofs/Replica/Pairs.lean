import LabelMail.Proofs.Agreement
import LabelMail.Proofs.Replica.Ownership
import LabelMail.Proofs.RowOrder

/-!
What two replicas have in common for one owner. A write that concerns the owner is made to both and
leaves them in agreement; one that concerns another owner does not touch what they agree on.
-/
namespace LabelMail.Replica

/-- The row is the owner's, or it stands for one of these labels of the owner's, under whatever
owner it is filed. -/
def FiledFor (owner : String) (labels : List Label) (k : Label) : Prop :=
  k.ownerId = owner ∨ ∃ l ∈ labels, l.ownerId = owner ∧ l.id = k.id

instance {owner : String} {labels : List Label} {k : Label} : Decidable (FiledFor owner labels k) :=
  inferInstanceAs (Decidable (_ ∨ _))

theorem FiledFor.mono {owner : String} {labels labels' : List Label} {k : Label}
    (hk : FiledFor owner labels' k) (hsame : AgreeOn (·.ownerId = owner) labels labels') :
    FiledFor owner labels k :=
  hk.imp_right fun ⟨l, hl, howner, hid⟩ => ⟨l, (hsame l howner).mpr hl, howner, hid⟩

namespace Rows

/-- The replicas have the same of one owner, who has these labels in the primary store. Links count
as the owner's if their messages are. -/
structure SameFor (owner : String) (labels : List Label) (R R' : Rows) : Prop where
  messages : AgreeOn (fun r : Row => r.ownerId = owner) R.messages R'.messages
  labels : AgreeOn (FiledFor owner labels) R.labels R'.labels
  links : AgreeOn (fun l : Link => ∃ r ∈ R.messages, r.ownerId = owner ∧ r.id = l.messageId)
    R.links R'.links

/-- The rows go with the holdings as the owners say. -/
structure Fitting (g : Owners) (h : Holdings) (R : Rows) : Prop where
  orderly : h.Orderly
  covers : g.Covers h
  kept : R.Kept h
  parted : R.Parted g

variable {g g' : Owners} {h h' : Holdings} {s : Scope} {R R' R₁ R₁' R₂ : Rows} {m : Message}
variable {k l : Label} {r : Row} {owner id : String} {labels labels' ls : List Label} {t : Tag}

namespace SameFor

theorem refl (owner : String) (labels : List Label) (R : Rows) : R.SameFor owner labels R :=
  ⟨.refl _ _, .refl _ _, .refl _ _⟩

theorem symm (hsame : R.SameFor owner labels R') : R'.SameFor owner labels R where
  messages := hsame.messages.symm
  labels := hsame.labels.symm
  links l hl := by
    obtain ⟨r, hr, howner, hid⟩ := hl
    exact (hsame.links l ⟨r, (hsame.messages r howner).mpr hr, howner, hid⟩).symm

theorem trans (hsame : R.SameFor owner labels R₁) (hsame' : R₁.SameFor owner labels R₂) :
    R.SameFor owner labels R₂ where
  messages := hsame.messages.trans hsame'.messages
  labels := hsame.labels.trans hsame'.labels
  links l hl := by
    obtain ⟨r, hr, howner, hid⟩ := hl
    exact (hsame.links l ⟨r, hr, howner, hid⟩).trans
      (hsame'.links l ⟨r, (hsame.messages r howner).mp hr, howner, hid⟩)

/-- Labels without rows in the two replicas make no difference. -/
theorem relabel (hsame : R.SameFor owner labels R')
    (hlabels : ∀ k, k ∈ R.labels ∨ k ∈ R'.labels → FiledFor owner labels' k →
      FiledFor owner labels k) : R.SameFor owner labels' R' where
  messages := hsame.messages
  labels k hk := ⟨fun hmem => (hsame.labels k (hlabels k (.inl hmem) hk)).mp hmem,
    fun hmem => (hsame.labels k (hlabels k (.inr hmem) hk)).mpr hmem⟩
  links := hsame.links

theorem without (hsame : R.SameFor owner labels R') (id : String) :
    (R.without id).SameFor owner labels (R'.without id) where
  messages := hsame.messages.filter
  labels := hsame.labels
  links l hl := by
    obtain ⟨r, hr, howner, hid⟩ := hl
    rw [Rows.without, Rows.without, List.mem_filter, List.mem_filter,
      hsame.links l ⟨r, (List.mem_filter.mp hr).1, howner, hid⟩]

theorem withoutAll (hsame : R.SameFor owner labels R') (ids : List String) :
    (R.withoutAll ids).SameFor owner labels (R'.withoutAll ids) := by
  induction ids generalizing R R' with
  | nil => exact hsame
  | cons id ids ih => exact ih (hsame.without id)

theorem withoutLabel (hsame : R.SameFor owner labels R') (id : String) :
    (R.withoutLabel id).SameFor owner labels (R'.withoutLabel id) where
  messages := hsame.messages
  labels := hsame.labels.filter
  links l hl := by
    rw [Rows.withoutLabel, Rows.withoutLabel, List.mem_filter, List.mem_filter, hsame.links l hl]

/-- The ids of the owner's messages are listed in one order. -/
theorem idsOf (hsame : R.SameFor owner labels R') (hk : R.Kept h) (hk' : R'.Kept h') :
    sortBy (fun a b => decide (a ≤ b)) ((R.messages.filter (·.ownerId == owner)).map (·.id)) =
      sortBy (fun a b => decide (a ≤ b)) ((R'.messages.filter (·.ownerId == owner)).map (·.id)) := by
  refine sortBy_eq_of_perm (fun a b c hab hbc => ?_) (fun a b => ?_) (fun a _ b _ hab hba => ?_)
    ((hsame.messages.perm (fun _ => beq_iff_eq.mp) (.of_map _ hk.ids) (.of_map _ hk'.ids)).map _)
  · exact decide_eq_true (String.le_trans (of_decide_eq_true hab) (of_decide_eq_true hbc))
  · exact (String.le_total a b).imp decide_eq_true decide_eq_true
  · exact String.le_antisymm (of_decide_eq_true hab) (of_decide_eq_true hba)

end SameFor

theorem Fitting.putLabelRow (hf : Fitting g h R) (hl : h.Stands l) :
    Fitting g h { R with labels := Replica.putLabelRow l R.labels } :=
  ⟨hf.orderly, hf.covers, ⟨hf.kept.ids, labelIds_putLabelRow hf.kept, hf.kept.envelopes⟩,
    hf.parted.putLabelRow hf.kept hf.covers hl⟩

/-- A row that belongs to an owner belongs to the owner of its id. -/
theorem Fitting.label_eq (hf : Fitting g h R) (hk : k ∈ R.labels)
    (hfiled : FiledFor owner h.labels k) (hne : owner ≠ shared) : g.label k.id = some owner := by
  rcases hfiled with rfl | ⟨l, hl, rfl, hid⟩
  · rcases hf.parted.labels k hk with ⟨t, -, rfl⟩ | ⟨o, hlabel, howner | hshared⟩
    · exact absurd rfl hne
    · rw [howner, hlabel]
    · exact absurd hshared hne
  · rw [← hid]
    exact hf.covers.labels l hl

theorem Fitting.ne_reserved (hf : Fitting g h R) (hk : k ∈ R.labels)
    (hfiled : FiledFor owner h.labels k) (hne : owner ≠ shared) (ht : t ∈ Tag.reserved) :
    k.id ≠ t.name :=
  Owners.ne_of_label (hf.label_eq hk hfiled hne) ht

section Putting

variable (hf : Fitting g h R) (hf' : Fitting g' h' R') (hh : h.SameFor owner h')
include hf hf'

theorem agree_putLabelRow (hl : l ∈ h.labels) (howner : l.ownerId = owner)
    (hsame : AgreeOn (FiledFor owner h.labels) R.labels R'.labels) :
    AgreeOn (FiledFor owner h.labels) (putLabelRow l R.labels) (putLabelRow l R'.labels) := by
  intro k hk
  have hmine (old : Label) (hid : old.id = l.id) : old ∈ R.labels ↔ old ∈ R'.labels :=
    hsame old (.inr ⟨l, hl, howner, hid.symm⟩)
  rw [mem_putLabelRow hf.kept.labelIds, mem_putLabelRow hf'.kept.labelIds]
  refine or_congr (and_congr_left fun _ => hsame k hk) (or_congr (exists_congr fun old => ?_) ?_)
  · rw [and_left_comm, and_left_comm (a := old ∈ R'.labels)]
    exact and_congr_right fun hid => and_congr_left fun _ => hmine old hid
  · refine and_congr_right fun _ => forall_congr' fun old => ?_
    exact ⟨fun hnone hold hid => hnone ((hmine old hid).mpr hold) hid,
      fun hnone hold hid => hnone ((hmine old hid).mp hold) hid⟩

include hh

theorem agree_putShared (hne : owner ≠ shared) (ht : t ∈ Tag.reserved)
    (hsame : AgreeOn (FiledFor owner h.labels) R.labels R'.labels) :
    AgreeOn (FiledFor owner h.labels) (putLabelRow (sharedLabel t) R.labels)
      (putLabelRow (sharedLabel t) R'.labels) := by
  intro k hk
  have hk' : FiledFor owner h'.labels k := hk.mono hh.labels.symm
  by_cases hid : k.id = t.name
  · -- The row of a reserved tag is never the owner's.
    have hput := hf.putLabelRow (l := sharedLabel t) (.inr ⟨t, ht, rfl⟩)
    have hput' := hf'.putLabelRow (l := sharedLabel t) (.inr ⟨t, ht, rfl⟩)
    exact ⟨fun hmem => absurd hid (hput.ne_reserved hmem hk hne ht),
      fun hmem => absurd hid (hput'.ne_reserved hmem hk' hne ht)⟩
  · rw [mem_putLabelRow_of_ne hf.kept hid, mem_putLabelRow_of_ne hf'.kept hid]
    exact hsame k hk

theorem agree_putLabelRows (hne : owner ≠ shared)
    (hls : ∀ l ∈ ls, (l ∈ h.labels ∧ l.ownerId = owner) ∨ ∃ t ∈ Tag.reserved, l = sharedLabel t)
    (hsame : AgreeOn (FiledFor owner h.labels) R.labels R'.labels) :
    AgreeOn (FiledFor owner h.labels) (R.putLabelRows ls).labels (R'.putLabelRows ls).labels := by
  induction ls generalizing R R' with
  | nil => exact hsame
  | cons l ls ih =>
    have hrest : ∀ k ∈ ls, (k ∈ h.labels ∧ k.ownerId = owner) ∨ ∃ t ∈ Tag.reserved,
        k = sharedLabel t := fun k hk => hls k (List.mem_cons_of_mem l hk)
    rcases hls l List.mem_cons_self with ⟨hl, howner⟩ | ⟨t, ht, rfl⟩
    · have hl' : l ∈ h'.labels := (hh.labels l howner).mp hl
      exact ih (hf.putLabelRow (.inl hl)) (hf'.putLabelRow (.inl hl')) hrest
        (agree_putLabelRow hf hf' hl howner hsame)
    · have hstands {k : Holdings} : k.Stands (sharedLabel t) := .inr ⟨t, ht, rfl⟩
      exact ih (hf.putLabelRow hstands) (hf'.putLabelRow hstands) hrest
        (agree_putShared hf hf' hh hne ht hsame)

end Putting

theorem labels_putLabelRows :
    (R.putLabelRows ls).labels = ls.foldl (fun labels l => putLabelRow l labels) R.labels := by
  induction ls generalizing R with
  | nil => rfl
  | cons l ls ih => exact ih

theorem labels_put : (R.put m ls).labels = (R.putLabelRows ls).labels := by
  rw [put, labels_putLabelRows, labels_putLabelRows]

theorem Copied.mem_messages (hc : Copied m (h.labelsOf m) R R₁) (hk : R.Kept h) (ho : h.Orderly)
    (hapart : h.Apart) (hm : m ∈ h.messages) :
    r ∈ R₁.messages ↔ r = .ofMessage m ∨ (r.id ≠ m.id ∧ r ∈ R.messages) := by
  have hspares : Spares h m.id R R₁ := hc.spares hk ho hapart hm
  have hmir : R₁.Mirrors m (h.labelsOf m) := hc.mirrors hk ho hapart hm
  constructor
  · intro hr
    by_cases hid : r.id = m.id
    · exact .inl (List.inj_on_of_nodup_map hspares.kept.ids hr hmir.row hid)
    · exact .inr ⟨hid, (hspares.messages r hid).mp hr⟩
  · rintro (rfl | ⟨hid, hr⟩)
    · exact hmir.row
    · exact (hspares.messages r hid).mpr hr

/-- The labels of a message are its owner's or stand for reserved tags. -/
theorem Fitting.labelsOf (hf : Fitting g h R) (hm : m ∈ h.messages) (hl : l ∈ h.labelsOf m) :
    (l ∈ h.labels ∧ l.ownerId = m.ownerId) ∨ ∃ t ∈ Tag.reserved, l = sharedLabel t := by
  refine (hf.orderly.stands hm hl).imp_left fun hstored => ⟨hstored, ?_⟩
  have hlabel : g.label l.id = some l.ownerId := hf.covers.labels l hstored
  rcases hf.covers.allows hf.orderly hm hl with ⟨t, ht, hid⟩ | hallowed
  · exact absurd hid.symm (Owners.ne_of_label hlabel ht)
  · exact Option.some.inj (hlabel.symm.trans hallowed)

/-- A message of the owner's is copied to both in the same way. -/
theorem SameFor.copied (hsame : R.SameFor m.ownerId h.labels R') (hf : Fitting g h R)
    (hf' : Fitting g' h' R') (hh : h.SameFor m.ownerId h') (hne : m.ownerId ≠ shared)
    (hm : m ∈ h.messages) (hc : Copied m (h.labelsOf m) R R₁)
    (hc' : Copied m (h'.labelsOf m) R' R₁') : R₁.SameFor m.ownerId h.labels R₁' := by
  have hm' : m ∈ h'.messages := (hh.messages m rfl).mp hm
  have hlabels : h'.labelsOf m = h.labelsOf m := (hh.labelsOf hf.orderly rfl).symm
  have hapart : h.Apart := hf.covers.apart
  have hapart' : h'.Apart := hf'.covers.apart
  refine ⟨fun r hr => ?_, ?_, fun l hl => ?_⟩
  · rw [hc.mem_messages hf.kept hf.orderly hapart hm,
      hc'.mem_messages hf'.kept hf'.orderly hapart' hm', hsame.messages r hr]
  · rw [hc.labels_eq hf.kept hf.orderly hapart hm, hc'.labels_eq hf'.kept hf'.orderly hapart' hm',
      hlabels, labels_put, labels_put]
    exact agree_putLabelRows hf hf' hh hne (fun l hl => hf.labelsOf hm hl) hsame.labels
  · by_cases hid : l.messageId = m.id
    · rw [hc.links, hc'.links, if_pos hid, if_pos hid, hlabels]
    · obtain ⟨r, hr, howner, hrid⟩ := hl
      have hr : r ∈ R.messages := by
        rcases (hc.mem_messages hf.kept hf.orderly hapart hm).mp hr with rfl | ⟨-, hr⟩
        · exact absurd hrid.symm hid
        · exact hr
      rw [(hc.spares hf.kept hf.orderly hapart hm).links l hid,
        (hc'.spares hf'.kept hf'.orderly hapart' hm').links l hid]
      exact hsame.links l ⟨r, hr, howner, hrid⟩

/-- Writes within a scope that has nothing of the owner's leave the owner's part as it is. -/
theorem Beyond.sameFor (hb : Beyond s R R₁) (hf : Fitting g h R) (hf₁ : Fitting g h R₁)
    (hmessages : ∀ id, g.message id = some owner → ¬ s.messages id)
    (hlabels : ∀ i, g.label i = some owner → ¬ s.labels i) (hne : owner ≠ Replica.shared) :
    R.SameFor owner h.labels R₁ where
  messages r howner := by
    by_cases hid : s.messages r.id
    · have hnone {Q : Rows} (hfit : Fitting g h Q) : r ∉ Q.messages := fun hr =>
        hmessages r.id (howner ▸ hfit.parted.messages r hr) hid
      exact iff_of_false (hnone hf) (hnone hf₁)
    · exact (hb.messages r hid).symm
  labels k hk := by
    have hout {Q : Rows} (hfit : Fitting g h Q) (hmem : k ∈ Q.labels) : ¬ s.labels k.id :=
      hlabels k.id (hfit.label_eq hmem hk hne)
    exact ⟨fun hmem => (hb.labels k (hout hf hmem)).mpr hmem,
      fun hmem => (hb.labels k (hout hf₁ hmem)).mp hmem⟩
  links l hl := by
    obtain ⟨r, hr, howner, hid⟩ := hl
    refine (hb.links l (hmessages l.messageId ?_)).symm
    rw [← hid, ← howner]
    exact hf.parted.messages r hr

end Rows

end LabelMail.Replica
