import LabelMail.Proofs.Replica.Series

/-!
Which labels the replica may have. A charter allows some labels, those of the reserved tags among
them. As long as only such labels are put and entered, the replica has no others, and every link
leads to a label that is there, since labels go with their links.
-/
namespace LabelMail.Replica

structure Charter where
  Allows : Label → Prop
  shared : ∀ t ∈ Tag.reserved, Allows (sharedLabel t)
  /-- A label may take the name of another with its id. -/
  renamed : ∀ {old l : Label}, Allows old → Allows l → old.id = l.id →
    Allows { old with name := l.name }

/-- Under this charter every label is allowed. -/
def Charter.free : Charter :=
  ⟨fun _ => True, fun _ _ => trivial, fun _ _ _ => trivial⟩

namespace Rows

/-- The labels are allowed and have ids of their own, and no link dangles. -/
structure Chartered (c : Charter) (R : Rows) : Prop where
  labelIds : (R.labels.map Label.id).Nodup
  allowed : ∀ l ∈ R.labels, c.Allows l
  known : ∀ l ∈ R.links, ∃ k ∈ R.labels, k.id = l.labelId

/-- One write to the replica, which asks nothing of messages. -/
inductive Edit (c : Charter) (R : Rows) : Rows → Prop
  | copy (r : Row) : Edit c R { R with messages := putRow r R.messages }
  | drop (id : String) : Edit c R (R.without id)
  | name {l : Label} (hl : c.Allows l) : Edit c R (R.putLabel l)
  | enter {l : Label} (hl : c.Allows l) (hfree : ∀ k ∈ R.labels, k.id ≠ l.id) :
      Edit c R (R.enterLabel l)
  | retire (i : String) : Edit c R (R.withoutLabel i)
  | clear (id : String) : Edit c R (R.clear id)
  | link {l : Link} (hknown : ∃ k ∈ R.labels, k.id = l.labelId) : Edit c R (R.link l)

variable {c : Charter} {R R' : Rows} {l : Label} {i : String}

theorem Chartered.putLabel (hc : R.Chartered c) (hl : c.Allows l) :
    (R.putLabel l).Chartered c where
  labelIds := nodup_putLabelRow hc.labelIds
  allowed k hk := by
    rcases (mem_putLabelRow hc.labelIds).mp hk with ⟨hk, -⟩ | ⟨old, hold, hid, rfl⟩ | ⟨rfl, -⟩
    · exact hc.allowed k hk
    · exact c.renamed (hc.allowed old hold) hl hid
    · exact hl
  known j hj := known_putLabelRow hc.labelIds (hc.known j hj)

theorem Chartered.enterLabel (hc : R.Chartered c) (hl : c.Allows l)
    (hfree : ∀ k ∈ R.labels, k.id ≠ l.id) : (R.enterLabel l).Chartered c where
  labelIds := nodup_enter hc.labelIds hfree
  allowed k hk := by
    rcases List.mem_append.mp hk with hk | hk
    · exact hc.allowed k hk
    · exact List.mem_singleton.mp hk ▸ hl
  known j hj := by
    obtain ⟨k, hk, hkj⟩ := hc.known j hj
    exact ⟨k, List.mem_append_left _ hk, hkj⟩

/-- A label is deleted with all links to it. -/
theorem Chartered.withoutLabel (hc : R.Chartered c) (i : String) :
    (R.withoutLabel i).Chartered c where
  labelIds := hc.labelIds.sublist (List.filter_sublist.map _)
  allowed k hk := hc.allowed k (List.mem_filter.mp hk).1
  known j hj := by
    obtain ⟨hj, hne⟩ := List.mem_filter.mp hj
    obtain ⟨k, hk, hkj⟩ := hc.known j hj
    exact ⟨k, List.mem_filter.mpr ⟨hk, hkj ▸ hne⟩, hkj⟩

theorem mem_link {j l : Link} (hj : j ∈ (R.link l).links) : j = l ∨ j ∈ R.links := by
  rw [link] at hj
  dsimp only at hj
  split at hj
  · exact .inr hj
  · exact (List.mem_append.mp hj).symm.imp_left List.mem_singleton.mp

theorem Edit.chartered (he : Edit c R R') (hc : R.Chartered c) : R'.Chartered c := by
  cases he with
  | copy r => exact ⟨hc.labelIds, hc.allowed, hc.known⟩
  | drop id =>
    exact ⟨hc.labelIds, hc.allowed, fun j hj => hc.known j (List.mem_filter.mp hj).1⟩
  | name hl => exact hc.putLabel hl
  | enter hl hfree => exact hc.enterLabel hl hfree
  | retire i => exact hc.withoutLabel i
  | clear id =>
    exact ⟨hc.labelIds, hc.allowed, fun j hj => hc.known j (List.mem_filter.mp hj).1⟩
  | link hknown =>
    refine ⟨hc.labelIds, hc.allowed, fun j hj => ?_⟩
    rcases mem_link hj with rfl | hj
    · exact hknown
    · exact hc.known j hj

theorem Chartered.edited (hc : R.Chartered c) (he : Relation.ReflTransGen (Edit c) R R') :
    R'.Chartered c := by
  induction he with
  | refl => exact hc
  | tail _ hedit ih => exact hedit.chartered ih

theorem chartered_empty (c : Charter) : Rows.empty.Chartered c :=
  ⟨.nil, fun _ hl => (List.not_mem_nil hl).elim, fun _ hl => (List.not_mem_nil hl).elim⟩

/-- No link leads to the label that is gone. -/
theorem ne_of_mem_withoutLabel {j : Link} (hj : j ∈ (R.withoutLabel i).links) : j.labelId ≠ i :=
  bne_iff_ne.mp (List.mem_filter.mp hj).2

end Rows

end LabelMail.Replica
