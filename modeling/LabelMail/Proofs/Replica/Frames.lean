import LabelMail.Proofs.Replica.Repeats
import LabelMail.Proofs.Replica.Series

/-!
What a write leaves of what is shown. A message is shown with its row and with the labels that it is
linked to. Writes to the rows and the links of other messages leave it as it was, and so does a put
of a label that the message is not linked to.
-/
namespace LabelMail.Replica.Rows

variable {R R' : Rows} {l : Label} {id i : String}

theorem mem_labelsOn : l ∈ R.labelsOn id ↔ l ∈ R.labels ∧ ⟨id, l.id⟩ ∈ R.links := by
  simp [labelsOn, isLinked_iff]

/-- What is shown of a message depends on its row and on the labels that it is linked to. -/
theorem shown?_congr
    (hrow : R'.messages.find? (·.id == id) = R.messages.find? (·.id == id))
    (hlinks : ∀ i, ⟨id, i⟩ ∈ R'.links ↔ ⟨id, i⟩ ∈ R.links)
    (hlabels : (R'.labels.filter fun l => R.isLinked id l.id) =
      R.labels.filter fun l => R.isLinked id l.id) : R'.shown? id = R.shown? id := by
  have hlinked : ∀ l : Label, R'.isLinked id l.id = R.isLinked id l.id := fun l => by
    rw [Bool.eq_iff_iff, isLinked_iff, isLinked_iff]
    exact hlinks l.id
  have hon : R'.labelsOn id = R.labelsOn id := by
    simp only [labelsOn, hlinked]
    rw [hlabels]
  simp only [shown?, tagsOn, hrow, hon]

theorem shown?_putRow {r : Row} (hne : r.id ≠ id) :
    shown? { R with messages := putRow r R.messages } id = R.shown? id := by
  have hrows : ((putRow r R.messages).filter (·.id == id)) = R.messages.filter (·.id == id) := by
    rw [putRow_eq]
    exact filter_putKeyed (fun _ => rfl) fun b hb => by simpa [hb] using hne
  refine shown?_congr ?_ (fun _ => Iff.rfl) rfl
  rw [← List.head?_filter, ← List.head?_filter, hrows]

theorem shown?_putLabel (hfree : ⟨id, l.id⟩ ∉ R.links) :
    (R.putLabel l).shown? id = R.shown? id := by
  refine shown?_congr rfl (fun _ => Iff.rfl) ?_
  rw [putLabel, putLabelRow_eq]
  refine filter_putKeyed (fun _ => rfl) fun k hk => ?_
  rw [Bool.eq_false_iff, Ne, isLinked_iff, hk]
  exact hfree

theorem shown?_enterLabel (hfree : ⟨id, l.id⟩ ∉ R.links) :
    (R.enterLabel l).shown? id = R.shown? id := by
  refine shown?_congr rfl (fun _ => Iff.rfl) ?_
  have hlinked : R.isLinked id l.id = false := by
    rw [Bool.eq_false_iff, Ne, isLinked_iff]
    exact hfree
  simp [enterLabel, hlinked]

theorem shown?_clear (hne : i ≠ id) : (R.clear i).shown? id = R.shown? id :=
  shown?_congr rfl (fun _ => by simp [clear, hne.symm]) rfl

theorem shown?_link {j : Link} (hne : j.messageId ≠ id) : (R.link j).shown? id = R.shown? id := by
  refine shown?_congr rfl (fun i => ?_) rfl
  have hij : (⟨id, i⟩ : Link) ≠ j := fun h => hne (h ▸ rfl)
  rw [link]
  split
  · exact Iff.rfl
  · simp [hij]

theorem shown?_without (hne : i ≠ id) : (R.without i).shown? id = R.shown? id := by
  refine shown?_congr ?_ (fun _ => by simp [without, hne.symm]) rfl
  rw [without, List.find?_filter]
  refine congrArg (List.find? · R.messages) (funext fun r => ?_)
  by_cases hid : r.id = id
  · simp [hid, hne.symm]
  · simp [hid]

end LabelMail.Replica.Rows
