import LabelMail.Row
import LabelMail.Sort

/-!
The order of a listing. Rows with different ids have exactly one order, so that a listing does not
depend on the order in which the rows are kept.
-/
namespace LabelMail

section Sorting

variable {α : Type} {le : α → α → Bool} {a : α} {l l' : List α}

theorem pairwise_insertBy (htrans : ∀ a b c, le a b → le b c → le a c)
    (htotal : ∀ a b, le a b ∨ le b a) (hl : l.Pairwise (le · ·)) :
    (insertBy le a l).Pairwise (le · ·) := by
  induction l with
  | nil => exact List.pairwise_singleton _ _
  | cons b l ih =>
    obtain ⟨hb, hrest⟩ := List.pairwise_cons.mp hl
    rw [insertBy]
    split
    · next hab =>
      refine List.pairwise_cons.mpr ⟨fun c hc => ?_, hl⟩
      rcases List.mem_cons.mp hc with rfl | hc
      · exact hab
      · exact htrans a b c hab (hb c hc)
    · next hab =>
      refine List.pairwise_cons.mpr ⟨fun c hc => ?_, ih hrest⟩
      rcases List.mem_cons.mp (insertBy_perm.mem_iff.mp hc) with rfl | hc
      · exact (htotal c b).resolve_left hab
      · exact hb c hc

theorem pairwise_sortBy (htrans : ∀ a b c, le a b → le b c → le a c)
    (htotal : ∀ a b, le a b ∨ le b a) : (sortBy le l).Pairwise (le · ·) := by
  induction l with
  | nil => exact .nil
  | cons a l ih => exact pairwise_insertBy htrans htotal ih

theorem pairwise_sortBy_text (l : List String) :
    (sortBy (fun a b => decide (a ≤ b)) l).Pairwise (· ≤ ·) := by
  refine (pairwise_sortBy (fun a b c hab hbc => ?_) fun a b => ?_).imp of_decide_eq_true
  · exact decide_eq_true (String.le_trans (of_decide_eq_true hab) (of_decide_eq_true hbc))
  · simpa using String.le_total a b

/-- If different members are never in both orders, the sorted list does not depend on the order of
the given one. -/
theorem sortBy_eq_of_perm (htrans : ∀ a b c, le a b → le b c → le a c)
    (htotal : ∀ a b, le a b ∨ le b a)
    (hanti : ∀ a ∈ l, ∀ b ∈ l, le a b → le b a → a = b) (hperm : l.Perm l') :
    sortBy le l = sortBy le l' := by
  have hsorted : (sortBy le l).Perm (sortBy le l') :=
    (sortBy_perm l).trans (hperm.trans (sortBy_perm l').symm)
  refine hsorted.eq_of_pairwise (fun a b ha hb => ?_) (pairwise_sortBy htrans htotal)
    (pairwise_sortBy htrans htotal)
  exact hanti a (mem_sortBy.mp ha) b (hperm.mem_iff.mpr (mem_sortBy.mp hb))

theorem sublist_insertBy : l.Sublist (insertBy le a l) := by
  induction l with
  | nil => exact List.nil_sublist _
  | cons b l ih =>
    rw [insertBy]
    split
    · exact List.sublist_cons_self a (b :: l)
    · exact ih.cons_cons b

/-- Sorting more members leaves the others in their order. -/
theorem sortBy_sublist_append : (sortBy le l).Sublist (sortBy le (l' ++ l)) := by
  induction l' with
  | nil => exact .refl _
  | cons a l' ih => exact ih.trans sublist_insertBy

end Sorting

namespace Row

variable {a b c : Row}

theorem precedes_iff :
    a.precedes b ↔ b.millis < a.millis ∨ (a.millis = b.millis ∧ b.id ≤ a.id) := by
  simp [precedes]

theorem precedes_trans (hab : a.precedes b) (hbc : b.precedes c) : a.precedes c := by
  rw [precedes_iff] at *
  rcases hab with hab | ⟨hab, hid⟩ <;> rcases hbc with hbc | ⟨hbc, hid'⟩
  · exact .inl (Int.lt_trans hbc hab)
  · exact .inl (hbc ▸ hab)
  · exact .inl (hab ▸ hbc)
  · exact .inr ⟨hab.trans hbc, String.le_trans hid' hid⟩

theorem precedes_total (a b : Row) : a.precedes b ∨ b.precedes a := by
  rw [precedes_iff, precedes_iff]
  rcases Int.lt_trichotomy a.millis b.millis with hlt | heq | hgt
  · exact .inr (.inl hlt)
  · exact (String.le_total b.id a.id).imp (fun h => .inr ⟨heq, h⟩) fun h => .inr ⟨heq.symm, h⟩
  · exact .inl (.inl hgt)

theorem id_eq_of_precedes (hab : a.precedes b) (hba : b.precedes a) : a.id = b.id := by
  rw [precedes_iff] at *
  rcases hab with hab | ⟨hab, hid⟩ <;> rcases hba with hba | ⟨hba, hid'⟩
  · omega
  · omega
  · omega
  · exact String.le_antisymm hid' hid

end Row

end LabelMail
