/-!
The members of a list without repetitions, each at the place of its first occurrence.
-/
namespace LabelMail

def distinct [DecidableEq α] : List α → List α
  | [] => []
  | a :: r => a :: (distinct r).filter (· ≠ a)

variable [DecidableEq α]

@[simp] theorem mem_distinct {a : α} {l : List α} : a ∈ distinct l ↔ a ∈ l := by
  induction l with
  | nil => simp [distinct]
  | cons b r ih => by_cases h : a = b <;> simp [distinct, ih, h]

theorem nodup_distinct (l : List α) : (distinct l).Nodup := by
  induction l with
  | nil => exact .nil
  | cons b r ih =>
    refine List.nodup_cons.mpr ⟨by simp, ih.filter _⟩

theorem distinct_of_nodup {l : List α} (h : l.Nodup) : distinct l = l := by
  induction l with
  | nil => rfl
  | cons b r ih =>
    obtain ⟨hb, hr⟩ := List.nodup_cons.mp h
    rw [distinct, ih hr, List.filter_eq_self.mpr]
    intro a ha
    simpa using fun e : a = b => hb (e ▸ ha)

end LabelMail
