/-!
Sorting by insertion. The order is given as the question whether one member may stand before
another; members that may stand either way keep the places they had.
-/
namespace LabelMail

variable {α β : Type}

/-- Puts a member before the first one that it may precede. -/
def insertBy (le : α → α → Bool) (a : α) : List α → List α
  | [] => [a]
  | b :: r => if le a b then a :: b :: r else b :: insertBy le a r

def sortBy (le : α → α → Bool) : List α → List α
  | [] => []
  | a :: r => insertBy le a (sortBy le r)

variable {le : α → α → Bool} {a b : α} {l : List α}

theorem insertBy_perm : (insertBy le a l).Perm (a :: l) := by
  induction l with
  | nil => exact .refl _
  | cons b r ih =>
    rw [insertBy]
    split
    · exact .refl _
    · exact (ih.cons b).trans (.swap a b r)

theorem sortBy_perm (l : List α) : (sortBy le l).Perm l := by
  induction l with
  | nil => exact .refl _
  | cons a r ih => exact insertBy_perm.trans (ih.cons a)

@[simp] theorem mem_sortBy : a ∈ sortBy le l ↔ a ∈ l :=
  (sortBy_perm l).mem_iff

theorem map_insertBy {f : α → β} {le' : β → β → Bool} (h : ∀ a b, le' (f a) (f b) = le a b) :
    (insertBy le a l).map f = insertBy le' (f a) (l.map f) := by
  induction l with
  | nil => rfl
  | cons b r ih =>
    rw [List.map_cons, insertBy, insertBy, h]
    split
    · rfl
    · rw [List.map_cons, ih]

/-- Sorting by an order on images is sorting the images. -/
theorem map_sortBy {f : α → β} {le' : β → β → Bool} (h : ∀ a b, le' (f a) (f b) = le a b) :
    (sortBy le l).map f = sortBy le' (l.map f) := by
  induction l with
  | nil => rfl
  | cons a r ih => rw [sortBy, map_insertBy h, ih, List.map_cons, sortBy]

end LabelMail
