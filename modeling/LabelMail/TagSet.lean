import LabelMail.Sort
import LabelMail.Tag

/-!
Finite sets of tags and the rules for changing them. A set is kept as its ascending list, so that
two sets with the same members are equal. A message in spam carries no folder-like tag; putting a
message into spam drops them, and while it is there they are refused.
-/
namespace LabelMail

structure TagSet where
  toList : List Tag
  ascending : toList.Pairwise (· < ·)

namespace TagSet

instance : DecidableEq TagSet := fun s t =>
  decidable_of_iff (s.toList = t.toList) (by cases s; cases t; simp)

instance : Repr TagSet := ⟨fun s n => reprPrec s.toList n⟩

instance : Membership Tag TagSet := ⟨fun s t => t ∈ s.toList⟩

theorem mem_def {s : TagSet} {t : Tag} : t ∈ s ↔ t ∈ s.toList := Iff.rfl

instance (t : Tag) (s : TagSet) : Decidable (t ∈ s) :=
  inferInstanceAs (Decidable (t ∈ s.toList))

def insertSorted (t : Tag) : List Tag → List Tag
  | [] => [t]
  | u :: r => if t < u then t :: u :: r else if t = u then u :: r else u :: insertSorted t r

theorem mem_insertSorted {t u : Tag} {l : List Tag} :
    u ∈ insertSorted t l ↔ u = t ∨ u ∈ l := by
  induction l with
  | nil => simp [insertSorted]
  | cons v r ih => grind [insertSorted]

theorem insertSorted_ascending {t : Tag} {l : List Tag} (h : l.Pairwise (· < ·)) :
    (insertSorted t l).Pairwise (· < ·) := by
  induction l with
  | nil => simp [insertSorted]
  | cons u r ih =>
    obtain ⟨hu, hr⟩ := List.pairwise_cons.mp h
    rw [insertSorted]
    split
    next htu =>
      refine List.pairwise_cons.mpr ⟨fun v hv => ?_, h⟩
      rcases List.mem_cons.mp hv with rfl | hv
      · exact htu
      · exact Tag.lt_trans htu (hu v hv)
    next htu =>
      split
      · exact h
      next hne =>
        refine List.pairwise_cons.mpr ⟨fun v hv => ?_, ih hr⟩
        rcases mem_insertSorted.mp hv with rfl | hv
        · rcases Tag.lt_or_eq_or_gt v u with h | h | h
          · exact absurd h htu
          · exact absurd h hne
          · exact h
        · exact hu v hv

theorem eq_of_mem_iff_of_ascending {k l : List Tag} (hk : k.Pairwise (· < ·))
    (hl : l.Pairwise (· < ·)) (h : ∀ t, t ∈ k ↔ t ∈ l) : k = l := by
  induction k generalizing l with
  | nil => exact (List.eq_nil_iff_forall_not_mem.mpr fun t ht => by simpa using (h t).mpr ht).symm
  | cons a k ih =>
    cases l with
    | nil => simpa using (h a).mp List.mem_cons_self
    | cons b l =>
      obtain ⟨ha, hk'⟩ := List.pairwise_cons.mp hk
      obtain ⟨hb, hl'⟩ := List.pairwise_cons.mp hl
      have hab : a = b := by
        rcases List.mem_cons.mp ((h a).mp List.mem_cons_self) with h₁ | h₁
        · exact h₁
        rcases List.mem_cons.mp ((h b).mpr List.mem_cons_self) with h₂ | h₂
        · exact h₂.symm
        exact absurd (Tag.lt_trans (ha b h₂) (hb a h₁)) (Tag.lt_irrefl a)
      subst hab
      congr 1
      refine ih hk' hl' fun t => ⟨fun ht => ?_, fun ht => ?_⟩
      · rcases List.mem_cons.mp ((h t).mp (List.mem_cons_of_mem _ ht)) with rfl | ht'
        · exact absurd (ha t ht) (Tag.lt_irrefl t)
        · exact ht'
      · rcases List.mem_cons.mp ((h t).mpr (List.mem_cons_of_mem _ ht)) with rfl | ht'
        · exact absurd (hb t ht) (Tag.lt_irrefl t)
        · exact ht'

@[ext] theorem ext {s t : TagSet} (h : ∀ u, u ∈ s ↔ u ∈ t) : s = t := by
  obtain ⟨k, hk⟩ := s
  obtain ⟨l, hl⟩ := t
  obtain rfl : k = l := eq_of_mem_iff_of_ascending hk hl h
  rfl

def empty : TagSet := ⟨[], .nil⟩

instance : Inhabited TagSet := ⟨empty⟩

def insert (s : TagSet) (t : Tag) : TagSet :=
  ⟨insertSorted t s.toList, insertSorted_ascending s.ascending⟩

def filter (s : TagSet) (p : Tag → Bool) : TagSet :=
  ⟨s.toList.filter p, s.ascending.filter p⟩

def erase (s : TagSet) (t : Tag) : TagSet :=
  s.filter (· != t)

def ofList (l : List Tag) : TagSet :=
  l.foldl insert empty

def size (s : TagSet) : Nat := s.toList.length

def isEmpty (s : TagSet) : Bool := s.toList.isEmpty

def isSpam (s : TagSet) : Bool := decide (Tag.spam ∈ s)

@[simp] theorem not_mem_empty (t : Tag) : ¬ t ∈ empty := by
  simp [mem_def, empty]

@[simp] theorem mem_insert {s : TagSet} {t u : Tag} : u ∈ s.insert t ↔ u = t ∨ u ∈ s :=
  mem_insertSorted

@[simp] theorem mem_filter {s : TagSet} {p : Tag → Bool} {t : Tag} :
    t ∈ s.filter p ↔ t ∈ s ∧ p t = true :=
  List.mem_filter

@[simp] theorem mem_erase {s : TagSet} {t u : Tag} : u ∈ s.erase t ↔ u ∈ s ∧ u ≠ t := by
  simp [erase]

/-- The names of the members in ascending order. -/
def names (s : TagSet) : List String :=
  sortBy (fun a b => decide (a ≤ b)) (s.toList.map Tag.name)

/-- The tags that the texts spell; the first text that spells none decides the failure. -/
def ofNames (texts : List String) : Except Failure TagSet :=
  texts.foldlM (fun s text => (Tag.ofName text).map s.insert) empty

/-- Puts the message into spam. The folder-like tags that it loses come back in order. -/
def intoSpam (s : TagSet) : TagSet × List Tag :=
  ((s.filter fun t => !t.isFolderLike).insert .spam, s.toList.filter Tag.isFolderLike)

/-- Takes the message out of spam and says whether it was there. -/
def outOfSpam (s : TagSet) : TagSet × Bool :=
  (s.erase .spam, s.isSpam)

/-- Adds a tag under the rules and says whether the set changed. -/
def add (s : TagSet) (t : Tag) : Except Failure (TagSet × Bool) :=
  if t = .spam then .ok (s.intoSpam.1, !s.isSpam)
  else if t.isFolderLike && s.isSpam then
    .error (.conflict s!"message is marked as spam; unmark it before adding `{t.name}`")
  else .ok (s.insert t, !decide (t ∈ s))

/-- Removes a tag and says whether the set changed. -/
def remove (s : TagSet) (t : Tag) : TagSet × Bool :=
  (s.erase t, decide (t ∈ s))

/-- A message that nothing else places returns to the inbox. -/
def restoreInbox (s : TagSet) : TagSet :=
  if s.toList.any Tag.isPlacement then s else s.insert .inbox

/-- Moves the message into the archive or back, and says whether it is there afterwards. -/
def flipArchive (s : TagSet) : Except Failure (TagSet × Bool) :=
  if .archive ∈ s then .ok ((s.erase .archive).restoreInbox, false)
  else if s.isSpam then
    .error (.conflict "message is marked as spam; unmark it before archiving")
  else .ok ((s.erase .inbox).insert .archive, true)

/-- Moves the message into the trash or back, and says whether it is there afterwards. -/
def flipTrash (s : TagSet) : TagSet × Bool :=
  if .trash ∈ s then ((s.erase .trash).restoreInbox, false)
  else ((s.erase .inbox).insert .trash, true)

end TagSet

end LabelMail
