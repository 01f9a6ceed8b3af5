import LabelMail.Failure
import LabelMail.Text.Blank

/-!
Tags, the marks that a message carries. Eight tags are reserved and have a meaning of their own; all
others are named by the mailbox's owner. Tags are ordered with the reserved ones first, in the order
of their declaration, and the owner's by name.
-/
namespace LabelMail

inductive Tag where
  | inbox
  | sent
  | drafts
  | spam
  | trash
  | archive
  | starred
  | read
  | custom (name : String)
  deriving DecidableEq, Repr

namespace Tag

def name : Tag → String
  | inbox => "inbox"
  | sent => "sent"
  | drafts => "drafts"
  | spam => "spam"
  | trash => "trash"
  | archive => "archive"
  | starred => "starred"
  | read => "read"
  | custom name => name

def reserved : List Tag :=
  [inbox, sent, drafts, spam, trash, archive, starred, read]

def isReserved : Tag → Bool
  | custom _ => false
  | _ => true

/-- Either spelling of the inbox counts in any letter case. -/
def namesInbox (name : String) : Bool :=
  ["inbox", "primary"].any fun spelling => name.toList.map Char.toLower == spelling.toList

/-- The tag of a name without blanks around it. -/
def ofTrimmed (name : String) : Tag :=
  if namesInbox name then inbox
  else (reserved.find? fun t => t.name == name).getD (custom name)

/-- The tag that a text spells; a blank text spells none. -/
def ofName (text : String) : Except Failure Tag :=
  let name := Text.trim text
  if name.isEmpty then .error (.invalid "label must be a non-empty string")
  else .ok (ofTrimmed name)

/-- The owner's tags that stand for a part of the inbox. -/
def inboxLike : List String := ["promotions", "social", "updates", "important"]

/-- The tags that a message in spam does not carry. -/
def isFolderLike : Tag → Bool
  | inbox | drafts | sent | archive => true
  | custom name => inboxLike.contains name
  | spam | trash | starred | read => false

/-- The tags that put a message somewhere else than into the inbox. -/
def isPlacement : Tag → Bool
  | sent | drafts | spam | trash | archive => true
  | _ => false

def rank : Tag → Nat
  | inbox => 0
  | sent => 1
  | drafts => 2
  | spam => 3
  | trash => 4
  | archive => 5
  | starred => 6
  | read => 7
  | custom _ => 8

instance : LT Tag where
  lt a b := a.rank < b.rank ∨ (a.rank = b.rank ∧ a.name < b.name)

theorem lt_def {a b : Tag} : a < b ↔ a.rank < b.rank ∨ (a.rank = b.rank ∧ a.name < b.name) :=
  Iff.rfl

instance (a b : Tag) : Decidable (a < b) :=
  inferInstanceAs (Decidable (a.rank < b.rank ∨ (a.rank = b.rank ∧ a.name < b.name)))

theorem eq_of_rank_name {a b : Tag} (hr : a.rank = b.rank) (hn : a.name = b.name) : a = b := by
  cases a <;> cases b <;> simp_all [rank, name]

theorem lt_irrefl (a : Tag) : ¬ a < a := by
  rw [lt_def]
  rintro (h | ⟨-, h⟩)
  · exact Nat.lt_irrefl _ h
  · exact String.lt_irrefl _ h

theorem lt_trans {a b c : Tag} (hab : a < b) (hbc : b < c) : a < c := by
  rw [lt_def] at *
  rcases hab with h | ⟨h, k⟩ <;> rcases hbc with h' | ⟨h', k'⟩
  · exact .inl (Nat.lt_trans h h')
  · exact .inl (h' ▸ h)
  · exact .inl (h ▸ h')
  · exact .inr ⟨h.trans h', String.lt_trans k k'⟩

theorem lt_or_eq_or_gt (a b : Tag) : a < b ∨ a = b ∨ b < a := by
  rcases Nat.lt_trichotomy a.rank b.rank with h | h | h
  · exact .inl (.inl h)
  · by_cases hn : a.name < b.name
    · exact .inl (.inr ⟨h, hn⟩)
    · by_cases hn' : b.name < a.name
      · exact .inr (.inr (.inr ⟨h.symm, hn'⟩))
      · exact .inr (.inl (eq_of_rank_name h (String.le_antisymm hn' hn)))
  · exact .inr (.inr (.inl h))

end Tag

end LabelMail
