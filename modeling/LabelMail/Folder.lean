import LabelMail.Message

/-!
Folders, the views of a mailbox that its listings show. A folder is not stored: whether a message
lies in it follows from the tags of the message, its owner, and for some folders its sender or
recipient.
-/
namespace LabelMail

inductive Folder where
  | inbox
  | sent
  | drafts
  | spam
  | trash
  | archive
  | starred
  | custom (name : String)
  deriving DecidableEq, Repr

namespace Folder

def tag : Folder → Tag
  | inbox => .inbox
  | sent => .sent
  | drafts => .drafts
  | spam => .spam
  | trash => .trash
  | archive => .archive
  | starred => .starred
  | custom name => .custom name

/-- Every tag has a folder; that of the tag for read messages counts as the owner's. -/
def ofTag : Tag → Folder
  | .inbox => inbox
  | .sent => sent
  | .drafts => drafts
  | .spam => spam
  | .trash => trash
  | .archive => archive
  | .starred => starred
  | .read => custom "read"
  | .custom name => custom name

def ofName (text : String) : Except Failure Folder :=
  (Tag.ofName text).map ofTag

def name (f : Folder) : String := f.tag.name

/-- Whether the message lies in this folder of the mailbox of `viewer`. -/
def holds (f : Folder) (m : Message) (viewer : String) : Bool :=
  m.ownerId == viewer &&
  match f with
  | inbox =>
    decide (.inbox ∈ m.tags ∧ .spam ∉ m.tags ∧ .trash ∉ m.tags ∧ .archive ∉ m.tags)
  | spam => decide (.spam ∈ m.tags) && m.recipientId == viewer
  | sent => decide (.sent ∈ m.tags ∧ .trash ∉ m.tags) && m.senderId == viewer
  | drafts => decide (.drafts ∈ m.tags) && m.senderId == viewer
  | trash => decide (.trash ∈ m.tags)
  | archive | starred | custom _ => decide (f.tag ∈ m.tags ∧ .trash ∉ m.tags)

end Folder

namespace TagSet

/-- The reserved tags that decide the folder of a message, the strongest first. -/
def deciding : List Tag :=
  [.trash, .spam, .drafts, .sent, .archive, .inbox]

def customNames (s : TagSet) : List String :=
  s.toList.filterMap fun
    | .custom name => some name
    | _ => none

/-- The one folder that a message is reported in; without a deciding tag it is that of the first
custom name. -/
def mainFolder? (s : TagSet) : Option Folder :=
  match deciding.find? (fun t => decide (t ∈ s)) with
  | some t => some (Folder.ofTag t)
  | none => s.customNames.head?.map Folder.custom

end TagSet

end LabelMail
