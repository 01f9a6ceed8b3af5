import LabelMail.Folder
import LabelMail.Replica.Basic
import LabelMail.Text.Title
import LabelMail.Text.Wildcard

/-!
What the replica shows. A message has the tags that the names of its linked labels spell; a name
that spells none is passed over. Labels come with the form of their name for display.
-/
namespace LabelMail.Replica

open Text

def showLabel (l : Label) : ShownLabel :=
  ⟨l, titleCase l.name⟩

/-- Labels are listed by name and those of equal name by id. -/
def labelPrecedes (a b : Label) : Bool :=
  decide (a.name < b.name) || (a.name == b.name && decide (a.id ≤ b.id))

def findLabel (id : String) : Query (Option ShownLabel) := do
  return (← select fun rows => rows.labels.find? (·.id == id)).map showLabel

/-- The owner's labels and the shared ones, with that of the inbox first. -/
def labelsOf (owner : String) : Query (List ShownLabel) := do
  let isInbox (l : Label) : Bool := l.id == Tag.inbox.name
  let visible ← select fun rows =>
    sortBy labelPrecedes (rows.labels.filter fun l => l.ownerId == owner || l.ownerId == shared)
  return (visible.filter isInbox ++ visible.filter fun l => !isInbox l).map showLabel

def Rows.isLinked (rows : Rows) (messageId labelId : String) : Bool :=
  rows.links.contains ⟨messageId, labelId⟩

/-- The labels that a message is linked to. -/
def Rows.labelsOn (rows : Rows) (messageId : String) : List Label :=
  sortBy labelPrecedes (rows.labels.filter fun l => rows.isLinked messageId l.id)

def tagsOfNames (names : List String) : TagSet :=
  .ofList (names.filterMap fun n => (Tag.ofName n).toOption)

def Rows.tagsOn (rows : Rows) (messageId : String) : TagSet :=
  tagsOfNames ((rows.labelsOn messageId).map Label.name)

def labelsOn (messageId : String) : Query (List ShownLabel) := do
  return (← select (·.labelsOn messageId)).map showLabel

/-- The links of a message in the order of their labels' ids. -/
def linksOf (messageId : String) : Query (List Link) :=
  select fun rows => sortBy (fun a b => decide (a.labelId ≤ b.labelId))
    (rows.links.filter (·.messageId == messageId))

/-- The links to a label in the order of their messages' ids. -/
def linksTo (labelId : String) : Query (List Link) :=
  select fun rows => sortBy (fun a b => decide (a.messageId ≤ b.messageId))
    (rows.links.filter (·.labelId == labelId))

/-- A message as the replica knows it, with the labels from which its tags come. -/
structure Copy where
  message : Message
  labels : List ShownLabel
  deriving DecidableEq, Repr

def find (id : String) : Query (Option Copy) := do
  match ← select fun rows => rows.messages.find? (·.id == id) with
  | none => return none
  | some row =>
    let labels ← labelsOn id
    return some ⟨row.message (tagsOfNames (labels.map (·.label.name))), labels⟩

def Rows.ownedBy (rows : Rows) (owner : String) : List Row :=
  sortBy Row.precedes (rows.messages.filter (·.ownerId == owner))

/-- The links of the owner's messages to labels, each as the message's id and the label's name. -/
def Rows.linkedNames (rows : Rows) (owner : String) : List (String × String) :=
  rows.links.flatMap fun link =>
    (rows.labels.filter (·.id == link.labelId)).flatMap fun label =>
      (rows.messages.filter fun r => r.id == link.messageId && r.ownerId == owner).map fun r =>
        (r.id, label.name)

/-- Puts the tag that the name spells, if any, among the tags of that message. -/
def addNamed (tags : String → TagSet) (id name : String) : String → TagSet :=
  match Tag.ofName name with
  | .ok t => fun key => if key = id then (tags key).insert t else tags key
  | .error _ => tags

/-- The tags of all messages of an owner, collected in one pass over their links. -/
def Rows.tagsOf (rows : Rows) (owner : String) : String → TagSet :=
  (rows.linkedNames owner).foldl (fun tags entry => addNamed tags entry.1 entry.2) fun _ => .empty

/-- The owner's messages, newest first. -/
def messagesOf (owner : String) : Query (List Message) := do
  let mine ← select (·.ownedBy owner)
  let tags ← select (·.tagsOf owner)
  return mine.map fun r => r.message (tags r.id)

def idsOf (owner : String) : Query (List String) :=
  select fun rows => sortBy (fun a b => decide (a ≤ b))
    ((rows.messages.filter (·.ownerId == owner)).map (·.id))

def messagesLinkedTo (owner labelId : String) : Query (List Message) := do
  let links ← linksTo labelId
  return (← messagesOf owner).filter fun m => links.any (·.messageId == m.id)

def messagesIn (owner : String) (f : Folder) : Query (List Message) := do
  return (← messagesOf owner).filter (f.holds · owner)

def rowContains (pattern : String) (r : Row) : Bool :=
  [r.subject, r.content, r.senderName, r.recipientEmail].any
    (Wildcard.matchesText (some '\\') pattern)

/-- The owner's messages that contain the query in subject, content, the sender's name or the
recipient's address. A pattern that is too long fails as soon as it is tried on a row. -/
def search (owner query : String) : Query (List Message) := do
  let pattern := Wildcard.containing query
  let hits ← onDatabase <| Database.statement (.database "") (fun _ => []) fun rows =>
    let mine := rows.ownedBy owner
    if Wildcard.tooLong pattern && !mine.isEmpty then .error .broken
    else .ok ((mine.filter (rowContains pattern)).map (·.id), rows)
  return (← messagesOf owner).filter fun m => hits.contains m.id

end LabelMail.Replica
