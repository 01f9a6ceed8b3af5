import LabelMail.Folder
import LabelMail.Primary.Basic
import LabelMail.Text.Wildcard

/-!
Messages in the primary store: inserting, reading, changing and deleting them, the listings of a
mailbox, which show the newest message first, and the search in subject and content.
-/
namespace LabelMail.Primary

open Database Text

def hasMessage (rows : Rows) (id : String) : Bool :=
  rows.messages.any (·.id == id)

def insertMessage (m : Message) : Query Unit :=
  statement (.database "") (fun _ => [.insertMessage m.ownerId]) fun rows =>
    if hasMessage rows m.id then .error .duplicate
    else .ok ((), { rows with messages := rows.messages ++ [.ofMessage m] })

/-- Inserts two messages or neither. -/
def insertPair (first second : Message) : Query Unit :=
  transaction do
    insertMessage first
    insertMessage second

def findMessage (id : String) : Query (Option Message) := do
  match ← select fun rows => rows.messages.find? (·.id == id) with
  | some row => some <$> MonadExcept.ofExcept row.message
  | none => return none

def noMessage (id : String) : Failure :=
  .notFound s!"message {id}"

/-- The message of that id, provided that it is the owner's. -/
def ownMessage (id owner : String) : Query Message := do
  match ← findMessage id with
  | some m => if m.ownerId = owner then return m else throw (noMessage id)
  | none => throw (noMessage id)

/-- Applies a change to the row with that id, if there is one, and counts the rows changed. -/
def changeRow (id : String) (f : MessageRow → MessageRow) : Query Nat :=
  modifyRows (fun rows => if hasMessage rows id then [.updateMessage id] else []) fun rows =>
    (rows.messages.countP (·.id == id),
      { rows with messages := rows.messages.map fun r => if r.id = id then f r else r })

/-- Stores the tags and the flags of a message. -/
def saveTags (m : Message) : Query Unit :=
  discard (changeRow m.id fun r =>
    { r with tags := m.tags.encode, read := m.read, starred := m.starred })

def saveAllTags (ms : List Message) : Query Unit :=
  transaction (ms.forM saveTags)

/-- Stores subject, content and time of a message. -/
def saveContent (m : Message) : Query Unit := do
  let changed ← changeRow m.id fun r =>
    { r with subject := m.subject, content := m.content, millis := m.timestamp.toMillis }
  if changed = 0 then throw (noMessage m.id)

def deleteOwn (id owner : String) : Query Unit := do
  let isTarget (r : MessageRow) : Bool := r.id == id && r.ownerId == owner
  let deleted ← modifyRows
    (fun rows => if rows.messages.any isTarget then [.deleteMessage id] else [])
    fun rows => (rows.messages.countP isTarget,
      { rows with messages := rows.messages.filter (fun r => !isTarget r) })
  if deleted = 0 then throw (noMessage id)

def rowsOf (owner : String) (rows : Rows) : List MessageRow :=
  sortBy (fun a b => a.toRow.precedes b.toRow) (rows.messages.filter (·.ownerId == owner))

def messagesOf (owner : String) : Query (List Message) := do
  let rows ← select (rowsOf owner)
  rows.mapM fun r => MonadExcept.ofExcept r.message

def idsOf (owner : String) : Query (List String) :=
  select fun rows => (rows.messages.filter (·.ownerId == owner)).map (·.id)

def messagesIn (owner : String) (f : Folder) : Query (List Message) := do
  return (← messagesOf owner).filter (f.holds · owner)

def MessageRow.contains (r : MessageRow) (pattern : String) : Bool :=
  Wildcard.matchesText (some '\\') pattern r.subject ||
    Wildcard.matchesText (some '\\') pattern r.content

/-- The owner's messages whose subject or content contains the query, newest first. A pattern that
is too long fails as soon as it is tried on a row. -/
def search (owner query : String) (f : Option Folder) : Query (List Message) := do
  let pattern := Wildcard.containing query
  let rows ← statement (.database "") (fun _ => []) fun rows =>
    let mine := rowsOf owner rows
    if Wildcard.tooLong pattern && !mine.isEmpty then .error .broken
    else .ok (mine.filter (·.contains pattern), rows)
  let messages ← rows.mapM fun r => MonadExcept.ofExcept r.message
  match f with
  | some f => return messages.filter (f.holds · owner)
  | none => return messages

def trashedIds (owner : String) : Query (List String) := do
  return ((← messagesOf owner).filter (fun m => decide (.trash ∈ m.tags))).map (·.id)

/-- Deletes the message if it is the owner's and still in the trash. -/
def deleteIfTrashed (owner id : String) : Query (Option String) := do
  let isTarget (r : MessageRow) : Bool := r.id == id && r.ownerId == owner
  match ← select fun rows => rows.messages.find? isTarget with
  | none => return none
  | some row =>
    let m ← MonadExcept.ofExcept row.message
    if .trash ∈ m.tags then
      modifyRows (fun rows => if hasMessage rows id then [.deleteMessage id] else []) fun rows =>
        ((), { rows with messages := rows.messages.filter (·.id != id) })
      return some m.id
    else return none

/-- Deletes those of the messages that are the owner's and in the trash, all or none, and says which
they were. -/
def deleteTrashed (owner : String) (ids : List String) : Query (List String) :=
  transaction do
    return (← ids.mapM (deleteIfTrashed owner)).reduceOption

end LabelMail.Primary
