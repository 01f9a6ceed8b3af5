import LabelMail.Mailroom.Refresh
import LabelMail.Request

/-!
Sending mail and writing drafts. What is sent becomes two messages, one for the sender and one for
the recipient, stored together or not at all, and only after the screening has said where the
recipient's goes.
-/
namespace LabelMail.Mailroom

open Request (Compose DraftEdit)

variable {σ : Type}

/-- The text of a field that may be neither missing nor blank, trimmed. -/
def required (field : String) (value : Option String) : Except Failure String :=
  match value.map Text.trim with
  | some v => if v.isEmpty then .error (.invalid s!"{field} is required") else .ok v
  | none => .error (.invalid s!"{field} is required")

def trimmed (value : Option String) : String :=
  (value.map Text.trim).getD ""

/-- A user of the directory; `missing` is reported when there is none of that id. -/
def person (id missing : String) : Action σ User := do
  match ← onPrimary (Primary.findUser id) with
  | some u => return u
  | none => throw (.invalid missing)

def sender (id : String) : Action σ User := person id "Sender not found"

def recipient (id : String) : Action σ User := person id "Recipient not found"

/-- A new message, neither read nor starred, with a fresh id. -/
def newMessage (src dest : User) (subject content ownerId : String) (tags : TagSet) :
    Action σ Message := do
  return { id := ← drawId, senderId := src.id, senderName := src.displayName,
           recipientId := dest.id, recipientName := dest.displayName, recipientEmail := dest.email,
           subject, content, timestamp := ← time, ownerId, read := false, starred := false, tags }

structure Delivery where
  senderCopy : Message
  recipientCopy : Message
  deriving DecidableEq, Repr

/-- The tags for a new message. A request that was withdrawn by the end of the screening fails. -/
def screen (subject content : String) (withdrawn : Bool) : Action σ TagSet :=
  screening fun ask rules room =>
    let v := Screening.classify ask rules subject content withdrawn room
    (v.tags >>= fun tags => if v.withdrawn then .error .cancelled else .ok tags, v.state)

/-- Stores a message for each of the two and copies both into the replica. -/
def deliver (src dest : User) (subject content : String) (tags : TagSet) : Action σ Delivery := do
  let recipientCopy ← newMessage src dest subject content dest.id tags
  let senderCopy :=
    { recipientCopy with id := ← drawId, ownerId := src.id, tags := .ofList [.sent] }
  onPrimary (Primary.insertPair senderCopy recipientCopy)
  refreshAll [senderCopy, recipientCopy]
  return ⟨senderCopy, recipientCopy⟩

def send (caller : String) (c : Compose) (withdrawn : Bool) : Action σ Delivery := do
  let name ← MonadExcept.ofExcept (required "to" c.recipient)
  let subject ← MonadExcept.ofExcept (required "subject" c.subject)
  let content ← MonadExcept.ofExcept (required "content" c.content)
  let src ← sender caller
  let dest ← recipient name
  deliver src dest subject content (← screen subject content withdrawn)

def saveDraft (caller : String) (c : Compose) : Action σ Message := do
  if c.recipient.isNone && c.subject.isNone && c.content.isNone then
    throw (.invalid "Draft is empty")
  let name ← MonadExcept.ofExcept (required "to" c.recipient)
  let src ← sender caller
  let dest ← recipient name
  let draft ← newMessage src dest (trimmed c.subject) (trimmed c.content) src.id (.ofList [.drafts])
  onPrimary (Primary.insertMessage draft)
  refreshQuietly draft.id
  return draft

/-- The new text of a field, unless it is missing or blank. -/
def edited (old : String) (new : Option String) : String :=
  match new.map Text.trim with
  | some v => if v.isEmpty then old else v
  | none => old

def changeDraft (caller id : String) (e : DraftEdit) : Action σ Message :=
  onPrimary do
    let draft ← Primary.ownMessage id caller
    if .drafts ∉ draft.tags then throw (.invalid "only drafts can be edited")
    let draft :=
      { draft with
        subject := edited draft.subject e.subject
        content := edited draft.content e.content }
    Primary.saveContent draft
    return draft

def editDraft (caller id : String) (e : DraftEdit) : Action σ Message := do
  let draft ← changeDraft caller id e
  refreshQuietly id
  return draft

end LabelMail.Mailroom
