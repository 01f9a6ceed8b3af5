import LabelMail.Calendar.Instant
import LabelMail.TagSet

/-!
Messages, labels, the people who exchange messages, and the addresses that are kept out. A message
belongs to the mailbox of its owner; of one delivery the sender and the recipient each own a copy.
The flags for read and starred messages are kept in step with the tags of these names.
-/
namespace LabelMail

structure Message where
  id : String
  senderId : String
  senderName : String
  recipientId : String
  recipientName : String
  recipientEmail : String
  subject : String
  content : String
  timestamp : Calendar.Instant
  ownerId : String
  read : Bool
  starred : Bool
  tags : TagSet
  deriving DecidableEq, Repr

namespace Message

/-- The text in which addresses are looked for. -/
def text (m : Message) : String :=
  m.subject ++ " " ++ m.content

def setTag (present : Bool) (t : Tag) (tags : TagSet) : TagSet :=
  if present then tags.insert t else tags.erase t

def flipStar (m : Message) : Message :=
  { m with starred := !m.starred, tags := setTag (!m.starred) .starred m.tags }

/-- Sets the flag and the tag, and says whether either was different before. -/
def setRead (m : Message) (read : Bool) : Message × Bool :=
  ({ m with read := read, tags := setTag read .read m.tags },
    m.read != read || decide (Tag.read ∈ m.tags) != read)

/-- Takes both flags from the tags. -/
def withFlagsOfTags (m : Message) : Message :=
  { m with starred := decide (Tag.starred ∈ m.tags), read := decide (Tag.read ∈ m.tags) }

def withTags (m : Message) (tags : TagSet) : Message :=
  { m with tags := tags }

end Message

/-- A name for a custom tag. An owner has no two labels whose names differ in letter case only. -/
structure Label where
  id : String
  ownerId : String
  name : String
  deriving DecidableEq, Repr

/-- A label together with the form of its name for display. -/
structure ShownLabel where
  label : Label
  displayName : String
  deriving DecidableEq, Repr

/-- The label of the replica with `labelId` is on its message with `messageId`. -/
structure Link where
  messageId : String
  labelId : String
  deriving DecidableEq, Repr

/-- An address of the blacklist with the times of its first and its last change. -/
structure Listing where
  url : String
  created : Calendar.Instant
  updated : Calendar.Instant
  deriving DecidableEq, Repr

structure User where
  id : String
  firstName : String
  lastName : String
  email : String
  deriving DecidableEq, Repr

def User.displayName (u : User) : String :=
  Text.trim (u.firstName ++ " " ++ u.lastName)

end LabelMail
