import LabelMail.Message

/-!
The columns of a message that both stores keep, its time in milliseconds. Rows are listed with the
newest first, and those of one time with the greatest id first.
-/
namespace LabelMail

structure Row where
  id : String
  ownerId : String
  senderId : String
  senderName : String
  recipientId : String
  recipientName : String
  recipientEmail : String
  subject : String
  content : String
  millis : Int
  read : Bool
  starred : Bool
  deriving DecidableEq, Repr

namespace Row

def ofMessage (m : Message) : Row :=
  { id := m.id, ownerId := m.ownerId, senderId := m.senderId, senderName := m.senderName,
    recipientId := m.recipientId, recipientName := m.recipientName,
    recipientEmail := m.recipientEmail, subject := m.subject, content := m.content,
    millis := m.timestamp.toMillis, read := m.read, starred := m.starred }

def message (r : Row) (tags : TagSet) : Message :=
  { id := r.id, ownerId := r.ownerId, senderId := r.senderId, senderName := r.senderName,
    recipientId := r.recipientId, recipientName := r.recipientName,
    recipientEmail := r.recipientEmail, subject := r.subject, content := r.content,
    timestamp := Calendar.Instant.ofMillis r.millis, read := r.read, starred := r.starred, tags }

def precedes (a b : Row) : Bool :=
  decide (b.millis < a.millis) || (a.millis == b.millis && decide (b.id ≤ a.id))

end Row

end LabelMail
