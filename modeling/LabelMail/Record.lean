import LabelMail.Calendar.Rfc3339
import LabelMail.Json.Parser
import LabelMail.Json.Printer
import LabelMail.Json.Shape
import LabelMail.Message

/-!
Messages, labels and the other things of a mailbox as JSON. A set of tags is the array of their
names, which is also the form in which the store keeps it.
-/
namespace LabelMail

open Json

def Tag.ofDoc (j : Doc) : Option Tag :=
  asText j >>= fun text => (Tag.ofName text).toOption

namespace TagSet

def toJson (s : TagSet) : Json String := .strings s.names

def ofDoc (j : Doc) : Option TagSet :=
  asList asText j >>= fun texts => (ofNames texts).toOption

/-- The text that the store keeps. -/
def encode (s : TagSet) : String := s.toJson.text

def decode (text : String) : Except Failure TagSet :=
  match parse (symbolsOfText text) >>= ofDoc with
  | some s => .ok s
  | none => .error (.json "")

end TagSet

def Calendar.Instant.ofDoc (j : Doc) : Option Calendar.Instant :=
  asText j >>= Calendar.Rfc3339.parse

namespace Message

def fieldNames : List String :=
  ["id", "senderId", "senderName", "recipientId", "recipientName", "recipientEmail", "subject",
    "content", "timestamp", "ownerId", "read", "starred", "labels"]

def toJson (m : Message) : Json String :=
  .object (fieldNames.zip [.string m.id, .string m.senderId, .string m.senderName,
    .string m.recipientId, .string m.recipientName, .string m.recipientEmail, .string m.subject,
    .string m.content, .string m.timestamp.text, .string m.ownerId, .bool m.read, .bool m.starred,
    m.tags.toJson])

def ofDoc (j : Doc) : Option Message := do
  match ← asRecord (fieldNames.map ([·])) j with
  | [id, senderId, senderName, recipientId, recipientName, recipientEmail, subject, content,
      timestamp, ownerId, read, starred, tags] =>
    return {
      id := ← required asText id
      senderId := ← required asText senderId
      senderName := ← required asText senderName
      recipientId := ← required asText recipientId
      recipientName := ← required asText recipientName
      recipientEmail := ← required asText recipientEmail
      subject := ← required asText subject
      content := ← required asText content
      timestamp := ← required Calendar.Instant.ofDoc timestamp
      ownerId := ← required asText ownerId
      read := ← required asBool read
      starred := ← required asBool starred
      tags := ← required TagSet.ofDoc tags }
  | _ => none

end Message

namespace ShownLabel

def toJson (l : ShownLabel) : Json String :=
  .object ([("id", .string l.label.id), ("ownerId", .string l.label.ownerId),
    ("name", .string l.label.name)] ++
      if l.displayName.isEmpty then [] else [("displayName", .string l.displayName)])

def ofDoc (j : Doc) : Option ShownLabel := do
  match ← asRecord [["id"], ["ownerId"], ["name"], ["displayName"]] j with
  | [id, ownerId, name, displayName] =>
    return ⟨⟨← required asText id, ← required asText ownerId, ← required asText name⟩,
      ← withDefault "" asText displayName⟩
  | _ => none

end ShownLabel

def Label.toJson (l : Label) : Json String :=
  ShownLabel.toJson ⟨l, ""⟩

namespace Link

def toJson (l : Link) : Json String :=
  .object [("messageId", .string l.messageId), ("labelId", .string l.labelId)]

def ofDoc (j : Doc) : Option Link := do
  match ← asRecord [["messageId"], ["labelId"]] j with
  | [messageId, labelId] => return ⟨← required asText messageId, ← required asText labelId⟩
  | _ => none

end Link

namespace User

def toJson (u : User) : Json String :=
  .object [("id", .string u.id), ("firstName", .string u.firstName),
    ("lastName", .string u.lastName), ("email", .string u.email)]

def ofDoc (j : Doc) : Option User := do
  match ← asRecord [["id"], ["firstName"], ["lastName"], ["email"]] j with
  | [id, firstName, lastName, email] =>
    return ⟨← required asText id, ← required asText firstName, ← required asText lastName,
      ← required asText email⟩
  | _ => none

end User

namespace Listing

def toJson (l : Listing) : Json String :=
  .object [("url", .string l.url), ("createdAt", .string l.created.text),
    ("updatedAt", .string l.updated.text)]

def ofDoc (j : Doc) : Option Listing := do
  match ← asRecord [["url"], ["createdAt"], ["updatedAt"]] j with
  | [url, created, updated] =>
    return ⟨← required asText url, ← required Calendar.Instant.ofDoc created,
      ← required Calendar.Instant.ofDoc updated⟩
  | _ => none

end Listing

end LabelMail
