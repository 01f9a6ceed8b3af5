import LabelMail.Disk.Basic

/-!
Databases as the bytes of a file. A file of a database holds one JSON object with the tables of each
store that were laid out; rows are arrays of their columns.
-/
namespace LabelMail

open Json

def Json.int (n : Int) : Json τ := .number (toString n)

def Json.asInt : Doc → Option Int
  | .number literal => literal.toInt?
  | _ => none

namespace Row

def toJson (r : Row) : Json String :=
  .array [.string r.id, .string r.ownerId, .string r.senderId, .string r.senderName,
    .string r.recipientId, .string r.recipientName, .string r.recipientEmail, .string r.subject,
    .string r.content, .int r.millis, .bool r.read, .bool r.starred]

def ofDoc : Doc → Option Row
  | .array [id, ownerId, senderId, senderName, recipientId, recipientName, recipientEmail, subject,
      content, millis, read, starred] => do
    return ⟨← asText id, ← asText ownerId, ← asText senderId, ← asText senderName,
      ← asText recipientId, ← asText recipientName, ← asText recipientEmail, ← asText subject,
      ← asText content, ← asInt millis, ← asBool read, ← asBool starred⟩
  | _ => none

end Row

namespace Primary

def MessageRow.toJson (r : MessageRow) : Json String :=
  .array [r.toRow.toJson, .string r.tags]

def MessageRow.ofDoc : Doc → Option MessageRow
  | .array [row, tags] => do return { ← Row.ofDoc row with tags := ← asText tags }
  | _ => none

def ListingRow.toJson (r : ListingRow) : Json String :=
  .array [.string r.url, .int r.created, .int r.updated]

def ListingRow.ofDoc : Doc → Option ListingRow
  | .array [url, created, updated] => do
    return ⟨← asText url, ← asInt created, ← asInt updated⟩
  | _ => none

def Rows.toJson (rows : Rows) : Json String :=
  .array [.array (rows.users.map User.toJson), .array (rows.messages.map MessageRow.toJson),
    .array (rows.labels.map Label.toJson),
    match rows.blacklist with
    | some listings => .array (listings.map ListingRow.toJson)
    | none => .null]

def Rows.ofDoc : Doc → Option Rows
  | .array [users, messages, labels, listings] => do
    return ⟨← asList User.ofDoc users, ← asList MessageRow.ofDoc messages,
      (← asList ShownLabel.ofDoc labels).map (·.label),
      ← asOptional (asList ListingRow.ofDoc) listings⟩
  | _ => none

end Primary

namespace Replica

def Rows.toJson (rows : Rows) : Json String :=
  .array [.array (rows.messages.map Row.toJson), .array (rows.labels.map Label.toJson),
    .array (rows.links.map Link.toJson)]

def Rows.ofDoc : Doc → Option Rows
  | .array [messages, labels, links] => do
    return ⟨← asList Row.ofDoc messages, (← asList ShownLabel.ofDoc labels).map (·.label),
      ← asList Link.ofDoc links⟩
  | _ => none

end Replica

namespace Disk

def Tables.toJson (t : Tables) : Json String :=
  .object [("primary", (t.primary.map Primary.Rows.toJson).getD .null),
    ("replica", (t.replica.map Replica.Rows.toJson).getD .null)]

def Tables.ofDoc (j : Doc) : Option Tables := do
  match ← asRecord [["primary"], ["replica"]] j with
  | [some primary, some replica] =>
    return ⟨← asOptional Primary.Rows.ofDoc primary, ← asOptional Replica.Rows.ofDoc replica⟩
  | _ => none

def Content.toBytes : Content → List UInt8
  | bytes content => content
  | database tables => Text.Utf8.encode tables.toJson.text

/-- What bytes hold. Bytes that spell the tables of no database are those of another file. -/
def Content.ofBytes (content : List UInt8) : Content :=
  match Text.Utf8.decode content with
  | .ok text =>
    match parse (symbolsOfText text) >>= Tables.ofDoc with
    | some tables => .database tables
    | none => .bytes content
  | .error _ => .bytes content

end Disk

end LabelMail
