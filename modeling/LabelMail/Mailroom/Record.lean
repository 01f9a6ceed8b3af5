import LabelMail.Mailroom.Operation

/-!
The results of operations as JSON.
-/
namespace LabelMail

open Json

def Screening.Effect.toJson : Screening.Effect → Json String
  | .added url => .object [("result", .string "added"), ("url", .string url)]
  | .alreadyPresent url => .object [("result", .string "alreadyPresent"), ("url", .string url)]
  | .removed url => .object [("result", .string "removed"), ("url", .string url)]
  | .notFound url => .object [("result", .string "notFound"), ("url", .string url)]
  | .failed url error =>
    .object [("result", .string "failed"), ("url", .string url), ("error", .string error)]

def Arrear.toJson (a : Arrear) : Json String :=
  .object [("messageId", .string a.messageId), ("ownerId", .string a.ownerId),
    ("labelIds", .strings a.labelIds), ("attempts", .nat a.attempts),
    ("lastError", .string a.lastError), ("firstFailedAt", .string a.firstFailed.text)]

namespace Mailroom

/-- What happened to the blacklist is told only if something did. -/
def Update.toJson (u : Update) : Json String :=
  .object ([("message", u.message.toJson), ("changed", .bool u.changed)] ++
    if u.effects.isEmpty then []
    else [("blacklist", .array (u.effects.map Screening.Effect.toJson))])

def Delivery.toJson (d : Delivery) : Json String :=
  .object [("senderCopy", d.senderCopy.toJson), ("recipientCopy", d.recipientCopy.toJson)]

def Sweep.toJson (s : Sweep) : Json String :=
  .object [("count", .nat s.count), ("replicaRemoved", .nat s.removed)]

def Report.toJson (r : Report) : Json String :=
  .object [("mirrored", .nat r.copied), ("removed", .nat r.removed), ("failed", .nat r.failed)]

def Retried.toJson (r : Retried) : Json String :=
  .object [("resolved", .nat r.resolved), ("stillPending", .nat r.stillPending)]

def Outcome.toJson : Outcome → Json String
  | .done => .null
  | .flag b => .bool b
  | .count n => .nat n
  | .message m => m.toJson
  | .messages ms => .array (ms.map Message.toJson)
  | .delivery d => d.toJson
  | .update u => u.toJson
  | .sweep s => s.toJson
  | .label l => l.toJson
  | .labels ls => .array (ls.map Label.toJson)
  | .report r => r.toJson
  | .arrears as => .array (as.map Arrear.toJson)
  | .retried r => r.toJson

end Mailroom

end LabelMail
