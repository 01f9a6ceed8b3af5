import LabelMail.Console.Form
import LabelMail.Disk.Opening
import LabelMail.Replica.Reading

/-!
A look into the replica: the newest message whose subject or sender's name matches what is asked
for, with its links and its content. Percent signs and underscores in the question are wildcards.
-/
namespace LabelMail.Console.Inspection

open Text Disk

def matchesRow (pattern : String) (r : Row) : Bool :=
  Wildcard.matchesText none pattern r.senderName || Wildcard.matchesText none pattern r.subject

/-- The newest of the rows, and of those of one time the last. -/
def newest : List Row → Option Row
  | [] => none
  | r :: rest =>
    match newest rest with
    | some s => if s.millis < r.millis then some r else some s
    | none => some r

def rule : String := String.ofList (List.replicate 80 '-')

/-- A link with the name of its label, if the replica has it. -/
def linkLine (rows : Replica.Rows) (l : Link) : String :=
  match rows.labels.find? (·.id == l.labelId) with
  | some label => s!"{l.labelId} ({label.name})"
  | none => s!"{l.labelId} (missing label row)"

def linkLines (rows : Replica.Rows) (id : String) : List String :=
  let links := sortBy (fun a b => decide (a.labelId ≤ b.labelId))
    (rows.links.filter (·.messageId == id))
  if links.isEmpty then ["(none)"] else links.map (linkLine rows)

def lines (rows : Replica.Rows) (r : Row) : List String :=
  ["Found Message:", "ID: " ++ r.id, "Owner: " ++ r.ownerId, "From: " ++ r.senderName,
    "Subject: " ++ r.subject, "Date: " ++ (Calendar.Instant.ofMillis r.millis).display, rule,
    "LABEL LINKS:"]
    ++ linkLines rows r.id ++ [rule, "CONTENT:", r.content]

/-- The lines of an answer. A pattern that is too long fails as soon as it is tried on a row. -/
def answer (rows : Replica.Rows) (query : String) : Except Failure (List String) :=
  let pattern := "%" ++ query ++ "%"
  if Wildcard.tooLong pattern && !rows.messages.isEmpty then .error (.database "")
  else match newest (rows.messages.filter (matchesRow pattern)) with
    | some r => .ok (lines rows r)
    | none => .ok [s!"No messages found matching '{query}'"]

/-- Looks into the replica that the settings name. -/
def inspect (query : String) : Disk.Action (List String) := do
  let settings ← MonadExcept.ofExcept ((← get).settings defaultConfig)
  let opened ← openAt (← MonadExcept.ofExcept (Location.parse settings.replicaUrl))
  match opened.tables.replica with
  | some rows => MonadExcept.ofExcept (answer rows query)
  | none => throw Location.refused

end LabelMail.Console.Inspection
