import LabelMail.Replica.Basic

/-!
Writes to the replica. Each is announced once it went through as a whole. New labels are entered one
by one, so that a failure leaves the earlier ones in place, and unannounced.
-/
namespace LabelMail.Replica

/-- A statement that makes writes. -/
def statement (writes : Rows → List Write) (f : Rows → α × Rows) : Database.Query Rows Write α :=
  Database.modifyRows writes f

/-- Of a message that is there already only what may change is replaced. -/
def putRow (r : Row) : List Row → List Row
  | [] => [r]
  | old :: rest =>
    if old.id = r.id then
      { old with subject := r.subject, content := r.content, millis := r.millis, read := r.read,
                 starred := r.starred } :: rest
    else old :: putRow r rest

def putMessage (m : Message) : Query Unit := do
  onDatabase <| statement (fun _ => [.putMessage m.id]) fun rows =>
    ((), { rows with messages := putRow (.ofMessage m) rows.messages })
  announce

def hasLabel (rows : Rows) (id : String) : Bool :=
  rows.labels.any (·.id == id)

/-- Enters a label unless its id is taken, and says whether it is new. -/
def insertLabel (l : Label) : Database.Query Rows Write Bool :=
  statement (fun _ => [.putLabel l.id]) fun rows =>
    if hasLabel rows l.id then (false, rows) else (true, { rows with labels := rows.labels ++ [l] })

/-- Enters the labels that are not there yet and counts them. -/
def insertLabels (ls : List Label) : Query Nat := do
  let added ← ls.mapM fun l => onDatabase (insertLabel l)
  let count := added.count true
  if count ≠ 0 then announce
  return count

/-- Of a label that is there already only the name is replaced. -/
def putLabelRow (l : Label) : List Label → List Label
  | [] => [l]
  | old :: rest =>
    if old.id = l.id then { old with name := l.name } :: rest else old :: putLabelRow l rest

def labelStatement (l : Label) : Database.Query Rows Write Unit :=
  statement (fun _ => [.putLabel l.id]) fun rows =>
    ((), { rows with labels := putLabelRow l rows.labels })

def putLabel (l : Label) : Query Unit := do
  onDatabase (labelStatement l)
  announce

def putLabels (ls : List Label) : Query Unit := do
  if ls.isEmpty then return
  onDatabase (Database.transaction (ls.forM labelStatement))
  announce

/-- Removes the links that satisfy `p` and counts them. -/
def unlink (p : Link → Bool) : Database.Query Rows Write Nat :=
  statement (fun rows => (rows.links.filter p).map fun l => .deleteLink l.messageId) fun rows =>
    (rows.links.countP p, { rows with links := rows.links.filter fun l => !p l })

/-- Deletes a label with all its links, which are counted. -/
def deleteLabel (id : String) : Query Nat := do
  let unlinked ← onDatabase <| Database.transaction do
    let unlinked ← unlink (·.labelId == id)
    statement (fun rows => if hasLabel rows id then [.deleteLabel id] else []) fun rows =>
      ((), { rows with labels := rows.labels.filter (·.id != id) })
    return unlinked
  announce
  return unlinked

def addLink (l : Link) : Query Unit := do
  onDatabase <| statement (fun _ => [.insertLink l.labelId]) fun rows =>
    ((), if l ∈ rows.links then rows else { rows with links := rows.links ++ [l] })
  announce

/-- Removes all links of a message and counts them. -/
def clearLinks (messageId : String) : Query Nat := do
  let cleared ← onDatabase (unlink (·.messageId == messageId))
  announce
  return cleared

/-- Deletes a message with its links, and says whether it was there. -/
def deleteRow (id : String) : Database.Query Rows Write Bool := do
  discard (unlink (·.messageId == id))
  statement (fun rows => if rows.messages.any (·.id == id) then [.deleteMessage id] else [])
    fun rows => (rows.messages.any (·.id == id),
      { rows with messages := rows.messages.filter (·.id != id) })

def deleteMessage (id : String) : Query Bool := do
  let deleted ← onDatabase (Database.transaction (deleteRow id))
  announce
  return deleted

/-- Deletes several messages, all or none, and counts those that were there. -/
def deleteMessages (ids : List String) : Query Nat := do
  let deleted ← onDatabase (Database.transaction (ids.mapM deleteRow))
  announce
  return deleted.count true

end LabelMail.Replica
