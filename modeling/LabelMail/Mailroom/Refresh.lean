import LabelMail.Mailroom.Basic
import LabelMail.Primary.Labels

/-!
Bringing the replica up to date. The primary store is written first and the replica follows,
message by message. When the replica fails on the way, the message is entered in the backlog, from
which it is struck out by the next time that succeeds.
-/
namespace LabelMail.Mailroom

variable {σ : Type}

def recordFailure (id owner : String) (labelIds : List String) (e : Failure) : Action σ Unit := do
  let now ← time
  modify fun m => { m with backlog := m.backlog.record now id owner labelIds e }

def resolve (id : String) : Action σ Unit :=
  modify fun m => { m with backlog := (m.backlog.resolve id).1 }

/-- Gives the message in the replica links to exactly these labels and counts them. -/
def replaceLinks (id owner : String) (labelIds : List String) : Action σ Nat := do
  let labelIds := distinct labelIds
  match ← attempt (onReplica (Replica.relink id owner labelIds)) with
  | .ok linked =>
    resolve id
    return linked
  | .error e =>
    recordFailure id owner labelIds e
    throw e

/-- The label under which the replica keeps a custom tag of an owner who has no label for it. -/
def unnamedLabel (owner name : String) : Label :=
  ⟨owner ++ "/" ++ name, owner, name⟩

/-- The label that stands for a tag in the replica. -/
def labelOfTag (owner : String) : Tag → Action σ Label
  | .custom name => do
    return (← onPrimary (Primary.findLabel owner name)).getD (unnamedLabel owner name)
  | t => return ⟨t.name, Replica.shared, t.name⟩

def labelsOfTags (m : Message) : Action σ (List Label) :=
  (sortBy (fun a b => decide (a.name ≤ b.name)) m.tags.toList).mapM (labelOfTag m.ownerId)

inductive Refreshed where
  | copied
  /-- The primary store has no such message, so the replica has none either. -/
  | removed
  deriving DecidableEq, Repr

/-- Copies a message of the primary store into the replica. -/
def copyMessage (m : Message) : Action σ Unit := do
  let labels ← labelsOfTags m
  let ids := labels.map Label.id
  match ← attempt (onReplica (do Replica.putMessage m; Replica.putLabels labels)) with
  | .ok _ => discard (replaceLinks m.id m.ownerId ids)
  | .error e =>
    recordFailure m.id m.ownerId ids e
    throw e

def refresh (id : String) : Action σ Refreshed := do
  match ← onPrimary (Primary.findMessage id) with
  | some m =>
    copyMessage m
    return .copied
  | none =>
    discard (onReplica (Replica.deleteMessage id))
    resolve id
    return .removed

/-- Refreshes what an operation has changed; the operation does not fail if the replica does. -/
def refreshQuietly (id : String) : Action σ Unit :=
  discard (attempt (refresh id))

def refreshAll (ms : List Message) : Action σ Unit :=
  ms.forM fun m => refreshQuietly m.id

structure Report where
  copied : Nat
  removed : Nat
  failed : Nat
  deriving DecidableEq, Repr

def Report.ofResults (results : List (Except Failure Refreshed)) : Report where
  copied := results.countP fun | .ok .copied => true | _ => false
  removed := results.countP fun | .ok .removed => true | _ => false
  failed := results.countP fun | .error _ => true | _ => false

/-- Refreshes all messages of an owner, and those that only the replica still has. -/
def synchronize (owner : String) : Action σ Report := do
  let known := (← onPrimary (Primary.messagesOf owner)).map Message.id
  let kept ← known.mapM fun id => attempt (refresh id)
  let stale := (← onReplica (Replica.idsOf owner)).filter fun id => !known.contains id
  let dropped ← stale.mapM fun id => attempt (refresh id)
  return .ofResults (kept ++ dropped)

/-- Tries once more what an entry of the backlog stands for. -/
def retry (a : Arrear) : Action σ Unit := do
  match ← onPrimary (Primary.findMessage a.messageId) with
  | some _ => discard (refresh a.messageId)
  | none => discard (replaceLinks a.messageId a.ownerId a.labelIds)

structure Retried where
  resolved : Nat
  stillPending : Nat
  deriving DecidableEq, Repr

def retryPending : Action σ Retried := do
  let results ← (← get).backlog.arrears.mapM fun a => attempt (retry a)
  let resolved := results.countP fun | .ok _ => true | .error _ => false
  return ⟨resolved, results.length - resolved⟩

end LabelMail.Mailroom
