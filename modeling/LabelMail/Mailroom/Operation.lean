import LabelMail.Mailroom.Delivery
import LabelMail.Mailroom.Listing

/-!
The operations of the mailroom, as its users ask for them. An operation changes the primary store
first; what has changed there is then copied into the replica.
-/
namespace LabelMail.Mailroom

open Request (Compose DraftEdit LabelChange)

variable {σ : Type}

def delete (caller id : String) : Action σ Unit := do
  onPrimary (Primary.deleteOwn id caller)
  refreshQuietly id

def changeLabel (caller id : String) (c : LabelChange) : Action σ Update := do
  let label ← MonadExcept.ofExcept (required "label" c.label)
  let update ← match c.action with
    | .add => addTag id caller label
    | .remove => removeTag id caller label
  if update.changed then refreshQuietly id
  return update

/-- The action followed by a refresh of the message. -/
def thenRefresh (id : String) (a : Action σ α) : Action σ α := do
  let result ← a
  refreshQuietly id
  return result

/-- The action, which returns the messages that it has changed, followed by a refresh of each. -/
def thenRefreshAll (a : Action σ (List Message)) : Action σ Nat := do
  let changed ← a
  refreshAll changed
  return changed.length

def markUnread (caller : String) (ids : List String) : Action σ Nat :=
  if ids.isEmpty then throw (.invalid "ids must not be empty")
  else thenRefreshAll (setReadMany caller ids false)

structure Sweep where
  count : Nat
  /-- How many of the messages the replica had. -/
  removed : Nat
  deriving DecidableEq, Repr

def clearTrash (caller : String) : Action σ Sweep := do
  let ids ← sweepTrash caller
  let removed := match ← attempt (onReplica (Replica.deleteMessages ids)) with
    | .ok n => n
    | .error _ => 0
  ids.forM resolve
  return ⟨ids.length, removed⟩

def makeLabel (owner text : String) : Action σ Label := do
  let l ← enterLabel owner text
  discard (attempt (onReplica (Replica.putLabel l)))
  return l

def createLabel (caller : String) (name : Option String) : Action σ Label := do
  makeLabel caller (← MonadExcept.ofExcept (required "name" name))

/-- Gives a label of the owner another name. -/
def nameLabel (id owner text : String) : Action σ Label := do
  let (l, retagged) ← renameTag id owner text
  discard (attempt (onReplica (Replica.putLabel l)))
  refreshAll retagged
  return l

def renameLabel (caller id : String) (name : Option String) : Action σ Label := do
  nameLabel id caller (← MonadExcept.ofExcept (required "name" name))

def deleteLabel (caller id : String) : Action σ Label := do
  let (l, stripped) ← deleteTag id caller
  discard (attempt (onReplica (Replica.deleteLabel l.id)))
  refreshAll stripped
  return l

/-- Adds an address to the blacklist and says whether it is new. -/
def blacklist (url : Option String) : Action σ Bool := do
  call .add (← MonadExcept.ofExcept (required "url" url))

/-- What the backlog holds of the caller's. -/
def pending (caller : String) : Action σ (List Arrear) := do
  return (← get).backlog.arrears.filter (·.ownerId == caller)

inductive Operation where
  /-- The flag says that the request was withdrawn before. -/
  | send (c : Compose) (withdrawn : Bool)
  | saveDraft (c : Compose)
  | editDraft (id : String) (e : DraftEdit)
  | find (id : String)
  | list (folder : Option String)
  | listSpam
  | delete (id : String)
  | changeLabel (id : String) (c : LabelChange)
  | flipSpam (id : String)
  | flipStar (id : String)
  | flipArchive (id : String)
  | flipTrash (id : String)
  | markRead (id : String) (read : Bool)
  | markAllRead
  | markUnread (ids : List String)
  | clearTrash
  | search (query : String)
  | searchIn (folder query : String)
  | labels
  | findLabel (id : String)
  | createLabel (name : Option String)
  | renameLabel (id : String) (name : Option String)
  | deleteLabel (id : String)
  | blacklist (url : Option String)
  | unblacklist (url : String)
  | isBlacklisted (url : String)
  | synchronize
  | pending
  | retryPending
  deriving DecidableEq, Repr

inductive Outcome where
  | done
  | flag (b : Bool)
  | count (n : Nat)
  | message (m : Message)
  | messages (ms : List Message)
  | delivery (d : Delivery)
  | update (u : Update)
  | sweep (s : Sweep)
  | label (l : Label)
  | labels (ls : List Label)
  | report (r : Report)
  | arrears (as : List Arrear)
  | retried (r : Retried)
  deriving DecidableEq, Repr

def perform (caller : String) : Operation → Action σ Outcome
  | .send c withdrawn => .delivery <$> send caller c withdrawn
  | .saveDraft c => .message <$> saveDraft caller c
  | .editDraft id e => .message <$> editDraft caller id e
  | .find id => .message <$> onPrimary (Primary.ownMessage id caller)
  | .list folder => .messages <$> list caller folder
  | .listSpam => .messages <$> listSpam caller
  | .delete id => (fun _ => .done) <$> delete caller id
  | .changeLabel id c => .update <$> changeLabel caller id c
  | .flipSpam id => .update <$> thenRefresh id (flipSpam id caller)
  | .flipStar id => .message <$> thenRefresh id (flipStar id caller)
  | .flipArchive id => .message <$> thenRefresh id (flipArchive id caller)
  | .flipTrash id => .message <$> thenRefresh id (flipTrash id caller)
  | .markRead id read => .message <$> thenRefresh id (setRead id caller read)
  | .markAllRead => .count <$> thenRefreshAll (setAllRead caller)
  | .markUnread ids => .count <$> markUnread caller ids
  | .clearTrash => .sweep <$> clearTrash caller
  | .search query => .messages <$> search caller query
  | .searchIn folder query => .messages <$> searchIn caller folder query
  | .labels => .labels <$> onPrimary (Primary.labelsOf caller)
  | .findLabel id => .label <$> onPrimary (Primary.ownLabel id caller)
  | .createLabel name => .label <$> createLabel caller name
  | .renameLabel id name => .label <$> renameLabel caller id name
  | .deleteLabel id => .label <$> deleteLabel caller id
  | .blacklist url => .flag <$> blacklist url
  | .unblacklist url => .flag <$> call .remove url
  | .isBlacklisted url => .flag <$> call .lookup url
  | .synchronize => .report <$> synchronize caller
  | .pending => .arrears <$> pending caller
  | .retryPending => .retried <$> retryPending

end LabelMail.Mailroom
