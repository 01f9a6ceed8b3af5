import LabelMail.Mailroom.Operation

/-!
Errands, which ask for the upkeep of the replica directly. Some are what an operation does once it
has checked its request; a refresh and a replacement of links are asked for on their own as well,
for any ids whatever.
-/
namespace LabelMail.Mailroom

variable {σ : Type}

inductive Errand where
  | replaceLinks (id owner : String) (labelIds : List String)
  | refresh (id : String)
  | refreshQuietly (id : String)
  | refreshAll (ms : List Message)
  | retryPending
  | synchronize (owner : String)
  | markAllRead (owner : String)
  | markUnread (owner : String) (ids : List String)
  | clearTrash (owner : String)
  | makeLabel (owner text : String)
  | nameLabel (id owner text : String)
  | deleteLabel (id owner : String)
  deriving DecidableEq, Repr

/-- Does an errand, whose result is left aside. -/
def carry : Errand → Action σ Unit
  | .replaceLinks id owner labelIds => discard (replaceLinks id owner labelIds)
  | .refresh id => discard (refresh id)
  | .refreshQuietly id => refreshQuietly id
  | .refreshAll ms => refreshAll ms
  | .retryPending => discard retryPending
  | .synchronize owner => discard (synchronize owner)
  | .markAllRead owner => discard (thenRefreshAll (setAllRead owner))
  | .markUnread owner ids => discard (thenRefreshAll (setReadMany owner ids false))
  | .clearTrash owner => discard (clearTrash owner)
  | .makeLabel owner text => discard (makeLabel owner text)
  | .nameLabel id owner text => discard (nameLabel id owner text)
  | .deleteLabel id owner => discard (deleteLabel owner id)

end LabelMail.Mailroom
