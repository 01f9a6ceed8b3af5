import LabelMail.Replica.Reading
import LabelMail.Replica.Writing

/-!
Replacing the links of a message. The old links go first, and then the new ones are made one after
the other. A failure in between leaves the message with fewer links than it should have, which is
reported with the number of those that were made; doing it again from the start makes up for it.
-/
namespace LabelMail.Replica

/-- The label that stands in for one the replica does not know. Its name is its id. -/
def placeholder (owner id : String) : Label :=
  match Tag.ofName id with
  | .ok t => ⟨id, if t.isReserved then shared else owner, id⟩
  | .error _ => ⟨id, owner, id⟩

/-- The ids among these for which there is no label. -/
def unknownLabels : List String → Query (List String)
  | [] => return []
  | id :: rest => do
    let known := (← findLabel id).isSome
    let unknown ← unknownLabels rest
    return if known then unknown else id :: unknown

def interrupt (e : Failure) (q : Query α) : Query α := fun r =>
  match q r with
  | .ok a r => .ok a r
  | .error _ r => .error e r

/-- Links the message to one label after the other; `linked` of `expected` links are there
already. -/
def addLinks (messageId : String) (expected : Nat) : (linked : Nat) → List String → Query Unit
  | _, [] => return
  | linked, id :: rest => do
    interrupt (.interrupted messageId linked expected) (addLink ⟨messageId, id⟩)
    addLinks messageId expected (linked + 1) rest

/-- Gives the message links to exactly these labels, which are different ones, and counts them. -/
def relink (messageId owner : String) (labelIds : List String) : Query Nat := do
  let unknown ← unknownLabels labelIds
  discard (insertLabels (unknown.map (placeholder owner)))
  discard (clearLinks messageId)
  addLinks messageId labelIds.length 0 labelIds
  return labelIds.length

end LabelMail.Replica
