import LabelMail.Primary.Messages
import LabelMail.Text.Collation

/-!
Labels in the primary store. A label has the name of a custom tag. Renaming a label replaces its tag
on all messages of its owner, and deleting it removes the tag from them, in one transaction with the
change of the label itself.
-/
namespace LabelMail.Primary

open Database Text

def labelsOf (owner : String) : Query (List Label) :=
  select fun rows =>
    sortBy (fun a b => nameLe a.name b.name) (rows.labels.filter (·.ownerId == owner))

def findLabel (owner name : String) : Query (Option Label) :=
  select fun rows => rows.labels.find? fun l => l.ownerId == owner && sameName l.name name

def ownLabel (id owner : String) : Query Label := do
  match ← select fun rows => rows.labels.find? fun l => l.id == id && l.ownerId == owner with
  | some l => return l
  | none => throw (.notFound s!"label {id}")

def labelExists (name : String) : Failure :=
  .conflict s!"label `{name}` already exists"

/-- The name of a custom tag; the names of reserved tags are refused. -/
def customName (text : String) : Except Failure String :=
  match Tag.ofName text with
  | .ok (.custom name) => .ok name
  | .ok t => .error (.invalid s!"`{t.name}` is a reserved label name")
  | .error e => .error e

def clashes (a b : Label) : Bool :=
  a.ownerId == b.ownerId && sameName a.name b.name

def insertLabel (l : Label) : Query Unit :=
  statement (labelExists l.name) (fun _ => [.insertLabel l.name]) fun rows =>
    if rows.labels.any fun k => k.id == l.id || clashes k l then .error .duplicate
    else .ok ((), { rows with labels := rows.labels ++ [l] })

def renameRow (id name : String) (labels : List Label) : List Label :=
  labels.map fun l => if l.id = id then { l with name := name } else l

def updateLabel (id name : String) : Query Unit :=
  statement (labelExists name)
    (fun rows => if rows.labels.any (·.id == id) then [.renameLabel name] else [])
    fun rows =>
      let renamed := renameRow id name rows.labels
      let repeated := renamed.any fun l =>
        l.id == id && renamed.any fun k => k.id != id && clashes k l
      if repeated then .error .duplicate else .ok ((), { rows with labels := renamed })

/-- The messages among these that carry the tag, with `f` applied to the tags that remain. -/
def withoutTag (t : Tag) (f : TagSet → TagSet) (ms : List Message) : List Message :=
  (ms.filter fun m => decide (t ∈ m.tags)).map fun m => m.withTags (f (m.tags.erase t))

/-- Renames a label and returns it with the messages that carry its new tag instead of the old. -/
def renameLabel (id owner text : String) : Query (Label × List Message) := do
  let name ← MonadExcept.ofExcept (customName text)
  let l ← ownLabel id owner
  if let some other ← findLabel owner name then
    if other.id ≠ l.id then throw (labelExists name)
  let retagged := withoutTag (.custom l.name) (·.insert (.custom name)) (← messagesOf owner)
  transaction do
    updateLabel id name
    retagged.forM saveTags
  return ({ l with name := name }, retagged)

/-- Deletes a label and returns it with the messages that lost its tag. -/
def deleteLabel (id owner : String) : Query (Label × List Message) := do
  let l ← ownLabel id owner
  let stripped := withoutTag (.custom l.name) (fun s => s) (← messagesOf owner)
  transaction do
    stripped.forM saveTags
    modifyRows
      (fun rows => (rows.labels.filter (·.id == id)).map fun l => .deleteLabel l.name)
      fun rows => ((), { rows with labels := rows.labels.filter (·.id != id) })
  return (l, stripped)

end LabelMail.Primary
