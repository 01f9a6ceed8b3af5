import LabelMail.Mailroom.Basic
import LabelMail.Primary.Labels

/-!
Changing the tags of messages in the primary store. A custom tag is spelled like the owner's label
of that name in any letter case, and a label is made when a tag is first used. Tagging a message
as spam lists its addresses, and taking the tag away removes them from the blacklist.
-/
namespace LabelMail.Mailroom

variable {σ : Type}

/-- The name of the owner's label of this name, or the name itself. -/
def spelling (owner name : String) : Action σ String := do
  return ((← onPrimary (Primary.findLabel owner name)).map Label.name).getD name

/-- The tag that a text stands for in the mailbox of `owner`. -/
def tagOfText (owner text : String) : Action σ Tag := do
  match ← MonadExcept.ofExcept (Tag.ofName text) with
  | .custom name => .custom <$> spelling owner name
  | t => return t

/-- Makes a label for the owner. -/
def enterLabel (owner text : String) : Action σ Label := do
  let name ← MonadExcept.ofExcept (Primary.customName text)
  if (← onPrimary (Primary.findLabel owner name)).isSome then throw (Primary.labelExists name)
  let l : Label := ⟨← drawId, owner, name⟩
  onPrimary (Primary.insertLabel l)
  return l

/-- The owner's label of that name, which is made if there is none. -/
def ensureLabel (owner name : String) : Action σ Label := do
  if let some l ← onPrimary (Primary.findLabel owner name) then return l
  match ← attempt (enterLabel owner name) with
  | .ok l => return l
  | .error (.conflict _) =>
    match ← onPrimary (Primary.findLabel owner name) with
    | some l => return l
    | none => throw (.notFound s!"label {name}")
  | .error e => throw e

structure Update where
  message : Message
  changed : Bool
  effects : List Screening.Effect
  deriving DecidableEq, Repr

/-- Stores the message with other tags, from which it takes its flags. -/
def retag (m : Message) (tags : TagSet) : Action σ Message := do
  let m := (m.withTags tags).withFlagsOfTags
  onPrimary (Primary.saveTags m)
  return m

def retagSpam (m : Message) (t : Screening.Toggled) : Action σ Update := do
  return ⟨← retag m t.tags, true, t.effects⟩

def condemn (m : Message) : Action σ Update := do
  retagSpam m (← screening fun ask rules => Screening.condemn ask rules m)

def acquit (m : Message) : Action σ Update := do
  retagSpam m (← screening fun ask rules room =>
    let (t, room) := Screening.acquit ask rules m room
    (.ok t, room))

def addTag (id owner text : String) : Action σ Update := do
  let t ← tagOfText owner text
  let m ← onPrimary (Primary.ownMessage id owner)
  if t = .spam then
    if m.tags.isSpam then return ⟨m, false, []⟩ else condemn m
  else
    let (tags, changed) ← MonadExcept.ofExcept (m.tags.add t)
    if changed then
      if let .custom name := t then discard (ensureLabel owner name)
      return ⟨← retag m tags, true, []⟩
    else return ⟨m, false, []⟩

def removeTag (id owner text : String) : Action σ Update := do
  let t ← tagOfText owner text
  let m ← onPrimary (Primary.ownMessage id owner)
  if t = .spam then
    if m.tags.isSpam then acquit m else return ⟨m, false, []⟩
  else
    let (tags, changed) := m.tags.remove t
    if changed then return ⟨← retag m tags, true, []⟩ else return ⟨m, false, []⟩

def flipSpam (id owner : String) : Action σ Update := do
  let m ← onPrimary (Primary.ownMessage id owner)
  retagSpam m (← screening fun ask rules => Screening.flipSpam ask rules m)

def flipStar (id owner : String) : Action σ Message :=
  onPrimary do
    let m := (← Primary.ownMessage id owner).flipStar
    Primary.saveTags m
    return m

def flipArchive (id owner : String) : Action σ Message :=
  onPrimary do
    let m ← Primary.ownMessage id owner
    let (tags, _) ← MonadExcept.ofExcept m.tags.flipArchive
    Primary.saveTags (m.withTags tags)
    return m.withTags tags

def flipTrash (id owner : String) : Action σ Message :=
  onPrimary do
    let m ← Primary.ownMessage id owner
    let tags := m.tags.flipTrash.1
    Primary.saveTags (m.withTags tags)
    return m.withTags tags

def setRead (id owner : String) (read : Bool) : Action σ Message :=
  onPrimary do
    let (m, changed) := (← Primary.ownMessage id owner).setRead read
    if changed then Primary.saveTags m
    return m

/-- The message as it is to be stored, unless it is unknown or as it should be already. -/
def readChange (owner : String) (read : Bool) (id : String) : Action σ (Option Message) := do
  match ← attempt (onPrimary (Primary.ownMessage id owner)) with
  | .ok m =>
    let (m, changed) := m.setRead read
    return if changed then some m else none
  | .error (.notFound _) => return none
  | .error e => throw e

/-- Marks messages as read or unread and returns those that changed, as often as they are named. -/
def setReadMany (owner : String) (ids : List String) (read : Bool) : Action σ (List Message) := do
  let changed := (← ids.mapM (readChange owner read)).reduceOption
  onPrimary (Primary.saveAllTags changed)
  return changed

def setAllRead (owner : String) : Action σ (List Message) := do
  setReadMany owner ((← onPrimary (Primary.messagesOf owner)).map Message.id) true

/-- Renames a label of the owner and its tag on the owner's messages. -/
def renameTag (id owner text : String) : Action σ (Label × List Message) :=
  onPrimary do
    discard (Primary.idsOf owner)
    Primary.renameLabel id owner text

/-- Deletes a label of the owner and its tag on the owner's messages. -/
def deleteTag (id owner : String) : Action σ (Label × List Message) :=
  onPrimary do
    discard (Primary.idsOf owner)
    Primary.deleteLabel id owner

/-- Deletes what is in the owner's trash and says which messages it was. -/
def sweepTrash (owner : String) : Action σ (List String) :=
  onPrimary do
    Primary.deleteTrashed owner (← Primary.trashedIds owner)

end LabelMail.Mailroom
