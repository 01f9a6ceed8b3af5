import LabelMail.Mailroom.Tagging

/-!
What an owner sees of the mailbox: single messages, the listings of folders, and searches.
-/
namespace LabelMail.Mailroom

variable {σ : Type}

/-- The folder that a text names; one of a custom tag is spelled like the owner's label. -/
def folderOfText (owner text : String) : Action σ Folder := do
  match ← MonadExcept.ofExcept (Folder.ofName text) with
  | .custom name => .custom <$> spelling owner name
  | f => return f

/-- The messages in a folder, which is the inbox if no name is given. -/
def list (caller : String) (folder : Option String) : Action σ (List Message) := do
  let name := ((folder.map Text.trim).filter fun n => !n.isEmpty).getD Folder.inbox.name
  onPrimary (Primary.messagesIn caller (← folderOfText caller name))

def listSpam (caller : String) : Action σ (List Message) :=
  onPrimary (Primary.messagesIn caller .spam)

/-- What is searched for; it must not be blank. -/
def wanted (query : String) : Except Failure String :=
  let query := Text.trim query
  if query.isEmpty then .error (.invalid "query is required") else .ok query

def search (caller query : String) : Action σ (List Message) := do
  onPrimary (Primary.search caller (← MonadExcept.ofExcept (wanted query)) none)

/-- The search in one folder. -/
def searchIn (caller folder query : String) : Action σ (List Message) := do
  let query ← MonadExcept.ofExcept (wanted query)
  onPrimary (Primary.search caller query (some (← folderOfText caller folder)))

end LabelMail.Mailroom
