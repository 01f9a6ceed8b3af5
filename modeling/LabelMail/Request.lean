import LabelMail.Json.Parser
import LabelMail.Json.Shape

/-!
The bodies of requests. Most fields may be missing, which reads as none; what a request really needs
is for the operation to say.
-/
namespace LabelMail.Request

open Json

structure Compose where
  recipient : Option String
  subject : Option String
  content : Option String
  deriving DecidableEq, Repr

structure DraftEdit where
  subject : Option String
  content : Option String
  deriving DecidableEq, Repr

inductive LabelAction where
  | add
  | remove
  deriving DecidableEq, Repr

structure LabelChange where
  label : Option String
  action : LabelAction
  deriving DecidableEq, Repr

def optionalText : Option Doc → Option (Option String) :=
  withDefault none (asOptional asText)

def asCompose (j : Doc) : Option Compose := do
  match ← asRecord [["to"], ["subject"], ["content"]] j with
  | [recipient, subject, content] =>
    return ⟨← optionalText recipient, ← optionalText subject, ← optionalText content⟩
  | _ => none

def asDraftEdit (j : Doc) : Option DraftEdit := do
  match ← asRecord [["subject"], ["content"]] j with
  | [subject, content] => return ⟨← optionalText subject, ← optionalText content⟩
  | _ => none

def asLabelAction : Doc → Option LabelAction :=
  asChoice [("add", .add), ("remove", .remove)]

def asLabelChange (j : Doc) : Option LabelChange := do
  match ← asRecord [["label"], ["action"]] j with
  | [label, action] => return ⟨← optionalText label, ← withDefault .add asLabelAction action⟩
  | _ => none

/-- The ids of the messages to change; the field has to be there. -/
def asIds (j : Doc) : Option (List String) := do
  match ← asRecord [["ids"]] j with
  | [ids] => required (asList asText) ids
  | _ => none

/-- Whether to mark as read, which is what a body without the field asks for. -/
def asRead (j : Doc) : Option Bool := do
  match ← asRecord [["read"]] j with
  | [read] => withDefault true asBool read
  | _ => none

def asLabelName (j : Doc) : Option (Option String) := do
  match ← asRecord [["name"]] j with
  | [name] => optionalText name
  | _ => none

/-- The address to blacklist, under either of two names. -/
def asBlacklisted (j : Doc) : Option (Option String) := do
  match ← asRecord [["url", "id"]] j with
  | [url] => optionalText url
  | _ => none

end LabelMail.Request
