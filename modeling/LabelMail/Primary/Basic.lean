import LabelMail.Database
import LabelMail.Record
import LabelMail.Row

/-!
The rows of the primary store. A message is kept with its tags as text and its time in milliseconds;
the ids of messages and of labels are unique, and so are the names of one owner's labels. The table
of the blacklist may be missing.
-/
namespace LabelMail.Primary

open Calendar (Instant)

structure MessageRow extends Row where
  tags : String
  deriving DecidableEq, Repr

def MessageRow.ofMessage (m : Message) : MessageRow :=
  { Row.ofMessage m with tags := m.tags.encode }

/-- The message of a row, unless its tags cannot be read. -/
def MessageRow.message (r : MessageRow) : Except Failure Message :=
  (TagSet.decode r.tags).map r.toRow.message

structure ListingRow where
  url : String
  created : Int
  updated : Int
  deriving DecidableEq, Repr

def ListingRow.listing (r : ListingRow) : Listing :=
  ⟨r.url, Instant.ofMillis r.created, Instant.ofMillis r.updated⟩

structure Rows where
  users : List User
  messages : List MessageRow
  labels : List Label
  blacklist : Option (List ListingRow)
  deriving DecidableEq, Repr

def Rows.empty : Rows := ⟨[], [], [], some []⟩

/-- A write to one row, under the key by which it is known. -/
inductive Write where
  | putUser (id : String)
  | insertMessage (ownerId : String)
  | updateMessage (id : String)
  | deleteMessage (id : String)
  | insertLabel (name : String)
  | renameLabel (name : String)
  | deleteLabel (name : String)
  | insertListing (url : String)
  | deleteListing (url : String)
  deriving DecidableEq, Repr

abbrev Store := Database Rows Write

abbrev Query (α : Type) := Database.Query Rows Write α

open Database

/-- Lays out the tables that are missing. -/
def prepare : Query Unit :=
  modifyRows (fun _ => []) fun rows =>
    ((), { rows with blacklist := some (rows.blacklist.getD []) })

def putUserRow (u : User) : List User → List User
  | [] => [u]
  | v :: r => if v.id = u.id then u :: r else v :: putUserRow u r

/-- Enters a user or replaces what is known about one. -/
def putUser (u : User) : Query Unit :=
  modifyRows (fun _ => [.putUser u.id]) fun rows =>
    ((), { rows with users := putUserRow u rows.users })

def findUser (id : String) : Query (Option User) :=
  select fun rows => rows.users.find? (·.id == id)

end LabelMail.Primary
