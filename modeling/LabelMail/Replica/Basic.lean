import LabelMail.Database
import LabelMail.Row

/-!
The replica, a second database from which the mailbox is shown when the primary store is out of
reach. It keeps messages without their tags, labels with a row for each tag in use, and links
between the two. A version goes up with every write that went through, so that who watches the
replica can tell when to read again.
-/
namespace LabelMail

namespace Replica

structure Rows where
  messages : List Row
  labels : List Label
  links : List Link
  deriving DecidableEq, Repr

def Rows.empty : Rows := ⟨[], [], []⟩

/-- A write to one row, under the key by which it is known. -/
inductive Write where
  | putMessage (id : String)
  | deleteMessage (id : String)
  | putLabel (id : String)
  | deleteLabel (id : String)
  | insertLink (labelId : String)
  | deleteLink (messageId : String)
  deriving DecidableEq, Repr

/-- The owner of the labels that stand for reserved tags, which all mailboxes share. -/
def shared : String := ""

end Replica

structure Replica where
  database : Database Replica.Rows Replica.Write
  version : Nat

namespace Replica

abbrev Query (α : Type) := EStateM Failure Replica α

def onDatabase (q : Database.Query Rows Write α) : Query α := fun r =>
  match q r.database with
  | .ok a db => .ok a { r with database := db }
  | .error e db => .error e { r with database := db }

def select (f : Rows → α) : Query α :=
  onDatabase (Database.select f)

/-- Tells those who watch that something was written. -/
def announce : Query Unit :=
  modify fun r => { r with version := r.version + 1 }

/-- Lays out the tables that are missing; none of them ever is. -/
def prepare : Query Unit :=
  onDatabase (Database.modifyRows (fun _ => []) fun rows => ((), rows))

end Replica

end LabelMail
